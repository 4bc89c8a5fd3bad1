/-
Splitting heads keeps the meaning of a schema:

* `Vocabulary.satisfies_split_iff`: a dependency is satisfied iff all its parts are;
* `Schema.splitHeads_eq_ok`: a schema that has been built can be split, and only its
  dependencies change;
* `Schema.models_splitHeads`: the schema with all heads split has the same models.

The parts choose values for their existential variables independently of each other.
Their choices make up one for the whole, because no existential variable stands in two
parts.
-/
import DependencyTheory.Proofs.HeadSplit.Groups
import DependencyTheory.Proofs.Schema.Build
import DependencyTheory.Proofs.Semantics.Facts

namespace DependencyTheory

universe u

/-! ### One dependency -/

namespace Vocabulary

variable {U : Type u} {K : Vocabulary U} {D : Set (Fact U)} {t : Tgd} {v : String → U}

/-- Values that make the whole head true make the head of each part true. -/
lemma HoldsHead.part (h : K.HoldsHead D v t) {part : Tgd} (hpart : part ∈ t.split) :
    K.HoldsHead D v part := by
  obtain ⟨w, hw, hhead⟩ := h
  refine ⟨w, fun x hx => hw x ?_, fun a ha => hhead a ?_⟩
  · rwa [← Tgd.universal_of_mem_split hpart]
  · exact Tgd.exists_part_iff.mp ⟨part, hpart, ha⟩

/-- **Choices for all parts are one choice** for the whole: each head atom takes the
choice of a part that it is in. -/
lemma holdsHead_of_parts (h : ∀ part ∈ t.split, K.HoldsHead D v part) : K.HoldsHead D v t := by
  have : Nonempty U := ⟨K.constant ""⟩
  have : Nonempty Tgd := ⟨t⟩
  choose! w hw hhead using h
  choose! part hpart hmem using fun a ha => (Tgd.exists_part_iff (t := t) (a := a)).mpr ha
  refine holdsHead_of_atoms (fun a => w (part a)) (fun a ha x hx => ?_) (fun a ha => ?_)
    fun a ha b hb x hx hxa hxb => ?_
  · exact hw _ (hpart a ha) x (Tgd.universal_of_mem_split (hpart a ha) ▸ hx)
  · exact hhead _ (hpart a ha) a (hmem a ha)
  · rw [Tgd.eq_of_shared (hpart a ha) (hpart b hb) hx (hmem a ha) (hmem b hb) hxa hxb]

/-- **A dependency is satisfied iff all its parts are.** -/
theorem satisfies_split_iff :
    K.SatisfiesTgd D t ↔ ∀ part ∈ t.split, K.SatisfiesTgd D part := by
  constructor
  · intro h part hpart v hv
    rw [(Tgd.mem_split.mp hpart).1] at hv
    exact (h v hv).part hpart
  · intro h v hv
    refine holdsHead_of_parts fun part hpart => h part hpart v ?_
    rwa [(Tgd.mem_split.mp hpart).1]

/-- The same for a dependency of either kind. -/
lemma satisfies_parts_iff {d : Dependency} :
    K.Satisfies D d ↔ ∀ part ∈ d.split, K.Satisfies D part := by
  cases d with
  | tgd t => simpa [Dependency.split, Satisfies] using satisfies_split_iff
  | egd e => simp [Dependency.split]

end Vocabulary

/-! ### The whole schema -/

namespace Schema

/-- The parts of a dependency refer to the predicates of the whole. -/
lemma mem_predicates_of_split {d part : Dependency} (hpart : part ∈ d.split) {h : Handle}
    (hh : h ∈ part.predicates) : h ∈ d.predicates := by
  cases d with
  | egd e => rwa [← List.mem_singleton.mp hpart]
  | tgd t =>
      obtain ⟨t', ht', rfl⟩ := List.mem_map.mp hpart
      rcases List.mem_append.mp hh with hh | hh
      · rw [(Tgd.mem_split.mp ht').1] at hh
        exact List.mem_append_left _ hh
      · obtain ⟨a, ha, rfl⟩ := List.mem_map.mp hh
        exact List.mem_append_right _
          (List.mem_map_of_mem (Tgd.exists_part_iff.mp ⟨t', ht', ha⟩))

/-- **A built schema can be split**, and keeps its predicates. -/
lemma splitHeads_eq_ok {b : Builder} {s : Schema} (hb : b.build = .ok s) :
    s.splitHeads = .ok ⟨s.predicates, s.dependencies.flatMap Dependency.split⟩ := by
  refine withDependencies_eq_ok hb fun part hpart h hh => ?_
  obtain ⟨d, hd, hpart⟩ := List.mem_flatMap.mp hpart
  exact owns_of_build hb d hd h (mem_predicates_of_split hpart hh)

/-- Splitting leaves the dependencies that generate equalities, in their order. -/
lemma egds_split (s : Schema) :
    egds ⟨s.predicates, s.dependencies.flatMap Dependency.split⟩ = s.egds := by
  rw [egds, egds]
  induction s.dependencies with
  | nil => rfl
  | cons d ds ih =>
      rw [List.flatMap_cons, List.filterMap_append, ih]
      cases d <;> simp [Dependency.split, Dependency.egd?, List.filterMap_cons, Function.comp_def]

/-- The other dependencies are the parts of those that there were, in their order. -/
lemma tgds_split (s : Schema) :
    tgds ⟨s.predicates, s.dependencies.flatMap Dependency.split⟩ = s.tgds.flatMap Tgd.split := by
  rw [tgds, tgds]
  induction s.dependencies with
  | nil => rfl
  | cons d ds ih =>
      rw [List.flatMap_cons, List.filterMap_append, ih]
      cases d <;> simp [Dependency.split, Dependency.tgd?, List.filterMap_cons, Function.comp_def]

/-- **Splitting heads keeps the meaning.** A schema that has been built can be split.
The result has the same predicates and the same dependencies that generate equalities.
Whatever predicates and built-in operators mean, a dependency is satisfied iff all its
parts are, and the two schemas have the same models. -/
theorem models_splitHeads {b : Builder} {s : Schema} (hb : b.build = .ok s) :
    ∃ s', s.splitHeads = .ok s' ∧ s'.predicates = s.predicates ∧ s'.egds = s.egds ∧
      s'.tgds = s.tgds.flatMap Tgd.split ∧
      ∀ (U : Type u) (K : Vocabulary U) (D : Set (Fact U)),
        (∀ t ∈ s.tgds, K.SatisfiesTgd D t ↔ ∀ part ∈ t.split, K.SatisfiesTgd D part) ∧
          (K.Models D s ↔ K.Models D s') := by
  refine ⟨_, splitHeads_eq_ok hb, rfl, egds_split s, tgds_split s, fun U K D => ?_⟩
  refine ⟨fun t _ => Vocabulary.satisfies_split_iff, fun h => ⟨fun part hpart => ?_, h.rules⟩,
    fun h => ⟨fun d hd => ?_, h.rules⟩⟩
  · obtain ⟨d, hd, hpart⟩ := List.mem_flatMap.mp hpart
    exact Vocabulary.satisfies_parts_iff.mp (h.dependencies d hd) part hpart
  · refine Vocabulary.satisfies_parts_iff.mpr fun part hpart => h.dependencies part ?_
    exact List.mem_flatMap.mpr ⟨d, hd, hpart⟩

/-- A head of five atoms. Three of them are linked in a row, by two existential
variables, and the derived predicate of the other two stands among them. -/
def linkedRow : Schema :=
  let p (x : String) : Atom := .ofVars 0 [x]
  let q (x y : String) : Atom := .ofVars 1 [x, y]
  let r (x y : String) : Atom := .ofVars 2 [x, y]
  let d (x : String) : Atom := .ofVars 3 [x]
  ⟨[⟨0, "P", 1, []⟩, ⟨0, "Q", 2, []⟩, ⟨0, "R", 2, []⟩,
      ⟨0, "D", 1, [⟨[.var "x"], ⟨[.ordinary true (r "x" "x")], by simp⟩⟩]⟩],
    [.tgd ⟨⟨[.ordinary true (p "x")], by simp⟩,
        [q "x" "y", d "x", d "z", r "y" "z", d "w"], by simp⟩,
      .egd ⟨⟨[.ordinary true (q "i" "x"), .ordinary true (q "i" "y")], by simp⟩,
        .var "x", .var "y"⟩]⟩

/-- The linked row becomes a part of three atoms and two parts of one. -/
theorem models_splitHeads_linkedRow :
    (∃ b : Builder, b.build = .ok linkedRow) ∧
      ∃ s', linkedRow.splitHeads = .ok s' ∧ s'.predicates = linkedRow.predicates ∧
        s'.egds = linkedRow.egds ∧ s'.tgds.map (fun t => t.head.length) = [3, 1, 1] ∧
        ∀ (U : Type u) (K : Vocabulary U) (D : Set (Fact U)),
          K.Models D linkedRow ↔ K.Models D s' := by
  have hbuild : (⟨0, linkedRow.predicates, linkedRow.dependencies⟩ : Builder).build =
      .ok linkedRow := rfl
  obtain ⟨s', hs', hpredicates, hegds, htgds, hmodels⟩ := models_splitHeads.{u} hbuild
  refine ⟨⟨_, hbuild⟩, s', hs', hpredicates, hegds, ?_, fun U K D => (hmodels U K D).2⟩
  rw [htgds]
  decide

end Schema

end DependencyTheory
