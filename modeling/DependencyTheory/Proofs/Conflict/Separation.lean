/-
Reasoning about a non-conflicting schema without its keys:

* `Tgd.InventsKey`: whether firing makes up a value for some key position of an atom;
* `Schema.KeysUntied`: whether an atom with a key for which no value is made up shares no
  existential variable with other atoms of its head;
* `Chase.Unrivalled`: the given facts, and those that are fired with a value made up in
  every key, which keep all keys together;
* `Chase.Selection`: a choice of fired facts that keeps all keys, and in which whatever
  it leaves out has a rival;
* `Vocabulary.certain_iff_certain_tgds`: under these conditions the keys make no fact
  certain that is not certain without them.

A selection is a model of the whole schema. Where firing adds an atom that the selection
leaves out, the rival is a value of the same atom, and takes its place. The other atoms
of the head must not notice, so the atom may share no existential variable with them.
This is more than the check of a schema asks for, which looks for shared variables only
where a predicate with a key stands in a head twice.
-/
import DependencyTheory.HeadSplit
import DependencyTheory.Proofs.Conflict.Heads
import DependencyTheory.Proofs.FunctionalDependency.Extraction
import DependencyTheory.Proofs.FunctionalDependency.Maximal
import DependencyTheory.Proofs.HeadSplit.Groups
import DependencyTheory.Proofs.Semantics.Chase

namespace DependencyTheory

universe u

variable {U : Type u} {K : Vocabulary U} {ts : List Tgd} {fds : List FunctionalDependency}
  {D : Set (Fact U)} {M : Set (Fact (Invented U))}

/-! ### Atoms that may be exchanged -/

namespace Tgd

/-- Whether firing makes up a value for some key position of an atom. -/
def InventsKey (t : Tgd) (key : IndexSet) (a : Atom) : Prop :=
  ∃ x ∈ t.existential, ∃ i ∈ key, a.terms[i]? = some (.var x)

/-- Whether no existential variable ties an atom to another one of the head. -/
def Untied (t : Tgd) (a : Atom) : Prop :=
  ∀ b ∈ t.head, t.sharesExistential a b = true → b = a

end Tgd

/-- Whether head atoms with a key are untied, unless firing makes up a value for the
key. -/
def Schema.KeysUntied (s : Schema) : Prop :=
  ∀ t ∈ s.tgds, ∀ fd ∈ (Extraction.ofEgds s.egds).dependencies, ∀ a ∈ t.head,
    a.predicate = fd.predicate → t.InventsKey fd.key a ∨ t.Untied a

namespace Chase

/-! ### Facts without rivals -/

/-- The given facts, and those that fired dependencies add with a value made up in every
key. -/
inductive Unrivalled (K : Vocabulary U) (ts : List Tgd) (fds : List FunctionalDependency)
    (D : Set (Fact U)) : Set (Fact (Invented U))
  | given {f : Fact U} : f ∈ D → Unrivalled K ts fds D (f.map .known)
  | fired {t : Tgd} {v : String → Invented U} {a : Atom} : t ∈ ts →
      (∀ b, .ordinary true b ∈ t.body.literals → b.toFact (K.invented.value v) ∈ Chase K ts D) →
      a ∈ t.head → (∀ fd ∈ fds, a.predicate = fd.predicate → t.InventsKey fd.key a) →
      Unrivalled K ts fds D (a.toFact (K.invented.value (t.invent v)))

lemma unrivalled_subset : Unrivalled K ts fds D ⊆ Chase K ts D := by
  intro f hf
  cases hf with
  | given hf => exact given hf
  | fired ht hbody ha => exact fired ht hbody ha

section Keys

variable {t t' : Tgd} {v v' : String → Invented U} {fd : FunctionalDependency} {a b : Atom}
  {x : String} {i : Nat}

/-- An atom with a value made up in the key has it when it is fired. -/
lemma exists_invented (h : t.InventsKey fd.key a) (v : String → Invented U) :
    ∃ x ∈ t.existential, x ∈ a.vars ∧ ∃ i ∈ fd.key,
      (a.toFact (K.invented.value (t.invent v))).args[i]? = some (.invented t x v) := by
  obtain ⟨x, hx, i, hi, hterm⟩ := h
  refine ⟨x, hx, Term.mem_vars.mpr (List.mem_of_getElem? hterm), i, hi, ?_⟩
  rw [Atom.args_toFact, List.getElem?_map, hterm]
  exact congrArg some (Tgd.invent_of_existential hx)

/-- Where an atom has a value that was made up, it has the variable for which this was
done, or some universal variable has the value. -/
lemma reads_invented
    (h : (b.toFact (K.invented.value (t'.invent v'))).args[i]? = some (.invented t x v)) :
    (t' = t ∧ v' = v ∧ x ∈ b.vars) ∨ ∃ y, v' y = .invented t x v := by
  rw [Atom.args_toFact, List.getElem?_map, Option.map_eq_some_iff] at h
  obtain ⟨term, hterm, hvalue⟩ := h
  cases term with
  | const c => exact absurd hvalue (by simp [Vocabulary.value, Vocabulary.invented])
  | var y =>
      have hy : t'.invent v' y = .invented t x v := hvalue
      rw [Tgd.invent] at hy
      split at hy
      · exact Or.inr ⟨y, hy⟩
      · cases hy
        exact Or.inl ⟨rfl, rfl, Term.mem_vars.mpr (List.mem_of_getElem? hterm)⟩

/-- A given fact does not have a key for which a value is made up. -/
lemma not_agreeOn_known (h : t.InventsKey fd.key a) {g : Fact U} :
    ¬AgreeOn fd.key (a.toFact (K.invented.value (t.invent v))).args (g.map .known).args := by
  intro hkey
  obtain ⟨x, -, -, i, hi, hread⟩ := exists_invented (K := K) h v
  rw [hkey i hi, Fact.map, List.getElem?_map] at hread
  obtain ⟨u, -, hu⟩ := Option.map_eq_some_iff.mp hread
  exact absurd hu (by simp)

/-- **A value made up for a key says which atom was fired**, and under which
assignment. -/
lemma eq_of_agreeOn (hconflict : t.conflictsWith fd = false)
    (hconflict' : t'.conflictsWith fd = false) (ha : a ∈ t.head) (hb : b ∈ t'.head)
    (hfa : a.predicate = fd.predicate) (hfb : b.predicate = fd.predicate)
    (h : t.InventsKey fd.key a) (h' : t'.InventsKey fd.key b)
    (hkey : AgreeOn fd.key (a.toFact (K.invented.value (t.invent v))).args
      (b.toFact (K.invented.value (t'.invent v'))).args) :
    a.toFact (K.invented.value (t.invent v)) = b.toFact (K.invented.value (t'.invent v')) := by
  obtain ⟨x, hx, hxa, i, hi, hread⟩ := exists_invented (K := K) h v
  obtain ⟨x', hx', hxb, j, hj, hread'⟩ := exists_invented (K := K) h' v'
  rw [hkey i hi] at hread
  rw [← hkey j hj] at hread'
  rcases reads_invented hread with ⟨rfl, rfl, hxb⟩ | ⟨y', hy'⟩
  · rw [Tgd.eq_of_conflictsWith hconflict ha hb hfa hfb hx hxa hxb]
  · rcases reads_invented hread' with ⟨rfl, rfl, hxa⟩ | ⟨y, hy⟩
    · rw [Tgd.eq_of_conflictsWith hconflict ha hb hfa hfb hx' hxa hxb]
    · -- each of the two assignments would have a value made up for the other
      exact absurd hy (Invented.not_mutual hy')

end Keys

/-- **Facts without rivals keep all keys** that the given ones keep. -/
theorem holdsIn_unrivalled (hconflict : ∀ t ∈ ts, ∀ fd ∈ fds, t.conflictsWith fd = false)
    (hD : ∀ fd ∈ fds, fd.HoldsIn D) : ∀ fd ∈ fds, fd.HoldsIn (Unrivalled K ts fds D) := by
  intro fd hfd f hf g hg hfp hgp hkey
  cases hf with
  | @given f hf =>
      cases hg with
      | @given g hg =>
          exact (hD fd hfd).map Invented.known_injective _ ⟨f, hf, rfl⟩ _ ⟨g, hg, rfl⟩ hfp hgp hkey
      | fired _ _ _ hinvents =>
          exact absurd (fun i hi => (hkey i hi).symm) (not_agreeOn_known (hinvents fd hfd hgp))
  | @fired t v a ht _ ha hinvents =>
      cases hg with
      | given hg => exact absurd hkey (not_agreeOn_known (hinvents fd hfd hfp))
      | @fired t' v' b ht' _ hb hinvents' =>
          rw [eq_of_agreeOn (hconflict t ht fd hfd) (hconflict t' ht' fd hfd) ha hb hfp hgp
            (hinvents fd hfd hfp) (hinvents' fd hfd hgp) hkey]
          exact fun _ _ => rfl

/-! ### Selections -/

/-- A choice of fired facts that keeps all keys. Whatever it leaves out agrees with a
fact in it on a key. -/
structure Selection (K : Vocabulary U) (ts : List Tgd) (fds : List FunctionalDependency)
    (D : Set (Fact U)) (M : Set (Fact (Invented U))) : Prop where
  unrivalled : Unrivalled K ts fds D ⊆ M
  fired : M ⊆ Chase K ts D
  keys : ∀ fd ∈ fds, fd.HoldsIn M
  rival : ∀ f ∈ Chase K ts D, f ∉ M → ∃ fd ∈ fds, f.predicate = fd.predicate ∧
    ∃ g ∈ M, g.predicate = fd.predicate ∧ AgreeOn fd.key f.args g.args

lemma exists_selection (K : Vocabulary U)
    (hconflict : ∀ t ∈ ts, ∀ fd ∈ fds, t.conflictsWith fd = false)
    (hD : ∀ fd ∈ fds, fd.HoldsIn D) : ∃ M, Selection K ts fds D M := by
  obtain ⟨M, hbase, hsub, hkeys, hrival⟩ := FunctionalDependency.exists_maximal
    unrivalled_subset (holdsIn_unrivalled (K := K) hconflict hD)
  exact ⟨M, hbase, hsub, hkeys, hrival⟩

namespace Selection

/-- A head atom that is fired has a value in the selection. If the atom is tied to
others, this is what has been fired. -/
lemma exists_value (hM : Selection K ts fds D M)
    (hconflict : ∀ t ∈ ts, ∀ fd ∈ fds, t.conflictsWith fd = false)
    {t : Tgd} (ht : t ∈ ts)
    (huntied : ∀ fd ∈ fds, ∀ a ∈ t.head, a.predicate = fd.predicate →
      t.InventsKey fd.key a ∨ t.Untied a)
    {v : String → Invented U}
    (hbody : ∀ b, .ordinary true b ∈ t.body.literals →
      b.toFact (K.invented.value v) ∈ Chase K ts D)
    {a : Atom} (ha : a ∈ t.head) :
    ∃ w : String → Invented U, (∀ x ∈ t.universal, w x = v x) ∧
      a.toFact (K.invented.value w) ∈ M ∧ (t.Untied a ∨ w = t.invent v) := by
  by_cases hmem : a.toFact (K.invented.value (t.invent v)) ∈ M
  · exact ⟨t.invent v, fun x hx => Tgd.invent_of_universal hx, hmem, Or.inr rfl⟩
  · obtain ⟨fd, hfd, hp, g, hg, hgp, hkey⟩ := hM.rival _ (.fired ht hbody ha) hmem
    have haccords := Tgd.accords_of_conflictsWith (hconflict t ht fd hfd) ha hp
    obtain ⟨w, hw, hfact⟩ := haccords.exists_toFact_eq ha (hp.trans hgp.symm) hkey
    refine ⟨w, fun x hx => ?_, hfact ▸ hg, Or.inl ?_⟩
    · rw [hw x fun hex => (Tgd.mem_existential.mp hex).2 hx, Tgd.invent_of_universal hx]
    · -- with a value made up in every key the fact would have no rivals
      by_contra htied
      refine hmem (hM.unrivalled (.fired ht hbody ha fun fd' hfd' hp' => ?_))
      exact (huntied fd' hfd' a ha hp').resolve_right htied

/-- **A selection satisfies every dependency that is fired.** -/
theorem satisfiesTgd (hM : Selection K ts fds D M)
    (hconflict : ∀ t ∈ ts, ∀ fd ∈ fds, t.conflictsWith fd = false)
    {t : Tgd} (ht : t ∈ ts)
    (huntied : ∀ fd ∈ fds, ∀ a ∈ t.head, a.predicate = fd.predicate →
      t.InventsKey fd.key a ∨ t.Untied a) :
    K.invented.SatisfiesTgd M t := by
  intro v hbody
  have hfired : ∀ b, .ordinary true b ∈ t.body.literals →
      b.toFact (K.invented.value v) ∈ Chase K ts D := fun b hb => hM.fired (hbody _ hb)
  have : Nonempty (Invented U) := ⟨.known (K.constant "")⟩
  choose! w hkeep hmem hwhich using fun a ha =>
    hM.exists_value hconflict ht huntied hfired (a := a) ha
  refine Vocabulary.holdsHead_of_atoms w hkeep hmem fun a ha b hb x hx hxa hxb => ?_
  have hshared : t.sharesExistential a b = true := Tgd.sharesExistential_iff.mpr ⟨x, hx, hxa, hxb⟩
  have hshared' : t.sharesExistential b a = true :=
    Tgd.sharesExistential_iff.mpr ⟨x, hx, hxb, hxa⟩
  rcases hwhich a ha with huntied | hwa
  · rw [huntied b hb hshared]
  · rcases hwhich b hb with huntied | hwb
    · rw [huntied a ha hshared']
    · rw [hwa, hwb]

end Selection

end Chase

namespace Vocabulary

/-- **Keys can be left out** of what a non-conflicting schema makes certain, if its heads
do not tie atoms with a key to others. All bodies are conjunctions of atoms. -/
theorem certain_iff_certain_tgds (K : Vocabulary U) (s : Schema)
    (hatomic : ∀ t ∈ s.tgds, t.body.IsAtomic) (hs : s.isNonConflicting = true)
    (huntied : s.KeysUntied) (hD : ∀ e ∈ s.egds, K.SatisfiesEgd D e) (f : Fact U) :
    K.Certain D s.dependencies f ↔ K.Certain D (s.tgds.map .tgd) f := by
  obtain ⟨hother, -, hconflict⟩ := Schema.isNonConflicting_iff.mp hs
  constructor
  · intro h
    rw [Extraction.satisfies_iff_of_other_eq_nil hother] at hD
    obtain ⟨M, hM⟩ := Chase.exists_selection K hconflict hD
    have hext : K.Extends D K.invented .known M :=
      ⟨Invented.known_injective, fun _ => rfl, fun g hg => hM.unrivalled (.given hg)⟩
    have hegds : ∀ e ∈ s.egds, K.invented.SatisfiesEgd M e :=
      (Extraction.satisfies_iff_of_other_eq_nil hother K.invented M).mpr hM.keys
    have hsat : ∀ d ∈ s.dependencies, K.invented.Satisfies M d := by
      intro d hd
      cases d with
      | tgd t =>
          have ht := Schema.mem_tgds.mpr hd
          exact hM.satisfiesTgd hconflict ht (huntied t ht)
      | egd e => exact hegds e (Schema.mem_egds.mpr hd)
    exact Chase.certain hatomic (hM.fired (h _ K.invented .known M hext hsat))
  · refine fun h => h.mono fun d hd => ?_
    obtain ⟨t, ht, rfl⟩ := List.mem_map.mp hd
    exact Schema.mem_tgds.mp ht

/-! ### A shared variable -/

/-- Constants that are their own values. -/
def themselves : Vocabulary String := ⟨id, fun _ _ _ => False, fun _ _ => False⟩

/-- A pair of variables in one of three relations. -/
def row (k : Nat) (x y : String) : Atom := .ofVars k [x, y]

/-- A pair of values in one of three relations. -/
def pair {U : Type u} (k : Nat) (u v : U) : Fact U := ⟨⟨0, k, 2⟩, [u, v], rfl⟩

/-- The first argument determines the second one. -/
def firstKey (k : Nat) : Egd :=
  ⟨⟨[.ordinary true (row k "i" "x"), .ordinary true (row k "i" "y")], by simp⟩, .var "x", .var "y"⟩

/-- A pair in the first relation makes pairs in the two others, with one second
argument. The first argument in the second relation is `x`. -/
def joins (x : String) : Tgd :=
  ⟨⟨[.ordinary true (row 0 "a" "b")], by simp⟩, [row 1 x "n", row 2 "b" "n"], by simp⟩

/-- This dependency with keys for some relations. -/
def joined (x : String) (keys : List Nat) : Schema :=
  ⟨[⟨0, "P", 2, []⟩, ⟨0, "E", 2, []⟩, ⟨0, "G", 2, []⟩],
    keys.map (fun k => .egd (firstKey k)) ++ [.tgd (joins x)]⟩

/-- A pair that makes others, and one in the second relation. -/
def pairs : Set (Fact String) := {pair 0 "1" "2", pair 1 "1" "3"}

lemma tgds_joined (x : String) (keys : List Nat) : (joined x keys).tgds = [joins x] := by
  rw [Schema.tgds, joined, List.filterMap_append]
  simp [List.filterMap_map, Function.comp_def, Dependency.tgd?]

lemma egds_joined (x : String) (keys : List Nat) :
    (joined x keys).egds = keys.map firstKey := by
  rw [Schema.egds, joined, List.filterMap_append]
  simp [List.filterMap_map, Function.comp_def, Dependency.egd?]

lemma isAtomic_joined (x : String) (keys : List Nat) :
    ∀ t ∈ (joined x keys).tgds, t.body.IsAtomic := by
  intro t ht l hl
  rw [tgds_joined] at ht
  obtain rfl := List.mem_singleton.mp ht
  exact ⟨_, List.mem_singleton.mp hl⟩

/-- No first argument has two second ones. -/
lemma satisfiesEgd_joined (x : String) (keys : List Nat) :
    ∀ e ∈ (joined x keys).egds, themselves.SatisfiesEgd pairs e := by
  intro e he v hv
  rw [egds_joined] at he
  obtain ⟨k, -, rfl⟩ := List.mem_map.mp he
  have hmem : ∀ y, pair k (v "i") (v y) ∈ pairs → v y = if k = 0 then "2" else "3" := by
    intro y hy
    rcases hy with h | h
    · simp_all [pair]
    · simp_all [pair]
  have hx := hmem "x" (hv _ List.mem_cons_self)
  have hy := hmem "y" (hv _ (List.mem_cons_of_mem _ List.mem_cons_self))
  exact hx.trans hy.symm

/-- Without keys, the joined pairs may have a second argument that no given pair has. -/
lemma not_certain_joins {x : String} (hb : x ≠ "b") (hn : x ≠ "n") :
    ¬themselves.Certain pairs [.tgd (joins x)] (pair 2 "2" "3") := by
  intro h
  let M : Set (Fact String) := pairs ∪ {pair 1 "1" "4", pair 2 "2" "4"}
  have hext : themselves.Extends pairs themselves id M :=
    ⟨Function.injective_id, fun _ => rfl, fun f hf => by
      have hsame : f.map id = f := Fact.ext rfl (List.map_id f.args)
      rw [hsame]
      exact Or.inl hf⟩
  have hsat : themselves.SatisfiesTgd M (joins x) := by
    intro v hv
    have hbody : pair 0 (v "a") (v "b") ∈ M := hv _ List.mem_cons_self
    have hvalues : v "a" = "1" ∧ v "b" = "2" := by simpa [M, pairs, pair] using hbody
    have huniversal : ∀ y ∈ (joins x).universal, y = "a" ∨ y = "b" := by
      simp [Tgd.universal, joins, Clause.vars, Literal.vars, Literal.terms, row]
    let w : String → String := fun y => if y = "b" then "2" else if y = "n" then "4" else "1"
    have hx : w x = "1" := by simp [w, hb, hn]
    refine ⟨w, fun y hy => ?_, fun a ha => ?_⟩
    · rcases huniversal y hy with rfl | rfl
      · exact hvalues.1.symm
      · exact hvalues.2.symm
    · rcases List.mem_pair.mp ha with rfl | rfl
      · have hfact : (row 1 x "n").toFact (themselves.value w) = pair 1 (w x) "4" := rfl
        rw [hfact, hx]
        exact Or.inr (Or.inl rfl)
      · exact Or.inr (Or.inr rfl)
  have hmem : pair 2 "2" "3" ∈ M := h String themselves id M hext
    fun d hd => List.mem_singleton.mp hd ▸ hsat
  simp [M, pairs, pair] at hmem

/-- The value of the existential variable is made up for the key, so the shared variable
does no harm: the pairs that the dependency joins are not certain. -/
theorem certain_iff_certain_tgds_joined :
    (∃ b : Builder, b.build = .ok (joined "m" [1])) ∧
      (∀ t ∈ (joined "m" [1]).tgds, t.body.IsAtomic) ∧
      (joined "m" [1]).isNonConflicting = true ∧ (joined "m" [1]).KeysUntied ∧
      (∀ e ∈ (joined "m" [1]).egds, themselves.SatisfiesEgd pairs e) ∧
      ¬themselves.Certain pairs (joined "m" [1]).dependencies (pair 2 "2" "3") := by
  have hbuild : (⟨0, (joined "m" [1]).predicates, (joined "m" [1]).dependencies⟩ : Builder).build =
      .ok (joined "m" [1]) := rfl
  have hs : (joined "m" [1]).isNonConflicting = true := by decide
  have huntied : (joined "m" [1]).KeysUntied := by
    intro t ht fd hfd a ha hp
    have hdeps : (Extraction.ofEgds (joined "m" [1]).egds).dependencies =
        [⟨⟨0, 1, 2⟩, .ofList [0], .ofList [1]⟩] := by decide
    rw [tgds_joined] at ht
    rw [hdeps] at hfd
    obtain rfl := List.mem_singleton.mp ht
    obtain rfl := List.mem_singleton.mp hfd
    rcases List.mem_pair.mp ha with rfl | rfl
    · exact Or.inl ⟨"m", by decide, 0, by decide, rfl⟩
    · exact absurd hp (by decide)
  have hatomic := isAtomic_joined "m" [1]
  have hD := satisfiesEgd_joined "m" [1]
  refine ⟨⟨_, hbuild⟩, hatomic, hs, huntied, hD, fun h => ?_⟩
  rw [certain_iff_certain_tgds _ _ hatomic hs huntied hD, tgds_joined] at h
  exact not_certain_joins (by decide) (by decide) h

/-- **A variable shared by two atoms with keys of their own** makes a fact certain that
is not certain without the keys. The schema counts as non-conflicting. -/
theorem certain_joined_not_certain_tgds :
    (∃ b : Builder, b.build = .ok (joined "a" [1, 2])) ∧
      (∀ t ∈ (joined "a" [1, 2]).tgds, t.body.IsAtomic) ∧
      (∀ e ∈ (joined "a" [1, 2]).egds, e.body.IsAtomic) ∧
      (joined "a" [1, 2]).isNonConflicting = true ∧
      (∀ e ∈ (joined "a" [1, 2]).egds, themselves.SatisfiesEgd pairs e) ∧
      themselves.Certain pairs (joined "a" [1, 2]).dependencies (pair 2 "2" "3") ∧
      ¬themselves.Certain pairs ((joined "a" [1, 2]).tgds.map .tgd) (pair 2 "2" "3") := by
  have hbuild : (⟨0, (joined "a" [1, 2]).predicates, (joined "a" [1, 2]).dependencies⟩ :
      Builder).build = .ok (joined "a" [1, 2]) := rfl
  have hegds : ∀ e ∈ (joined "a" [1, 2]).egds, e.body.IsAtomic := by
    intro e he l hl
    rw [egds_joined] at he
    obtain ⟨k, -, rfl⟩ := List.mem_map.mp he
    rcases List.mem_pair.mp hl with rfl | rfl
    · exact ⟨_, rfl⟩
    · exact ⟨_, rfl⟩
  have hcertain : themselves.Certain pairs (joined "a" [1, 2]).dependencies (pair 2 "2" "3") := by
    intro V L h M hext hsat
    have htgd : L.SatisfiesTgd M (joins "a") :=
      hsat _ (Schema.mem_tgds.mp (by rw [tgds_joined]; exact List.mem_singleton_self _))
    have hkey : L.SatisfiesEgd M (firstKey 1) :=
      hsat _ (Schema.mem_egds.mp (by rw [egds_joined]; exact List.mem_cons_self))
    -- the pair that is made has the second argument `w "n"`
    obtain ⟨w, hw, hhead⟩ := htgd (fun y => if y = "a" then h "1" else h "2") fun l hl => by
      obtain rfl := List.mem_singleton.mp hl
      exact hext.facts _ (Or.inl rfl)
    have ha : w "a" = h "1" := hw "a" (by decide)
    have hb : w "b" = h "2" := hw "b" (by decide)
    have hmade : pair 1 (w "a") (w "n") ∈ M := hhead _ List.mem_cons_self
    have hjoined : pair 2 (w "b") (w "n") ∈ M := hhead _ (List.mem_cons_of_mem _ List.mem_cons_self)
    rw [ha] at hmade
    rw [hb] at hjoined
    -- the key of the second relation says which value this is
    have hequal : w "n" = h "3" := by
      refine hkey (fun y => if y = "i" then h "1" else if y = "x" then w "n" else h "3")
        fun l hl => ?_
      rcases List.mem_pair.mp hl with rfl | rfl
      · exact hmade
      · exact hext.facts _ (Or.inr rfl)
    rwa [hequal] at hjoined
  refine ⟨⟨_, hbuild⟩, isAtomic_joined "a" [1, 2], hegds, by decide, satisfiesEgd_joined "a" [1, 2],
    hcertain, ?_⟩
  rw [tgds_joined]
  exact not_certain_joins (by decide) (by decide)

end Vocabulary

end DependencyTheory
