/-
Firing dependencies with single heads keeps the keys of a non-conflicting schema:

* `Vocabulary.Step.holdsIn`: a restricted firing adds no other facts, since one that
  agreed with the head on the key would have made the head true;
* `Vocabulary.satisfiesEgd_of_reaches`: so all dependencies that generate equalities
  stay satisfied, however often what fires.
-/
import DependencyTheory.Proofs.Conflict.Heads
import DependencyTheory.Proofs.FunctionalDependency.Extraction
import DependencyTheory.Proofs.FunctionalDependency.Maximal
import DependencyTheory.Proofs.Semantics.Firing

namespace DependencyTheory

universe u

variable {U : Type u} {K : Vocabulary U} {s : Schema} {D D' : Set (Fact U)}
  {fd : FunctionalDependency}

namespace Vocabulary

/-- **A restricted firing keeps a functional dependency** with which the fired
dependency, which has a single head atom, does not conflict. -/
lemma Step.holdsIn (hstep : K.Step s D D') (hsingle : ∀ t ∈ s.tgds, ∃ a, t.head = [a])
    (hconflict : ∀ t ∈ s.tgds, t.conflictsWith fd = false) (h : fd.HoldsIn D) :
    fd.HoldsIn D' := by
  obtain ⟨t, ht, v, hfires, hunsatisfied⟩ := hstep
  obtain ⟨a, hhead⟩ := hsingle t ht
  have ha : a ∈ t.head := hhead ▸ List.mem_singleton_self a
  have hadds : D' = insert (a.toFact (K.value v)) D := by
    rw [hfires.adds, hhead]
    ext f
    simp [or_comm]
  rw [hadds]
  refine h.insert fun hp g hg hgp hkey => hunsatisfied ?_
  -- a fact that agrees on the key is a value of the head atom
  obtain ⟨w, hw, hfact⟩ := (Tgd.accords_of_conflictsWith (hconflict t ht) ha hp).exists_toFact_eq
    ha (hp.trans hgp.symm) hkey
  refine ⟨w, fun x hx => hw x fun hex => (Tgd.mem_existential.mp hex).2 hx, fun b hb => ?_⟩
  obtain rfl : b = a := List.mem_singleton.mp (hhead ▸ hb)
  rwa [hfact]

/-- **Restricted firings keep all keys.** In a schema that is non-conflicting and whose
heads are single atoms, whatever is reached from facts that satisfy the dependencies
that generate equalities satisfies them too. -/
theorem satisfiesEgd_of_reaches (K : Vocabulary U) (s : Schema)
    (hsingle : ∀ t ∈ s.tgds, ∃ a, t.head = [a]) (hs : s.isNonConflicting = true)
    (hD : ∀ e ∈ s.egds, K.SatisfiesEgd D e) (hreaches : K.Reaches s D D') :
    ∀ e ∈ s.egds, K.SatisfiesEgd D' e := by
  obtain ⟨hother, -, hconflict⟩ := Schema.isNonConflicting_iff.mp hs
  rw [Extraction.satisfies_iff_of_other_eq_nil hother] at hD ⊢
  induction hreaches with
  | refl => exact hD
  | tail _ hstep ih =>
      exact fun fd hfd => hstep.holdsIn hsingle (fun t ht => hconflict t ht fd hfd) (ih fd hfd)

/-- A pair of variables in the only relation there is. -/
def edge (x y : String) : Atom := .ofVars 0 [x, y]

/-- Every second argument is a first one. -/
def continues : Tgd := ⟨⟨[.ordinary true (edge "x" "y")], by simp⟩, [edge "y" "z"], by simp⟩

/-- Every second argument is a first one, and no first argument has two second ones. -/
def successors : Schema :=
  ⟨[⟨0, "E", 2, []⟩],
    [.tgd continues,
      .egd ⟨⟨[.ordinary true (edge "i" "x"), .ordinary true (edge "i" "y")], by simp⟩,
        .var "x", .var "y"⟩]⟩

/-- The first numbers, each with its successor. -/
def links (n : Nat) : Set (Fact Nat) := {f | ∃ i ≤ n, f = ⟨⟨0, 0, 2⟩, [i, i + 1], rfl⟩}

/-- Numbers, none of which is a constant but zero. -/
def numbers : Vocabulary Nat := ⟨fun _ => 0, fun _ _ _ => False, fun _ _ => False⟩

lemma toFact_edge_mem_links {v : String → Nat} {x y : String} {n : Nat} :
    (edge x y).toFact (numbers.value v) ∈ links n ↔ v x ≤ n ∧ v y = v x + 1 := by
  simp [links, Atom.toFact, edge, value]

/-- The last number has no successor yet, so the next one is added. -/
lemma step_links (n : Nat) : numbers.Step successors (links n) (links (n + 1)) := by
  let v : String → Nat := fun x => if x = "x" then n else if x = "y" then n + 1 else n + 2
  have hz : ∀ x ∈ continues.existential, x = "z" := by
    simp [Tgd.mem_existential, Tgd.headVariables, Tgd.universal, continues, Clause.vars,
      Literal.vars, Literal.terms, edge, Atom.vars]
  refine ⟨continues, List.mem_cons_self, v, ⟨?_, ?_, ?_, ?_⟩, ?_⟩
  · intro l hl
    obtain rfl := List.mem_singleton.mp hl
    exact toFact_edge_mem_links.mpr ⟨le_refl n, rfl⟩
  · intro x hx
    obtain rfl := hz x hx
    refine ⟨?_, fun c _ => Nat.succ_ne_zero (n + 1)⟩
    rintro f ⟨i, hi, rfl⟩ hmem
    have hvalue : n + 2 = i ∨ n + 2 = i + 1 := by simpa [v] using hmem
    omega
  · intro x hx y hy _
    rw [hz x hx, hz y hy]
  · ext f
    constructor
    · rintro ⟨i, hi, rfl⟩
      rcases Nat.lt_or_eq_of_le hi with hlt | rfl
      · exact Or.inl ⟨i, Nat.lt_succ_iff.mp hlt, rfl⟩
      · exact Or.inr ⟨edge "y" "z", List.mem_cons_self, rfl⟩
    · rintro (⟨i, hi, rfl⟩ | ⟨a, ha, rfl⟩)
      · exact ⟨i, Nat.le_succ_of_le hi, rfl⟩
      · obtain rfl := List.mem_singleton.mp ha
        exact toFact_edge_mem_links.mpr ⟨le_refl (n + 1), rfl⟩
  · rintro ⟨w, hw, hhead⟩
    have hfact := toFact_edge_mem_links.mp (hhead _ List.mem_cons_self)
    have hy : w "y" = n + 1 := hw "y" (by
      simp [Tgd.universal, continues, Clause.vars, Literal.vars, Literal.terms, edge])
    omega

/-- Three firings in a row, each for the value that the one before has introduced. -/
theorem satisfiesEgd_of_reaches_links :
    (∀ t ∈ successors.tgds, ∃ a, t.head = [a]) ∧ successors.isNonConflicting = true ∧
      (∀ e ∈ successors.egds, numbers.SatisfiesEgd (links 0) e) ∧
      numbers.Reaches successors (links 0) (links 3) ∧
      ∀ e ∈ successors.egds, numbers.SatisfiesEgd (links 3) e := by
  have hsingle : ∀ t ∈ successors.tgds, ∃ a, t.head = [a] := by
    intro t ht
    obtain rfl := List.mem_singleton.mp ht
    exact ⟨_, rfl⟩
  have hs : successors.isNonConflicting = true := by decide
  have hD : ∀ e ∈ successors.egds, numbers.SatisfiesEgd (links 0) e := by
    intro e he v hv
    obtain rfl := List.mem_singleton.mp he
    have hfirst := toFact_edge_mem_links.mp (hv _ List.mem_cons_self)
    have hsecond := toFact_edge_mem_links.mp (hv _ (List.mem_cons_of_mem _ List.mem_cons_self))
    exact hfirst.2.trans hsecond.2.symm
  have hreaches : numbers.Reaches successors (links 0) (links 3) :=
    ((Relation.ReflTransGen.single (step_links 0)).tail (step_links 1)).tail (step_links 2)
  exact ⟨hsingle, hs, hD, hreaches,
    satisfiesEgd_of_reaches numbers successors hsingle hs hD hreaches⟩

end Vocabulary

end DependencyTheory
