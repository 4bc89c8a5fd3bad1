/-
Values made up by firings stay at affected positions:

* `Vocabulary.InventingRun`: a run from facts without nulls in which existential variables
  get new nulls;
* `isAffected_of_null`: a variable that is bound to a null stands in the body at affected
  positions only;
* `Schema.affected_of_null`: in all such runs, nulls are found at affected positions only,
  and the weak guard of a dependency has all variables that are bound to nulls.
-/
import DependencyTheory.Proofs.Language.Verdicts
import DependencyTheory.Proofs.Semantics.Run

namespace DependencyTheory

universe u

variable {U : Type u} {K : Vocabulary U} {s : Schema} {nulls : Set U} {D D' : Set (Fact U)}
  {f : Firing U} {fs : List (Firing U)} {ts : List Tgd} {t : Tgd} {v : String → U} {x : String}

/-! ### Runs with nulls -/

namespace Vocabulary

variable (K s nulls) in
/-- Whether a firing makes up values for the existential variables: nulls that differ from
each other and occur in none of the facts there are. -/
structure Invents (D : Set (Fact U)) (f : Firing U) : Prop where
  null : ∀ x ∈ f.tgd.existential, f.values x ∈ nulls
  new : ∀ x ∈ f.tgd.existential, ∀ g ∈ D, f.values x ∉ g.args
  apart : ∀ x ∈ f.tgd.existential, ∀ y ∈ f.tgd.existential, f.values x = f.values y → x = y

variable (K s nulls) in
/-- A run that starts from facts without nulls and in which every firing makes up nulls. No
constant is one. -/
structure InventingRun (D : Set (Fact U)) (fs : List (Firing U)) (D' : Set (Fact U)) : Prop where
  constant : ∀ c, K.constant c ∉ nulls
  start : ∀ f ∈ D, ∀ u ∈ f.args, u ∉ nulls
  runs : K.Runs s (Invents nulls) D fs D'

end Vocabulary

/-! ### Nulls at affected positions -/

/-- Whether all nulls are found at affected positions. -/
def NullsAffected (ts : List Tgd) (nulls : Set U) (D : Set (Fact U)) : Prop :=
  ∀ f ∈ D, ∀ (i : Nat) u, f.args[i]? = some u → u ∈ nulls → IsAffected ts ⟨f.predicate, i⟩

/-- **A variable that is bound to a null** stands in the body at affected positions only. -/
lemma isAffected_of_null (hD : NullsAffected ts nulls D) (hbody : K.HoldsAll D v t.body.literals)
    (hx : v x ∈ nulls) : ∀ b ∈ t.body.positiveAtoms, ∀ q, b.StandsAt x q → IsAffected ts q := by
  intro b hb q hq
  have hfact : b.toFact (K.value v) ∈ D := hbody _ (Clause.mem_positiveAtoms.mp hb)
  have hvalue : (b.toFact (K.value v)).args[q.index]? = some (v x) := by
    rw [Atom.args_toFact, List.getElem?_map, hq.2]
    rfl
  have hplace := hD _ hfact q.index _ hvalue hx
  rwa [show (⟨(b.toFact (K.value v)).predicate, q.index⟩ : Position) = q from
    congrArg (Position.mk · q.index) hq.1] at hplace

/-- A firing keeps nulls at affected positions. -/
lemma NullsAffected.fires (hD : NullsAffected ts nulls D) (hconstant : ∀ c, K.constant c ∉ nulls)
    (ht : f.tgd ∈ ts) (hbody : K.HoldsAll D f.values f.tgd.body.literals) :
    NullsAffected ts nulls (D ∪ f.adds K) := by
  rintro g (hg | ⟨a, ha, rfl⟩) i u hi hu
  · exact hD g hg i u hi hu
  · rw [Atom.args_toFact, List.getElem?_map] at hi
    obtain ⟨term, hterm, rfl⟩ := Option.map_eq_some_iff.mp hi
    cases term with
    | const c => exact absurd hu (hconstant c)
    | var x =>
        have hx : a.StandsAt x ⟨a.predicate, i⟩ := ⟨rfl, hterm⟩
        by_cases huniversal : x ∈ f.tgd.universal
        · exact .carried ht ha hx huniversal (isAffected_of_null hD hbody hu)
        · exact .invented ht ha hx huniversal

/-- **Nulls stay at affected positions, and weak guards guard them.** However many
dependencies fire, in whatever order, on facts without nulls: all nulls are found at
affected positions. If the schema is weakly guarded, each dependency has a body literal
that has, for all its firings in all these runs, every variable that is bound to a null. -/
theorem Schema.affected_of_null {affected : OrderedSet Position}
    (h : s.affectedPositions = .ok affected) :
    (∀ (U : Type u) (K : Vocabulary U) (nulls : Set U) D fs D', K.InventingRun s nulls D fs D' →
      ∀ f ∈ D', ∀ (i : Nat) u, f.args[i]? = some u → u ∈ nulls → ⟨f.predicate, i⟩ ∈ affected) ∧
    (s.isWeaklyGuarded = .ok true → ∀ t ∈ s.tgds, ∃ l ∈ t.body.literals,
      ∀ (U : Type u) (K : Vocabulary U) (nulls : Set U) D fs D',
        K.InventingRun s nulls D fs D' → ∀ f ∈ fs, f.tgd = t →
          ∀ x ∈ t.universal, f.values x ∈ nulls → x ∈ l.vars) := by
  obtain ⟨-, rfl⟩ := affectedPositions_eq_ok.mp h
  have hrun : ∀ (U : Type u) (K : Vocabulary U) (nulls : Set U) D fs D',
      K.InventingRun s nulls D fs D' → NullsAffected s.tgds nulls D' ∧ ∀ f ∈ fs,
        f.tgd ∈ s.tgds ∧ ∃ D, NullsAffected s.tgds nulls D ∧
          K.HoldsAll D f.values f.tgd.body.literals :=
    fun U K nulls D fs D' h => h.runs.keeps
      (fun D f ht hbody hD => hD.fires h.constant ht hbody)
      fun f hf i u hi hu => absurd hu (h.start f hf u (List.mem_of_getElem? hi))
  refine ⟨fun U K nulls D fs D' h f hf i u hi hu => ?_, fun hweak t ht => ?_⟩
  · exact mem_affectedPositions.mpr ((hrun U K nulls D fs D' h).1 f hf i u hi hu)
  · obtain ⟨l, hl, hcovers⟩ := covers_of_isWeaklyGuarded hweak ht
    refine ⟨l, hl, ?_⟩
    rintro U K nulls D fs D' h f hf rfl x hx hnull
    obtain ⟨-, D₁, hD₁, hbody⟩ := (hrun U K nulls D fs D' h).2 f hf
    refine hcovers x (Tgd.mem_affectedVariables.mpr ⟨hx, fun b hb q hq => ?_⟩)
    exact mem_affectedPositions.mpr (isAffected_of_null hD₁ hbody hnull b hb q hq)

/-! ### A run with a null that is carried on -/

namespace Relay

/-- Whatever is listed is linked to something new, and links in a row are joined. -/
def schema : Schema :=
  let p (x : String) : Atom := .ofVars 0 [x]
  let q (x y : String) : Atom := .ofVars 1 [x, y]
  let r (x y : String) : Atom := .ofVars 2 [x, y]
  ⟨[⟨0, "P", 1, []⟩, ⟨0, "Q", 2, []⟩, ⟨0, "R", 2, []⟩],
    [.tgd (.ofAtoms (.ofAtoms (p "x") []) (q "x" "y") []),
      .tgd (.ofAtoms (.ofAtoms (q "x" "y") [q "y" "z"]) (r "x" "z") [])]⟩

/-- Numbers, none of which is a constant but zero. -/
def vocabulary : Vocabulary Nat := ⟨fun _ => 0, fun _ _ _ => False, fun _ _ => False⟩

/-- 0 is listed, and 1 is linked to it. -/
def facts : Set (Fact Nat) := {⟨⟨0, 0, 1⟩, [0], rfl⟩, ⟨⟨0, 1, 2⟩, [1, 0], rfl⟩}

/-- The null 2 is made up for 0. -/
def link : Firing Nat :=
  ⟨.ofAtoms (.ofAtoms (.ofVars 0 ["x"]) []) (.ofVars 1 ["x", "y"]) [],
    fun x => if x = "x" then 0 else 2⟩

/-- 1 is joined with the null, by way of 0. -/
def join : Firing Nat :=
  ⟨.ofAtoms (.ofAtoms (.ofVars 1 ["x", "y"]) [.ofVars 1 ["y", "z"]]) (.ofVars 2 ["x", "z"]) [],
    fun x => if x = "x" then 1 else if x = "y" then 0 else 2⟩

lemma inventingRun : vocabulary.InventingRun schema {u | 2 ≤ u} facts [link, join]
    (facts ∪ link.adds vocabulary ∪ join.adds vocabulary) := by
  have hlink : ∀ x ∈ link.tgd.existential, x = "y" := by decide
  have hjoin : ∀ x ∈ join.tgd.existential, False := by decide
  refine ⟨fun c => by simp [vocabulary], ?_,
    .fires (by decide) ?_ ?_ (.fires (by decide) ?_ ?_ .done)⟩
  · rintro f (rfl | rfl) u hu hnull
    · exact absurd hnull (by simp_all)
    · rcases List.mem_pair.mp hu with rfl | rfl <;> exact absurd hnull (by decide)
  · intro l hl
    obtain rfl := List.mem_singleton.mp hl
    exact Or.inl rfl
  · refine ⟨fun x hx => ?_, fun x hx g hg => ?_, fun x hx y hy _ => ?_⟩
    · obtain rfl := hlink x hx
      exact le_refl 2
    · obtain rfl := hlink x hx
      rcases hg with rfl | rfl <;> decide
    · rw [hlink x hx, hlink y hy]
  · intro l hl
    rcases List.mem_pair.mp hl with rfl | rfl
    · exact Or.inl (Or.inr rfl)
    · exact Or.inr ⟨_, List.mem_cons_self, rfl⟩
  · exact ⟨fun x hx => (hjoin x hx).elim, fun x hx => (hjoin x hx).elim,
      fun x hx => (hjoin x hx).elim⟩

/-- The null is carried on to a position of the third predicate, which is an affected one;
the literal that guards the second dependency is that of the second link. -/
theorem affected_of_null_relay :
    ∃ affected, schema.affectedPositions = .ok affected ∧ schema.isWeaklyGuarded = .ok true ∧
      vocabulary.InventingRun schema {u | 2 ≤ u} facts [link, join]
        (facts ∪ link.adds vocabulary ∪ join.adds vocabulary) ∧
      ⟨⟨0, 2, 2⟩, 1⟩ ∈ affected ∧
      ∃ l ∈ join.tgd.body.literals, ∀ x ∈ join.tgd.universal, 2 ≤ join.values x → x ∈ l.vars := by
  have haffected := Schema.affectedPositions_eq_ok.mpr
    ⟨show schema.requireAtomicBodies = .ok () from rfl, rfl⟩
  have hweak : schema.isWeaklyGuarded = .ok true := by decide +kernel
  obtain ⟨hnulls, hguards⟩ := Schema.affected_of_null haffected
  refine ⟨_, haffected, hweak, inventingRun, ?_, ?_⟩
  · exact hnulls Nat _ _ _ _ _ inventingRun ⟨⟨0, 2, 2⟩, [1, 2], rfl⟩
      (Or.inr ⟨_, List.mem_cons_self, rfl⟩) 1 2 rfl (le_refl 2)
  · obtain ⟨l, hl, hcovers⟩ := hguards hweak join.tgd (by decide)
    exact ⟨l, hl, hcovers Nat _ _ _ _ _ inventingRun join (by simp) rfl⟩

end Relay

end DependencyTheory
