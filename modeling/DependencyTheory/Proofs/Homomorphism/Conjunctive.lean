/-
Equivalence of conjunctive queries is decided by homomorphisms:

* `Conjunctive`: lists of affirmed literals over base predicates;
* `canonical`: the interpretation that a list of literals describes, in which terms
  are their own values;
* `exists_maps_iff`, `mapsRule_iff`: a homomorphism exists iff truth is carried
  back in all interpretations, or the tuples of a rule are;
* `equivalence_decides`: the verdict on two conjunctive lists or rules is that they
  are equivalent iff they agree in all interpretations, and otherwise that they are
  not.

The canonical interpretation makes the literals that it is made of true when each
variable is assigned itself. An assignment that makes another list true there is
a homomorphism, which is why no other interpretation need be looked at.
-/
import DependencyTheory.Proofs.Homomorphism.ByName
import DependencyTheory.Proofs.Semantics.Interpretation

namespace DependencyTheory.Homomorphism

universe u

variable {s t : Schema} {sides : Sides} {m : Setting} {domain range literals : List Literal}

/-! ### Conjunctive queries -/

/-- Whether all literals affirm atoms over base predicates of the schema. -/
def Conjunctive (s : Schema) (literals : List Literal) : Prop :=
  ∀ l ∈ literals, ∃ a p, l = .ordinary true a ∧ s.get? a.predicate = some p ∧
    p.isDerived = false

lemma isConjunctive_of_conjunctive (h : Conjunctive s literals) :
    isConjunctive s literals = true := by
  refine List.all_eq_true.mpr fun l hl => ?_
  obtain ⟨a, p, rfl, hp, hbase⟩ := h l hl
  simp [Literal.positiveAtom?, hp, hbase]

lemma Conjunctive.declares (h : Conjunctive s literals) : Declares s literals := by
  intro l hl k hk
  obtain ⟨a, p, rfl, hp, -⟩ := h l hl
  cases hk
  exact ⟨p, hp⟩

lemma Conjunctive.overBase (h : Conjunctive s literals) : OverBase s literals := by
  intro l hl k hk q hq
  obtain ⟨a, p, rfl, hp, hbase⟩ := h l hl
  cases hk
  cases hp.symm.trans hq
  exact hbase

lemma Conjunctive.namesDecide (hd : Conjunctive m.domain domain)
    (hr : Conjunctive m.range range) : NamesDecide m domain range :=
  ⟨hd.declares, hr.declares, Or.inr ⟨hd.overBase, hr.overBase⟩⟩

lemma Conjunctive.reversible {U : Type u} {I : Interpretation U} (h : Conjunctive s literals) :
    I.Reversible s literals := by
  refine Interpretation.reversible_of_ordinary fun l hl => ?_
  obtain ⟨a, p, rfl, -⟩ := h l hl
  exact ⟨true, a, rfl⟩

/-! ### Canonical interpretations -/

/-- The interpretation that a list of literals describes: each term is its own
value, and a predicate holds of the terms that a literal affirms it of. -/
def canonical (s : Schema) (literals : List Literal) : Interpretation (ULift.{u} Term) where
  relation name args := ∃ a p, .ordinary true a ∈ literals ∧
    s.get? a.predicate = some p ∧ p.name = name ∧ a.terms.map ULift.up = args
  constant c := ⟨.const c⟩
  comparison _ _ _ := False
  custom _ _ := False

/-- The assignment of each variable to itself. -/
def generic (x : String) : ULift.{u} Term := ⟨.var x⟩

lemma injective_constant_canonical :
    Function.Injective (canonical.{u} s literals).constant := by
  intro c c' h
  cases h
  rfl

/-- The values in a canonical interpretation are the terms after substitution. -/
lemma value_canonical (v : String → ULift.{u} Term) (terms : List Term) :
    terms.map ((canonical s literals).value v) =
      (terms.map (Term.under fun x => (v x).down)).map ULift.up := by
  rw [List.map_map]
  refine List.map_congr_left fun x _ => ?_
  cases x <;> rfl

lemma value_generic (terms : List Term) :
    terms.map ((canonical s literals).value generic.{u}) = terms.map ULift.up := by
  refine List.map_congr_left fun x _ => ?_
  cases x <;> rfl

/-- A list is true in its canonical interpretation. -/
lemma holdsAll_canonical (h : Conjunctive s literals) :
    (canonical.{u} s literals).HoldsAll s generic literals := by
  intro l hl
  obtain ⟨a, p, rfl, hp, -⟩ := h l hl
  refine ⟨p, hp, ?_⟩
  rw [value_generic]
  exact ⟨a, p, hl, hp, rfl, rfl⟩

/-- An assignment under which a conjunctive list is true in the canonical
interpretation of another maps the first into the second. -/
lemma maps_of_canonical (hd : Conjunctive sides.domain domain) {v : String → ULift.{u} Term}
    (hv : (canonical sides.range range).HoldsAll sides.domain v domain) :
    Maps (SamePredicate sides) (fun x => (v x).down) domain range := by
  intro l hl
  obtain ⟨a, -, rfl, -, -⟩ := hd l hl
  obtain ⟨p, hp, b, q, hb, hq, hname, hterms⟩ := hv _ hl
  rw [value_canonical] at hterms
  have hterms : b.terms = a.terms.map (Term.under fun x => (v x).down) :=
    List.map_injective_iff.mpr ULift.up_injective hterms
  have harity : p.arity = q.arity := by
    rw [Schema.arity_of_get? hp, Schema.arity_of_get? hq, ← a.fits, ← b.fits, hterms,
      List.length_map]
  exact ⟨_, hb, false, _, rfl, ⟨rfl, p, q, hp, hq, hname.symm, harity⟩, hterms.symm⟩

/-! ### Homomorphisms and truth -/

/-- **The homomorphism theorem for lists.** A conjunctive list can be mapped into
another iff it is true wherever the other is. -/
theorem exists_maps_iff (sides : Sides) (hd : Conjunctive sides.domain domain)
    (hr : Conjunctive sides.range range) :
    (∃ σ, Maps (SamePredicate sides) σ domain range) ↔
      ∀ (U : Type u) (I : Interpretation U), Function.Injective I.constant →
        I.IsTrue sides.range range → I.IsTrue sides.domain domain := by
  constructor
  · rintro ⟨σ, hmaps⟩ U I - ⟨v, hv⟩
    have hmaps : Maps (I.SameRelation sides.domain sides.range) σ domain range :=
      hmaps.imp fun _ _ => Interpretation.sameRelation_of_samePredicate
    exact ⟨_, Interpretation.holds_of_maps hr.reversible hmaps hv⟩
  · intro h
    obtain ⟨v, hv⟩ := h _ (canonical sides.range range) injective_constant_canonical
      ⟨generic, holdsAll_canonical hr⟩
    exact ⟨_, maps_of_canonical hd hv⟩

/-- **The homomorphism theorem for rules.** A rule with a conjunctive body can be
mapped onto another iff it derives all that the other derives. -/
theorem mapsRule_iff (sides : Sides) {d r : Rule} (hd : Conjunctive sides.domain d.body.literals)
    (hr : Conjunctive sides.range r.body.literals) :
    MapsRule (SamePredicate sides) d r ↔
      ∀ (U : Type u) (I : Interpretation U), Function.Injective I.constant →
        I.answers sides.range r ⊆ I.answers sides.domain d := by
  constructor
  · intro hmaps U I _
    have hmaps : MapsRule (I.SameRelation sides.domain sides.range) d r :=
      hmaps.imp fun _ _ => Interpretation.sameRelation_of_samePredicate
    exact Interpretation.answers_subset_of_mapsRule hr.reversible hmaps
  · intro h
    have hanswer : r.head.map ULift.up ∈
        (canonical.{u} sides.range r.body.literals).answers sides.range r :=
      ⟨generic, value_generic r.head, holdsAll_canonical hr⟩
    obtain ⟨v, hhead, hv⟩ := h _ _ injective_constant_canonical hanswer
    rw [value_canonical] at hhead
    exact ⟨_, List.map_injective_iff.mpr ULift.up_injective hhead, maps_of_canonical hd hv⟩

/-! ### Equivalence -/

/-- Whether an answer is that two queries are equivalent if they are, and that they
are not if they are not. -/
def Decides (answer : Except AnalysisError Verdict) (P : Prop) : Prop :=
  answer = .ok .equivalent ∧ P ∨ answer = .ok .notEquivalent ∧ ¬P

/-- A verdict on conjunctive queries, based on searches both ways. -/
lemma decides_of_finds {forth back : Except AnalysisError (Option Substitution)} {P Q : Prop}
    (hd : Conjunctive m.domain domain) (hr : Conjunctive m.range range)
    (hforth : Finds forth P) (hback : Finds back Q) :
    Decides (do match ← forth with
      | none => return m.verdict domain range false
      | some _ =>
        let back ← back
        return m.verdict domain range back.isSome) (P ∧ Q) := by
  have hverdict : ∀ bothWays, m.verdict domain range bothWays =
      if bothWays then .equivalent else .notEquivalent := fun bothWays => by
    simp [Setting.verdict, isConjunctive_of_conjunctive hd, isConjunctive_of_conjunctive hr]
  obtain ⟨found, rfl, hP⟩ := hforth
  obtain ⟨found', rfl, hQ⟩ := hback
  cases found with
  | none =>
      refine Or.inr ⟨congrArg Except.ok (hverdict false), fun h => ?_⟩
      exact absurd (hP.mpr h.1) (by simp)
  | some t =>
      cases found' with
      | none =>
          refine Or.inr ⟨congrArg Except.ok (hverdict false), fun h => ?_⟩
          exact absurd (hQ.mpr h.2) (by simp)
      | some t' =>
          exact Or.inl ⟨congrArg Except.ok (hverdict true), hP.mp rfl, hQ.mp rfl⟩

/-- Whether two lists of literals are true in the same interpretations, of those
in which constants of different names have different values. -/
def SameTruth (m : Setting) (domain range : List Literal) : Prop :=
  ∀ (U : Type u) (I : Interpretation U), Function.Injective I.constant →
    (I.IsTrue m.domain domain ↔ I.IsTrue m.range range)

/-- Whether two rules derive the same tuples in such interpretations. -/
def SameAnswers (m : Setting) (d r : Rule) : Prop :=
  ∀ (U : Type u) (I : Interpretation U), Function.Injective I.constant →
    I.answers m.domain d = I.answers m.range r

/-- **Equivalence of conjunctive queries is decided**, under every policy and for
every two schemas: of lists, whether they are true in the same interpretations, and
of rules, whether they derive the same tuples. -/
theorem equivalence_decides (m : Setting) :
    (∀ domain range, Conjunctive m.domain domain → Conjunctive m.range range →
      Decides (m.equivalence domain range) (SameTruth.{u} m domain range)) ∧
    ∀ d r : Rule, Conjunctive m.domain d.body.literals → Conjunctive m.range r.body.literals →
      Decides (m.ruleEquivalence d r) (SameAnswers.{u} m d r) := by
  constructor
  · intro domain range hd hr
    have hdecides := decides_of_finds hd hr
      (homomorphism?_byName (hd.namesDecide hr))
      (homomorphism?_byName (m := m.converse) (hr.namesDecide hd))
    have hsame : SameTruth.{u} m domain range ↔
        (∃ σ, Maps (SamePredicate m.sides) σ domain range) ∧
          ∃ σ, Maps (SamePredicate m.converse.sides) σ range domain := by
      rw [exists_maps_iff.{u} m.sides hd hr, exists_maps_iff.{u} m.converse.sides hr hd]
      exact ⟨fun h => ⟨fun U I hI => (h U I hI).mpr, fun U I hI => (h U I hI).mp⟩,
        fun h U I hI => ⟨h.2 U I hI, h.1 U I hI⟩⟩
    rw [hsame]
    exact hdecides
  · intro d r hd hr
    have hdecides := decides_of_finds hd hr
      (ruleHomomorphism?_byName (hd.namesDecide hr))
      (ruleHomomorphism?_byName (m := m.converse) (hr.namesDecide hd))
    have hsame : SameAnswers.{u} m d r ↔
        MapsRule (SamePredicate m.sides) d r ∧ MapsRule (SamePredicate m.converse.sides) r d := by
      rw [mapsRule_iff.{u} m.sides hd hr, mapsRule_iff.{u} m.converse.sides hr hd]
      exact ⟨fun h => ⟨fun U I hI => (h U I hI).ge, fun U I hI => (h U I hI).le⟩,
        fun h U I hI => Set.Subset.antisymm (h.2 U I hI) (h.1 U I hI)⟩
    rw [hsame]
    exact hdecides

/-- Queries over two schemas that declare an edge predicate in different places: one
pair that is equivalent, one that is not, and a pair of rules with a head variable
that their bodies do not bind. -/
theorem equivalence_decides_edges :
    let edge (index : Nat) (s t : Term) : Literal :=
      .ordinary true ⟨⟨index, index, 2⟩, [s, t], rfl⟩
    let m : Setting :=
      ⟨⟨[⟨0, "P", 2, []⟩], []⟩, ⟨[⟨1, "Q", 1, []⟩, ⟨1, "P", 2, []⟩], []⟩, .forbidden⟩
    let d : List Literal := [edge 0 (.var "x") (.const "c"), edge 0 (.var "y") (.const "c")]
    let r : List Literal := [edge 1 (.var "y") (.const "c")]
    let loop : List Literal := [edge 1 (.var "x") (.var "x")]
    let head : List Term := [.var "y", .var "w", .const "c"]
    let rule : Rule := ⟨head, d, by simp [d]⟩
    let other : Rule := ⟨head, r, by simp [r]⟩
    (m.equivalence d r = .ok .equivalent ∧ SameTruth.{0} m d r) ∧
      (m.equivalence d loop = .ok .notEquivalent ∧ ¬SameTruth.{0} m d loop) ∧
      m.ruleEquivalence rule other = .ok .equivalent ∧ SameAnswers.{0} m rule other := by
  intro edge m d r loop head rule other
  have hd : Conjunctive m.domain d := by
    intro l hl
    simp only [d, edge, List.mem_cons, List.not_mem_nil, or_false] at hl
    rcases hl with rfl | rfl <;> exact ⟨_, _, rfl, rfl, rfl⟩
  have hedge : ∀ s t, Conjunctive m.range [edge 1 s t] := by
    intro s t l hl
    simp only [edge, List.mem_singleton] at hl
    exact ⟨_, _, hl, rfl, rfl⟩
  have hr : Conjunctive m.range r := hedge _ _
  have hequivalent : m.equivalence d r = .ok .equivalent := by decide +kernel
  have hdifferent : m.equivalence d loop = .ok .notEquivalent := by decide +kernel
  have hrules : m.ruleEquivalence rule other = .ok .equivalent := by decide +kernel
  obtain ⟨hlists, hrules'⟩ := equivalence_decides.{0} m
  refine ⟨⟨hequivalent, ?_⟩, ⟨hdifferent, ?_⟩, hrules, ?_⟩
  · rcases hlists d r hd hr with ⟨-, hsame⟩ | ⟨hne, -⟩
    · exact hsame
    · exact absurd (hequivalent.symm.trans hne) (by simp)
  · rcases hlists d loop hd (hedge _ _) with ⟨heq, -⟩ | ⟨-, hsame⟩
    · exact absurd (hdifferent.symm.trans heq) (by simp)
    · exact hsame
  · rcases hrules' rule other hd hr with ⟨-, hsame⟩ | ⟨hne, -⟩
    · exact hsame
    · exact absurd (hrules.symm.trans hne) (by simp)

end DependencyTheory.Homomorphism
