/-
Predicates of the same definition, said without a search:

* `SamePredicate`: two handles for predicates of one name and arity;
* `Defines`: whether two derived predicates have equivalent rules, given which
  predicates count as the same;
* `SameDefinition`: the least relation between predicates that holds where the
  names agree, and where the rules are equivalent up to itself;
* `sameDefinition_iff`, `sameDefinition_induction`: it is such a relation, and
  below all others.

Rules are compared both ways round, with homomorphisms from the domain to the
range and back, so the relation is one on pairs of schemas and their handles.
-/
import DependencyTheory.Homomorphism.Search
import DependencyTheory.Proofs.Homomorphism.Choice
import Mathlib.Order.FixedPoints

namespace DependencyTheory.Homomorphism

/-- Which domain handles and range handles count as the same, whatever the two
schemas are. -/
abbrev Likeness := Sides → Handle → Handle → Prop

variable {R S : Likeness} {sides : Sides} {d r : Handle} {p q : Predicate}

/-! ### Names -/

/-- Whether a domain handle and a range handle refer to predicates of one name
and arity. -/
def SamePredicate (sides : Sides) (d r : Handle) : Prop :=
  ∃ p q, sides.domain.get? d = some p ∧ sides.range.get? r = some q ∧
    p.name = q.name ∧ p.arity = q.arity

lemma namesAgree_iff : namesAgree p q = true ↔ p.name = q.name ∧ p.arity = q.arity := by
  rw [namesAgree, Bool.and_eq_true, beq_iff_eq, beq_iff_eq]

/-- Between declared predicates, the same predicate means the same name and
arity. -/
lemma samePredicate_iff (hp : sides.domain.get? d = some p)
    (hq : sides.range.get? r = some q) :
    SamePredicate sides d r ↔ namesAgree p q = true := by
  rw [namesAgree_iff]
  constructor
  · rintro ⟨p', q', hp', hq', hnames⟩
    cases hp.symm.trans hp'
    cases hq.symm.trans hq'
    exact hnames
  · exact fun hnames => ⟨p, q, hp, hq, hnames⟩

/-! ### Rules -/

/-- Whether there are homomorphisms both ways between two rules. -/
def Counterparts (R : Likeness) (sides : Sides) (rule other : Rule) : Prop :=
  MapsRule (R sides) rule other ∧ MapsRule (R sides.turn) other rule

/-- Whether each rule of a list has a counterpart in another. -/
def Matched (R : Likeness) (sides : Sides) (rules others : List Rule) : Prop :=
  ∀ rule ∈ rules, ∃ other ∈ others, Counterparts R sides rule other

/-- Whether two predicates are derived, of one arity, and have counterparts for
all rules of each other. -/
def Defines (R : Likeness) (sides : Sides) (d r : Handle) : Prop :=
  ∃ p q, sides.domain.get? d = some p ∧ sides.range.get? r = some q ∧
    (p.isDerived = true ∧ q.isDerived = true ∧ p.arity = q.arity) ∧
    Matched R sides p.rules q.rules ∧ Matched R sides.turn q.rules p.rules

/-- With more predicates that count as the same, no fewer rules are equivalent. -/
lemma Matched.mono {rules others : List Rule} (h : Matched R sides rules others) (hRS : R ≤ S) :
    Matched S sides rules others := fun rule hrule => by
  obtain ⟨other, hother, hforth, hback⟩ := h rule hrule
  exact ⟨other, hother, hforth.imp (hRS sides), hback.imp (hRS sides.turn)⟩

lemma Defines.mono (h : Defines R sides d r) (hRS : R ≤ S) : Defines S sides d r := by
  obtain ⟨p, q, hp, hq, hshape, hforth, hback⟩ := h
  exact ⟨p, q, hp, hq, hshape, hforth.mono hRS, hback.mono hRS⟩

/-! ### The least fixed point -/

/-- One step of the comparison: two predicates count as the same afterwards if
their names agree, or if their rules are equivalent before. -/
def compareRules : Likeness →o Likeness where
  toFun R sides d r := SamePredicate sides d r ∨ Defines R sides d r
  monotone' _ _ hRS _ _ _ h := h.imp_right fun h => h.mono hRS

/-- Whether two predicates have the same definition: by name, or by rules that
are equivalent because of finitely many other predicates of the same
definition. -/
def SameDefinition : Likeness := compareRules.lfp

/-- Predicates have the same definition iff their names agree or their rules are
equivalent up to predicates of the same definition. -/
theorem sameDefinition_iff :
    SameDefinition sides d r ↔ SamePredicate sides d r ∨ Defines SameDefinition sides d r := by
  have hfix : compareRules SameDefinition = SameDefinition := compareRules.map_lfp
  conv_lhs => rw [← hfix]
  rfl

/-- What holds of predicates with one name, and of predicates whose rules are
equivalent up to it, holds of all predicates of the same definition. -/
theorem sameDefinition_induction
    (hnames : ∀ sides d r, SamePredicate sides d r → R sides d r)
    (hrules : ∀ sides d r, Defines R sides d r → R sides d r)
    (h : SameDefinition sides d r) : R sides d r := by
  have hle : SameDefinition ≤ R := compareRules.lfp_le fun sides d r hstep =>
    hstep.elim (hnames sides d r) (hrules sides d r)
  exact hle sides d r h

end DependencyTheory.Homomorphism
