/-
What literals, rules and schemas mean:

* `Interpretation`: a relation for each predicate name and arity, a value for
  each constant, and a meaning for each built-in operator;
* `Interpretation.Holds`: whether a literal of a schema is true under an
  assignment of values to the variables;
* `Interpretation.IsTrue`: whether a list of literals is true for some
  assignment, which is the truth of its existential closure;
* `Interpretation.answers`: the tuples that a rule derives;
* `Interpretation.Supports`: whether each derived predicate of a schema holds of
  just the tuples that its rules derive;
* `Interpretation.Reversible`: whether comparisons may be read the other way round;
* `Interpretation.holds_of_maps`: images for the variables that turn each literal
  of one list into a literal of another carry truth from the second list back to
  the first.

An interpretation knows predicates by name and arity, so one interpretation
serves several schemas. The arity is the length of the tuple.
-/
import DependencyTheory.Proofs.Homomorphism.Definition
import Mathlib.Data.Set.Basic

namespace DependencyTheory

open Homomorphism

universe u

/-- A meaning for all names that literals are made of. -/
structure Interpretation (U : Type u) where
  relation : String → List U → Prop
  constant : String → U
  comparison : Comparison → U → U → Prop
  custom : String → List U → Prop

namespace Interpretation

variable {U : Type u} (I : Interpretation U)

/-! ### Truth of literals -/

/-- The value of a term under an assignment. -/
def value (v : String → U) : Term → U
  | .var x => v x
  | .const c => I.constant c

/-- Whether a built-in literal is true. -/
def HoldsBuiltIn (v : String → U) : BuiltIn → Prop
  | .comparison op left right => I.comparison op (I.value v left) (I.value v right)
  | .truth b => b = true
  | .custom name terms => I.custom name (terms.map (I.value v))

/-- Whether an atom over a predicate of the schema is true. -/
def HoldsAtom (s : Schema) (v : String → U) (a : Atom) : Prop :=
  ∃ p, s.get? a.predicate = some p ∧ I.relation p.name (a.terms.map (I.value v))

/-- Whether a literal is true. -/
def Holds (s : Schema) (v : String → U) : Literal → Prop
  | .ordinary true a => I.HoldsAtom s v a
  | .ordinary false a => ¬I.HoldsAtom s v a
  | .builtIn b => I.HoldsBuiltIn v b

/-- Whether all literals of a list are true. -/
def HoldsAll (s : Schema) (v : String → U) (literals : List Literal) : Prop :=
  ∀ l ∈ literals, I.Holds s v l

/-- Whether the existential closure of a list of literals is true. -/
def IsTrue (s : Schema) (literals : List Literal) : Prop :=
  ∃ v, I.HoldsAll s v literals

/-! ### Rules and schemas -/

/-- The tuples that a rule derives. -/
def answers (s : Schema) (r : Rule) : Set (List U) :=
  {args | ∃ v, r.head.map (I.value v) = args ∧ I.HoldsAll s v r.body.literals}

/-- Whether each derived predicate of a schema holds of just the tuples that
one of its rules derives. -/
def Supports (s : Schema) : Prop :=
  ∀ p ∈ s.predicates, p.isDerived = true → ∀ args : List U, args.length = p.arity →
    (I.relation p.name args ↔ ∃ r ∈ p.rules, args ∈ I.answers s r)

/-- Whether a comparison and its converse say the same of swapped values. -/
def RespectsConverse : Prop :=
  ∀ op a b, I.comparison op a b ↔ I.comparison op.converse b a

/-- Whether literals of a schema that are true stay so when they are read the
other way round. -/
def Reversible (s : Schema) (literals : List Literal) : Prop :=
  ∀ v, ∀ l ∈ literals, ∀ turned l', l.reading turned = some l' → I.Holds s v l → I.Holds s v l'

/-- Whether two handles refer to predicates of one arity that hold of the same
tuples. -/
def SameRelation (s t : Schema) (h k : Handle) : Prop :=
  ∃ p q, s.get? h = some p ∧ t.get? k = some q ∧ p.arity = q.arity ∧
    ∀ args : List U, args.length = p.arity → (I.relation p.name args ↔ I.relation q.name args)

variable {I} {s t : Schema} {v : String → U} {σ : String → Term}

/-- Predicates of one name and arity hold of the same tuples. -/
lemma sameRelation_of_samePredicate {sides : Sides} {h k : Handle}
    (hsame : SamePredicate sides h k) : I.SameRelation sides.domain sides.range h k := by
  obtain ⟨p, q, hp, hq, hname, harity⟩ := hsame
  exact ⟨p, q, hp, hq, harity, fun args _ => by rw [hname]⟩

/-! ### Truth under substitutions -/

/-- Putting in an image and then taking the value is taking the values of the
images. -/
lemma value_under (x : Term) :
    I.value v (x.under σ) = I.value (fun y => I.value v (σ y)) x := by
  cases x <;> rfl

lemma map_value_under (terms : List Term) :
    (terms.map (Term.under σ)).map (I.value v) =
      terms.map (I.value fun y => I.value v (σ y)) := by
  rw [List.map_map]
  exact List.map_congr_left fun x _ => value_under x

/-- A comparison says the same when it is read the other way round. -/
lemma holds_reading (hI : I.RespectsConverse) {l l' : Literal} {turned : Bool}
    (h : l.reading turned = some l') : I.Holds s v l ↔ I.Holds s v l' := by
  cases turned with
  | false => rw [Option.some.inj h]
  | true =>
      cases l with
      | ordinary p a => exact absurd h (by simp [Literal.reading])
      | builtIn b =>
          cases b with
          | comparison op left right =>
              cases h
              exact hI op _ _
          | truth value => exact absurd h (by simp [Literal.reading, BuiltIn.converse])
          | custom name terms => exact absurd h (by simp [Literal.reading, BuiltIn.converse])

/-- In an interpretation that knows what the converse of a comparison is, all
literals can be read either way. -/
lemma reversible_of_respectsConverse (hI : I.RespectsConverse) (literals : List Literal) :
    I.Reversible t literals :=
  fun _ _ _ _ _ hread hv => (holds_reading hI hread).mp hv

/-- Literals over predicates can only be read one way. -/
lemma reversible_of_ordinary {literals : List Literal}
    (h : ∀ l ∈ literals, ∃ p a, l = .ordinary p a) : I.Reversible t literals := by
  intro v l hl turned l' hread hv
  obtain ⟨p, a, rfl⟩ := h l hl
  rw [(Literal.reading_ordinary hread).1]
  exact hv

/-- Atoms over predicates that hold of the same tuples are true together if
their terms have the same values. -/
lemma holdsAtom_iff {w : String → U} {a b : Atom}
    (hsame : I.SameRelation s t a.predicate b.predicate)
    (hterms : a.terms.map (I.value w) = b.terms.map (I.value v)) :
    I.HoldsAtom s w a ↔ I.HoldsAtom t v b := by
  obtain ⟨p, q, hp, hq, harity, hrel⟩ := hsame
  have hlength : (a.terms.map (I.value w)).length = p.arity := by
    rw [List.length_map, a.fits, Schema.arity_of_get? hp]
  have hleft : I.HoldsAtom s w a ↔ I.relation p.name (a.terms.map (I.value w)) := by
    rw [HoldsAtom, hp]
    simp
  have hright : I.HoldsAtom t v b ↔ I.relation q.name (b.terms.map (I.value v)) := by
    rw [HoldsAtom, hq]
    simp
  rw [hleft, hright, ← hterms]
  exact hrel _ hlength

/-- A built-in literal is determined by its operator and its terms. -/
lemma holdsBuiltIn_iff {w : String → U} {a b : BuiltIn} (hop : a.operator = b.operator)
    (hterms : a.terms.map (I.value w) = b.terms.map (I.value v)) :
    I.HoldsBuiltIn w a ↔ I.HoldsBuiltIn v b := by
  cases a <;> cases b <;> simp_all [BuiltIn.operator, BuiltIn.terms, HoldsBuiltIn]

/-- Images that turn one literal into another turn the truth of the second into
the truth of the first. -/
lemma holds_of_onto {a b : Literal} (h : Onto (I.SameRelation s t) σ a b) :
    I.Holds s (fun x => I.value v (σ x)) a ↔ I.Holds t v b := by
  obtain ⟨halike, hterms⟩ := h
  have hvalues := congrArg (List.map (I.value v)) hterms
  rw [map_value_under] at hvalues
  cases a with
  | builtIn a =>
      cases b with
      | builtIn b => exact holdsBuiltIn_iff halike hvalues
      | ordinary q b => exact absurd halike id
  | ordinary p a =>
      cases b with
      | builtIn b => exact absurd halike id
      | ordinary q b =>
          obtain ⟨rfl, hsame⟩ := halike
          cases p with
          | true => exact holdsAtom_iff hsame hvalues
          | false => exact not_congr (holdsAtom_iff hsame hvalues)

/-- **Truth is carried back.** If images for the variables turn each literal of
one list into a literal of another, then an assignment that makes the second
list true makes the first true through the images. -/
theorem holds_of_maps {domain range : List Literal} (hread : I.Reversible t range)
    (h : Maps (I.SameRelation s t) σ domain range) (hv : I.HoldsAll t v range) :
    I.HoldsAll s (fun x => I.value v (σ x)) domain := fun a ha => by
  obtain ⟨b, hb, turned, b', hturned, honto⟩ := h a ha
  exact (holds_of_onto honto).mpr (hread v b hb turned b' hturned (hv b hb))

/-- Rules that are mapped onto another rule derive at least its tuples. -/
lemma answers_subset_of_mapsRule {d r : Rule} (hread : I.Reversible t r.body.literals)
    (h : MapsRule (I.SameRelation s t) d r) : I.answers t r ⊆ I.answers s d := by
  obtain ⟨σ, hhead, hbody⟩ := h
  rintro args ⟨v, rfl, hv⟩
  refine ⟨fun x => I.value v (σ x), ?_, holds_of_maps hread hbody hv⟩
  rw [← map_value_under, hhead]

end Interpretation

end DependencyTheory
