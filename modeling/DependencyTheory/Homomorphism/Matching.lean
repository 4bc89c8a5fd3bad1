/-
Mapping one literal onto another:

* `matchTerms?`: a substitution extended so that it maps one list of terms onto
  another, place by place;
* `matchBuiltIns`: the ways to map one built-in literal onto another.

Only domain variables are bound. Range variables are images like constants
are, and nothing is ever put in for them.
-/
import DependencyTheory.Substitution.Basic

namespace DependencyTheory.Homomorphism

/-- The substitution extended so that it maps each term of the first list to
the term at the same place of the second. -/
def matchTerms? (s : Substitution) : List Term → List Term → Option Substitution
  | [], [] => some s
  | .var x :: domain, t :: range => (s.bind? x t).bind fun s => matchTerms? s domain range
  | .const c :: domain, t :: range =>
    if t = .const c then matchTerms? s domain range else none
  | _, _ => none

/-- The ways to map one built-in literal onto another: as it is written and,
for a comparison, the other way round. Both bind the same variables in the
same order, so that equal values are equal maps; the second is left out when
it is the first over again. -/
def matchBuiltIns (s : Substitution) (domain range : BuiltIn) :
    List Substitution :=
  let asWritten :=
    if domain.operator = range.operator then
      (matchTerms? s domain.terms range.terms).toList
    else []
  let turned :=
    match range.converse with
    | some converse =>
      if domain.operator = converse.operator then
        (matchTerms? s domain.terms converse.terms).toList
      else []
    | none => []
  asWritten ++ turned.filter (· ∉ asWritten)

end DependencyTheory.Homomorphism
