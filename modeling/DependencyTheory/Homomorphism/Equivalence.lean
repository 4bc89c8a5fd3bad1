/-
Equivalence, as far as homomorphisms decide it:

* `Verdict`: equivalent, not equivalent, or unknown;
* `Setting.equivalence`: the verdict on two lists of literals;
* `Setting.ruleEquivalence`: the verdict on two rules.

Homomorphisms both ways prove equivalence. That they are missing proves the
opposite only for conjunctive queries; for anything else the verdict is then
unknown.
-/
import DependencyTheory.Homomorphism.Setting

namespace DependencyTheory.Homomorphism

/-- What is known about the equivalence of two queries. -/
inductive Verdict where
  | equivalent
  | notEquivalent
  | unknown
  deriving DecidableEq

namespace Verdict

/-- The answer to "are they equivalent?", if there is one. -/
def decided : Verdict → Option Bool
  | equivalent => some true
  | notEquivalent => some false
  | unknown => none

/-- The word for a verdict. -/
def name : Verdict → String
  | equivalent => "Equivalent"
  | notEquivalent => "NotEquivalent"
  | unknown => "Unknown"

end Verdict

/-- Whether all literals affirm atoms over base predicates of a schema. -/
def isConjunctive (s : Schema) (literals : List Literal) : Bool :=
  literals.all fun l =>
    match l.positiveAtom? with
    | some a => (s.get? a.predicate).any fun p => !p.isDerived
    | none => false

namespace Setting

/-- The verdict when it is known whether there are homomorphisms both ways. -/
def verdict (m : Setting) (domain range : List Literal) (bothWays : Bool) : Verdict :=
  if bothWays then .equivalent
  else if isConjunctive m.domain domain && isConjunctive m.range range then .notEquivalent
  else .unknown

/-- The verdict on two lists of literals. The way back is searched only when
there is a way forth. -/
def equivalence (m : Setting) (domain range : List Literal) :
    Except AnalysisError Verdict := do
  match ← m.homomorphism? domain range with
  | none => return m.verdict domain range false
  | some _ =>
    let back ← m.converse.homomorphism? range domain
    return m.verdict domain range back.isSome

/-- The verdict on two denials. -/
def constraintEquivalence (m : Setting) (domain range : Constraint) :
    Except AnalysisError Verdict :=
  m.equivalence domain.body.literals range.body.literals

/-- The verdict on two rules. -/
def ruleEquivalence (m : Setting) (domain range : Rule) :
    Except AnalysisError Verdict := do
  match ← m.ruleHomomorphism? domain range with
  | none => return m.verdict domain.body.literals range.body.literals false
  | some _ =>
    let back ← m.converse.ruleHomomorphism? range domain
    return m.verdict domain.body.literals range.body.literals back.isSome

end Setting

end DependencyTheory.Homomorphism
