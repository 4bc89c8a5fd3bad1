/-
Homomorphisms between literal lists, clauses, rules and denials:

* `Setting`: the schemas of the two sides, and the policy for derived
  predicates;
* `Setting.homomorphism?`: a homomorphism between two lists of literals;
* `Setting.homomorphismFrom?`: the same, extending a given substitution;
* `Setting.ruleHomomorphism?`: a homomorphism between rules, which maps head
  onto head.

Where derived predicates are forbidden, the literals are looked through
before the search, so the error does not depend on how far the search gets.
-/
import DependencyTheory.Homomorphism.Search

namespace DependencyTheory.Homomorphism

/-- The schemas in which the literals of the two sides are read, and how
literals over derived predicates are treated. -/
structure Setting where
  domain : Schema
  range : Schema
  policy : Policy

/-- The name of the first literal over a derived predicate of a schema. -/
def firstDerived? (s : Schema) (literals : List Literal) : Option String :=
  literals.findSome? fun l =>
    (l.predicate?.bind s.get?).bind fun p => if p.isDerived then some p.name else none

namespace Setting

/-- The setting for the other direction. -/
def converse (m : Setting) : Setting := ⟨m.range, m.domain, m.policy⟩

/-- The two schemas, in the places in which a search starts. -/
def sides (m : Setting) : Sides := ⟨m.domain, m.range, false⟩

/-- Which predicates match. -/
@[inline] def agree (m : Setting) : Agreement := startingAgreement m.policy m.sides

/-- Refuses literals over derived predicates where they are forbidden, those
of the domain first. -/
def refuseDerived (m : Setting) (domain range : List Literal) :
    Except AnalysisError Unit :=
  match m.policy with
  | .forbidden =>
    match (firstDerived? m.domain domain).or (firstDerived? m.range range) with
    | some name => .error (.derivedLiteral name)
    | none => .ok ()
  | .sameName | .ruleStructural => .ok ()

/-- A homomorphism between two lists of literals that extends a given
substitution. -/
def homomorphismFrom? (m : Setting) (start : Substitution)
    (domain range : List Literal) : Except AnalysisError (Option Substitution) := do
  m.refuseDerived domain range
  let (found, _) ← (search m.agree m.sides range domain start).run []
  return found

/-- A homomorphism between two lists of literals. -/
def homomorphism? (m : Setting) (domain range : List Literal) :
    Except AnalysisError (Option Substitution) :=
  m.homomorphismFrom? .empty domain range

/-- A homomorphism between two clauses. -/
def clauseHomomorphism? (m : Setting) (domain range : Clause) :
    Except AnalysisError (Option Substitution) :=
  m.homomorphism? domain.literals range.literals

/-- A homomorphism between two denials. -/
def constraintHomomorphism? (m : Setting) (domain range : Constraint) :
    Except AnalysisError (Option Substitution) :=
  m.clauseHomomorphism? domain.body range.body

/-- A homomorphism between two rules: the heads are mapped onto each other
place by place, and the bodies then follow. -/
def ruleHomomorphism? (m : Setting) (domain range : Rule) :
    Except AnalysisError (Option Substitution) := do
  m.refuseDerived domain.body.literals range.body.literals
  let (found, _) ← (searchRule m.agree m.sides domain range).run []
  return found

end Setting

end DependencyTheory.Homomorphism
