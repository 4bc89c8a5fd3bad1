/-
Membership in the languages of tuple-generating dependencies for which query
answering is decidable:

* `Schema.isLinear`: every body is a single atom;
* `Schema.isGuarded`: every body has an atom with all its variables;
* `Schema.isWeaklyGuarded`: every body has an atom with all those variables
  that may stand for invented values;
* `Schema.isSticky`: no body repeats a variable at marked positions.

The languages are defined over positive atoms, so other literals in a body
make the question unsupported. Dependencies that generate equalities must be
non-conflicting for any of the languages.
-/
import DependencyTheory.Conflict
import DependencyTheory.Position.Affected
import DependencyTheory.Position.Marking

namespace DependencyTheory

/-- What puts a body literal outside all the languages. -/
def Literal.unsupported? : Literal → Option Unsupported
  | ordinary true _ => none
  | ordinary false _ => some .negatedBody
  | builtIn _ => some .builtInBody

namespace Schema

/-- Refuses a schema whose dependencies have other body literals than
positive atoms; the first such literal gives the reason. -/
def requireAtomicBodies (s : Schema) : Except AnalysisError Unit :=
  match (s.dependencies.flatMap fun d => d.body.literals).findSome?
      Literal.unsupported? with
  | some reason => .error (.unsupported reason)
  | none => .ok ()

/-- Whether a supported schema is non-conflicting and has a further
property. -/
def isNonConflictingAnd (s : Schema) (property : Except AnalysisError Bool) :
    Except AnalysisError Bool := do
  s.requireAtomicBodies
  if s.isNonConflicting then property else return false

/-- The affected positions of the schema's dependencies. -/
def affectedPositions (s : Schema) : Except AnalysisError (OrderedSet Position) := do
  s.requireAtomicBodies
  return DependencyTheory.affectedPositions s.tgds

/-- Whether every body is a single atom. -/
def isLinear (s : Schema) : Except AnalysisError Bool :=
  s.isNonConflictingAnd (return s.tgds.all Tgd.isLinear)

/-- Whether every body has an atom with all its variables. -/
def isGuarded (s : Schema) : Except AnalysisError Bool :=
  s.isNonConflictingAnd (return s.tgds.all Tgd.isGuarded)

/-- Whether every body has an atom with all its variables that occur at
affected positions only. -/
def isWeaklyGuarded (s : Schema) : Except AnalysisError Bool :=
  s.isNonConflictingAnd do
    let affected ← s.affectedPositions
    return s.tgds.all fun t =>
      (t.coveringLiteral? (t.affectedVariables affected)).isSome

/-- Whether no body repeats a variable at marked positions. -/
def isSticky (s : Schema) : Except AnalysisError Bool :=
  s.isNonConflictingAnd do
    let marked ← stickyMarking s.tgds
    let markedVars := marked.toList.filterMap fun p =>
      (p.varName? s.tgds).map fun x => (p.tgd, x)
    return decide markedVars.Nodup

end Schema

end DependencyTheory
