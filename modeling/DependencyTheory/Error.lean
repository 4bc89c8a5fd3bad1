/-
What can go wrong, as causes, and how each cause is put into words:

* `SchemaError`: a literal, dependency or schema that cannot be built;
* `AnalysisError`: a question that an analysis cannot decide, which is not
  the answer "no".
-/
import DependencyTheory.Source.Trace

namespace DependencyTheory

/-- Why a literal, dependency or schema cannot be built. -/
inductive SchemaError where
  /-- A body without literals. -/
  | emptyBody
  /-- A tuple-generating dependency without head atoms. -/
  | emptyHead
  /-- A name declared a second time. -/
  | duplicatePredicate (name : String)
  /-- A handle that the schema did not issue. -/
  | predicateOutsideSchema (index arity : Nat)
  /-- A name that is not declared. -/
  | unknownPredicate (name : String)
  /-- A predicate with the wrong number of terms. -/
  | arityMismatch (expected found : Nat)
  /-- A built-in operator with the wrong number of terms. -/
  | builtInArity (operator : String) (expected found : Nat)
  /-- A text that is not written in the language of dependencies. -/
  | unreadable (source : List Char) (trace : Source.Trace)
  deriving DecidableEq

namespace SchemaError

/-- The cause in words. -/
def message : SchemaError → String
  | emptyBody => "clause body must contain at least one literal"
  | emptyHead => "tgd head must contain at least one atom"
  | duplicatePredicate name => "predicate \x60" ++ name ++ "\x60 is declared twice"
  | predicateOutsideSchema index arity =>
    "predicate #" ++ Nat.repr index ++ "/" ++ Nat.repr arity ++
      " does not belong to this schema"
  | unknownPredicate name => "predicate \x60" ++ name ++ "\x60 is not declared"
  | arityMismatch expected found =>
    "expected " ++ Nat.repr expected ++ " terms, found " ++ Nat.repr found
  | builtInArity operator expected found =>
    "built-in \x60" ++ operator ++ "\x60 takes " ++ Nat.repr expected ++
      " terms, found " ++ Nat.repr found
  | unreadable source trace => "parse error: " ++ trace.render source

end SchemaError

/-- What the language checks are not defined for. -/
inductive Unsupported where
  /-- A negated literal in the body of a dependency. -/
  | negatedBody
  /-- A built-in literal in the body of a dependency. -/
  | builtInBody
  /-- A body with a literal that is not a positive atom, in the marking
  procedure. -/
  | markedBody
  deriving DecidableEq

/-- Why an analysis cannot decide its question. -/
inductive AnalysisError where
  /-- A schema outside what the analysis is defined for. -/
  | unsupported (reason : Unsupported)
  /-- A literal over a derived predicate where only base predicates are
  allowed. -/
  | derivedLiteral (predicate : String)
  /-- A handle that the analysed schema did not issue. -/
  | foreignPredicate (index : Nat)
  deriving DecidableEq

namespace Unsupported

/-- The reason in words. -/
def message : Unsupported → String
  | negatedBody => "negated literal in dependency body"
  | builtInBody => "built-in literal in dependency body"
  | markedBody => "sticky marking needs positive atomic bodies"

end Unsupported

namespace AnalysisError

/-- The cause in words. -/
def message : AnalysisError → String
  | unsupported reason => "unsupported analysis: " ++ reason.message
  | derivedLiteral predicate =>
    "derived literal over \x60" ++ predicate ++
      "\x60 met without a derived literal criteria"
  | foreignPredicate index =>
    "predicate #" ++ Nat.repr index ++ " is not part of the analysed schema"

end AnalysisError

end DependencyTheory
