/-
What a dependency text says, before its predicates are looked up:

* `Source.Atom`, `Source.Literal`, `Source.Head`: the parts of a statement,
  in which a predicate is still a name;
* `Source.Statement`: a dependency or a derivation rule.
-/
import DependencyTheory.BuiltIn

namespace DependencyTheory.Source

/-- A predicate name in front of terms. -/
structure Atom where
  predicate : String
  terms : List Term
  deriving DecidableEq

/-- A condition in a body. -/
inductive Literal where
  | atom (positive : Bool) (a : Atom)
  | comparison (op : Comparison) (left right : Term)
  | truth (value : Bool)
  deriving DecidableEq

/-- What a dependency generates. -/
inductive Head where
  | atoms (as : List Atom)
  | equality (left right : Term)
  deriving DecidableEq

/-- A statement: `body -> head.` or `head :- body.` -/
inductive Statement where
  | dependency (body : List Literal) (head : Head)
  | rule (head : Atom) (body : List Literal)
  deriving DecidableEq

end DependencyTheory.Source
