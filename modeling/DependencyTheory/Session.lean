/-
Sessions, in which several builders and schemas are worked on side by side:

* `Session`: builders, schemas and handles under names of their own;
* `Session.openBuilder`, `Session.reopen`: new builders, each with an issuer
  number that no builder had before;
* `Session.declare`, `Session.addRule`, `Session.addDependencies`: steps of a
  builder under a name;
* `Session.build`, `Session.readText`: new schemas;
* `Session.putBuilder`, `Session.putSchema`, `Session.putHandle`: what a name
  stands for from now on.

A name may be used again; what it stood for is then replaced. A step that
fails replaces nothing, but a builder is used up by building, whether that
succeeds or not.
-/
import DependencyTheory.Source.Resolution

namespace DependencyTheory

/-- Builders, schemas and handles, each kind under names of its own. The
numbers below `issued` are those that builders have. -/
structure Session where
  issued : Nat
  builders : List (String × Builder)
  schemas : List (String × Schema)
  handles : List (String × Handle)

namespace Session

/-- The session before the first step. -/
def empty : Session := ⟨0, [], [], []⟩

/-- The builder under a name. -/
def builder? (s : Session) (name : String) : Option Builder := s.builders.lookup name

/-- The schema under a name. -/
def schema? (s : Session) (name : String) : Option Schema := s.schemas.lookup name

/-- The handle under a name. -/
def handle? (s : Session) (name : String) : Option Handle := s.handles.lookup name

/-- Puts a builder under a name. -/
def putBuilder (s : Session) (name : String) (b : Builder) : Session :=
  { s with builders := (name, b) :: s.builders }

/-- Puts a schema under a name. -/
def putSchema (s : Session) (name : String) (schema : Schema) : Session :=
  { s with schemas := (name, schema) :: s.schemas }

/-- Puts a handle under a name. -/
def putHandle (s : Session) (name : String) (h : Handle) : Session :=
  { s with handles := (name, h) :: s.handles }

/-- A number that no builder has had, and the session in which it is
taken. -/
def freshIssuer (s : Session) : Nat × Session :=
  (s.issued, { s with issued := s.issued + 1 })

/-- A new builder without predicates. -/
def openBuilder (s : Session) (name : String) : Session :=
  let (issuer, s) := s.freshIssuer
  s.putBuilder name (.new issuer)

/-- A new builder over the table of a schema. -/
def reopen (s : Session) (schema : Schema) (name : String) : Session :=
  let (issuer, s) := s.freshIssuer
  s.putBuilder name (schema.reopen issuer)

/-- The schema that a text describes, with predicates of its own. -/
def readText (s : Session) (text : String) : Except SchemaError (Schema × Session) := do
  let (issuer, s) := s.freshIssuer
  return (← Schema.ofText issuer text, s)

/-- Declares a predicate with the builder `b` under `name`. -/
def declare (s : Session) (name : String) (b : Builder) (predicate : String)
    (arity : Nat) : Except SchemaError (Handle × Session) := do
  let (h, b) ← b.declare predicate arity
  return (h, s.putBuilder name b)

/-- Adds a rule with the builder `b` under `name`. -/
def addRule (s : Session) (name : String) (b : Builder) (h : Handle) (rule : Rule) :
    Except SchemaError Session := do
  return s.putBuilder name (← b.addRule h rule)

/-- Adds dependencies with the builder `b` under `name`. -/
def addDependencies (s : Session) (name : String) (b : Builder) (ds : List Dependency) :
    Session :=
  s.putBuilder name (b.addDependencies ds)

/-- Takes the builder away from its name. -/
def closeBuilder (s : Session) (name : String) : Session :=
  { s with builders := s.builders.filter (·.1 ≠ name) }

/-- The schema that the builder `b` under `name` has made, or why there is
none, and the session without the builder. -/
def build (s : Session) (name : String) (b : Builder) :
    Except SchemaError Schema × Session :=
  (b.build, s.closeBuilder name)

end Session

end DependencyTheory
