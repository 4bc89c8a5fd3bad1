/-
Building schemas step by step:

* `Builder`: a table and dependencies that have not been checked yet;
* `Builder.declare`, `Builder.addRule`, `Builder.addDependencies`: the steps;
* `Builder.build`: the check of every reference, after which there is a
  schema;
* `Schema.reopen`: a builder that starts from the table of a schema.

A step that is refused leaves the builder as it was, since it returns none.
-/
import DependencyTheory.Schema.Basic

namespace DependencyTheory

/-- A schema in the making. The issuer is the number that the builder puts
into the handles of the predicates it declares; no two builders share it. -/
structure Builder where
  issuer : Nat
  predicates : Table
  dependencies : List Dependency

namespace Builder

/-- A builder without predicates and dependencies. -/
def new (issuer : Nat) : Builder := ⟨issuer, [], []⟩

/-- Declares a base predicate under a name that is not taken, and issues the
handle for it. -/
def declare (b : Builder) (name : String) (arity : Nat) :
    Except SchemaError (Handle × Builder) :=
  match b.predicates.handleNamed? name with
  | some _ => .error (.duplicatePredicate name)
  | none =>
    .ok (⟨b.issuer, b.predicates.length, arity⟩,
      { b with predicates := b.predicates ++ [⟨b.issuer, name, arity, []⟩] })

/-- Refuses a handle that the table does not own. -/
def requireOwned (b : Builder) (h : Handle) : Except SchemaError Unit :=
  if b.predicates.owns h then .ok ()
  else .error (.predicateOutsideSchema h.index h.arity)

/-- Adds a derivation rule to a predicate, which is a derived one from then
on. The body is checked when the schema is built. -/
def addRule (b : Builder) (h : Handle) (rule : Rule) : Except SchemaError Builder := do
  b.requireOwned h
  if rule.head.length = h.arity then
    return { b with
      predicates := b.predicates.modify h.index fun p =>
        { p with rules := p.rules ++ [rule] } }
  else throw (.arityMismatch h.arity rule.head.length)

/-- Adds dependencies, which are checked when the schema is built. -/
def addDependencies (b : Builder) (ds : List Dependency) : Builder :=
  { b with dependencies := b.dependencies ++ ds }

/-- All handles that rule bodies and dependencies refer to, in the order in
which they are checked. -/
def references (b : Builder) : List Handle :=
  b.predicates.flatMap (fun p => p.rules.flatMap fun r => r.body.predicates) ++
    b.dependencies.flatMap Dependency.predicates

/-- The finished schema, or the first reference that the table does not
own. -/
def build (b : Builder) : Except SchemaError Schema := do
  b.references.forM b.requireOwned
  return ⟨b.predicates, b.dependencies⟩

end Builder

/-- A builder over the table of a schema, without dependencies. Handles of
the schema stay valid in what is built from it. -/
def Schema.reopen (s : Schema) (issuer : Nat) : Builder := ⟨issuer, s.predicates, []⟩

/-- The same table with other dependencies. Nothing is declared on the way,
so the number of the builder in between does not matter. -/
def Schema.withDependencies (s : Schema) (ds : List Dependency) :
    Except SchemaError Schema :=
  ((s.reopen 0).addDependencies ds).build

end DependencyTheory
