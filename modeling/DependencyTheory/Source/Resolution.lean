/-
From a text to a schema or a clause:

* `Resolver`: how a predicate name with a number of terms becomes a handle;
* `declaring`: a name that is not known yet is declared;
* `knowing`: only the names of a schema are known;
* `Schema.ofStatements`, `Schema.ofText`: a schema read from a text;
* `Clause.ofText`: a clause over the predicates of a schema.

Names are looked up in the order in which they are read: a rule has its head
first, a dependency its body.
-/
import DependencyTheory.Schema.Builder
import DependencyTheory.Source.Comment
import DependencyTheory.Source.Grammar

namespace DependencyTheory

namespace Source

variable {σ : Type}

/-! ### Looking names up -/

/-- Steps that look names up, possibly declaring them. -/
abbrev Resolving (σ α : Type) := StateT σ (Except SchemaError) α

/-- How a predicate name used with a number of terms becomes a handle. -/
abbrev Resolver (σ : Type) := String → Nat → Resolving σ Handle

/-- A known handle, if it has the arity of its use. -/
def usedWith (h : Handle) (arity : Nat) : Except SchemaError Handle :=
  if h.arity = arity then .ok h else .error (.arityMismatch h.arity arity)

/-- Declares a predicate where its name is used for the first time. -/
def declaring : Resolver Builder := fun name arity b =>
  match b.predicates.handleNamed? name with
  | some h => do return (← usedWith h arity, b)
  | none => b.declare name arity

/-- Knows the predicates of a schema and no others. -/
def knowing (schema : Schema) : Resolver Unit := fun name arity _ =>
  match schema.handleNamed? name with
  | some h => do return (← usedWith h arity, ())
  | none => .error (.unknownPredicate name)

/-! ### Resolving statements -/

/-- An atom with its predicate looked up. -/
def Atom.resolve (resolver : Resolver σ) (a : Atom) :
    Resolving σ DependencyTheory.Atom := do
  let h ← resolver a.predicate a.terms.length
  DependencyTheory.Atom.ofTerms h a.terms

/-- A literal with its predicate looked up. -/
def Literal.resolve (resolver : Resolver σ) :
    Literal → Resolving σ DependencyTheory.Literal
  | atom positive a => do return .ordinary positive (← a.resolve resolver)
  | comparison op left right => return .builtIn (.comparison op left right)
  | truth value => return .builtIn (.truth value)

/-- A body with its predicates looked up from left to right. -/
def resolveBody (resolver : Resolver σ) (body : List Literal) :
    Resolving σ Clause := do
  let literals ← body.mapM (Literal.resolve resolver)
  Clause.ofLiterals literals

/-- A statement put into the schema in the making. -/
def Statement.resolve : Statement → Resolving Builder Unit
  | rule head body => do
    let h ← declaring head.predicate head.terms.length
    let body ← resolveBody declaring body
    set (← (← get).addRule h ⟨head.terms, body⟩)
  | dependency body (.equality left right) => do
    let body ← resolveBody declaring body
    modify (·.addDependencies [.egd ⟨body, left, right⟩])
  | dependency body (.atoms as) => do
    let body ← resolveBody declaring body
    let head ← as.mapM (Atom.resolve declaring)
    let t ← Tgd.ofHead body head
    modify (·.addDependencies [.tgd t])

/-! ### Texts -/

/-- The value of a text that is read to its end, blanks apart. -/
def readAll {α : Type} (reader : Reader α) (text : List Char) : Except SchemaError α :=
  match (reader.ended) text with
  | .ok (a, _) => .ok a
  | .error trace => .error (.unreadable text trace)

end Source

/-- The schema that a list of statements describes. Predicates are declared
where they are used first. -/
def Schema.ofStatements (issuer : Nat) (statements : List Source.Statement) :
    Except SchemaError Schema := do
  let ((), b) ← (statements.forM Source.Statement.resolve).run (Builder.new issuer)
  b.build

/-- The schema that a text describes; `issuer` is the number of the builder
that declares its predicates. -/
def Schema.ofText (issuer : Nat) (text : String) : Except SchemaError Schema := do
  let statements ←
    Source.readAll Source.program (Source.withoutComments text.toList)
  Schema.ofStatements issuer statements

/-- The clause over the predicates of a schema that a text describes, such as
`P(x, y), not Q(y), x < 3`. -/
def Clause.ofText (schema : Schema) (text : String) : Except SchemaError Clause := do
  let literals ←
    Source.readAll Source.literalList (Source.withoutComments text.toList)
  let (clause, ()) ← (Source.resolveBody (Source.knowing schema) literals).run ()
  return clause

end DependencyTheory
