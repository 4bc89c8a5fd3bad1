/-
The written form of literals, dependencies and schemas:

* `Literal.render`, `Dependency.render`, …: the written form, given how
  predicates are called;
* `Schema.pretty`: a schema in the language in which schemas are read.

Predicates are called by their names (`Schema.nameOf`) or, where there is no
schema to ask, by their labels (`Handle.label`).
-/
import DependencyTheory.Schema.Basic

namespace DependencyTheory

/-- A predicate in front of its terms. -/
def Atom.render (call : Handle → String) (a : Atom) : String :=
  call a.predicate ++ "(" ++ Term.renderList a.terms ++ ")"

/-- A denied atom has a `not` in front. -/
def Literal.render (call : Handle → String) : Literal → String
  | ordinary true a => a.render call
  | ordinary false a => "not " ++ a.render call
  | builtIn b => b.render

/-- Literals separated by commas. -/
def Clause.render (call : Handle → String) (c : Clause) : String :=
  Text.commaSeparated (c.literals.map (Literal.render call))

/-- Body, arrow, and the head atoms separated by commas. -/
def Tgd.render (call : Handle → String) (t : Tgd) : String :=
  t.body.render call ++ " -> " ++ Text.commaSeparated (t.head.map (Atom.render call))

/-- Body, arrow, and the equality. -/
def Egd.render (call : Handle → String) (e : Egd) : String :=
  e.body.render call ++ " -> " ++ e.head.render

/-- Either kind of dependency, without the full stop. -/
def Dependency.render (call : Handle → String) : Dependency → String
  | tgd t => t.render call
  | egd e => e.render call

/-- A denial has nothing in front of its turnstile. -/
def Constraint.render (call : Handle → String) (c : Constraint) : String :=
  ":- " ++ c.body.render call

/-- A rule whose predicate is called `name`, which may be nothing. -/
def Rule.render (call : Handle → String) (name : String) (r : Rule) : String :=
  name ++ "(" ++ Term.renderList r.head ++ ") :- " ++ r.body.render call

/-- A schema as a text: the rules of each predicate, then the dependencies,
each on a line of its own and closed by a full stop. -/
def Schema.pretty (s : Schema) : String :=
  let rules := s.predicates.flatMap fun p => p.rules.map (Rule.render s.nameOf p.name)
  let dependencies := s.dependencies.map (Dependency.render s.nameOf)
  String.join ((rules ++ dependencies).map (· ++ ".\n"))

end DependencyTheory
