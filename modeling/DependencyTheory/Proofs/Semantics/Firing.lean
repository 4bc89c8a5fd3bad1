/-
Firing a dependency, which makes its head true where its body is:

* `Vocabulary.IsNew`: whether a value occurs in no fact and is no constant of a schema;
* `Vocabulary.FiresWith`: whether a dependency turns one set of facts into another, with
  new values for its existential variables;
* `Vocabulary.Step`: a restricted firing, of a dependency whose head cannot be made true
  with the values there are;
* `Vocabulary.Reaches`: any number of restricted firings, of any dependencies in any
  order.
-/
import DependencyTheory.Proofs.Semantics.Facts
import Mathlib.Logic.Relation

namespace DependencyTheory

universe u

/-- The terms of a dependency. -/
def Dependency.terms : Dependency → List Term
  | .tgd t => t.body.literals.flatMap Literal.terms ++ t.head.flatMap Atom.terms
  | .egd e => e.body.literals.flatMap Literal.terms ++ [e.left, e.right]

/-- Whether a constant is written in a dependency of a schema. -/
def Schema.Mentions (s : Schema) (c : String) : Prop :=
  ∃ d ∈ s.dependencies, .const c ∈ d.terms

namespace Vocabulary

variable {U : Type u} (K : Vocabulary U) (s : Schema)

/-- Whether a value occurs in no fact and differs from the constants of a schema. -/
def IsNew (D : Set (Fact U)) (u : U) : Prop :=
  (∀ f ∈ D, u ∉ f.args) ∧ ∀ c, s.Mentions c → u ≠ K.constant c

/-- Whether a dependency fires under an assignment: the assignment makes its body true,
gives new values that all differ to its existential variables, and the head atoms are
added. -/
structure FiresWith (t : Tgd) (v : String → U) (D D' : Set (Fact U)) : Prop where
  body : K.HoldsAll D v t.body.literals
  new : ∀ x ∈ t.existential, K.IsNew s D (v x)
  apart : ∀ x ∈ t.existential, ∀ y ∈ t.existential, v x = v y → x = y
  adds : D' = D ∪ {f | ∃ a ∈ t.head, f = a.toFact (K.value v)}

/-- A restricted firing: no values for the existential variables make the head true
beforehand. -/
def Step (D D' : Set (Fact U)) : Prop :=
  ∃ t ∈ s.tgds, ∃ v, K.FiresWith s t v D D' ∧ ¬K.HoldsHead D v t

/-- What restricted firings lead to. -/
def Reaches : Set (Fact U) → Set (Fact U) → Prop := Relation.ReflTransGen (K.Step s)

end Vocabulary

end DependencyTheory
