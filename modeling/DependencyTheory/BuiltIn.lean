/-
Built-in literals, whose meaning no schema declares:

* `Comparison`: the six order and equality operators, with
  `Comparison.converse`, the operator for swapped sides;
* `Operator`: the operator of a built-in literal;
* `BuiltIn`: an operator with its terms;
* `BuiltIn.converse`: a comparison written the other way round.

The number of terms is part of the shape: a comparison has two sides and a
truth value has none. `BuiltIn.ofTerms` is the way in from a plain list.
-/
import DependencyTheory.Error
import DependencyTheory.Term

namespace DependencyTheory

/-! ### Operators -/

/-- An operator that compares two terms. -/
inductive Comparison where
  | eq
  | lt
  | le
  | gt
  | ge
  | ne
  deriving DecidableEq

namespace Comparison

/-- All comparisons. -/
def all : List Comparison := [eq, lt, le, gt, ge, ne]

/-- The operator that holds of swapped sides: `a < b` says what `b > a`
says. -/
def converse : Comparison → Comparison
  | eq => eq
  | lt => gt
  | le => ge
  | gt => lt
  | ge => le
  | ne => ne

@[simp] theorem converse_converse (op : Comparison) :
    op.converse.converse = op := by
  cases op <;> rfl

/-- How the operator is written. -/
def symbol : Comparison → String
  | eq => "="
  | lt => "<"
  | le => "<="
  | gt => ">"
  | ge => ">="
  | ne => "<>"

/-- The operator with a given symbol. -/
def ofSymbol? (s : String) : Option Comparison := all.find? (·.symbol = s)

end Comparison

/-- The operator of a built-in literal: a comparison, a truth value, or an
operator of which only the name is known. -/
inductive Operator where
  | comparison (op : Comparison)
  | truth (value : Bool)
  | custom (name : String)
  deriving DecidableEq

/-- The two truth values as they are written. -/
def truthName (value : Bool) : String := if value then "true" else "false"

namespace Operator

/-- How the operator is written. -/
def name : Operator → String
  | comparison op => op.symbol
  | truth value => truthName value
  | custom name => name

end Operator

/-! ### Built-in literals -/

/-- A built-in literal. -/
inductive BuiltIn where
  | comparison (op : Comparison) (left right : Term)
  | truth (value : Bool)
  | custom (name : String) (terms : List Term)
  deriving DecidableEq

namespace BuiltIn

/-- The operator of a built-in literal. -/
def operator : BuiltIn → Operator
  | comparison op _ _ => .comparison op
  | truth value => .truth value
  | custom name _ => .custom name

/-- The terms of a built-in literal. -/
def terms : BuiltIn → List Term
  | comparison _ left right => [left, right]
  | truth _ => []
  | custom _ terms => terms

/-- An operator with a list of terms, refused when their number does not fit
the operator. -/
def ofTerms (op : Operator) (terms : List Term) : Except SchemaError BuiltIn :=
  match op, terms with
  | .comparison c, [left, right] => .ok (comparison c left right)
  | .comparison _, _ => .error (.builtInArity op.name 2 terms.length)
  | .truth value, [] => .ok (truth value)
  | .truth _, _ => .error (.builtInArity op.name 0 terms.length)
  | .custom name, _ => .ok (custom name terms)

/-- A comparison written the other way round; no other built-in has two
spellings. -/
def converse : BuiltIn → Option BuiltIn
  | comparison op left right => some (comparison op.converse right left)
  | truth _ => none
  | custom _ _ => none

/-- The same operator over other terms. -/
def mapTerms (f : Term → Term) : BuiltIn → BuiltIn
  | comparison op left right => comparison op (f left) (f right)
  | truth value => truth value
  | custom name terms => custom name (terms.map f)

@[simp] theorem operator_mapTerms (f : Term → Term) (b : BuiltIn) :
    (b.mapTerms f).operator = b.operator := by
  cases b <;> rfl

@[simp] theorem terms_mapTerms (f : Term → Term) (b : BuiltIn) :
    (b.mapTerms f).terms = b.terms.map f := by
  cases b <;> rfl

@[simp] theorem converse_mapTerms (f : Term → Term) (b : BuiltIn) :
    (b.mapTerms f).converse = b.converse.map (mapTerms f) := by
  cases b <;> rfl

/-- A comparison is written between its sides, a truth value alone, and a
custom operator in front of its terms. -/
def render : BuiltIn → String
  | comparison op left right =>
    left.render ++ " " ++ op.symbol ++ " " ++ right.render
  | truth value => truthName value
  | custom name terms => name ++ "(" ++ Term.renderList terms ++ ")"

end BuiltIn

end DependencyTheory
