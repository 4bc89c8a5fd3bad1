/-
Literals, the conditions that bodies and heads are made of:

* `Handle`: a reference to a declared predicate;
* `Atom`: a handle with as many terms as its arity;
* `Literal`: an atom, affirmed or denied, or a built-in literal;
* `Clause`: a conjunction of one or more literals.
-/
import DependencyTheory.BuiltIn
import DependencyTheory.OrderedSet

namespace DependencyTheory

/-! ### Handles and atoms -/

/-- A reference to a predicate of a schema. The issuer is the number of the
builder that declared the predicate, so that a reference never passes for one
to another predicate of the same name and place. -/
structure Handle where
  issuer : Nat
  index : Nat
  arity : Nat
  deriving DecidableEq

/-- A handle without its schema: place in the table and number of terms. -/
def Handle.label (h : Handle) : String :=
  "#" ++ Nat.repr h.index ++ "/" ++ Nat.repr h.arity

/-- A predicate applied to as many terms as it takes. -/
structure Atom where
  predicate : Handle
  terms : List Term
  fits : terms.length = predicate.arity
  deriving DecidableEq

namespace Atom

/-- A handle with a list of terms, refused when their number is not the arity
of the handle. -/
def ofTerms (predicate : Handle) (terms : List Term) : Except SchemaError Atom :=
  if fits : terms.length = predicate.arity then .ok ⟨predicate, terms, fits⟩
  else .error (.arityMismatch predicate.arity terms.length)

/-- The variables of an atom, in order and with repetitions. -/
def vars (a : Atom) : List String := Term.vars a.terms

/-- The same predicate over other terms. -/
def mapTerms (f : Term → Term) (a : Atom) : Atom :=
  ⟨a.predicate, a.terms.map f, by rw [List.length_map, a.fits]⟩

end Atom

/-! ### Literals -/

/-- A condition: an atom, affirmed or denied, or a built-in literal. -/
inductive Literal where
  | ordinary (positive : Bool) (atom : Atom)
  | builtIn (b : BuiltIn)
  deriving DecidableEq

namespace Literal

/-- The terms of a literal. -/
def terms : Literal → List Term
  | ordinary _ a => a.terms
  | builtIn b => b.terms

/-- The variables of a literal, in order and with repetitions. -/
def vars (l : Literal) : List String := Term.vars l.terms

/-- The atom of a literal that affirms one. -/
def positiveAtom? : Literal → Option Atom
  | ordinary true a => some a
  | ordinary false _ => none
  | builtIn _ => none

theorem positiveAtom?_eq_some {l : Literal} {a : Atom} :
    l.positiveAtom? = some a ↔ l = ordinary true a := by
  cases l with
  | ordinary positive b => cases positive <;> simp [positiveAtom?]
  | builtIn b => simp [positiveAtom?]

/-- The predicate of a literal that is not built in. -/
def predicate? : Literal → Option Handle
  | ordinary _ a => some a.predicate
  | builtIn _ => none

/-- The same condition on other terms. -/
def mapTerms (f : Term → Term) : Literal → Literal
  | ordinary positive a => ordinary positive (a.mapTerms f)
  | builtIn b => builtIn (b.mapTerms f)

@[simp] theorem terms_mapTerms (f : Term → Term) (l : Literal) :
    (l.mapTerms f).terms = l.terms.map f := by
  cases l <;> simp [mapTerms, terms, Atom.mapTerms]

@[simp] theorem predicate?_mapTerms (f : Term → Term) (l : Literal) :
    (l.mapTerms f).predicate? = l.predicate? := by
  cases l <;> rfl

theorem mapTerms_id : mapTerms id = id := by
  funext l
  cases l with
  | ordinary positive a => simp [mapTerms, Atom.mapTerms]
  | builtIn b => cases b <;> simp [mapTerms, BuiltIn.mapTerms]

end Literal

/-! ### Clauses -/

/-- A conjunction of one or more literals. Their order carries no meaning,
but it is kept, so that answers are the same every time. -/
structure Clause where
  literals : List Literal
  nonempty : literals ≠ []
  deriving DecidableEq

namespace Clause

/-- The conjunction of a list of literals, refused when there is none. -/
def ofLiterals (literals : List Literal) : Except SchemaError Clause :=
  if nonempty : literals ≠ [] then .ok ⟨literals, nonempty⟩
  else .error .emptyBody

/-- The number of literals. -/
def size (c : Clause) : Nat := c.literals.length

/-- The variables of a clause, in order of first occurrence. -/
def vars (c : Clause) : OrderedSet String :=
  .ofList (c.literals.flatMap Literal.vars)

/-- The predicates of a clause, in order and with repetitions. -/
def predicates (c : Clause) : List Handle := c.literals.filterMap Literal.predicate?

/-- The atoms that a clause affirms, in order. -/
def positiveAtoms (c : Clause) : List Atom := c.literals.filterMap Literal.positiveAtom?

theorem mem_positiveAtoms {c : Clause} {a : Atom} :
    a ∈ c.positiveAtoms ↔ .ordinary true a ∈ c.literals := by
  simp [positiveAtoms, Literal.positiveAtom?_eq_some]

end Clause

end DependencyTheory
