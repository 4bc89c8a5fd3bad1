/-
Dependencies, the sentences of a schema:

* `Tgd`: a tuple-generating dependency, `body → ∃ existentials. head`;
* `Egd`: an equality-generating dependency, `body → left = right`;
* `Dependency`: either of them;
* `Constraint`: a denial, which says that its body never holds.

The variables of a body are universal. Those of a head are existential when
the body does not have them, and make up the frontier when it does.
-/
import DependencyTheory.Literal

namespace DependencyTheory

/-- A tuple-generating dependency: whenever the body holds, some values of
the existential variables make all head atoms hold. -/
structure Tgd where
  body : Clause
  head : List Atom
  nonempty : head ≠ []
  deriving DecidableEq

/-- An equality-generating dependency: whenever the body holds, the two terms
are equal. -/
structure Egd where
  body : Clause
  left : Term
  right : Term
  deriving DecidableEq

/-- A sentence of a schema. -/
inductive Dependency where
  | tgd (t : Tgd)
  | egd (e : Egd)
  deriving DecidableEq

/-- A denial: the body never holds. -/
structure Constraint where
  body : Clause
  deriving DecidableEq

namespace Tgd

/-- A body with a list of head atoms, refused when there is none. -/
def ofHead (body : Clause) (head : List Atom) : Except SchemaError Tgd :=
  if nonempty : head ≠ [] then .ok ⟨body, head, nonempty⟩
  else .error .emptyHead

/-- The variables of the body. -/
def universal (t : Tgd) : OrderedSet String := t.body.vars

/-- The variables of the head. -/
def headVariables (t : Tgd) : OrderedSet String :=
  .ofList (t.head.flatMap Atom.vars)

/-- The head variables that the body does not have. -/
def existential (t : Tgd) : OrderedSet String :=
  t.headVariables.filter fun x => x ∉ t.universal

/-- The head variables that the body has too. -/
def frontier (t : Tgd) : OrderedSet String :=
  t.headVariables.filter fun x => x ∈ t.universal

theorem mem_existential {t : Tgd} {x : String} :
    x ∈ t.existential ↔ x ∈ t.headVariables ∧ x ∉ t.universal := by
  simp [existential]

theorem mem_frontier {t : Tgd} {x : String} :
    x ∈ t.frontier ↔ x ∈ t.headVariables ∧ x ∈ t.universal := by
  simp [frontier]

/-- The variables of a head atom are universal or existential. -/
theorem mem_universal_or_existential {t : Tgd} {a : Atom} {x : String} (ha : a ∈ t.head)
    (hx : x ∈ a.vars) : x ∈ t.universal ∨ x ∈ t.existential := by
  by_cases h : x ∈ t.universal
  · exact Or.inl h
  · have hhead : x ∈ t.headVariables :=
      OrderedSet.mem_ofList.mpr (List.mem_flatMap.mpr ⟨a, ha, hx⟩)
    exact Or.inr (mem_existential.mpr ⟨hhead, h⟩)

/-- Whether the body is a single literal. -/
def isLinear (t : Tgd) : Bool := t.body.size == 1

/-- The first body literal that has all variables of a set. -/
def coveringLiteral? (t : Tgd) (xs : OrderedSet String) : Option Literal :=
  t.body.literals.find? fun l => xs.toList.all (· ∈ l.vars)

/-- The first body literal that has all universal variables. -/
def guard? (t : Tgd) : Option Literal := t.coveringLiteral? t.universal

/-- Whether some body literal has all universal variables. -/
def isGuarded (t : Tgd) : Bool := t.guard?.isSome

end Tgd

namespace Egd

/-- The equality that the dependency generates. -/
def head (e : Egd) : BuiltIn := .comparison .eq e.left e.right

end Egd

namespace Dependency

/-- The body of either kind. -/
def body : Dependency → Clause
  | tgd t => t.body
  | egd e => e.body

/-- The variables of the body. -/
def universal (d : Dependency) : OrderedSet String := d.body.vars

/-- The predicates of a dependency, those of its body first. -/
def predicates : Dependency → List Handle
  | tgd t => t.body.predicates ++ t.head.map Atom.predicate
  | egd e => e.body.predicates

/-- A tuple-generating dependency as such. -/
def tgd? : Dependency → Option Tgd
  | tgd t => some t
  | egd _ => none

/-- An equality-generating dependency as such. -/
def egd? : Dependency → Option Egd
  | tgd _ => none
  | egd e => some e

end Dependency

end DependencyTheory
