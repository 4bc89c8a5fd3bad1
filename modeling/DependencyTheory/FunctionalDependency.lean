/-
Functional dependencies and the equality-generating dependencies that state
them:

* `FunctionalDependency`: in any two tuples of a predicate, equal values at
  the key positions come with equal values at the determined positions;
* `Egd.functional?`: the functional dependency that a single
  equality-generating dependency states;
* `Extraction.ofEgds`: all functional dependencies of a list, and what is
  left over.

`P(k, x), P(k, y) -> x = y` states that position 0 of `P` determines
position 1. Dependencies that agree on predicate and key are put together.
-/
import DependencyTheory.Dependency
import DependencyTheory.IndexSet

namespace DependencyTheory

/-- The key positions of a predicate determine some of its other positions. -/
structure FunctionalDependency where
  predicate : Handle
  key : IndexSet
  determined : IndexSet
  deriving DecidableEq

namespace FunctionalDependency

/-- The dependency for two lists of positions, refused unless they are
disjoint and within the arity. -/
def ofPositions? (predicate : Handle) (key determined : List Nat) :
    Option FunctionalDependency :=
  if (key ++ determined).all (· < predicate.arity) && key.all (· ∉ determined) then
    some ⟨predicate, .ofList key, .ofList determined⟩
  else none

/-- Whether key and determined positions together are all positions. -/
def isKey (fd : FunctionalDependency) : Bool :=
  fd.key.size + fd.determined.size == fd.predicate.arity

end FunctionalDependency

/-! ### Recognising a functional dependency -/

/-- The variables of an atom, if its terms are variables that all differ. -/
def Atom.distinctNames? (a : Atom) : Option (List String) := do
  let xs ← a.terms.mapM Term.varName?
  if xs.Nodup then some xs else none

/-- The places that two lists of variables have in common, `none` if a
variable of both stands at different places. -/
def commonPlaces? (xs ys : List String) : Option (List Nat) :=
  if xs.zipIdx.all fun (x, i) => x ∉ ys || ys[i]? == some x then
    some ((xs.zipIdx.filter fun (x, i) => ys[i]? == some x).map Prod.snd)
  else none

/-- The place at which `left` stands in the one list and `right` in the
other. -/
def equatedPlace? (xs ys : List String) (left right : String) : Option Nat :=
  match xs.idxOf? left with
  | some i => if ys[i]? = some right then some i else none
  | none =>
    match ys.idxOf? left with
    | some i => if xs[i]? = some right then some i else none
    | none => none

/-- The functional dependency that an equality-generating dependency states,
if it has that shape: two atoms over one predicate, each with variables that
all differ, which share some variables at common places (the key) and have
the two sides of the equality at another common place. -/
def Egd.functional? (e : Egd) : Option (Handle × IndexSet × Nat) := do
  match e.body.literals with
  | [first, second] =>
    let a ← first.positiveAtom?
    let b ← second.positiveAtom?
    if a.predicate ≠ b.predicate then none
    else
      let xs ← a.distinctNames?
      let ys ← b.distinctNames?
      let key ← commonPlaces? xs ys
      if key = [] then none
      else
        let left ← e.left.varName?
        let right ← e.right.varName?
        let place ← equatedPlace? xs ys left right
        if place ∈ key then none else some (a.predicate, .ofList key, place)
  | _ => none

/-! ### Collecting functional dependencies -/

/-- A functional dependency and the equality-generating dependencies that
state it. -/
structure SourcedDependency where
  fd : FunctionalDependency
  sources : List Egd
  deriving DecidableEq

/-- The functional dependencies of a list of equality-generating
dependencies, and those of the list that state none. -/
structure Extraction where
  functional : List SourcedDependency
  other : List Egd
  deriving DecidableEq

namespace Extraction

/-- Adds a determined position to the entry for a predicate and key, which is
put at the end if there is none. -/
def record (predicate : Handle) (key : IndexSet) (place : Nat) (e : Egd) :
    List SourcedDependency → List SourcedDependency
  | [] => [⟨⟨predicate, key, .ofList [place]⟩, [e]⟩]
  | f :: rest =>
    if f.fd.predicate = predicate ∧ f.fd.key = key then
      let fd := { f.fd with determined := f.fd.determined.insert place }
      ⟨fd, f.sources ++ [e]⟩ :: rest
    else f :: record predicate key place e rest

/-- The analysis with one more equality-generating dependency. -/
def add (analysis : Extraction) (e : Egd) : Extraction :=
  match e.functional? with
  | some (predicate, key, place) =>
    { analysis with functional := record predicate key place e analysis.functional }
  | none => { analysis with other := analysis.other ++ [e] }

/-- The analysis of a list, taken from left to right. -/
def ofEgds (es : List Egd) : Extraction := es.foldl add ⟨[], []⟩

/-- The functional dependencies without their sources. -/
def dependencies (analysis : Extraction) : List FunctionalDependency :=
  analysis.functional.map SourcedDependency.fd

end Extraction

end DependencyTheory
