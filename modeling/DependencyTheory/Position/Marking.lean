/-
The marking of body positions whose value may get lost:

* `BodyPosition`: an argument place of a body literal of a dependency;
* `Marking.start`: the occurrences of variables that some head atom lacks;
* `Marking.promoted`: the occurrences of variables that a head has at a
  flagged place, one where a marked body position has its argument;
* `stickyMarking`: all marked positions.

Marks spread backwards: whatever feeds a place from which a value may get
lost may get lost too.
-/
import DependencyTheory.Dependency
import DependencyTheory.Saturation

namespace DependencyTheory

/-- An argument place of a body literal: the place of the dependency in its
list, the place of the literal in the body, the place of the argument, and
the predicate of the literal. -/
structure BodyPosition where
  tgd : Nat
  literal : Nat
  index : Nat
  predicate : Handle
  deriving DecidableEq

namespace BodyPosition

/-- The literal that a position points into. -/
def literal? (p : BodyPosition) (ts : List Tgd) : Option Literal := do
  let t ← ts[p.tgd]?
  t.body.literals[p.literal]?

/-- The variable at a position. -/
def varName? (p : BodyPosition) (ts : List Tgd) : Option String := do
  let l ← p.literal? ts
  let term ← l.terms[p.index]?
  term.varName?

end BodyPosition

namespace Marking

/-! ### Marking and promoting -/

/-- The places of a dependency's body atoms, with the terms there. -/
def places (t : Tgd) (n : Nat) : List (BodyPosition × Term) :=
  t.body.literals.zipIdx.flatMap fun (l, i) =>
    match l.positiveAtom? with
    | some a => a.terms.zipIdx.map fun (term, j) => (⟨n, i, j, a.predicate⟩, term)
    | none => []

/-- The body positions of a variable, in the dependency at place `n`. -/
def occurrences (t : Tgd) (n : Nat) (x : String) : List BodyPosition :=
  ((places t n).filter fun (_, term) => term = .var x).map Prod.fst

/-- All body positions of a list of dependencies. -/
def bound (ts : List Tgd) : List BodyPosition :=
  ts.zipIdx.flatMap fun (t, n) => (places t n).map Prod.fst

/-- The variables that some head atom does not have. -/
def lost (t : Tgd) : List String :=
  t.universal.toList.filter fun x => t.head.any fun a => x ∉ a.vars

/-- The occurrences of the variables that get lost at once. -/
def start (ts : List Tgd) : List BodyPosition :=
  ts.zipIdx.flatMap fun (t, n) => (lost t).flatMap (occurrences t n)

/-- Whether some marked position is at a given argument place of a
predicate. -/
def flagged (marked : OrderedSet BodyPosition) (h : Handle) (index : Nat) : Bool :=
  marked.toList.any fun p => p.predicate = h ∧ p.index = index

/-- The universal variables of a head that stand at flagged places, in order
and with repetitions. -/
def exposed (t : Tgd) (marked : OrderedSet BodyPosition) : List String :=
  t.head.flatMap fun a => a.terms.zipIdx.filterMap fun (term, i) =>
    match term with
    | .var x =>
      if x ∈ t.universal ∧ flagged marked a.predicate i then some x else none
    | .const _ => none

/-- The body occurrences of the variables that heads have at flagged
places. -/
def promoted (ts : List Tgd) (marked : OrderedSet BodyPosition) : List BodyPosition :=
  ts.zipIdx.flatMap fun (t, n) => (exposed t marked).flatMap (occurrences t n)

theorem mem_bound_of_mem_occurrences {ts : List Tgd} {t : Tgd} {n : Nat} {x : String}
    {p : BodyPosition} (ht : (t, n) ∈ ts.zipIdx) (hp : p ∈ occurrences t n x) :
    p ∈ bound ts := by
  simp only [occurrences, List.mem_map] at hp
  obtain ⟨place, hplace, rfl⟩ := hp
  exact List.mem_flatMap.mpr
    ⟨(t, n), ht, List.mem_map_of_mem (List.mem_filter.mp hplace).1⟩

theorem mem_bound_of_mem_start {ts : List Tgd} {p : BodyPosition}
    (hp : p ∈ OrderedSet.ofList (start ts)) : p ∈ bound ts := by
  simp only [OrderedSet.mem_ofList, start, List.mem_flatMap] at hp
  obtain ⟨⟨t, n⟩, ht, x, _, hp⟩ := hp
  exact mem_bound_of_mem_occurrences ht hp

/-- Marking what is promoted stays among the body positions. -/
theorem promoted_staysInside (ts : List Tgd) :
    StaysInside (bound ts) fun marked => marked.insertAll (promoted ts marked) := by
  intro marked h p hp
  rcases OrderedSet.mem_insertAll.mp hp with hp | hp
  · exact h p hp
  · simp only [promoted, List.mem_flatMap] at hp
    obtain ⟨⟨t, n⟩, ht, x, _, hp⟩ := hp
    exact mem_bound_of_mem_occurrences ht hp

end Marking

/-- The marked body positions of a list of dependencies, in the order in
which they are found. Only positive atoms may stand in bodies. -/
def stickyMarking (ts : List Tgd) : Except AnalysisError (OrderedSet BodyPosition) :=
  if ts.all fun t => t.body.literals.all fun l => l.positiveAtom?.isSome then
    .ok (saturate (Marking.bound ts) _ (Marking.promoted_staysInside ts)
      (.ofList (Marking.start ts)) fun _ => Marking.mem_bound_of_mem_start)
  else .error (.unsupported .markedBody)

end DependencyTheory
