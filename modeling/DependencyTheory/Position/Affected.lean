/-
Affected positions, those that may hold a value invented by an existential
variable:

* `Position`: an argument place of a predicate;
* `Tgd.affectedVariables`: the universal variables that occur in the body at
  affected positions only;
* `Tgd.spread`: the head positions that a dependency adds to the affected
  ones;
* `affectedPositions`: all affected positions.

At the start, the affected positions are the head positions of existential
variables. A head position becomes affected when its variable occurs in the
body at affected positions only; this is repeated until nothing is added.
-/
import DependencyTheory.Dependency
import DependencyTheory.Saturation

namespace DependencyTheory

/-- An argument place of a predicate. -/
structure Position where
  predicate : Handle
  index : Nat
  deriving DecidableEq

/-- The positions of an atom at which a variable that passes a test stands. -/
def Atom.positionsOf (wanted : String → Bool) (a : Atom) : List Position :=
  a.terms.zipIdx.filterMap fun (term, i) =>
    match term with
    | .var x => if wanted x then some ⟨a.predicate, i⟩ else none
    | .const _ => none

theorem Atom.positionsOf_subset {wanted wanted' : String → Bool} {a : Atom}
    (h : ∀ x, wanted x = true → wanted' x = true) {p : Position}
    (hp : p ∈ a.positionsOf wanted) : p ∈ a.positionsOf wanted' := by
  simp only [positionsOf, List.mem_filterMap, Prod.exists] at hp ⊢
  obtain ⟨term, i, hi, hp⟩ := hp
  refine ⟨term, i, hi, ?_⟩
  cases term <;> grind

namespace Tgd

/-- The head positions at which a variable that passes a test stands. -/
def positionsInHead (t : Tgd) (wanted : String → Bool) : List Position :=
  t.head.flatMap (Atom.positionsOf wanted)

theorem positionsInHead_subset {t : Tgd} {wanted : String → Bool} {p : Position}
    (hp : p ∈ t.positionsInHead wanted) : p ∈ t.positionsInHead fun _ => true := by
  simp only [positionsInHead, List.mem_flatMap] at hp ⊢
  obtain ⟨a, ha, hp⟩ := hp
  exact ⟨a, ha, Atom.positionsOf_subset (fun _ _ => rfl) hp⟩

/-- The head positions of existential variables. -/
def inventing (t : Tgd) : List Position := t.positionsInHead (· ∈ t.existential)

/-- The universal variables that occur in body atoms at affected positions
only. -/
def affectedVariables (t : Tgd) (affected : OrderedSet Position) : OrderedSet String :=
  t.universal.filter fun x =>
    t.body.positiveAtoms.all fun a => (a.positionsOf (· == x)).all (· ∈ affected)

/-- The head positions to which a dependency carries the values of affected
positions. -/
def spread (t : Tgd) (affected : OrderedSet Position) : List Position :=
  t.positionsInHead fun x => x ∈ t.frontier && x ∈ t.affectedVariables affected

end Tgd

namespace Affected

/-- All head positions of a list of dependencies, inside which the affected
ones are found. -/
def bound (ts : List Tgd) : List Position := ts.flatMap (·.positionsInHead fun _ => true)

/-- The affected positions at the start. -/
def start (ts : List Tgd) : OrderedSet Position := .ofList (ts.flatMap Tgd.inventing)

/-- One round through the dependencies, each of which sees what those before
it have added. -/
def round (ts : List Tgd) (affected : OrderedSet Position) : OrderedSet Position :=
  ts.foldl (fun affected t => affected.insertAll (t.spread affected)) affected

theorem mem_bound_of_mem_start {ts : List Tgd} {p : Position} (hp : p ∈ start ts) :
    p ∈ bound ts := by
  simp only [start, bound, OrderedSet.mem_ofList, List.mem_flatMap] at hp ⊢
  obtain ⟨t, ht, hp⟩ := hp
  exact ⟨t, ht, Tgd.positionsInHead_subset hp⟩

/-- A round adds head positions only. -/
theorem round_staysInside (ts : List Tgd) : StaysInside (bound ts) (round ts) := by
  intro affected h
  suffices general : ∀ us : List Tgd, (∀ t ∈ us, t ∈ ts) →
      ∀ affected : OrderedSet Position, (∀ p ∈ affected, p ∈ bound ts) →
        ∀ p ∈ round us affected, p ∈ bound ts from
    general ts (fun _ => id) affected h
  intro us
  induction us with
  | nil => exact fun _ _ h => h
  | cons t us ih =>
    intro hus affected h
    refine ih (fun u hu => hus u (List.mem_cons_of_mem t hu)) _ fun p hp => ?_
    rcases OrderedSet.mem_insertAll.mp hp with hp | hp
    · exact h p hp
    · exact List.mem_flatMap.mpr
        ⟨t, hus t List.mem_cons_self, Tgd.positionsInHead_subset hp⟩

end Affected

/-- The positions that may hold a value invented by an existential variable,
in the order in which they are found. -/
def affectedPositions (ts : List Tgd) : OrderedSet Position :=
  saturate (Affected.bound ts) (Affected.round ts) (Affected.round_staysInside ts)
    (Affected.start ts) fun _ => Affected.mem_bound_of_mem_start

end DependencyTheory
