/-
Finite sets of argument positions, kept in ascending order:

* `IndexSet`: a strictly ascending list, so that equal sets are equal values;
* `IndexSet.insert`, `IndexSet.ofList`: how they are made;
* `IndexSet.render`: the positions between braces.
-/
import DependencyTheory.Text.Listing

namespace DependencyTheory

/-- A finite set of natural numbers as its strictly ascending list. -/
structure IndexSet where
  toList : List Nat
  ascending : toList.Pairwise (· < ·)
  deriving DecidableEq

namespace IndexSet

instance : Membership Nat IndexSet := ⟨fun s i => i ∈ s.toList⟩

theorem mem_toList {s : IndexSet} {i : Nat} : i ∈ s.toList ↔ i ∈ s := Iff.rfl

instance (i : Nat) (s : IndexSet) : Decidable (i ∈ s) :=
  inferInstanceAs (Decidable (i ∈ s.toList))

/-- A number put at its place in an ascending list, unless it is there. -/
def place (i : Nat) : List Nat → List Nat
  | [] => [i]
  | j :: rest =>
    if i < j then i :: j :: rest
    else if i = j then j :: rest
    else j :: place i rest

/-- A number that is put at its place is there, with the ones that were there before. -/
theorem mem_place {i j : Nat} {is : List Nat} :
    j ∈ place i is ↔ j = i ∨ j ∈ is := by
  induction is with
  | nil => simp [place]
  | cons k rest ih => grind [place]

/-- **The place of a number keeps the list ascending.** -/
theorem ascending_place {i : Nat} {is : List Nat} (h : is.Pairwise (· < ·)) :
    (place i is).Pairwise (· < ·) := by
  induction is with
  | nil => simp [place]
  | cons k rest ih =>
    obtain ⟨least, tail⟩ := List.pairwise_cons.mp h
    rw [place]
    split
    case isTrue below =>
      refine List.pairwise_cons.mpr ⟨fun j hj => ?_, h⟩
      rcases List.mem_cons.mp hj with rfl | hj
      · exact below
      · exact Nat.lt_trans below (least j hj)
    case isFalse notBelow =>
      split
      case isTrue => exact h
      case isFalse other =>
        refine List.pairwise_cons.mpr ⟨fun j hj => ?_, ih tail⟩
        rcases mem_place.mp hj with rfl | hj
        · omega
        · exact least j hj

/-- The set without elements. -/
def empty : IndexSet := ⟨[], .nil⟩

/-- The set with one more element. -/
def insert (s : IndexSet) (i : Nat) : IndexSet :=
  ⟨place i s.toList, ascending_place s.ascending⟩

@[simp] theorem mem_insert {s : IndexSet} {i j : Nat} :
    j ∈ s.insert i ↔ j = i ∨ j ∈ s :=
  mem_place

/-- The elements of a list. -/
def ofList (is : List Nat) : IndexSet := is.foldl insert empty

@[simp] theorem mem_ofList {is : List Nat} {j : Nat} :
    j ∈ ofList is ↔ j ∈ is := by
  have general : ∀ s : IndexSet, j ∈ is.foldl insert s ↔ j ∈ s ∨ j ∈ is := by
    induction is with
    | nil => simp
    | cons i is ih => intro s; simp [ih, or_assoc, or_left_comm]
  exact (general empty).trans (or_iff_right List.not_mem_nil)

/-- The number of elements. -/
def size (s : IndexSet) : Nat := s.toList.length

/-- The elements between braces, in ascending order. -/
def render (s : IndexSet) : String := Text.braced (s.toList.map Nat.repr)

end IndexSet

end DependencyTheory
