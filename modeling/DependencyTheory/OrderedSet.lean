/-
Sets that remember the order in which their elements came:

* `OrderedSet`: a list without repetitions;
* `OrderedSet.offer`: an element put at the end unless it is there already,
  together with whether it was new;
* `OrderedSet.ofList`: the elements of a list, each at its first place;
* `OrderedSet.isSuperset`, `OrderedSet.sameElements`: comparisons that do not
  look at the order.

Variables, positions and markings are reported in the order in which they
are found, which is why the order is part of the value.
-/
namespace DependencyTheory

universe u

/-- A list without repetitions, read as a set that remembers the order in
which its elements came. -/
structure OrderedSet (α : Type u) where
  toList : List α
  nodup : toList.Nodup
  deriving DecidableEq

namespace OrderedSet

variable {α : Type u}

instance : Membership α (OrderedSet α) := ⟨fun s a => a ∈ s.toList⟩

theorem mem_toList {s : OrderedSet α} {a : α} : a ∈ s.toList ↔ a ∈ s := Iff.rfl

instance [DecidableEq α] (a : α) (s : OrderedSet α) : Decidable (a ∈ s) :=
  inferInstanceAs (Decidable (a ∈ s.toList))

/-- The set without elements. -/
def empty : OrderedSet α := ⟨[], List.nodup_nil⟩

/-- The number of elements. -/
def size (s : OrderedSet α) : Nat := s.toList.length

/-- Whether there is no element. -/
def isEmpty (s : OrderedSet α) : Bool := s.toList.isEmpty

/-- The elements that pass a test, in their order. -/
def filter (p : α → Bool) (s : OrderedSet α) : OrderedSet α :=
  ⟨s.toList.filter p, s.nodup.filter p⟩

@[simp] theorem mem_filter {p : α → Bool} {s : OrderedSet α} {a : α} :
    a ∈ s.filter p ↔ a ∈ s ∧ p a = true :=
  List.mem_filter

/-- A set inside a list is no longer than the list. -/
theorem size_le_length {s : OrderedSet α} {as : List α}
    (h : ∀ a ∈ s, a ∈ as) : s.size ≤ as.length :=
  s.nodup.length_le_of_subset h

variable [DecidableEq α]

/-- Whether an element is new to the set, and the set with it: a new element
goes to the end, an old one keeps its place. -/
def offer (s : OrderedSet α) (a : α) : Bool × OrderedSet α :=
  if h : a ∈ s.toList then (false, s)
  else
    (true, ⟨s.toList ++ [a], List.nodup_append.mpr
      ⟨s.nodup, by simp, by rintro b hb c hc rfl; simp_all⟩⟩)

/-- The set with one more element. -/
def insert (s : OrderedSet α) (a : α) : OrderedSet α := (s.offer a).2

@[simp] theorem mem_insert {s : OrderedSet α} {a b : α} :
    b ∈ s.insert a ↔ b ∈ s ∨ b = a := by
  simp only [insert, offer, ← mem_toList]
  split <;> simp_all

/-- The set with the elements of a list, taken from left to right. -/
def insertAll (s : OrderedSet α) (as : List α) : OrderedSet α :=
  as.foldl insert s

@[simp] theorem mem_insertAll {s : OrderedSet α} {as : List α} {b : α} :
    b ∈ s.insertAll as ↔ b ∈ s ∨ b ∈ as := by
  induction as generalizing s with
  | nil => simp [insertAll]
  | cons a as ih =>
    simp only [insertAll, List.foldl_cons] at ih ⊢
    rw [ih, mem_insert, List.mem_cons, or_assoc]

/-- The elements of a list, each at the place where it comes first. -/
def ofList (as : List α) : OrderedSet α := empty.insertAll as

@[simp] theorem mem_ofList {as : List α} {b : α} : b ∈ ofList as ↔ b ∈ as := by
  rw [ofList, mem_insertAll]
  exact or_iff_right List.not_mem_nil

/-- Whether every element of `t` is an element of `s`. -/
def isSuperset (s t : OrderedSet α) : Bool := t.toList.all (· ∈ s)

/-- Whether two sets have the same elements, in whatever order. -/
def sameElements (s t : OrderedSet α) : Bool :=
  s.isSuperset t && t.isSuperset s

end OrderedSet

end DependencyTheory
