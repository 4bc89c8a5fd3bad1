/-
Ordered sets after any history of operations:

* `prefix_insertAll`: a set goes on as it began when elements are added;
* `History`: how a set has come about, from its creation to the last insertion;
* `toList_ordered`: an ordered set lists what was offered to it without repetitions, each element
  at the place where it came first;
* `IndexedList`: the same elements kept twice, as a list that is gone through and counted, and in
  a hash set that is searched and compared;
* `Represents`: whether both parts of an indexed list are in step with an ordered set, which all
  operations keep, and whose answers are then the same;
* `history_inStep`: **after every history** both parts have the same elements, and the answers are
  those that the elements offered call for.

The analyses use ordered sets, whose list is all there is. That they can do without the index is
what the representation says.
-/
import DependencyTheory.OrderedSet
import Mathlib.Data.List.Infix
import Mathlib.Data.List.Nodup
import Mathlib.Tactic.Lemma

namespace DependencyTheory

universe u

variable {α : Type u}

/-! ### First places -/

/-- One more member is dropped iff it is there already. -/
lemma eraseDups_concat [BEq α] [LawfulBEq α] (as : List α) (a : α) :
    (as ++ [a]).eraseDups = if a ∈ as then as.eraseDups else as.eraseDups ++ [a] := by
  rw [List.eraseDups_append]
  by_cases ha : a ∈ as <;> simp [ha, List.removeAll, List.eraseDups_cons]

/-! ### Adding to a set -/

namespace OrderedSet

variable {s t : OrderedSet α} {a : α} {as : List α}

@[ext]
lemma ext_toList (h : s.toList = t.toList) : s = t := by
  cases s
  cases t
  congr

/-- A set that begins with another and is no longer is the same. -/
lemma eq_of_prefix (h : s.toList <+: t.toList) (hsize : t.size ≤ s.size) : s = t :=
  ext_toList (h.eq_of_length_le hsize)

variable [DecidableEq α]

/-- An element is new iff it is not there. -/
lemma offer_fst : (s.offer a).1 = true ↔ a ∉ s := by
  rw [offer, ← mem_toList]
  split <;> simp_all

lemma toList_insert : (s.insert a).toList = if a ∈ s then s.toList else s.toList ++ [a] := by
  by_cases h : a ∈ s
  · simp [insert, offer, mem_toList, h]
  · simp [insert, offer, mem_toList, h]

lemma insertAll_cons : s.insertAll (a :: as) = (s.insert a).insertAll as := rfl

lemma prefix_insert : s.toList <+: (s.insert a).toList := by
  rw [toList_insert]
  split
  · exact List.prefix_refl _
  · exact List.prefix_append _ _

/-- A set goes on as it began when elements are added. -/
lemma prefix_insertAll : s.toList <+: (s.insertAll as).toList := by
  induction as generalizing s with
  | nil => exact List.prefix_refl _
  | cons a as ih => exact prefix_insert.trans ih

/-- **Each element has the place where it came first.** -/
lemma toList_insertAll (h : s.toList = as.eraseDups) (bs : List α) :
    (s.insertAll bs).toList = (as ++ bs).eraseDups := by
  induction bs generalizing s as with
  | nil => rwa [List.append_nil]
  | cons b bs ih =>
      have hmem : b ∈ s ↔ b ∈ as := by rw [← mem_toList, h, List.mem_eraseDups]
      have hinsert : (s.insert b).toList = (as ++ [b]).eraseDups := by
        rw [toList_insert, eraseDups_concat, h]
        exact if_congr hmem rfl rfl
      rw [insertAll_cons, ih hinsert, List.append_assoc, List.singleton_append]

/-! ### Comparing sets -/

lemma isSuperset_iff : s.isSuperset t = true ↔ ∀ a ∈ t, a ∈ s := by
  simp [isSuperset, mem_toList]

lemma sameElements_iff : s.sameElements t = true ↔ ∀ a, a ∈ s ↔ a ∈ t := by
  rw [sameElements, Bool.and_eq_true, isSuperset_iff, isSuperset_iff]
  exact ⟨fun h a => ⟨h.2 a, h.1 a⟩, fun h => ⟨fun a => (h a).mpr, fun a => (h a).mp⟩⟩

/-! ### Histories -/

/-- How a set has come about: it is made without elements, or of those of a list, and then one
element is inserted, or those of a list, again and again. -/
inductive History (α : Type u)
  | empty
  | ofList (as : List α)
  | insert (before : History α) (a : α)
  | insertAll (before : History α) (as : List α)

namespace History

/-- All elements that were offered to the set, repetitions included. -/
def offered : History α → List α
  | empty => []
  | ofList as => as
  | insert before a => before.offered ++ [a]
  | insertAll before as => before.offered ++ as

/-- The ordered set that comes about. -/
def ordered : History α → OrderedSet α
  | empty => .empty
  | ofList as => .ofList as
  | insert before a => before.ordered.insert a
  | insertAll before as => before.ordered.insertAll as

/-- An ordered set has each element at the place where it was offered first. -/
theorem toList_ordered (h : History α) : h.ordered.toList = h.offered.eraseDups := by
  induction h with
  | empty => rfl
  | ofList as =>
      have hempty : (OrderedSet.empty : OrderedSet α).toList = [].eraseDups := rfl
      exact toList_insertAll hempty as
  | insert before a ih => exact toList_insertAll ih [a]
  | insertAll before as ih => exact toList_insertAll ih as

lemma mem_ordered {h : History α} {a : α} : a ∈ h.ordered ↔ a ∈ h.offered := by
  rw [← mem_toList, toList_ordered, List.mem_eraseDups]

end History

end OrderedSet

/-! ### Lists with an index -/

variable [DecidableEq α] [Hashable α]

/-- A set that is kept twice: the list has the order in which the elements came, and the index is
what is searched. -/
structure IndexedList (α : Type u) [DecidableEq α] [Hashable α] where
  toList : List α
  index : Std.HashSet α

namespace IndexedList

/-- The set without elements. -/
def empty : IndexedList α := ⟨[], ∅⟩

/-- Whether an element is new to the index, and the set with it. What is new goes to the end of
the list. -/
def offer (s : IndexedList α) (a : α) : Bool × IndexedList α :=
  let isNew := !s.index.contains a
  (isNew, ⟨if isNew then s.toList ++ [a] else s.toList, s.index.insert a⟩)

/-- The set with one more element. -/
def insert (s : IndexedList α) (a : α) : IndexedList α := (s.offer a).2

/-- The set with the elements of a list, taken from left to right. -/
def insertAll (s : IndexedList α) (as : List α) : IndexedList α := as.foldl insert s

/-- The elements of a list, each at the place where it comes first. -/
def ofList (as : List α) : IndexedList α := empty.insertAll as

/-- Whether an element is in the index. -/
def contains (s : IndexedList α) (a : α) : Bool := s.index.contains a

/-- The number of elements of the list. -/
def size (s : IndexedList α) : Nat := s.toList.length

/-- Whether what the list of `t` has is in the index of `s`. -/
def isSuperset (s t : IndexedList α) : Bool := t.toList.all s.contains

/-- Whether the indexes are equal. -/
def sameElements (s t : IndexedList α) : Bool := s.index.beq t.index

/-! ### Both parts in step -/

/-- Whether an indexed list is an ordered set: it lists the same elements in the same order, and
its index has no others. -/
structure Represents (s : IndexedList α) (o : OrderedSet α) : Prop where
  toList_eq : s.toList = o.toList
  mem_index : ∀ a, a ∈ s.index ↔ a ∈ o

variable {s t : IndexedList α} {o p : OrderedSet α} {a : α}

lemma represents_empty : Represents (empty : IndexedList α) .empty where
  toList_eq := rfl
  mem_index a := by simp [empty, OrderedSet.empty, ← OrderedSet.mem_toList]

namespace Represents

lemma contains_iff (h : Represents s o) : s.contains a = true ↔ a ∈ o := by
  rw [contains, Std.HashSet.contains_iff_mem, h.mem_index]

/-- An element is new to the index iff it is new to the list. -/
lemma offer_fst (h : Represents s o) : (s.offer a).1 = (o.offer a).1 := by
  have hnew : (s.offer a).1 = true ↔ a ∉ o := by
    rw [← h.contains_iff]
    simp [offer, contains]
  exact Bool.eq_iff_iff.mpr (hnew.trans OrderedSet.offer_fst.symm)

/-- **One more element** goes into both parts, or into none of them. -/
lemma insert (h : Represents s o) (a : α) : Represents (s.insert a) (o.insert a) where
  toList_eq := by
    rw [OrderedSet.toList_insert, ← h.toList_eq, ← if_congr h.contains_iff rfl rfl]
    simp [IndexedList.insert, offer, contains]
  mem_index b := by
    rw [OrderedSet.mem_insert, ← h.mem_index, IndexedList.insert, offer, Std.HashSet.mem_insert,
      beq_iff_eq, or_comm, eq_comm]

lemma insertAll (h : Represents s o) (as : List α) :
    Represents (s.insertAll as) (o.insertAll as) := by
  induction as generalizing s o with
  | nil => exact h
  | cons a as ih => exact ih (h.insert a)

lemma isSuperset (h : Represents s o) (h' : Represents t p) :
    s.isSuperset t = o.isSuperset p := by
  refine Bool.eq_iff_iff.mpr ?_
  rw [IndexedList.isSuperset, OrderedSet.isSuperset, h'.toList_eq, List.all_eq_true,
    List.all_eq_true]
  simp only [h.contains_iff, decide_eq_true_eq]

/-- **Equal indexes** are those of sets with the same elements, whatever their lists. -/
lemma sameElements (h : Represents s o) (h' : Represents t p) :
    s.sameElements t = o.sameElements p := by
  refine Bool.eq_iff_iff.mpr (Iff.trans Std.HashSet.beq_iff_equiv ?_)
  rw [Std.HashSet.equiv_iff_forall_mem_iff, OrderedSet.sameElements_iff]
  simp only [h.mem_index, h'.mem_index]

/-- Both parts have the same number of elements. -/
lemma size_index (h : Represents s o) : s.index.size = s.size := by
  have hindex : s.index.toList.Nodup :=
    Std.HashSet.distinct_toList.imp fun hne heq => by simp [heq] at hne
  have hlist : s.toList.Nodup := h.toList_eq ▸ o.nodup
  have hperm : s.index.toList.Perm s.toList := by
    rw [List.perm_ext_iff_of_nodup hindex hlist]
    intro a
    rw [Std.HashSet.mem_toList, h.mem_index, h.toList_eq, OrderedSet.mem_toList]
  rw [← Std.HashSet.length_toList, hperm.length_eq, size]

end Represents

end IndexedList

/-! ### After every history -/

open OrderedSet

/-- The indexed list that comes about. -/
def OrderedSet.History.indexed : History α → IndexedList α
  | .empty => .empty
  | .ofList as => .ofList as
  | .insert before a => before.indexed.insert a
  | .insertAll before as => before.indexed.insertAll as

namespace IndexedList

/-- **Every history keeps both parts in step** with an ordered set. -/
theorem represents_ordered (h : History α) : h.indexed.Represents h.ordered := by
  induction h with
  | empty => exact represents_empty
  | ofList as => exact represents_empty.insertAll as
  | insert before a ih => exact ih.insert a
  | insertAll before as ih => exact ih.insertAll as

/-- Whether an indexed list is what it should be once some elements were offered: the list has no
repetitions, it has the elements of the index, and it has those that were offered, each at the
place where it came first; an element is new iff it was not offered yet, and found iff it was. -/
structure InStep (s : IndexedList α) (offered : List α) : Prop where
  nodup : s.toList.Nodup
  mem_index : ∀ a, a ∈ s.toList ↔ a ∈ s.index
  size_index : s.size = s.index.size
  firstPlaces : s.toList = offered.eraseDups
  new_iff : ∀ a, (s.offer a).1 = true ↔ a ∉ offered
  contains_iff : ∀ a, s.contains a = true ↔ a ∈ offered

/-- What represents the ordered set of a history is in step with what was offered. -/
lemma Represents.inStep {s : IndexedList α} {h : History α} (hs : s.Represents h.ordered) :
    s.InStep h.offered where
  nodup := hs.toList_eq ▸ h.ordered.nodup
  mem_index a := by rw [hs.toList_eq, hs.mem_index, mem_toList]
  size_index := hs.size_index.symm
  firstPlaces := hs.toList_eq.trans h.toList_ordered
  new_iff a := by rw [hs.offer_fst, OrderedSet.offer_fst, History.mem_ordered]
  contains_iff a := by rw [hs.contains_iff, History.mem_ordered]

/-- **The two parts of a set stay in step** with each other and with what was offered, after every
history. A set is a superset of another iff it was offered all that the other was, and two sets are
equal iff each is a superset of the other, in whatever order their elements came. The list alone
gives the same answers. -/
theorem history_inStep (h h' : History α) :
    h.indexed.InStep h.offered ∧
      (h.indexed.isSuperset h'.indexed = true ↔ ∀ a ∈ h'.offered, a ∈ h.offered) ∧
      (h.indexed.sameElements h'.indexed = true ↔
        h.indexed.isSuperset h'.indexed = true ∧ h'.indexed.isSuperset h.indexed = true) ∧
      (h.indexed.sameElements h'.indexed = true ↔ ∀ a, a ∈ h.offered ↔ a ∈ h'.offered) ∧
      h.indexed.Represents h.ordered ∧
      (∀ a, (h.indexed.offer a).1 = (h.ordered.offer a).1) ∧
      h.indexed.isSuperset h'.indexed = h.ordered.isSuperset h'.ordered ∧
      h.indexed.sameElements h'.indexed = h.ordered.sameElements h'.ordered := by
  have hs := represents_ordered h
  have hs' := represents_ordered h'
  have hsuperset := hs.isSuperset hs'
  have hsame := hs.sameElements hs'
  refine ⟨hs.inStep, ?_, ?_, ?_, hs, fun a => hs.offer_fst, hsuperset, hsame⟩
  · rw [hsuperset, OrderedSet.isSuperset_iff]
    simp only [History.mem_ordered]
  · rw [hsame, hsuperset, hs'.isSuperset hs, OrderedSet.sameElements, Bool.and_eq_true]
  · rw [hsame, OrderedSet.sameElements_iff]
    simp only [History.mem_ordered]

end IndexedList

end DependencyTheory
