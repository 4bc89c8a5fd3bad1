/-
The search for the connected components of a relation between places:

* `Exploration`: the numbers that places have got and the stack of places still to be left, with
  `Exploration.lookAround` for one place and `explore` for all that can be reached from it;
* `Numbering`: the numbers and how many components there are so far, with `Numbering.start` for one
  place and `Numbering.ofPlaces` for all;
* `Reaching`: what is kept while a component is explored, `Reaching.leave` for one place and
  `Reaching.explore` for all;
* `Numbered`: what is kept from one start to the next, `Numbered.start` for one place;
* `numbered_ofPlaces`: in the end two places have **the same number iff they are linked**, directly
  or through others, and numbers are in the order of first places.

A place gets its number when it is put on the stack, so it is put there once. A search ends because
each place that is taken away has come there in exchange for a number.
-/
import Mathlib.Data.List.Nodup
import Mathlib.Logic.Relation
import Mathlib.Tactic.Lemma

namespace DependencyTheory

open Relation

/-! ### The search -/

/-- The numbers that places have got so far, and the places that have been reached but not left
yet, the next one first. -/
structure Exploration where
  numbers : List (Option Nat)
  stack : List Nat

namespace Exploration

/-- Looks at a place. If it is linked and has no number yet, it gets the number `c` and is put on
the stack. -/
def look (links : Nat → Bool) (c : Nat) (e : Exploration) (j : Nat) : Exploration :=
  if e.numbers[j]? = some none ∧ links j = true then
    ⟨e.numbers.set j (some c), j :: e.stack⟩
  else e

/-- Looks at several places, one after the other. -/
def lookAround (links : Nat → Bool) (c : Nat) (e : Exploration) (places : List Nat) :
    Exploration :=
  places.foldl (look links c) e

/-- How many places are without a number or on the stack. -/
def size (e : Exploration) : Nat := e.numbers.count none + e.stack.length

variable {links : Nat → Bool} {c i j : Nat} {e : Exploration} {places : List Nat}

lemma size_look : (look links c e j).size = e.size := by
  rw [look]
  split
  · next h =>
      obtain ⟨hlt, hfree⟩ := List.getElem?_eq_some_iff.mp h.1
      have hpos : 0 < e.numbers.count none :=
        List.count_pos_iff.mpr (hfree ▸ List.getElem_mem hlt)
      simp only [size, List.count_set hlt, hfree, List.length_cons]
      simp
      omega
  · rfl

/-- Looking around neither gains nor loses a place. -/
lemma size_lookAround : (lookAround links c e places).size = e.size := by
  induction places generalizing e with
  | nil => rfl
  | cons j places ih => exact ih.trans size_look

end Exploration

/-- Takes places from the stack and looks around from each, until none is left. -/
def explore (linked : Nat → Nat → Bool) (c n : Nat) : Exploration → List (Option Nat)
  | ⟨numbers, []⟩ => numbers
  | ⟨numbers, i :: stack⟩ =>
    explore linked c n (.lookAround (linked i) c ⟨numbers, stack⟩ (.range n))
termination_by e => e.size
decreasing_by
  rw [Exploration.size_lookAround]
  simp [Exploration.size]

/-- The numbers that places have got so far, and how many components there are. -/
structure Numbering where
  numbers : List (Option Nat)
  count : Nat

namespace Numbering

/-- Starts from a place. Unless it has a number, it gets the next one, and so do all places that
can be reached from it. -/
def start (linked : Nat → Nat → Bool) (n : Nat) (r : Numbering) (i : Nat) : Numbering :=
  if r.numbers[i]? = some none then
    ⟨explore linked r.count n ⟨r.numbers.set i (some r.count), [i]⟩, r.count + 1⟩
  else r

/-- The numbering after a start from each of the first `n` places, in order. -/
def ofPlaces (linked : Nat → Nat → Bool) (n : Nat) : Numbering :=
  (List.range n).foldl (start linked n) ⟨.replicate n none, 0⟩

end Numbering

/-! ### Looking around -/

namespace Exploration

variable {links : Nat → Bool} {c i j : Nat} {e : Exploration} {places : List Nat}

lemma getElem?_look : (look links c e j).numbers[i]? =
    if i = j ∧ links i = true ∧ e.numbers[i]? = some none then some (some c)
    else e.numbers[i]? := by
  grind [look]

/-- **Looking around** numbers the places that are linked and have no number yet, and no others. -/
lemma getElem?_lookAround : (lookAround links c e places).numbers[i]? =
    if i ∈ places ∧ links i = true ∧ e.numbers[i]? = some none then some (some c)
    else e.numbers[i]? := by
  induction places generalizing e with
  | nil => simp [lookAround]
  | cons j places ih =>
      rw [lookAround, List.foldl_cons, ← lookAround, ih, getElem?_look]
      grind

/-- It puts just these places on the stack. -/
lemma mem_stack_lookAround : i ∈ (lookAround links c e places).stack ↔
    i ∈ e.stack ∨ i ∈ places ∧ links i = true ∧ e.numbers[i]? = some none := by
  induction places generalizing e with
  | nil => simp [lookAround]
  | cons j places ih =>
      rw [lookAround, List.foldl_cons, ← lookAround, ih, getElem?_look]
      grind [look]

lemma length_lookAround : (lookAround links c e places).numbers.length = e.numbers.length := by
  induction places generalizing e with
  | nil => rfl
  | cons j places ih =>
      rw [lookAround, List.foldl_cons, ← lookAround, ih]
      grind [look]

end Exploration

/-! ### Exploring a component -/

section Reaching

variable {linked : Nat → Nat → Bool} {before numbers : List (Option Nat)} {stack : List Nat}
  {i j k c d n : Nat}

/-- Whether places are linked, directly or through others. -/
abbrev Joined (linked : Nat → Nat → Bool) : Nat → Nat → Prop :=
  ReflTransGen fun i j => linked i j = true

lemma Joined.symm (h : Joined linked i j)
    (hsymm : ∀ i j, linked i j = true → linked j i = true) : Joined linked j i := by
  have : Std.Symm fun i j => linked i j = true := ⟨hsymm⟩
  exact ReflTransGen.stdSymm.symm _ _ h

/-- What is kept while the component `c` is explored from the place `k`: no place loses a number,
and the places that get one are linked to `k`; a place of the component that is not on the stack
any more has only places linked to it that have a number. -/
structure Reaching (linked : Nat → Nat → Bool) (before : List (Option Nat)) (k c : Nat)
    (e : Exploration) : Prop where
  length : e.numbers.length = before.length
  fresh : ∀ i : Nat, before[i]? ≠ some (some c)
  kept : ∀ (i : Nat) d, before[i]? = some (some d) → e.numbers[i]? = some (some d)
  origin : ∀ (i : Nat) d, e.numbers[i]? = some (some d) →
    before[i]? = some (some d) ∨ d = c ∧ before[i]? = some none ∧ Joined linked k i
  first : e.numbers[k]? = some (some c)
  stack : ∀ i ∈ e.stack, e.numbers[i]? = some (some c)
  left : ∀ i : Nat, e.numbers[i]? = some (some c) →
    i ∈ e.stack ∨ ∀ j : Nat, linked i j = true → e.numbers[j]? ≠ some none

/-- A place of the component is linked to the one that the component was started from. -/
lemma Reaching.joined {e : Exploration} (h : Reaching linked before k c e)
    (hi : e.numbers[i]? = some (some c)) : Joined linked k i := by
  rcases h.origin i c hi with hold | ⟨-, -, hjoined⟩
  · exact absurd hold (h.fresh i)
  · exact hjoined

/-- A place without a number had none before. -/
lemma Reaching.free {e : Exploration} (h : Reaching linked before k c e)
    (hi : e.numbers[i]? = some none) : before[i]? = some none := by
  obtain ⟨hlt, -⟩ := List.getElem?_eq_some_iff.mp hi
  cases hb : before[i]? with
  | none => rw [List.getElem?_eq_none_iff, ← h.length] at hb; omega
  | some number =>
      cases number with
      | none => rfl
      | some d => exact absurd (hi.symm.trans (h.kept i d hb)) (by simp)

/-- **Leaving a place** keeps what is kept. -/
lemma Reaching.leave (h : Reaching linked before k c ⟨numbers, i :: stack⟩)
    (hbound : ∀ i j, linked i j = true → j < n) :
    Reaching linked before k c (.lookAround (linked i) c ⟨numbers, stack⟩ (.range n)) where
  length := Exploration.length_lookAround.trans h.length
  fresh := h.fresh
  kept := by
    intro j d hj
    rw [Exploration.getElem?_lookAround, if_neg]
    · exact h.kept j d hj
    · rintro ⟨-, -, hfree⟩
      exact absurd ((h.kept j d hj).symm.trans hfree) (by simp)
  origin := by
    intro j d hj
    rw [Exploration.getElem?_lookAround] at hj
    split at hj
    · next hnew =>
        obtain ⟨-, hlinked, hfree⟩ := hnew
        have hjoined := h.joined (h.stack i List.mem_cons_self)
        exact Or.inr ⟨(Option.some.inj (Option.some.inj hj)).symm, h.free hfree,
          hjoined.tail hlinked⟩
    · exact h.origin j d hj
  first := by
    rw [Exploration.getElem?_lookAround]
    split
    · rfl
    · exact h.first
  stack := by
    intro j hj
    rw [Exploration.getElem?_lookAround]
    split
    · rfl
    · next hold =>
        rcases Exploration.mem_stack_lookAround.mp hj with hj | hj
        · exact h.stack j (List.mem_cons_of_mem _ hj)
        · exact absurd hj hold
  left := by
    intro j hj
    rw [Exploration.mem_stack_lookAround]
    simp only [Exploration.getElem?_lookAround] at hj ⊢
    split at hj
    · next hnew => exact Or.inl (Or.inr hnew)
    · rcases h.left j hj with hmem | hleft
      · rcases List.mem_cons.mp hmem with rfl | hmem
        · refine Or.inr fun l hl => ?_
          split
          · simp
          · next hold => exact fun hfree => hold ⟨List.mem_range.mpr (hbound _ _ hl), hl, hfree⟩
        · exact Or.inl (Or.inl hmem)
      · refine Or.inr fun l hl => ?_
        split
        · simp
        · exact hleft l hl

/-- **Exploring keeps what is kept**, until the stack is empty. -/
theorem Reaching.explore {e : Exploration} (h : Reaching linked before k c e)
    (hbound : ∀ i j, linked i j = true → j < n) :
    Reaching linked before k c ⟨explore linked c n e, []⟩ := by
  induction e using explore.induct linked c n with
  | case1 numbers => rwa [DependencyTheory.explore]
  | case2 numbers i stack ih =>
      rw [DependencyTheory.explore]
      exact ih (h.leave hbound)

end Reaching

/-! ### Numbering all places -/

/-- A place that is not without a number has one. -/
lemma exists_number {numbers : List (Option Nat)} {i : Nat} (hi : i < numbers.length)
    (h : numbers[i]? ≠ some none) : ∃ c, numbers[i]? = some (some c) := by
  rw [List.getElem?_eq_getElem hi] at h ⊢
  cases hnumber : numbers[i] with
  | none => exact absurd (congrArg some hnumber) h
  | some c => exact ⟨c, rfl⟩

section Numbered

variable {linked : Nat → Nat → Bool} {r : Numbering} {i j k n : Nat}

/-- What is kept from one start to the next, with `k` for the next place: places that are linked
have the same number, and places with the same number are linked, directly or through others; the
places before `k` have numbers, and each number has a first place there, which comes before all
places with greater numbers. -/
structure Numbered (linked : Nat → Nat → Bool) (n k : Nat) (r : Numbering) : Prop where
  length : r.numbers.length = n
  lt_count : ∀ (i : Nat) c, r.numbers[i]? = some (some c) → c < r.count
  closed : ∀ (i j : Nat) c, r.numbers[i]? = some (some c) → linked i j = true →
    r.numbers[j]? = some (some c)
  joined : ∀ (i j : Nat) c, r.numbers[i]? = some (some c) → r.numbers[j]? = some (some c) →
    Joined linked i j
  started : ∀ i < k, r.numbers[i]? ≠ some none
  first : ∀ c < r.count, ∃ i < k, r.numbers[i]? = some (some c) ∧
    ∀ (j : Nat) d, r.numbers[j]? = some (some d) → c ≤ d → i ≤ j

lemma numbered_zero : Numbered linked n 0 ⟨.replicate n none, 0⟩ where
  length := List.length_replicate
  lt_count i c h := by simp [List.getElem?_replicate] at h
  closed i j c h := by simp [List.getElem?_replicate] at h
  joined i j c h := by simp [List.getElem?_replicate] at h
  started i h := absurd h (Nat.not_lt_zero i)
  first c h := absurd h (Nat.not_lt_zero c)

/-- A place without a number is not before the next start. -/
lemma Numbered.le_of_free (h : Numbered linked n k r) (hi : r.numbers[i]? = some none) : k ≤ i :=
  Nat.le_of_not_lt fun hlt => h.started i hlt hi

/-- What is reached from a place without a number. -/
lemma Numbered.reaching (h : Numbered linked n k r) (hk : r.numbers[k]? = some none)
    (hbound : ∀ i j, linked i j = true → j < n) :
    Reaching linked r.numbers k r.count
      ⟨explore linked r.count n ⟨r.numbers.set k (some r.count), [k]⟩, []⟩ := by
  obtain ⟨hlt, -⟩ := List.getElem?_eq_some_iff.mp hk
  refine Reaching.explore
    { length := by simp, fresh := ?fresh, kept := ?kept, origin := ?origin, first := ?first,
      stack := ?stack, left := ?left } hbound
  case fresh => exact fun i hi => Nat.lt_irrefl _ (h.lt_count i _ hi)
  case kept => grind
  case origin =>
    intro i d hi
    by_cases hik : i = k
    · subst hik
      rw [List.getElem?_set_self hlt, Option.some.injEq, Option.some.injEq] at hi
      exact Or.inr ⟨hi.symm, hk, .refl⟩
    · rw [List.getElem?_set_ne (Ne.symm hik)] at hi
      exact Or.inl hi
  case first => exact List.getElem?_set_self hlt
  case stack => grind
  case left =>
    intro i hi
    by_cases hik : i = k
    · exact Or.inl (hik ▸ List.mem_singleton_self _)
    · rw [List.getElem?_set_ne (Ne.symm hik)] at hi
      exact absurd (h.lt_count i _ hi) (Nat.lt_irrefl _)

/-- A component that has been explored is numbered like those before it. -/
lemma Numbered.of_reaching {numbers : List (Option Nat)} (h : Numbered linked n k r)
    (hreach : Reaching linked r.numbers k r.count ⟨numbers, []⟩)
    (hsymm : ∀ i j, linked i j = true → linked j i = true)
    (hbound : ∀ i j, linked i j = true → j < n) :
    Numbered linked n (k + 1) ⟨numbers, r.count + 1⟩ := by
  have hnew : ∀ {i d : Nat}, numbers[i]? = some (some d) →
      r.numbers[i]? = some (some d) ∧ d < r.count ∨ d = r.count ∧ r.numbers[i]? = some none := by
    intro i d hi
    rcases hreach.origin i d hi with hold | ⟨hd, hfree, -⟩
    · exact Or.inl ⟨hold, h.lt_count i d hold⟩
    · exact Or.inr ⟨hd, hfree⟩
  refine
    { length := hreach.length.trans h.length, lt_count := ?lt_count, closed := ?closed,
      joined := ?joined, started := ?started, first := ?first }
  case lt_count =>
    intro i d hi
    rcases hnew hi with ⟨-, hlt⟩ | ⟨rfl, -⟩
    · exact Nat.lt_succ_of_lt hlt
    · exact Nat.lt_succ_self _
  case closed =>
    intro i j d hi hij
    rcases hnew hi with ⟨hold, -⟩ | ⟨rfl, hfree⟩
    · exact hreach.kept j d (h.closed i j d hold hij)
    · have hlt : j < numbers.length := by
        rw [hreach.length, h.length]
        exact hbound i j hij
      obtain ⟨d, hj⟩ :=
        exists_number hlt ((hreach.left i hi).resolve_left List.not_mem_nil j hij)
      rcases hnew hj with ⟨hold, -⟩ | ⟨rfl, -⟩
      · exact absurd (hfree.symm.trans (h.closed j i d hold (hsymm i j hij))) (by simp)
      · exact hj
  case joined =>
    intro i j d hi hj
    rcases hnew hi with ⟨hi', hlt⟩ | ⟨rfl, -⟩
    · rcases hnew hj with ⟨hj, -⟩ | ⟨rfl, -⟩
      · exact h.joined i j d hi' hj
      · exact absurd hlt (Nat.lt_irrefl _)
    · exact ((hreach.joined hi).symm hsymm).trans (hreach.joined hj)
  case started =>
    intro i hi hfree
    rcases Nat.lt_succ_iff_lt_or_eq.mp hi with hi | rfl
    · exact h.started i hi (hreach.free hfree)
    · exact absurd (hreach.first.symm.trans hfree) (by simp)
  case first =>
    intro c hc
    rcases Nat.lt_succ_iff_lt_or_eq.mp hc with hc | rfl
    · obtain ⟨i, hi, hfirst, hleast⟩ := h.first c hc
      refine ⟨i, Nat.lt_succ_of_lt hi, hreach.kept i c hfirst, fun j d hj hcd => ?_⟩
      rcases hnew hj with ⟨hj, -⟩ | ⟨-, hj⟩
      · exact hleast j d hj hcd
      · exact Nat.le_trans (Nat.le_of_lt hi) (h.le_of_free hj)
    · refine ⟨k, Nat.lt_succ_self k, hreach.first, fun j d hj hcd => ?_⟩
      rcases hnew hj with ⟨-, hlt⟩ | ⟨-, hj⟩
      · exact absurd (Nat.lt_of_lt_of_le hlt hcd) (Nat.lt_irrefl d)
      · exact h.le_of_free hj

/-- **A start keeps what is kept.** -/
lemma Numbered.start (h : Numbered linked n k r)
    (hsymm : ∀ i j, linked i j = true → linked j i = true)
    (hbound : ∀ i j, linked i j = true → j < n) :
    Numbered linked n (k + 1) (r.start linked n k) := by
  rw [Numbering.start]
  split
  · next hfree => exact h.of_reaching (h.reaching hfree hbound) hsymm hbound
  · next hnumber =>
      refine ⟨h.length, h.lt_count, h.closed, h.joined, fun i hi => ?_, fun c hc => ?_⟩
      · rcases Nat.lt_succ_iff_lt_or_eq.mp hi with hi | rfl
        · exact h.started i hi
        · exact hnumber
      · obtain ⟨i, hi, hfirst⟩ := h.first c hc
        exact ⟨i, Nat.lt_succ_of_lt hi, hfirst⟩

/-- **All places are numbered by their components.** -/
theorem numbered_ofPlaces (hsymm : ∀ i j, linked i j = true → linked j i = true)
    (hbound : ∀ i j, linked i j = true → j < n) :
    Numbered linked n n (.ofPlaces linked n) := by
  have hstarts : ∀ k, Numbered linked n k
      ((List.range k).foldl (Numbering.start linked n) ⟨.replicate n none, 0⟩) := by
    intro k
    induction k with
    | zero => exact numbered_zero
    | succ k ih =>
        rw [List.range_succ, List.foldl_append]
        exact ih.start hsymm hbound
  exact hstarts n

end Numbered

namespace Numbering

/-- The places with a certain number, in order. -/
def places (r : Numbering) (c : Nat) : List Nat :=
  (List.range r.numbers.length).filter fun i => r.numbers[i]? == some (some c)

/-- The places with each of the numbers, in the order of the numbers. -/
def groups (r : Numbering) : List (List Nat) := (List.range r.count).map r.places

variable {r : Numbering} {c i : Nat}

lemma mem_places : i ∈ r.places c ↔ r.numbers[i]? = some (some c) := by
  rw [places, List.mem_filter, List.mem_range, beq_iff_eq, and_iff_right_iff_imp]
  exact fun h => (List.getElem?_eq_some_iff.mp h).1

end Numbering

end DependencyTheory
