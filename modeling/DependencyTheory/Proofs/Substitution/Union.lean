/-
Two substitutions at once:

* `sameMap_iff`: two substitutions are the same map iff each is at most the other;
* `Agrees`: whether two substitutions give the variables that both bind the same images;
* `ExtendedBy`: whether a result is there and a substitution extends it;
* `extendedBy_union?`: **what extends the union** of two substitutions is what extends both;
* `SameResult`: whether two results are the same map, or neither is there;
* `isSome_union?_iff`: substitutions have a union iff they agree;
* `tryBind`: a binding as an answer and the substitution that is there afterwards;
* `union?_leastUpperBound`: the union is the least upper bound, and the laws of a union follow.

The union takes the bindings of one substitution one by one, and stops at the first that is
refused. In which order they come does not show in what extends the result, and neither does
which of the two substitutions it is: the laws are those of the conjunction.
-/
import DependencyTheory.Proofs.Substitution.Order
import Mathlib.Data.List.Perm.Subperm

namespace DependencyTheory

namespace Substitution

variable {s t u w : Substitution} {x : String} {image : Term}

/-! ### Equal maps -/

/-- The bindings of a substitution are the images that it gives. -/
lemma mem_bindings : (x, image) ∈ s.bindings ↔ s.get? x = some image := by
  obtain ⟨bindings, hdistinct⟩ := s
  simp only [get?]
  induction bindings with
  | nil => simp
  | cons binding rest ih =>
      obtain ⟨y, v⟩ := binding
      rw [List.map_cons, List.nodup_cons] at hdistinct
      rw [List.mem_cons, List.lookup_cons]
      by_cases hxy : x = y
      · -- no later binding is one of the same variable
        subst hxy
        have hlater : (x, image) ∉ rest := fun hmem =>
          hdistinct.1 (List.mem_map.mpr ⟨_, hmem, rfl⟩)
        simp [hlater, eq_comm]
      · have hne : (x == y) = false := by simpa using hxy
        simp [hxy, hne, ih hdistinct.2]

/-- The bindings of a substitution are all in another iff the other extends it. -/
lemma forall_bindings_iff : (∀ b ∈ s.bindings, w.get? b.1 = some b.2) ↔ s ≤ w := by
  constructor
  · exact fun h x image hx => h (x, image) (mem_bindings.mpr hx)
  · exact fun h b hb => h b.1 b.2 (mem_bindings.mp hb)

lemma mem_vars : x ∈ s.vars ↔ ∃ image, s.get? x = some image := by
  rw [← Option.ne_none_iff_exists', Ne, get?_eq_none, not_not]

/-- An extension has all variables. -/
lemma vars_subset_of_le (h : s ≤ t) : s.vars ⊆ t.vars := fun x hx => by
  obtain ⟨image, himage⟩ := mem_vars.mp hx
  exact mem_vars.mpr ⟨image, h x image himage⟩

/-- **An extension of the same size** binds nothing else. -/
lemma le_of_size_eq (h : s ≤ t) (hsize : s.size = t.size) : t ≤ s := by
  have hlength : t.vars.length ≤ s.vars.length := by
    rw [vars, vars, List.length_map, List.length_map]
    exact Nat.le_of_eq hsize.symm
  have hperm : s.vars.Perm t.vars :=
    (List.subperm_of_subset s.distinct (vars_subset_of_le h)).perm_of_length_le hlength
  intro x image hx
  obtain ⟨image', hx'⟩ := mem_vars.mp (hperm.mem_iff.mpr (mem_vars.mpr ⟨image, hx⟩))
  rw [hx', ← h x image' hx', hx]

lemma size_le_of_le (h : s ≤ t) : s.size ≤ t.size := by
  have hlength := List.Nodup.length_le_of_subset s.distinct (vars_subset_of_le h)
  rwa [vars, List.length_map, List.length_map] at hlength

/-- Two substitutions are the same map iff each is at most the other. -/
theorem sameMap_iff : s.sameMap t = true ↔ s ≤ t ∧ t ≤ s := by
  have hsame : s.sameMap t = true ↔ s.size = t.size ∧ s ≤ t := by
    rw [sameMap, Bool.and_eq_true, beq_iff_eq, List.all_eq_true, ← forall_bindings_iff]
    simp
  rw [hsame]
  constructor
  · rintro ⟨hsize, h⟩
    exact ⟨h, le_of_size_eq h hsize⟩
  · rintro ⟨h, h'⟩
    exact ⟨Nat.le_antisymm (size_le_of_le h) (size_le_of_le h'), h⟩

/-- In which order the bindings stand makes no difference to the map. -/
lemma le_of_perm (h : s.bindings.Perm t.bindings) : s ≤ t := fun _ _ hx =>
  mem_bindings.mp (h.mem_iff.mp (mem_bindings.mpr hx))

/-! ### Results -/

/-- Whether a result is there and a substitution extends it. -/
def ExtendedBy (result : Option Substitution) (w : Substitution) : Prop :=
  ∃ u, result = some u ∧ u ≤ w

variable {result result' : Option Substitution}

@[simp] lemma extendedBy_some : ExtendedBy (some s) w ↔ s ≤ w := by
  simp [ExtendedBy]

@[simp] lemma not_extendedBy_none : ¬ExtendedBy none w := by
  simp [ExtendedBy]

/-- A step that asks one thing more of what extends its result, after another one. -/
lemma extendedBy_bind {next : Substitution → Option Substitution} {P : Prop}
    (h : ∀ u, ExtendedBy (next u) w ↔ u ≤ w ∧ P) :
    ExtendedBy (result.bind next) w ↔ ExtendedBy result w ∧ P := by
  cases result with
  | none => simp
  | some u => simpa using h u

/-- Whether two results are the same map, or neither is there. -/
def SameResult (result result' : Option Substitution) : Prop :=
  Option.Rel (fun s t => s.sameMap t = true) result result'

/-- **Results are determined by what extends them.** -/
lemma sameResult_of_extendedBy (h : ∀ w, ExtendedBy result w ↔ ExtendedBy result' w) :
    SameResult result result' := by
  cases result with
  | none =>
      cases result' with
      | none => exact .none
      | some t => exact absurd ((h t).mpr (extendedBy_some.mpr le_rfl)) not_extendedBy_none
  | some s =>
      cases result' with
      | none => exact absurd ((h s).mp (extendedBy_some.mpr le_rfl)) not_extendedBy_none
      | some t =>
          simp only [extendedBy_some] at h
          exact .some (sameMap_iff.mpr ⟨(h t).mpr le_rfl, (h s).mp le_rfl⟩)

/-! ### Binding one variable after another -/

/-- A binding asks of what extends it that it has this binding too. -/
lemma extendedBy_bind? :
    ExtendedBy (s.bind? x image) w ↔ s ≤ w ∧ w.get? x = some image := by
  cases hx : s.get? x with
  | some old =>
      rw [bind?_of_some hx]
      by_cases hold : old = image
      · rw [if_pos hold, extendedBy_some]
        exact (and_iff_left_of_imp fun h => h x image (hold ▸ hx)).symm
      · rw [if_neg hold]
        refine iff_of_false not_extendedBy_none ?_
        rintro ⟨h, himage⟩
        exact hold (Option.some.inj ((h x old hx).symm.trans himage))
  | none =>
      rw [bind?_of_none hx, extendedBy_some]
      have hget : ∀ y, (s.append x image hx).get? y = if y = x then some image else s.get? y :=
        fun y => get?_append
      constructor
      · intro h
        refine ⟨fun y v hy => h y v ?_, h x image ?_⟩
        · rw [hget, if_neg fun hyx => ?_, hy]
          rw [hyx, hx] at hy
          exact absurd hy (by simp)
        · rw [hget, if_pos rfl]
      · rintro ⟨h, himage⟩ y v hy
        rw [hget] at hy
        split at hy
        · next hyx => rw [hyx, himage, hy]
        · exact h y v hy

/-- Some bindings, one after another. The first one that is refused ends it. -/
def bindAll? (s : Substitution) (bs : List (String × Term)) : Option Substitution :=
  bs.foldlM (fun u (x, image) => u.bind? x image) s

lemma union?_eq_bindAll? : s.union? t = s.bindAll? t.bindings := rfl

lemma bindAll?_nil : s.bindAll? [] = some s := rfl

lemma bindAll?_cons {b : String × Term} {bs : List (String × Term)} :
    s.bindAll? (b :: bs) = (s.bind? b.1 b.2).bind (·.bindAll? bs) := rfl

/-- What extends a substitution with some bindings extends it and has the bindings. -/
lemma extendedBy_bindAll? {bs : List (String × Term)} :
    ExtendedBy (s.bindAll? bs) w ↔ s ≤ w ∧ ∀ b ∈ bs, w.get? b.1 = some b.2 := by
  induction bs generalizing s with
  | nil => simp [bindAll?_nil]
  | cons b bs ih =>
      rw [bindAll?_cons, extendedBy_bind fun u => ih, extendedBy_bind?, and_assoc,
        List.forall_mem_cons]

/-- Bindings of different variables are not refused if the images are those that the
substitution has for them. -/
lemma exists_bindAll? {bs : List (String × Term)} (hdistinct : (bs.map Prod.fst).Nodup)
    (h : ∀ b ∈ bs, ∀ image, s.get? b.1 = some image → image = b.2) :
    ∃ u, s.bindAll? bs = some u := by
  induction bs generalizing s with
  | nil => exact ⟨s, rfl⟩
  | cons b bs ih =>
      obtain ⟨hb, hbs⟩ := List.forall_mem_cons.mp h
      rw [List.map_cons, List.nodup_cons] at hdistinct
      obtain ⟨v, hv⟩ : ∃ v, s.bind? b.1 b.2 = some v := by
        refine Option.ne_none_iff_exists'.mp fun hnone => ?_
        obtain ⟨image, himage, hne⟩ := bind?_eq_none.mp hnone
        exact hne (hb image himage)
      rw [bindAll?_cons, hv]
      refine ih hdistinct.2 fun c hc image himage => hbs c hc image ?_
      -- a later binding is one of another variable, which has its old image still
      have hne : c.1 ≠ b.1 := fun heq =>
        hdistinct.1 (List.mem_map.mpr ⟨c, hc, heq⟩)
      rwa [get?_of_bind? hv, if_neg hne] at himage

/-- The bound variables are the old ones and those of the bindings. -/
lemma isSome_get?_of_bindAll? {bs : List (String × Term)} (h : s.bindAll? bs = some u) :
    (u.get? x).isSome ↔ (s.get? x).isSome ∨ x ∈ bs.map Prod.fst := by
  induction bs generalizing s with
  | nil =>
      cases h
      simp
  | cons b bs ih =>
      rw [bindAll?_cons, Option.bind_eq_some_iff] at h
      obtain ⟨v, hv, h⟩ := h
      rw [ih h, isSome_get?_of_bind? hv, or_assoc, List.map_cons, List.mem_cons]

/-! ### The union -/

/-- Whether two substitutions give the variables that both bind the same images. -/
def Agrees (s t : Substitution) : Prop :=
  ∀ x v v', s.get? x = some v → t.get? x = some v' → v = v'

/-- **What extends the union** of two substitutions is what extends both. -/
theorem extendedBy_union? : ExtendedBy (s.union? t) w ↔ s ≤ w ∧ t ≤ w := by
  rw [union?_eq_bindAll?, extendedBy_bindAll?, forall_bindings_iff]

/-- Substitutions have a union iff they agree. -/
theorem isSome_union?_iff : (s.union? t).isSome = true ↔ s.Agrees t := by
  constructor
  · intro h x v v' hs ht
    obtain ⟨u, hu⟩ := Option.isSome_iff_exists.mp h
    obtain ⟨hsu, htu⟩ := extendedBy_union?.mp ⟨u, hu, le_rfl⟩
    exact Option.some.inj ((hsu x v hs).symm.trans (htu x v' ht))
  · intro h
    rw [Option.isSome_iff_exists]
    exact exists_bindAll? t.distinct fun b hb image himage =>
      h b.1 image b.2 himage (mem_bindings.mp hb)

lemma contains_iff : s.contains x = true ↔ x ∈ s.vars := by
  rw [contains, Option.isSome_iff_exists, mem_vars]

/-- Whether a substitution is what two others are together: it extends both, binds the variables
of either and no more, and is extended by all that extends both. -/
structure IsUnion (s t u : Substitution) : Prop where
  left : s ≤ u
  right : t ≤ u
  binds : ∀ x, u.contains x = true ↔ s.contains x = true ∨ t.contains x = true
  least : ∀ w, s ≤ w → t ≤ w → u ≤ w

/-- What is computed is the union. -/
theorem isUnion_of_union? (h : s.union? t = some u) : IsUnion s t u where
  left := (extendedBy_union?.mp ⟨u, h, le_rfl⟩).1
  right := (extendedBy_union?.mp ⟨u, h, le_rfl⟩).2
  binds x := by
    rw [contains_iff (s := t)]
    exact isSome_get?_of_bindAll? h
  least w hs ht := by
    have hw : ExtendedBy (s.union? t) w := extendedBy_union?.mpr ⟨hs, ht⟩
    rwa [h, extendedBy_some] at hw

section Equal

-- what follows does not depend on the order in which a map is written down
variable {t' : Substitution}

lemma Agrees.congr (h : s.Agrees t) (ht : t' ≤ t) : s.Agrees t' :=
  fun x v v' hs ht' => h x v v' hs (ht x v' ht')

lemma IsUnion.congr (h : IsUnion s t u) (ht : t ≤ t') (ht' : t' ≤ t) : IsUnion s t' u where
  left := h.left
  right := ht'.trans h.right
  binds x := by
    have hvars : x ∈ t.vars ↔ x ∈ t'.vars :=
      ⟨fun hx => vars_subset_of_le ht hx, fun hx => vars_subset_of_le ht' hx⟩
    rw [h.binds, contains_iff (s := t), contains_iff (s := t'), hvars]
  least w hs hw := h.least w hs (ht.trans hw)

lemma sameResult_union?_congr (ht : t ≤ t') (ht' : t' ≤ t) :
    SameResult (s.union? t) (s.union? t') :=
  sameResult_of_extendedBy fun w => by
    rw [extendedBy_union?, extendedBy_union?]
    exact and_congr_right fun _ => ⟨ht'.trans, ht.trans⟩

end Equal

/-! ### The laws of the union -/

lemma empty_le : empty ≤ s := fun x v h => by
  simp [get?, empty] at h

section Laws

variable (a b c : Substitution)

lemma union?_comm : SameResult (a.union? b) (b.union? a) :=
  sameResult_of_extendedBy fun w => by
    rw [extendedBy_union?, extendedBy_union?, and_comm]

/-- A union of three fails in both bracketings or in none. -/
lemma union?_assoc :
    SameResult ((a.union? b).bind (·.union? c)) ((b.union? c).bind (a.union? ·)) :=
  sameResult_of_extendedBy fun w => by
    have hleft : ExtendedBy ((a.union? b).bind (·.union? c)) w ↔ (a ≤ w ∧ b ≤ w) ∧ c ≤ w := by
      rw [extendedBy_bind fun u => extendedBy_union?, extendedBy_union?]
    have hright : ExtendedBy ((b.union? c).bind (a.union? ·)) w ↔ (b ≤ w ∧ c ≤ w) ∧ a ≤ w := by
      rw [extendedBy_bind fun u => extendedBy_union?.trans and_comm, extendedBy_union?]
    rw [hleft, hright, and_assoc, and_comm]

lemma union?_self : SameResult (a.union? a) (some a) :=
  sameResult_of_extendedBy fun w => by
    rw [extendedBy_union?, extendedBy_some, and_self]

lemma union?_empty : SameResult (a.union? empty) (some a) :=
  sameResult_of_extendedBy fun w => by
    rw [extendedBy_union?, extendedBy_some, and_iff_left empty_le]

lemma empty_union? : SameResult (empty.union? a) (some a) :=
  sameResult_of_extendedBy fun w => by
    rw [extendedBy_union?, extendedBy_some, and_iff_right empty_le]

end Laws

/-! ### Binding with an answer -/

/-- Whether a binding is taken, and the substitution that is there afterwards. -/
def tryBind (s : Substitution) (x : String) (image : Term) : Bool × Substitution :=
  match h : s.get? x with
  | some old => (decide (old = image), s)
  | none => (true, s.append x image h)

lemma tryBind_of_some {old : Term} (h : s.get? x = some old) :
    s.tryBind x image = (decide (old = image), s) := by
  unfold tryBind
  split
  · next old' hold =>
      cases hold.symm.trans h
      rfl
  · next hnone => cases hnone.symm.trans h

lemma tryBind_of_none (h : s.get? x = none) :
    s.tryBind x image = (true, s.append x image h) := by
  unfold tryBind
  split
  · next old hold => cases hold.symm.trans h
  · rfl

/-- A binding that is taken gives what is there afterwards, and one that is refused nothing. -/
lemma bind?_eq_tryBind :
    s.bind? x image =
      if (s.tryBind x image).1 = true then some (s.tryBind x image).2 else none := by
  cases hx : s.get? x with
  | some old => simp [bind?_of_some hx, tryBind_of_some hx]
  | none => simp [bind?_of_none hx, tryBind_of_none hx]

/-- A binding is refused iff the variable has another image. -/
lemma tryBind_eq_false_iff :
    (s.tryBind x image).1 = false ↔ ∃ old, s.get? x = some old ∧ old ≠ image := by
  rw [← bind?_eq_none, bind?_eq_tryBind]
  cases (s.tryBind x image).1 <;> simp

/-- What is refused changes nothing. -/
lemma tryBind_snd_of_false (h : (s.tryBind x image).1 = false) :
    (s.tryBind x image).2 = s := by
  obtain ⟨old, hold, -⟩ := tryBind_eq_false_iff.mp h
  rw [tryBind_of_some hold]

/-- What is taken gives the variable its image and leaves the others theirs. -/
lemma get?_tryBind_snd (h : (s.tryBind x image).1 = true) (y : String) :
    (s.tryBind x image).2.get? y = if y = x then some image else s.get? y :=
  get?_of_bind? (bind?_eq_tryBind.trans (if_pos h)) y

/-- **The union is the least upper bound** of two substitutions that agree, and there is none of
others, in whatever order the bindings of the second one are taken. As an operation on maps it is
commutative, associative, a failure included, and idempotent, and the substitution that binds
nothing is neutral. Each of its steps refuses a binding iff the variable has another image, and
then changes nothing. -/
theorem union?_leastUpperBound (a b c : Substitution) :
    (∀ b' : Substitution, b'.bindings.Perm b.bindings →
      ((a.union? b').isSome = true ↔ a.Agrees b) ∧
        (∀ u, a.union? b' = some u → IsUnion a b u) ∧
        SameResult (a.union? b') (a.union? b)) ∧
      SameResult (a.union? b) (b.union? a) ∧
      SameResult ((a.union? b).bind (·.union? c)) ((b.union? c).bind (a.union? ·)) ∧
      SameResult (a.union? a) (some a) ∧
      SameResult (a.union? empty) (some a) ∧ SameResult (empty.union? a) (some a) ∧
      ∀ x image,
        ((a.tryBind x image).1 = false ↔ ∃ old, a.get? x = some old ∧ old ≠ image) ∧
          ((a.tryBind x image).1 = false → (a.tryBind x image).2 = a) ∧
          ((a.tryBind x image).1 = true → ∀ y, (a.tryBind x image).2.get? y =
            if y = x then some image else a.get? y) ∧
          a.bind? x image =
            if (a.tryBind x image).1 = true then some (a.tryBind x image).2 else none := by
  refine ⟨fun b' hperm => ?_, union?_comm a b, union?_assoc a b c, union?_self a, union?_empty a,
    empty_union? a, fun x image => ⟨tryBind_eq_false_iff, tryBind_snd_of_false, get?_tryBind_snd,
      bind?_eq_tryBind⟩⟩
  have hle : b' ≤ b := le_of_perm hperm
  have hle' : b ≤ b' := le_of_perm hperm.symm
  refine ⟨?_, fun u hu => (isUnion_of_union? hu).congr hle hle', sameResult_union?_congr hle hle'⟩
  rw [isSome_union?_iff]
  exact ⟨fun h => h.congr hle', fun h => h.congr hle⟩

end Substitution

end DependencyTheory
