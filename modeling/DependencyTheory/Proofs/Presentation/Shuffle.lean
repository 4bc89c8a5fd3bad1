/-
Lists whose members correspond to each other in some order:

* `map_eq_of_forall₂`, `forall₂_of_common`: lists whose members are related one by one;
* `Shuffled`: whether the members of a list, put in another order, are related to those of
  another list one by one;
* `Shuffled.flip`, `Shuffled.filter`, `Shuffled.filterMap`, `Shuffled.flatMap`: what may be done
  to both lists;
* `Shuffled.exists_mem`, `Shuffled.mem_iff`, `Shuffled.nodup_iff`, `Shuffled.any_eq`: what the
  two have in common.

The lists with one order are related by `List.Forall₂`, so these facts come from those about it
and from those about permutations.
-/
import Mathlib.Data.List.Forall2
import Mathlib.Data.List.Nodup
import Mathlib.Data.List.Perm.Basic
import Mathlib.Tactic.Lemma

namespace DependencyTheory

universe u

variable {α β γ δ : Type u} {r : α → β → Prop} {q : γ → δ → Prop} {as : List α} {bs : List β}
  {a : α} {b : β}

/-! ### One order -/

/-- What stands at the same place of two lists is related. -/
lemma exists_getElem?_of_forall₂ (h : List.Forall₂ r as bs) {i : Nat} (ha : as[i]? = some a) :
    ∃ b, bs[i]? = some b ∧ r a b := by
  obtain ⟨hi, rfl⟩ := List.getElem?_eq_some_iff.mp ha
  have hlt : i < bs.length := h.length_eq ▸ hi
  exact ⟨bs[i], List.getElem?_eq_getElem hlt, h.get hi hlt⟩

/-- What is computed alike from related members is the same list. -/
lemma map_eq_of_forall₂ (h : List.Forall₂ r as bs) {f : α → γ} {g : β → γ}
    (hfg : ∀ a b, r a b → f a = g b) : as.map f = bs.map g := by
  induction h with
  | nil => rfl
  | cons hab _ ih => rw [List.map_cons, List.map_cons, hfg _ _ hab, ih]

/-- What is related to the same members is related as these relate it. -/
lemma forall₂_of_common {q : α → γ → Prop} {p : β → γ → Prop} {cs : List γ}
    (h : List.Forall₂ r as bs) (h' : List.Forall₂ q as cs)
    (hp : ∀ a b c, r a b → q a c → p b c) : List.Forall₂ p bs cs := by
  induction h generalizing cs with
  | nil =>
      cases h'
      exact .nil
  | cons hab _ ih =>
      cases h' with
      | cons hac h' => exact .cons (hp _ _ _ hab hac) (ih h')

/-- Members that are each related to something of some kind are related to a list of such. -/
lemma exists_forall₂_of_forall {P : α → Prop} (h : ∀ b ∈ bs, ∃ a, P a ∧ r a b) :
    ∃ as, (∀ a ∈ as, P a) ∧ List.Forall₂ r as bs := by
  induction bs with
  | nil => exact ⟨[], fun _ ha => absurd ha List.not_mem_nil, .nil⟩
  | cons b bs ih =>
      obtain ⟨⟨a, ha, hab⟩, hbs⟩ := List.forall_mem_cons.mp h
      obtain ⟨as, has, hrest⟩ := ih hbs
      exact ⟨a :: as, List.forall_mem_cons.mpr ⟨ha, has⟩, .cons hab hrest⟩

/-- What is related to a list in two parts is in two parts as well. -/
lemma forall₂_append_left {as' : List α} (h : List.Forall₂ r (as ++ as') bs) :
    ∃ cs ds, bs = cs ++ ds ∧ List.Forall₂ r as cs ∧ List.Forall₂ r as' ds := by
  induction as generalizing bs with
  | nil => exact ⟨[], bs, rfl, .nil, h⟩
  | cons a as ih =>
      obtain ⟨b, bs, hab, hrest, rfl⟩ := List.forall₂_cons_left_iff.mp h
      obtain ⟨cs, ds, rfl, hcs, hds⟩ := ih hrest
      exact ⟨b :: cs, ds, rfl, .cons hab hcs, hds⟩

/-- A test that also looks at places has one answer on related lists. -/
lemma any_zipIdx_eq_of_forall₂ (h : List.Forall₂ r as bs) {f : α × Nat → Bool}
    {g : β × Nat → Bool} (hfg : ∀ a b i, r a b → f (a, i) = g (b, i)) (n : Nat) :
    (as.zipIdx n).any f = (bs.zipIdx n).any g := by
  induction h generalizing n with
  | nil => rfl
  | cons hab _ ih =>
      rw [List.zipIdx_cons, List.zipIdx_cons, List.any_cons, List.any_cons, hfg _ _ _ hab, ih]

/-! ### Any order -/

/-- Whether the members of one list, in some order, are related to those of another. -/
def Shuffled (r : α → β → Prop) : List α → List β → Prop :=
  Relation.Comp (List.Forall₂ r) List.Perm

namespace Shuffled

/-- Lists that are related one by one are shuffled by the order that they have. -/
lemma of_forall₂ (h : List.Forall₂ r as bs) : Shuffled r as bs := ⟨bs, h, .refl bs⟩

lemma mono {r' : α → β → Prop} (h : Shuffled r as bs) (hr : ∀ a b, r a b → r' a b) :
    Shuffled r' as bs := by
  obtain ⟨cs, has, hcs⟩ := h
  exact ⟨cs, has.imp hr, hcs⟩

/-- **Shuffled lists are shuffled the other way round**: an order of the one is undone by an order
of the other. -/
lemma flip (h : Shuffled r as bs) : Shuffled (flip r) bs as := by
  rw [Shuffled, List.forall₂_comp_perm_eq_perm_comp_forall₂]
  obtain ⟨cs, has, hcs⟩ := h
  exact ⟨cs, hcs.symm, List.Forall₂.flip has⟩

/-- Shuffled lists are equally long. -/
lemma length_eq (h : Shuffled r as bs) : as.length = bs.length := by
  obtain ⟨cs, has, hcs⟩ := h
  exact has.length_eq.trans hcs.length_eq

/-- Members that are dropped correspond to each other. -/
lemma filterMap (h : Shuffled r as bs) {f : α → Option γ} {g : β → Option δ}
    (hfg : ∀ a b, r a b → Option.Rel q (f a) (g b)) :
    Shuffled q (as.filterMap f) (bs.filterMap g) := by
  obtain ⟨cs, has, hcs⟩ := h
  exact ⟨cs.filterMap g, List.rel_filterMap (fun a b hab => hfg a b hab) has, hcs.filterMap g⟩

/-- Members that are kept correspond to each other. -/
lemma filter (h : Shuffled r as bs) {f : α → Bool} {g : β → Bool}
    (hfg : ∀ a b, r a b → (f a = true ↔ g b = true)) :
    Shuffled r (as.filter f) (bs.filter g) := by
  obtain ⟨cs, has, hcs⟩ := h
  exact ⟨cs.filter g, List.rel_filter (fun a b hab => hfg a b hab) has, hcs.filter g⟩

/-- Lists that are made of corresponding members correspond to each other. -/
lemma flatMap (h : Shuffled r as bs) {f : α → List γ} {g : β → List δ}
    (hfg : ∀ a b, r a b → List.Forall₂ q (f a) (g b)) :
    Shuffled q (as.flatMap f) (bs.flatMap g) := by
  obtain ⟨cs, has, hcs⟩ := h
  exact ⟨cs.flatMap g, List.rel_flatMap has fun _ _ => hfg _ _, hcs.flatMap_right g⟩

/-- Every member of one list corresponds to one of the other. -/
lemma exists_mem (h : Shuffled r as bs) (ha : a ∈ as) : ∃ b ∈ bs, r a b := by
  obtain ⟨cs, has, hcs⟩ := h
  obtain ⟨i, hi⟩ := List.mem_iff_getElem?.mp ha
  obtain ⟨b, hb, hab⟩ := exists_getElem?_of_forall₂ has hi
  exact ⟨b, hcs.mem_iff.mp (List.mem_of_getElem? hb), hab⟩

/-- What holds of all members of one list holds of all members of the other. -/
lemma forall_mem_iff (h : Shuffled r as bs) {p : α → Prop} {p' : β → Prop}
    (hp : ∀ a b, r a b → (p a ↔ p' b)) : (∀ a ∈ as, p a) ↔ ∀ b ∈ bs, p' b := by
  constructor
  · intro hall b hb
    obtain ⟨a, ha, hab⟩ := h.flip.exists_mem hb
    exact (hp a b hab).mp (hall a ha)
  · intro hall a ha
    obtain ⟨b, hb, hab⟩ := h.exists_mem ha
    exact (hp a b hab).mpr (hall b hb)

/-- A test that some member passes is passed in the other list as well. -/
lemma any_eq (h : Shuffled r as bs) {f : α → Bool} {g : β → Bool}
    (hfg : ∀ a b, r a b → f a = g b) : as.any f = bs.any g := by
  rw [Bool.eq_iff_iff, ← not_iff_not, Bool.not_eq_true, Bool.not_eq_true, List.any_eq_false,
    List.any_eq_false]
  exact h.forall_mem_iff fun a b hab => by rw [hfg a b hab]

lemma all_eq (h : Shuffled r as bs) {f : α → Bool} {g : β → Bool}
    (hfg : ∀ a b, r a b → f a = g b) : as.all f = bs.all g := by
  rw [Bool.eq_iff_iff, List.all_eq_true, List.all_eq_true]
  exact h.forall_mem_iff fun a b hab => by rw [hfg a b hab]

/-- Under a one-to-one relation, related values are in the two lists together. -/
lemma mem_iff (hr : Relator.BiUnique r) (h : Shuffled r as bs) (hab : r a b) :
    a ∈ as ↔ b ∈ bs := by
  obtain ⟨cs, has, hcs⟩ := h
  rw [← hcs.mem_iff]
  exact List.rel_mem hr hab has

/-- Under a one-to-one relation, both lists repeat something or neither does. -/
lemma nodup_iff (hr : Relator.BiUnique r) (h : Shuffled r as bs) : as.Nodup ↔ bs.Nodup := by
  obtain ⟨cs, has, hcs⟩ := h
  rw [← hcs.nodup_iff]
  exact List.rel_nodup hr has

/-- Under a one-to-one relation, related values occur equally often. -/
lemma count_eq [DecidableEq α] [DecidableEq β] (hr : Relator.BiUnique r) (h : Shuffled r as bs)
    (hab : r a b) : as.count a = bs.count b := by
  rw [List.count_eq_length_filter, List.count_eq_length_filter]
  refine (h.filter fun a' b' hab' => ?_).length_eq
  rw [beq_iff_eq, beq_iff_eq]
  exact Relator.rel_eq hr hab' hab

end Shuffled

end DependencyTheory
