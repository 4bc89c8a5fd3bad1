/-
The groups of linked elements of a list:

* `linkedGroups_cons`: the groups of a longer list, one that the new element joins
  together and those that it is not linked to;
* `exists_group_iff`: the groups are made of the elements of the list;
* `sublist_of_mem_linkedGroups`: they keep the order of the list;
* `eq_of_linked`: linked elements are in one group;
* `Tgd.mem_split`, `Tgd.exists_part_iff`, `Tgd.eq_of_shared`: the same for the parts of
  a dependency, no two of which share an existential variable.

Elements are told apart by their numbers, since an atom may stand in a head twice.
-/
import DependencyTheory.HeadSplit
import Mathlib.Data.List.Nodup
import Mathlib.Tactic.Lemma

namespace DependencyTheory

universe u

variable {α : Type u} {linked : α → α → Bool} {as rest : List (α × Nat)} {a b c : α × Nat}
  {group group' : List (α × Nat)}

/-! ### Groups of a list -/

/-- The groups of a list are made of its elements. -/
lemma exists_group_iff : (∃ group ∈ linkedGroups linked as, b ∈ group) ↔ b ∈ as := by
  induction as generalizing b with
  | nil => simp [linkedGroups]
  | cons a rest ih =>
      simp only [linkedGroups, List.partition_eq_filter_filter, List.mem_cons,
        exists_eq_or_imp, List.mem_filter]
      constructor
      · rintro ((rfl | ⟨hb, -⟩) | ⟨group, ⟨hgroup, -⟩, hb⟩)
        · exact Or.inl rfl
        · exact Or.inr hb
        · exact Or.inr (ih.mp ⟨group, hgroup, hb⟩)
      · rintro (rfl | hb)
        · exact Or.inl (Or.inl rfl)
        · obtain ⟨group, hgroup, hmem⟩ := ih.mpr hb
          by_cases hjoined : (group.any fun c => linked a.1 c.1) = true
          · refine Or.inl (Or.inr ⟨hb, decide_eq_true ?_⟩)
            refine List.mem_map_of_mem (List.mem_flatten.mpr ⟨group, ?_, hmem⟩)
            exact List.mem_filter.mpr ⟨hgroup, hjoined⟩
          · exact Or.inr ⟨group, ⟨hgroup, by simpa using hjoined⟩, hmem⟩

/-- **The groups of a longer list.** The new element makes one group out of those that
have an element linked to it, and leaves the others. -/
lemma linkedGroups_cons (linked : α → α → Bool) (hnum : ((a :: rest).map Prod.snd).Nodup) :
    ∃ first apart, linkedGroups linked (a :: rest) = first :: apart ∧
      (∀ b, b ∈ first ↔ b = a ∨ ∃ group ∈ linkedGroups linked rest,
        (∃ c ∈ group, linked a.1 c.1 = true) ∧ b ∈ group) ∧
      ∀ group, group ∈ apart ↔
        group ∈ linkedGroups linked rest ∧ ∀ c ∈ group, linked a.1 c.1 = false := by
  rw [linkedGroups, List.partition_eq_filter_filter]
  refine ⟨_, _, rfl, fun b => ?_, fun group => by simp [List.mem_filter]⟩
  simp only [List.mem_cons, List.mem_filter, decide_eq_true_eq, List.mem_map, List.mem_flatten,
    List.any_eq_true]
  refine or_congr_right ⟨?_, ?_⟩
  · rintro ⟨hb, c, ⟨group, ⟨hgroup, hjoined⟩, hc⟩, hnumber⟩
    -- the number tells the element
    have hcb : c = b := List.inj_on_of_nodup_map (List.nodup_cons.mp hnum).2
      (exists_group_iff.mp ⟨group, hgroup, hc⟩) hb hnumber
    exact ⟨group, hgroup, hjoined, hcb ▸ hc⟩
  · rintro ⟨group, hgroup, hjoined, hb⟩
    exact ⟨exists_group_iff.mp ⟨group, hgroup, hb⟩, b, ⟨group, ⟨hgroup, hjoined⟩, hb⟩, rfl⟩

/-- A group has its elements in the order of the list. -/
lemma sublist_of_mem_linkedGroups (h : group ∈ linkedGroups linked as) : group.Sublist as := by
  induction as generalizing group with
  | nil => exact absurd h (by simp [linkedGroups])
  | cons a rest ih =>
      simp only [linkedGroups, List.partition_eq_filter_filter, List.mem_cons] at h
      rcases h with rfl | h
      · exact List.filter_sublist.cons_cons a
      · exact (ih (List.mem_filter.mp h).1).cons a

/-- **Linked elements are in one group.** -/
theorem eq_of_linked (hnum : (as.map Prod.snd).Nodup)
    (hsymm : ∀ x y, linked x y = true → linked y x = true)
    (h : group ∈ linkedGroups linked as) (h' : group' ∈ linkedGroups linked as)
    (hb : b ∈ group) (hc : c ∈ group') (hlinked : linked b.1 c.1 = true) : group = group' := by
  induction as generalizing group group' b c with
  | nil => exact absurd h (by simp [linkedGroups])
  | cons a rest ih =>
      have hrest : (rest.map Prod.snd).Nodup := (List.nodup_cons.mp hnum).2
      obtain ⟨first, apart, heq, hfirst, hapart⟩ := linkedGroups_cons linked hnum
      -- a group that the new element is not linked to has no link to its group
      have hnone : ∀ {group b c}, group ∈ apart → b ∈ group → c ∈ first →
          linked c.1 b.1 = false := by
        intro group b c hgroup hb hc
        obtain ⟨hold, hnot⟩ := (hapart group).mp hgroup
        by_contra hlink
        rw [Bool.not_eq_false] at hlink
        rcases (hfirst c).mp hc with rfl | ⟨joined, hjoined, ⟨d, hd, hd'⟩, hc⟩
        · exact absurd hlink (by simp [hnot b hb])
        · obtain rfl := ih hrest hjoined hold hc hb hlink
          exact absurd hd' (by simp [hnot d hd])
      rw [heq, List.mem_cons] at h h'
      rcases h with rfl | h <;> rcases h' with rfl | h'
      · rfl
      · exact absurd hlinked (by simp [hnone h' hc hb])
      · exact absurd (hsymm _ _ hlinked) (by simp [hnone h hb hc])
      · exact ih hrest ((hapart group).mp h).1 ((hapart group').mp h').1 hb hc hlinked

/-! ### Parts of a dependency -/

namespace Tgd

variable {t part part' : Tgd} {x : String}

/-- A part has the body of the whole, and a group of its head atoms. -/
lemma mem_split : part ∈ t.split ↔ part.body = t.body ∧
    ∃ group ∈ linkedGroups t.sharesExistential t.head.zipIdx, part.head = group.map Prod.fst := by
  simp only [split, List.mem_map, List.mem_attach, true_and, Subtype.exists]
  constructor
  · rintro ⟨group, hgroup, rfl⟩
    exact ⟨rfl, group, hgroup, rfl⟩
  · rintro ⟨hbody, group, hgroup, hhead⟩
    refine ⟨group, hgroup, ?_⟩
    cases part
    simp_all

/-- A part has the universal variables of the whole. -/
lemma universal_of_mem_split (h : part ∈ t.split) : part.universal = t.universal := by
  rw [universal, universal, (mem_split.mp h).1]

/-- A part has its head atoms in the order of the whole. -/
lemma head_sublist_of_mem_split (h : part ∈ t.split) : part.head.Sublist t.head := by
  obtain ⟨-, group, hgroup, hhead⟩ := mem_split.mp h
  have hsub := (sublist_of_mem_linkedGroups hgroup).map Prod.fst
  rwa [← hhead, List.zipIdx_map_fst] at hsub

/-- The parts are made of the head atoms of the whole. -/
lemma exists_part_iff {a : Atom} : (∃ part ∈ t.split, a ∈ part.head) ↔ a ∈ t.head := by
  constructor
  · rintro ⟨part, hpart, ha⟩
    obtain ⟨-, group, hgroup, hhead⟩ := mem_split.mp hpart
    rw [hhead] at ha
    obtain ⟨⟨a, i⟩, hmem, rfl⟩ := List.mem_map.mp ha
    exact List.mem_of_getElem? (List.mem_zipIdx_iff_getElem?.mp
      (exists_group_iff.mp ⟨group, hgroup, hmem⟩))
  · intro ha
    obtain ⟨i, hi⟩ := List.mem_iff_getElem?.mp ha
    have hplace : (a, i) ∈ t.head.zipIdx := List.mem_zipIdx_iff_getElem?.mpr hi
    obtain ⟨group, hgroup, hmem⟩ :
        ∃ group ∈ linkedGroups t.sharesExistential t.head.zipIdx, (a, i) ∈ group :=
      exists_group_iff.mpr hplace
    exact ⟨⟨t.body, group.map Prod.fst, by simpa using linkedGroups_ne_nil hgroup⟩,
      mem_split.mpr ⟨rfl, group, hgroup, rfl⟩, List.mem_map_of_mem hmem⟩

/-- There is a part. -/
lemma exists_part (t : Tgd) : ∃ part, part ∈ t.split := by
  obtain ⟨a, ha⟩ := List.exists_mem_of_ne_nil _ t.nonempty
  obtain ⟨part, hpart, -⟩ := exists_part_iff.mpr ha
  exact ⟨part, hpart⟩

/-- Two atoms share an existential variable iff one stands in both. -/
lemma sharesExistential_iff {a b : Atom} :
    t.sharesExistential a b = true ↔ ∃ x ∈ t.existential, x ∈ a.vars ∧ x ∈ b.vars := by
  simp only [sharesExistential, List.any_eq_true, Bool.and_eq_true, decide_eq_true_eq]
  exact ⟨fun ⟨x, ha, hx, hb⟩ => ⟨x, hx, ha, hb⟩, fun ⟨x, hx, ha, hb⟩ => ⟨x, ha, hx, hb⟩⟩

/-- Sharing an existential variable does not depend on the order of the atoms. -/
lemma sharesExistential_symm (a b : Atom) (h : t.sharesExistential a b = true) :
    t.sharesExistential b a = true := by
  rw [sharesExistential_iff] at h ⊢
  obtain ⟨x, hx, ha, hb⟩ := h
  exact ⟨x, hx, hb, ha⟩

/-- Head atoms are told apart by their places. -/
lemma nodup_places (t : Tgd) : (t.head.zipIdx.map Prod.snd).Nodup := by
  rw [List.zipIdx_map_snd]
  exact List.nodup_range'

/-- **An existential variable stands in one part only.** -/
theorem eq_of_shared (h : part ∈ t.split) (h' : part' ∈ t.split) (hx : x ∈ t.existential)
    {a b : Atom} (ha : a ∈ part.head) (hb : b ∈ part'.head) (hxa : x ∈ a.vars)
    (hxb : x ∈ b.vars) : part = part' := by
  obtain ⟨hbody, group, hgroup, hhead⟩ := mem_split.mp h
  obtain ⟨hbody', group', hgroup', hhead'⟩ := mem_split.mp h'
  rw [hhead] at ha
  rw [hhead'] at hb
  obtain ⟨⟨a, i⟩, hmem, rfl⟩ := List.mem_map.mp ha
  obtain ⟨⟨b, j⟩, hmem', rfl⟩ := List.mem_map.mp hb
  obtain rfl := eq_of_linked t.nodup_places sharesExistential_symm hgroup hgroup' hmem hmem'
    (sharesExistential_iff.mpr ⟨x, hx, hxa, hxb⟩)
  cases part
  cases part'
  simp_all

end Tgd

end DependencyTheory
