/-
The parts of a dependency are the connected components of its head:

* `LinkedIn`: whether two elements of a list are linked directly;
* `perm_flatten_linkedGroups`, `pairwise_first_linkedGroups`: the groups of a list have each of
  its elements once, and are ordered by their first elements;
* `reflTransGen_of_mem_group`, `mem_group_of_reflTransGen`: elements are in one group iff they are
  linked directly or through others;
* `Tgd.Components`: whether lists of places are the classes of head atoms that are linked by
  existential variables, directly or through others;
* `Tgd.exists_components`, `Tgd.pairwise_split`: the parts of a dependency have these places, and
  no two of them an existential variable in common;
* `Tgd.split_of_mem_split`, `Schema.flatMap_split_split`: parts are not split any further.

The atoms that link two atoms of a group are in the group themselves, which is why a part is
linked like the whole.
-/
import DependencyTheory.Proofs.HeadSplit.Models
import Mathlib.Logic.Relation

namespace DependencyTheory

universe u

variable {α : Type u} {linked : α → α → Bool} {as rest : List (α × Nat)} {a b c : α × Nat}
  {group : List (α × Nat)}

open Relation

/-! ### Groups of a list -/

/-- Whether two elements of a list are linked directly. -/
def LinkedIn (linked : α → α → Bool) (as : List (α × Nat)) (b c : α × Nat) : Prop :=
  b ∈ as ∧ c ∈ as ∧ linked b.1 c.1 = true

/-- Elements that are linked through others in a list are so in every list with more. -/
lemma reflTransGen_linkedIn_mono (hsub : rest ⊆ as) (h : ReflTransGen (LinkedIn linked rest) b c) :
    ReflTransGen (LinkedIn linked as) b c :=
  h.lift id fun _ _ hstep => ⟨hsub hstep.1, hsub hstep.2.1, hstep.2.2⟩

/-- The elements that have the numbers of some half of a list are those of this half. -/
lemma perm_filter_numbers {joined apart : List (α × Nat)} (hnum : (rest.map Prod.snd).Nodup)
    (hperm : (joined ++ apart).Perm rest) :
    (rest.filter fun b => b.2 ∈ joined.map Prod.snd).Perm joined := by
  have hdisjoint : List.Disjoint (joined.map Prod.snd) (apart.map Prod.snd) := by
    have hnodup := (hperm.map Prod.snd).nodup_iff.mpr hnum
    rw [List.map_append] at hnodup
    exact List.disjoint_of_nodup_append hnodup
  have hjoined : (joined.filter fun b => b.2 ∈ joined.map Prod.snd) = joined :=
    List.filter_eq_self.mpr fun b hb => decide_eq_true (List.mem_map_of_mem hb)
  have hapart : (apart.filter fun b => b.2 ∈ joined.map Prod.snd) = [] :=
    List.filter_eq_nil_iff.mpr fun b hb hmem =>
      hdisjoint (of_decide_eq_true hmem) (List.mem_map_of_mem hb)
  refine (hperm.symm.filter _).trans ?_
  rw [List.filter_append, hjoined, hapart, List.append_nil]

/-- **Every element of a list is in one group**, as often as it is in the list. -/
theorem perm_flatten_linkedGroups (linked : α → α → Bool) (hnum : (as.map Prod.snd).Nodup) :
    (linkedGroups linked as).flatten.Perm as := by
  induction as with
  | nil => rfl
  | cons a rest ih =>
      have hrest : (rest.map Prod.snd).Nodup := (List.nodup_cons.mp hnum).2
      have hhalves := ((List.filter_append_perm (fun group => group.any fun b => linked a.1 b.1)
        (linkedGroups linked rest)).flatten).trans (ih hrest)
      rw [List.flatten_append] at hhalves
      rw [linkedGroups, List.partition_eq_filter_filter]
      exact (((perm_filter_numbers hrest hhalves).append_right _).trans hhalves).cons a

/-- Groups have no element in common. -/
lemma pairwise_disjoint_linkedGroups (linked : α → α → Bool) (hnum : (as.map Prod.snd).Nodup) :
    (linkedGroups linked as).Pairwise List.Disjoint := by
  have hnodup := (perm_flatten_linkedGroups linked hnum).nodup_iff.mpr (.of_map Prod.snd hnum)
  exact (List.nodup_flatten.mp hnodup).2

/-- **Groups are ordered by their first elements**, if the elements are numbered in order. -/
theorem pairwise_first_linkedGroups (linked : α → α → Bool)
    (horder : as.Pairwise fun b c => b.2 < c.2) : (linkedGroups linked as).Pairwise
      fun group group' => ∀ b ∈ group.head?, ∀ c ∈ group'.head?, b.2 < c.2 := by
  induction as with
  | nil => exact .nil
  | cons a rest ih =>
      obtain ⟨hfirst, hrest⟩ := List.pairwise_cons.mp horder
      rw [linkedGroups, List.partition_eq_filter_filter]
      refine List.pairwise_cons.mpr ⟨fun group hgroup b hb c hc => ?_, (ih hrest).filter _⟩
      obtain rfl : a = b := Option.some.inj hb
      have hmem : c ∈ rest :=
        exists_group_iff.mp ⟨group, List.mem_of_mem_filter hgroup, List.mem_of_mem_head? hc⟩
      exact hfirst c hmem

section Linked

variable (hnum : (as.map Prod.snd).Nodup)
  (hsymm : ∀ x y, linked x y = true → linked y x = true)

include hnum hsymm

/-- **Elements of one group are linked**, directly or through others of the group: each is linked
to the element that has joined them last. -/
theorem reflTransGen_of_mem_group (hgroup : group ∈ linkedGroups linked as) (hb : b ∈ group)
    (hc : c ∈ group) : ReflTransGen (LinkedIn linked group) b c := by
  induction as generalizing group b c with
  | nil => exact absurd hgroup List.not_mem_nil
  | cons a rest ih =>
      have hrest : (rest.map Prod.snd).Nodup := (List.nodup_cons.mp hnum).2
      obtain ⟨first, apart, heq, hfirst, hapart⟩ := linkedGroups_cons linked hnum
      rw [heq, List.mem_cons] at hgroup
      rcases hgroup with rfl | hgroup
      · have hjoin : ∀ e ∈ group, ReflTransGen (LinkedIn linked group) a e ∧
            ReflTransGen (LinkedIn linked group) e a := by
          intro e he
          rcases (hfirst e).mp he with rfl | ⟨joined, hjoined, ⟨d, hd, hlinked⟩, he⟩
          · exact ⟨.refl, .refl⟩
          · have hsub : joined ⊆ group := fun e he =>
              (hfirst e).mpr (Or.inr ⟨joined, hjoined, ⟨d, hd, hlinked⟩, he⟩)
            have ha : a ∈ group := (hfirst a).mpr (Or.inl rfl)
            have hthere : LinkedIn linked group a d := ⟨ha, hsub hd, hlinked⟩
            have hback : LinkedIn linked group d a := ⟨hsub hd, ha, hsymm _ _ hlinked⟩
            exact ⟨.head hthere (reflTransGen_linkedIn_mono hsub (ih hrest hjoined hd he)),
              .tail (reflTransGen_linkedIn_mono hsub (ih hrest hjoined he hd)) hback⟩
        exact (hjoin b hb).2.trans (hjoin c hc).1
      · exact ih hrest ((hapart group).mp hgroup).1 hb hc

/-- **Linked elements are in one group**, directly linked or through others. -/
theorem mem_group_of_reflTransGen (hgroup : group ∈ linkedGroups linked as) (hb : b ∈ group)
    (h : ReflTransGen (LinkedIn linked as) b c) : c ∈ group := by
  induction h with
  | refl => exact hb
  | tail _ hstep ih =>
      obtain ⟨-, hmem, hlinked⟩ := hstep
      obtain ⟨group', hgroup', hc⟩ := exists_group_iff.mpr hmem
      exact eq_of_linked hnum hsymm hgroup hgroup' ih hc hlinked ▸ hc

/-- A list whose elements are all linked is one group. -/
lemma linkedGroups_eq_singleton (hne : as ≠ [])
    (hall : ∀ b ∈ as, ∀ c ∈ as, ReflTransGen (LinkedIn linked as) b c) :
    linkedGroups linked as = [as] := by
  obtain ⟨a, ha⟩ := List.exists_mem_of_ne_nil as hne
  obtain ⟨group, hgroup, hmem⟩ := exists_group_iff.mpr ha
  have hmeet : ∀ group' ∈ linkedGroups linked as, ¬group'.Disjoint group := by
    intro group' hgroup' hdisjoint
    obtain ⟨c, hc⟩ := List.exists_mem_of_ne_nil _ (linkedGroups_ne_nil hgroup')
    have hlinked := hall a ha c (exists_group_iff.mp ⟨group', hgroup', hc⟩)
    exact hdisjoint hc (mem_group_of_reflTransGen hnum hsymm hgroup hmem hlinked)
  have honly : linkedGroups linked as = [group] := by
    obtain ⟨before, after, heq⟩ := List.append_of_mem hgroup
    have hdisjoint := pairwise_disjoint_linkedGroups linked hnum
    rw [heq, List.pairwise_append, List.pairwise_cons] at hdisjoint
    obtain ⟨-, ⟨hafter, -⟩, hbefore⟩ := hdisjoint
    have hbefore : before = [] := List.eq_nil_iff_forall_not_mem.mpr fun group' hmem' =>
      hmeet group' (by simp [heq, hmem']) (hbefore group' hmem' group List.mem_cons_self)
    have hafter : after = [] := List.eq_nil_iff_forall_not_mem.mpr fun group' hmem' =>
      hmeet group' (by simp [heq, hmem']) fun b hb hb' => hafter group' hmem' hb' hb
    rw [heq, hbefore, hafter, List.nil_append]
  have hperm := perm_flatten_linkedGroups linked hnum
  rw [honly, List.flatten_singleton] at hperm
  rw [honly, (sublist_of_mem_linkedGroups hgroup).eq_of_length hperm.length_eq]

end Linked

/-! ### The head of a dependency -/

namespace Tgd

variable {t part : Tgd} {x : String} {i j : Nat}

/-- Whether the head atoms at two places share an existential variable. -/
def Linked (t : Tgd) (i j : Nat) : Prop :=
  ∃ a b, t.head[i]? = some a ∧ t.head[j]? = some b ∧ ∃ x ∈ t.existential, x ∈ a.vars ∧ x ∈ b.vars

/-- Whether lists of places are the classes of head atoms that are linked, directly or through
others: they have each place once and in order, are ordered by their first places, and each has
just the places that are linked to any place it has. -/
structure Components (t : Tgd) (groups : List (List Nat)) : Prop where
  perm : groups.flatten.Perm (List.range t.head.length)
  nonempty : ∀ group ∈ groups, group ≠ []
  ascending : ∀ group ∈ groups, group.Pairwise (· < ·)
  ordered : groups.Pairwise fun group group' => ∀ i ∈ group.head?, ∀ j ∈ group'.head?, i < j
  mem_iff : ∀ group ∈ groups, ∀ i ∈ group, ∀ j, j ∈ group ↔ ReflTransGen t.Linked i j

/-- The heads of the parts are the groups of head atoms. -/
lemma map_head_split (t : Tgd) : t.split.map Tgd.head =
    (linkedGroups t.sharesExistential t.head.zipIdx).map (List.map Prod.fst) := by
  rw [split, List.map_map]
  exact List.attach_map_val

section Group

variable {group : List (Atom × Nat)}
  (hgroup : group ∈ linkedGroups t.sharesExistential t.head.zipIdx)

include hgroup

/-- The atoms of a group stand in the head at the places that they have in the group. -/
lemma getElem?_of_mem_group {a : Atom} (ha : (a, i) ∈ group) : t.head[i]? = some a :=
  List.mem_zipIdx_iff_getElem?.mp (exists_group_iff.mp ⟨group, hgroup, ha⟩)

/-- With a place, a group has all places that are linked to it. -/
lemma mem_places_of_linked (hi : i ∈ group.map Prod.snd) (hlinked : t.Linked i j) :
    j ∈ group.map Prod.snd := by
  obtain ⟨a, b, ha, hb, hshared⟩ := hlinked
  obtain ⟨⟨a', i⟩, ha', rfl⟩ := List.mem_map.mp hi
  obtain rfl : a' = a := Option.some.inj ((getElem?_of_mem_group hgroup ha').symm.trans ha)
  obtain ⟨group', hgroup', hb'⟩ :
      ∃ group' ∈ linkedGroups t.sharesExistential t.head.zipIdx, (b, j) ∈ group' :=
    exists_group_iff.mpr (List.mem_zipIdx_iff_getElem?.mpr hb)
  obtain rfl := eq_of_linked t.nodup_places sharesExistential_symm hgroup hgroup' ha' hb'
    (sharesExistential_iff.mpr hshared)
  exact List.mem_map_of_mem hb'

/-- **The places of a group** are those that are linked to any of them, directly or through
others. -/
theorem mem_places_iff (hi : i ∈ group.map Prod.snd) :
    j ∈ group.map Prod.snd ↔ ReflTransGen t.Linked i j := by
  constructor
  · intro hj
    obtain ⟨⟨a, i⟩, ha, rfl⟩ := List.mem_map.mp hi
    obtain ⟨⟨b, j⟩, hb, rfl⟩ := List.mem_map.mp hj
    have hchain := reflTransGen_of_mem_group t.nodup_places sharesExistential_symm hgroup ha hb
    refine hchain.lift Prod.snd fun c d hstep => ?_
    obtain ⟨hc, hd, hlinked⟩ := hstep
    exact ⟨c.1, d.1, getElem?_of_mem_group hgroup hc, getElem?_of_mem_group hgroup hd,
      sharesExistential_iff.mp hlinked⟩
  · intro h
    induction h with
    | refl => exact hi
    | tail _ hstep ih => exact mem_places_of_linked hgroup ih hstep

end Group

/-- **The parts are the connected components of the head.** -/
theorem exists_components (t : Tgd) : ∃ groups : List (List Nat), t.Components groups ∧
    t.split.map Tgd.head = groups.map fun group => group.filterMap fun i => t.head[i]? := by
  have horder : t.head.zipIdx.Pairwise fun b c => b.2 < c.2 := by
    rw [← List.pairwise_map (f := Prod.snd) (R := (· < ·)), List.zipIdx_map_snd]
    exact List.pairwise_lt_range'
  have hperm := perm_flatten_linkedGroups t.sharesExistential t.nodup_places
  refine ⟨(linkedGroups t.sharesExistential t.head.zipIdx).map (List.map Prod.snd),
    { perm := ?perm, nonempty := ?nonempty, ascending := ?ascending, ordered := ?ordered,
      mem_iff := ?mem_iff }, ?heads⟩
  case perm =>
    rw [← List.map_flatten, List.range_eq_range', ← List.zipIdx_map_snd]
    exact hperm.map Prod.snd
  case nonempty =>
    intro places hplaces
    obtain ⟨group, hgroup, rfl⟩ := List.mem_map.mp hplaces
    exact fun hnil => linkedGroups_ne_nil hgroup (List.map_eq_nil_iff.mp hnil)
  case ascending =>
    intro places hplaces
    obtain ⟨group, hgroup, rfl⟩ := List.mem_map.mp hplaces
    exact List.pairwise_map.mpr (horder.sublist (sublist_of_mem_linkedGroups hgroup))
  case ordered =>
    refine List.pairwise_map.mpr ((pairwise_first_linkedGroups _ horder).imp ?_)
    intro group group' hfirst i hi j hj
    rw [List.head?_map, Option.mem_def, Option.map_eq_some_iff] at hi hj
    obtain ⟨b, hb, rfl⟩ := hi
    obtain ⟨c, hc, rfl⟩ := hj
    exact hfirst b hb c hc
  case mem_iff =>
    intro places hplaces i hi j
    obtain ⟨group, hgroup, rfl⟩ := List.mem_map.mp hplaces
    exact mem_places_iff hgroup hi
  case heads =>
    rw [map_head_split, List.map_map]
    refine List.map_congr_left fun group hgroup => ?_
    rw [Function.comp_apply, List.filterMap_map, ← List.filterMap_eq_map]
    refine List.filterMap_congr fun b hb => ?_
    exact (getElem?_of_mem_group hgroup hb).symm

/-- **No existential variable stands in two parts.** -/
theorem pairwise_split (t : Tgd) : t.split.Pairwise fun part part' =>
    ∀ x ∈ t.existential, x ∈ part.headVariables → x ∉ part'.headVariables := by
  have hheads : (t.split.map Tgd.head).Pairwise fun head head' => ∀ x ∈ t.existential,
      x ∈ head.flatMap Atom.vars → x ∉ head'.flatMap Atom.vars := by
    rw [map_head_split, List.pairwise_map]
    have hdisjoint := pairwise_disjoint_linkedGroups t.sharesExistential t.nodup_places
    refine hdisjoint.imp_of_mem fun {group group'} hgroup hgroup' hdisjoint x hx ha hb => ?_
    simp only [List.mem_flatMap, List.mem_map] at ha hb
    obtain ⟨_, ⟨p, hp, rfl⟩, ha⟩ := ha
    obtain ⟨_, ⟨q, hq, rfl⟩, hb⟩ := hb
    have hsame := eq_of_linked t.nodup_places sharesExistential_symm hgroup hgroup' hp hq
      (sharesExistential_iff.mpr ⟨x, hx, ha, hb⟩)
    exact hdisjoint hp (hsame ▸ hp)
  refine (List.pairwise_map.mp hheads).imp fun hsep x hx hpart hpart' => ?_
  exact hsep x hx (OrderedSet.mem_ofList.mp hpart) (OrderedSet.mem_ofList.mp hpart')

/-- A part has all head variables among those of the whole. -/
lemma headVariables_of_mem_split (h : part ∈ t.split) (hx : x ∈ part.headVariables) :
    x ∈ t.headVariables := by
  obtain ⟨a, ha, hx⟩ := List.mem_flatMap.mp (OrderedSet.mem_ofList.mp hx)
  exact OrderedSet.mem_ofList.mpr
    (List.mem_flatMap.mpr ⟨a, exists_part_iff.mp ⟨part, h, ha⟩, hx⟩)

/-- The existential variables of a part are those of the whole that it has. -/
lemma mem_existential_of_mem_split (h : part ∈ t.split) :
    x ∈ part.existential ↔ x ∈ part.headVariables ∧ x ∈ t.existential := by
  rw [mem_existential, mem_existential, universal_of_mem_split h]
  exact and_congr_right fun hx => (and_iff_right (headVariables_of_mem_split h hx)).symm

/-- The frontier of a part is that of the whole as far as the part has it. -/
lemma mem_frontier_of_mem_split (h : part ∈ t.split) :
    x ∈ part.frontier ↔ x ∈ part.headVariables ∧ x ∈ t.frontier := by
  rw [mem_frontier, mem_frontier, universal_of_mem_split h]
  exact and_congr_right fun hx => (and_iff_right (headVariables_of_mem_split h hx)).symm

/-! ### Splitting again -/

/-- Head atoms of a part that share an existential variable of the whole share it in the part. -/
lemma sharesExistential_of_mem_split (h : part ∈ t.split) {a b : Atom} (ha : a ∈ part.head)
    (hshared : t.sharesExistential a b = true) : part.sharesExistential a b = true := by
  rw [sharesExistential_iff] at hshared ⊢
  obtain ⟨x, hx, hxa, hxb⟩ := hshared
  have hhead : x ∈ part.headVariables :=
    OrderedSet.mem_ofList.mpr (List.mem_flatMap.mpr ⟨a, ha, hxa⟩)
  exact ⟨x, (mem_existential_of_mem_split h).mpr ⟨hhead, hx⟩, hxa, hxb⟩

/-- **The head atoms of a part are all linked in it**: the chain that links them in the whole
passes through atoms of the part only. -/
theorem reflTransGen_of_mem_split (h : part ∈ t.split) {b c : Atom × Nat}
    (hb : b ∈ part.head.zipIdx) (hc : c ∈ part.head.zipIdx) :
    ReflTransGen (LinkedIn part.sharesExistential part.head.zipIdx) b c := by
  obtain ⟨-, group, hgroup, hhead⟩ := mem_split.mp h
  have hnodup : group.Nodup :=
    (List.Nodup.of_map Prod.snd t.nodup_places).sublist (sublist_of_mem_linkedGroups hgroup)
  -- the place of an atom of the whole in the part
  let place (p : Atom × Nat) : Atom × Nat := (p.1, group.idxOf p)
  have hplace : ∀ p ∈ group, place p ∈ part.head.zipIdx := by
    intro p hp
    rw [List.mem_zipIdx_iff_getElem?, hhead, List.getElem?_map, List.getElem?_idxOf hp]
    rfl
  have hwhole : ∀ b ∈ part.head.zipIdx, ∃ p ∈ group, place p = b := by
    intro b hb
    rw [List.mem_zipIdx_iff_getElem?, hhead, List.getElem?_map, Option.map_eq_some_iff] at hb
    obtain ⟨p, hp, hatom⟩ := hb
    obtain ⟨hlt, rfl⟩ := List.getElem?_eq_some_iff.mp hp
    exact ⟨_, List.getElem_mem hlt, Prod.ext hatom (hnodup.idxOf_getElem _ hlt)⟩
  obtain ⟨p, hp, rfl⟩ := hwhole b hb
  obtain ⟨q, hq, rfl⟩ := hwhole c hc
  have hchain := reflTransGen_of_mem_group t.nodup_places sharesExistential_symm hgroup hp hq
  refine hchain.lift place fun c d hstep => ?_
  obtain ⟨hc, hd, hlinked⟩ := hstep
  have hmem : c.1 ∈ part.head := hhead ▸ List.mem_map_of_mem hc
  exact ⟨hplace c hc, hplace d hd, sharesExistential_of_mem_split h hmem hlinked⟩

/-- **A part is not split any further.** -/
theorem split_of_mem_split (h : part ∈ t.split) : part.split = [part] := by
  have hne : part.head.zipIdx ≠ [] := fun hnil => part.nonempty (List.zipIdx_eq_nil_iff.mp hnil)
  have hone := linkedGroups_eq_singleton part.nodup_places sharesExistential_symm hne
    fun b hb c hc => reflTransGen_of_mem_split h hb hc
  have hheads := part.map_head_split
  rw [hone, List.map_singleton, List.zipIdx_map_fst] at hheads
  obtain ⟨q, hq, hhead⟩ := List.map_eq_singleton_iff.mp hheads
  have hbody : q.body = part.body := (mem_split.mp (hq ▸ List.mem_singleton_self q)).1
  rw [hq]
  cases q
  cases part
  cases hbody
  cases hhead
  rfl

end Tgd

/-! ### The whole schema -/

/-- The parts of a dependency of either kind are not split any further. -/
lemma Dependency.split_of_mem_split {d part : Dependency} (h : part ∈ d.split) :
    part.split = [part] := by
  cases d with
  | egd e => rw [List.mem_singleton.mp h]; rfl
  | tgd t =>
      obtain ⟨t', ht', rfl⟩ := List.mem_map.mp h
      rw [split, Tgd.split_of_mem_split ht', List.map_singleton]

namespace Schema

/-- Splitting the parts of dependencies again gives the same parts. -/
lemma flatMap_split_split (ds : List Dependency) :
    (ds.flatMap Dependency.split).flatMap Dependency.split = ds.flatMap Dependency.split := by
  rw [List.flatMap_assoc]
  refine List.flatMap_congr fun d _ => ?_
  have hparts : ∀ part ∈ d.split, part.split = [part] := fun _ => Dependency.split_of_mem_split
  rw [List.flatMap_congr hparts, List.flatMap_singleton']

end Schema

end DependencyTheory
