/-
The parts of a dependency by a search through its head:

* `Tgd.splitBySearch`, `Schema.splitBySearch`: one part for each number that the places of a head
  get, and a schema with all heads split in this way;
* `Tgd.components_numbering`, `Tgd.Components.unique`: the search finds the components of a head,
  and these are determined by what they are;
* `Tgd.splitBySearch_eq_ok`, `Schema.splitBySearch_eq`: so the search makes the same parts as
  merging groups does;
* `Schema.components_splitBySearch`: **the search computes the connected components**, and changes
  nothing when it is done again.

The two ways to find the parts are never compared step by step: either of them finds components.
-/
import DependencyTheory.Proofs.HeadSplit.Components
import DependencyTheory.Proofs.HeadSplit.Search

namespace DependencyTheory

open Relation

/-! ### Splitting by a search -/

namespace Tgd

/-- Whether there are head atoms at two places, with an existential variable in common. -/
def linksPlaces (t : Tgd) (i j : Nat) : Bool :=
  match t.head[i]?, t.head[j]? with
  | some a, some b => t.sharesExistential a b
  | _, _ => false

/-- The numbering of the places of a head. -/
def numbering (t : Tgd) : Numbering := .ofPlaces t.linksPlaces t.head.length

/-- The head atoms with a certain number, in their order. -/
def numberedAtoms (t : Tgd) (c : Nat) : List Atom :=
  ((t.head.zip t.numbering.numbers).filter fun entry => entry.2 == some c).map Prod.fst

/-- The parts of a dependency: itself if its head is one component, and one dependency for each
component otherwise. -/
def splitBySearch (t : Tgd) : Except SchemaError (List Tgd) :=
  if t.numbering.count = 1 then .ok [t]
  else (List.range t.numbering.count).mapM fun c => ofHead t.body (t.numberedAtoms c)

end Tgd

/-- The parts of a dependency of either kind. -/
def Dependency.splitBySearch : Dependency → Except SchemaError (List Dependency)
  | tgd t => return (← t.splitBySearch).map tgd
  | egd e => .ok [egd e]

/-- The schema that a builder over the same table makes of all parts, dependency by dependency. -/
def Schema.splitBySearch (s : Schema) (issuer : Nat) : Except SchemaError Schema := do
  let b ← s.dependencies.foldlM (fun b d => return b.addDependencies (← d.splitBySearch))
    (s.reopen issuer)
  b.build

/-! ### The components of a head -/

namespace Tgd

variable {t : Tgd} {i j : Nat} {groups groups' : List (List Nat)}

lemma linksPlaces_iff : t.linksPlaces i j = true ↔ t.Linked i j := by
  rw [linksPlaces, Linked]
  split
  · next a b ha hb =>
      simp only [ha, hb, Option.some.injEq]
      rw [sharesExistential_iff]
      constructor
      · exact fun h => ⟨a, b, rfl, rfl, h⟩
      · rintro ⟨_, _, rfl, rfl, h⟩
        exact h
  · next hnone =>
      refine ⟨fun h => absurd h (by simp), ?_⟩
      rintro ⟨a, b, ha, hb, -⟩
      exact absurd hb (hnone a b ha)

lemma joined_linksPlaces_iff : Joined t.linksPlaces i j ↔ ReflTransGen t.Linked i j := by
  rw [Joined]
  simp only [linksPlaces_iff]

/-- The places of a head are numbered by the search. -/
lemma numbered_numbering (t : Tgd) :
    Numbered t.linksPlaces t.head.length t.head.length t.numbering := by
  refine numbered_ofPlaces (fun i j h => ?_) fun i j h => ?_
  · obtain ⟨a, b, ha, hb, x, hx, hxa, hxb⟩ := linksPlaces_iff.mp h
    exact linksPlaces_iff.mpr ⟨b, a, hb, ha, x, hx, hxb, hxa⟩
  · obtain ⟨-, b, -, hb, -⟩ := linksPlaces_iff.mp h
    exact (List.getElem?_eq_some_iff.mp hb).1

/-- **The search finds the components of a head.** -/
theorem components_numbering (t : Tgd) : t.Components t.numbering.groups := by
  have h := t.numbered_numbering
  have hascending : ∀ c, (t.numbering.places c).Pairwise (· < ·) :=
    fun c => List.pairwise_lt_range.filter _
  refine
    { perm := ?perm, nonempty := ?nonempty, ascending := ?ascending, ordered := ?ordered,
      mem_iff := ?mem_iff }
  case perm =>
    refine (List.perm_ext_iff_of_nodup (List.nodup_flatten.mpr ⟨?_, ?_⟩) List.nodup_range).mpr
      fun i => ?_
    · intro group hgroup
      obtain ⟨c, -, rfl⟩ := List.mem_map.mp hgroup
      exact (hascending c).imp Nat.ne_of_lt
    · refine List.pairwise_map.mpr (List.nodup_range.imp fun hne i hi hi' => hne ?_)
      have hsame := (Numbering.mem_places.mp hi).symm.trans (Numbering.mem_places.mp hi')
      exact Option.some.inj (Option.some.inj hsame)
    · simp only [Numbering.groups, List.mem_flatten, List.mem_map, List.mem_range]
      constructor
      · rintro ⟨_, ⟨c, -, rfl⟩, hi⟩
        exact h.length ▸ (List.getElem?_eq_some_iff.mp (Numbering.mem_places.mp hi)).1
      · intro hi
        obtain ⟨c, hc⟩ := exists_number (h.length ▸ hi) (h.started i hi)
        exact ⟨_, ⟨c, h.lt_count i c hc, rfl⟩, Numbering.mem_places.mpr hc⟩
  case nonempty =>
    intro group hgroup
    obtain ⟨c, hc, rfl⟩ := List.mem_map.mp hgroup
    obtain ⟨i, -, hi, -⟩ := h.first c (List.mem_range.mp hc)
    exact List.ne_nil_of_mem (Numbering.mem_places.mpr hi)
  case ascending =>
    intro group hgroup
    obtain ⟨c, -, rfl⟩ := List.mem_map.mp hgroup
    exact hascending c
  case ordered =>
    have hfirst : ∀ {c i}, i ∈ (t.numbering.places c).head? → i ∈ t.numbering.places c ∧
        ∀ j ∈ t.numbering.places c, i ≤ j := by
      intro c i hi
      obtain ⟨rest, hplaces⟩ := List.head?_eq_some_iff.mp hi
      have hrest := List.pairwise_cons.mp (hplaces ▸ hascending c)
      refine ⟨hplaces ▸ List.mem_cons_self, fun j hj => ?_⟩
      rcases List.mem_cons.mp (hplaces ▸ hj) with rfl | hj
      · exact Nat.le_refl _
      · exact Nat.le_of_lt (hrest.1 j hj)
    refine List.pairwise_map.mpr (List.pairwise_lt_range.imp_of_mem ?_)
    intro c d hc _ hlt i hi j hj
    obtain ⟨k, -, hk, hleast⟩ := h.first c (List.mem_range.mp hc)
    have hnumber := Numbering.mem_places.mp (hfirst hj).1
    have hkj : k ≤ j := hleast j d hnumber (Nat.le_of_lt hlt)
    have hne : k ≠ j := by
      rintro rfl
      exact Nat.ne_of_lt hlt (Option.some.inj (Option.some.inj (hk.symm.trans hnumber)))
    exact Nat.lt_of_le_of_lt ((hfirst hi).2 k (Numbering.mem_places.mpr hk))
      (Nat.lt_of_le_of_ne hkj hne)
  case mem_iff =>
    intro group hgroup i hi j
    obtain ⟨c, -, rfl⟩ := List.mem_map.mp hgroup
    rw [Numbering.mem_places] at hi ⊢
    rw [← joined_linksPlaces_iff]
    refine ⟨fun hj => h.joined i j c hi hj, fun hj => ?_⟩
    induction hj with
    | refl => exact hi
    | tail _ hstep ih => exact h.closed _ _ c ih hstep

/-- A component has a first place. -/
lemma Components.exists_first {group : List Nat} (h : t.Components groups)
    (hgroup : group ∈ groups) : ∃ i, i ∈ group.head? := by
  obtain ⟨i, rest, hcons⟩ := List.exists_cons_of_ne_nil (h.nonempty group hgroup)
  exact ⟨i, hcons ▸ rfl⟩

/-- Components are told apart by their first places. -/
lemma Components.nodup (h : t.Components groups) : groups.Nodup := by
  refine h.ordered.imp_of_mem fun {group group'} hgroup _ hlt heq => ?_
  obtain ⟨i, hi⟩ := h.exists_first hgroup
  exact Nat.lt_irrefl i (hlt i hi i (heq ▸ hi))

/-- Each of some components is one of any others of the same head. -/
lemma Components.subset (h : t.Components groups) (h' : t.Components groups') :
    groups ⊆ groups' := by
  intro group hgroup
  obtain ⟨i, hi⟩ := List.exists_mem_of_ne_nil _ (h.nonempty group hgroup)
  have hplace := h.perm.mem_iff.mp (List.mem_flatten.mpr ⟨group, hgroup, hi⟩)
  obtain ⟨group', hgroup', hi'⟩ := List.mem_flatten.mp (h'.perm.mem_iff.mpr hplace)
  have hperm : group.Perm group' := (List.perm_ext_iff_of_nodup
    ((h.ascending group hgroup).imp Nat.ne_of_lt)
    ((h'.ascending group' hgroup').imp Nat.ne_of_lt)).mpr fun j =>
      (h.mem_iff group hgroup i hi j).trans (h'.mem_iff group' hgroup' i hi' j).symm
  have heq := hperm.eq_of_pairwise (fun i j _ _ hij hji => absurd hij (Nat.lt_asymm hji))
    (h.ascending group hgroup) (h'.ascending group' hgroup')
  exact heq ▸ hgroup'

/-- **Components are determined by what they are.** -/
theorem Components.unique (h : t.Components groups) (h' : t.Components groups') :
    groups = groups' := by
  have hperm : groups.Perm groups' := (List.perm_ext_iff_of_nodup h.nodup h'.nodup).mpr
    fun group => ⟨fun hg => h.subset h' hg, fun hg => h'.subset h hg⟩
  refine hperm.eq_of_pairwise (fun group group' hg hg' hlt hlt' => ?_) h.ordered h'.ordered
  obtain ⟨i, hi⟩ := h.exists_first hg
  obtain ⟨j, hj⟩ := h'.exists_first hg'
  exact absurd (hlt i hi j hj) (Nat.lt_asymm (hlt' j hj i hi))

/-! ### The parts -/

/-- The entries of a list at the places where another list has a certain element. -/
lemma map_fst_filter_zip {α β : Type} [BEq β] (as : List α) (bs : List β) (b : β)
    (hlength : as.length = bs.length) :
    ((as.zip bs).filter fun entry => entry.2 == b).map Prod.fst =
      ((List.range bs.length).filter fun i => bs[i]? == some b).filterMap fun i => as[i]? := by
  induction as generalizing bs with
  | nil => simp
  | cons a as ih =>
      cases bs with
      | nil => cases hlength
      | cons b' bs =>
          have hrest := ih bs (Nat.succ.inj hlength)
          rw [List.length_cons, List.range_succ_eq_map, List.zip_cons_cons, List.filter_cons,
            List.filter_cons, List.filter_map]
          simp only [List.getElem?_cons_zero, Function.comp_def, Nat.succ_eq_add_one,
            List.getElem?_cons_succ]
          have hsame : (some b' == some b) = (b' == b) := rfl
          rw [hsame]
          split
          · rw [List.map_cons, hrest, List.filterMap_cons_some List.getElem?_cons_zero,
              List.filterMap_map]
            rfl
          · rw [hrest, List.filterMap_map]
            rfl

/-- The atoms with a number are those at the places that have it. -/
lemma numberedAtoms_eq (t : Tgd) (c : Nat) :
    t.numberedAtoms c = (t.numbering.places c).filterMap fun i => t.head[i]? :=
  map_fst_filter_zip _ _ _ t.numbered_numbering.length.symm

/-- The heads of the parts are the atoms with each of the numbers. -/
lemma map_head_split_eq_numberedAtoms (t : Tgd) :
    t.split.map Tgd.head = (List.range t.numbering.count).map t.numberedAtoms := by
  obtain ⟨groups, hgroups, hheads⟩ := t.exists_components
  rw [hheads, hgroups.unique t.components_numbering, Numbering.groups, List.map_map]
  exact List.map_congr_left fun c _ => (t.numberedAtoms_eq c).symm

/-- Parts are known by their heads. -/
lemma eq_split {parts : List Tgd} (hbody : ∀ part ∈ parts, part.body = t.body)
    (hheads : parts.map Tgd.head = t.split.map Tgd.head) : parts = t.split := by
  have hfields : ∀ {parts : List Tgd}, (∀ part ∈ parts, part.body = t.body) →
      parts.map (fun part => (part.body, part.head)) =
        (parts.map Tgd.head).map fun head => (t.body, head) := by
    intro parts hbody
    rw [List.map_map]
    exact List.map_congr_left fun part hpart => Prod.ext (hbody part hpart) rfl
  have hinj : Function.Injective fun part : Tgd => (part.body, part.head) := by
    intro part part' heq
    cases part
    cases part'
    cases heq
    rfl
  refine List.map_injective_iff.mpr hinj ?_
  rw [hfields hbody, hfields fun part hpart => (mem_split.mp hpart).1, hheads]

/-- A list of heads makes a list of dependencies if none of them is empty. -/
lemma mapM_ofHead (body : Clause) {heads : List (List Atom)} (h : ∀ head ∈ heads, head ≠ []) :
    ∃ parts, heads.mapM (ofHead body) = .ok parts ∧ parts.map Tgd.head = heads ∧
      ∀ part ∈ parts, part.body = body := by
  induction heads with
  | nil => exact ⟨[], rfl, rfl, by simp⟩
  | cons head heads ih =>
      obtain ⟨hhead, hheads⟩ := List.forall_mem_cons.mp h
      obtain ⟨parts, hparts, hmap, hbody⟩ := ih hheads
      refine ⟨⟨body, head, hhead⟩ :: parts, ?_, by rw [List.map_cons, hmap],
        List.forall_mem_cons.mpr ⟨rfl, hbody⟩⟩
      rw [List.mapM_cons, hparts, ofHead, dif_pos hhead]
      rfl

/-- If there is one component, it has the whole head. -/
lemma numberedAtoms_of_count_eq_one (hone : t.numbering.count = 1) :
    t.numberedAtoms 0 = t.head := by
  have h := t.numbered_numbering
  rw [numberedAtoms, List.filter_eq_self.mpr, List.map_fst_zip (Nat.le_of_eq h.length.symm)]
  intro entry hentry
  obtain ⟨i, hi, hnumber⟩ := List.mem_iff_getElem.mp (List.of_mem_zip hentry).2
  have hget : t.numbering.numbers[i]? = some entry.2 := List.getElem?_eq_some_iff.mpr ⟨hi, hnumber⟩
  obtain ⟨c, hc⟩ := exists_number hi (h.started i (h.length ▸ hi))
  have hzero : c = 0 := Nat.lt_one_iff.mp (hone ▸ h.lt_count i c hc)
  rw [beq_iff_eq, ← hzero]
  exact Option.some.inj (hget.symm.trans hc)

/-- **The search makes the same parts** as merging groups. -/
theorem splitBySearch_eq_ok (t : Tgd) : t.splitBySearch = .ok t.split := by
  have hheads := t.map_head_split_eq_numberedAtoms
  rw [splitBySearch]
  split
  · next hone =>
      have hwhole : [t] = t.split := by
        refine eq_split (fun part hpart => by rw [List.mem_singleton.mp hpart]) ?_
        rw [hheads, hone]
        exact congrArg (fun head => [head]) (numberedAtoms_of_count_eq_one hone).symm
      rw [← hwhole]
  · have hne : ∀ head ∈ (List.range t.numbering.count).map t.numberedAtoms, head ≠ [] := by
      rw [← hheads]
      intro head hhead
      obtain ⟨part, -, rfl⟩ := List.mem_map.mp hhead
      exact part.nonempty
    obtain ⟨parts, hparts, hmap, hbody⟩ := mapM_ofHead t.body hne
    rw [List.mapM_map] at hparts
    rw [← eq_split hbody (hmap.trans hheads.symm)]
    exact hparts

end Tgd

/-! ### The whole schema -/

lemma Dependency.splitBySearch_eq_ok (d : Dependency) : d.splitBySearch = .ok d.split := by
  cases d with
  | tgd t =>
      rw [splitBySearch, t.splitBySearch_eq_ok]
      rfl
  | egd e => rfl

namespace Schema

/-- The parts of all dependencies come to a builder in their order. -/
lemma foldlM_splitBySearch (ds : List Dependency) (b : Builder) :
    ds.foldlM (fun b d => return b.addDependencies (← d.splitBySearch)) b =
      (.ok (b.addDependencies (ds.flatMap Dependency.split)) : Except SchemaError Builder) := by
  induction ds generalizing b with
  | nil => simp [Builder.addDependencies, pure, Except.pure]
  | cons d ds ih =>
      rw [List.foldlM_cons, d.splitBySearch_eq_ok]
      refine (ih _).trans ?_
      simp [Builder.addDependencies]

/-- **The search makes the same schema** as merging groups, whatever the number of the builder. -/
theorem splitBySearch_eq (s : Schema) (issuer : Nat) : s.splitBySearch issuer = s.splitHeads := by
  rw [splitBySearch, foldlM_splitBySearch]
  rfl

/-- **Splitting heads computes the connected components.** The search makes the parts that merging
groups makes. The parts of a dependency of a built schema are the classes of head atoms that are
linked by existential variables, directly or through others: every place of the head is in one of
them, they are ordered by their first places, and each has its atoms in their order and the whole
body. No existential variable stands in two parts, and the variables of a part are existential in
it or in its frontier as they are in the whole. Splitting all heads of the schema with all heads
split gives the same schema again. -/
theorem components_splitBySearch {b : Builder} {s : Schema} (hb : b.build = .ok s)
    (issuer issuer' : Nat) :
    (∀ t ∈ s.tgds, t.splitBySearch = .ok t.split ∧
      (∃ groups : List (List Nat), t.Components groups ∧
        t.split.map Tgd.head = groups.map fun group => group.filterMap fun i => t.head[i]?) ∧
      (∀ part ∈ t.split, part.body = t.body ∧ ∀ x,
        (x ∈ part.existential ↔ x ∈ part.headVariables ∧ x ∈ t.existential) ∧
        (x ∈ part.frontier ↔ x ∈ part.headVariables ∧ x ∈ t.frontier)) ∧
      t.split.Pairwise fun part part' =>
        ∀ x ∈ t.existential, x ∈ part.headVariables → x ∉ part'.headVariables) ∧
    ∃ s', s.splitBySearch issuer = .ok s' ∧ s.splitHeads = .ok s' ∧
      s'.predicates = s.predicates ∧ s'.dependencies = s.dependencies.flatMap Dependency.split ∧
      s'.splitBySearch issuer' = .ok s' := by
  have hsplit := splitHeads_eq_ok hb
  refine ⟨fun t _ => ⟨t.splitBySearch_eq_ok, t.exists_components, fun part hpart =>
    ⟨(Tgd.mem_split.mp hpart).1, fun x =>
      ⟨Tgd.mem_existential_of_mem_split hpart, Tgd.mem_frontier_of_mem_split hpart⟩⟩,
    t.pairwise_split⟩, _, (s.splitBySearch_eq issuer).trans hsplit, hsplit, rfl, rfl, ?_⟩
  have hbuild : ((s.reopen 0).addDependencies (s.dependencies.flatMap Dependency.split)).build =
      .ok ⟨s.predicates, s.dependencies.flatMap Dependency.split⟩ := hsplit
  rw [splitBySearch_eq, splitHeads_eq_ok hbuild, flatMap_split_split]

/-- In the linked row, the first atom is linked to the fourth and this to the third. The second
and the last stand alone, and splitting the parts again changes nothing. -/
theorem components_splitBySearch_linkedRow :
    (∃ b : Builder, b.build = .ok linkedRow) ∧
      (∀ t ∈ linkedRow.tgds, ∃ parts, t.splitBySearch = .ok parts ∧ parts.map Tgd.head =
          [[.ofVars 1 ["x", "y"], .ofVars 3 ["z"], .ofVars 2 ["y", "z"]],
            [.ofVars 3 ["x"]], [.ofVars 3 ["w"]]]) ∧
      ∃ s', linkedRow.splitBySearch 1 = .ok s' ∧ s'.splitBySearch 2 = .ok s' := by
  have hbuild : (⟨0, linkedRow.predicates, linkedRow.dependencies⟩ : Builder).build =
      .ok linkedRow := rfl
  obtain ⟨hparts, s', hs', -, -, -, hagain⟩ := components_splitBySearch hbuild 1 2
  refine ⟨⟨_, hbuild⟩, fun t ht => ⟨t.split, (hparts t ht).1, ?_⟩, s', hs', hagain⟩
  obtain rfl : t = _ := List.mem_singleton.mp ht
  decide

end Schema

end DependencyTheory
