/-
Functional dependencies under another presentation:

* `Egd.Variant.functional?_eq`: variants state corresponding functional dependencies;
* `mem_dependencies_of_shuffled`: so do lists of variants in any order, taken together.

The two atoms that are compared may change places, as may the two sides of the equality. The
rows are compared at one place in either case.
-/
import DependencyTheory.Proofs.FunctionalDependency.Extraction
import DependencyTheory.Proofs.Presentation.Variant
import Mathlib.Data.List.Permutation

namespace DependencyTheory

variable {R : Handle → Handle → Prop} {V : String → String → Prop} {a b a' b' : Atom}
  {c c' : Clause} {e e' : Egd} {k k' : Handle} {key : IndexSet} {place : Nat}
  {xs ys xs' ys' : List String}

/-! ### Two rows -/

lemma Term.Renames.exists_var {x : String} {term : Term} (h : (Term.var x).Renames V term) :
    ∃ y, V x y ∧ term = .var y := by
  cases h with
  | var hxy => exact ⟨_, hxy, rfl⟩

/-- The terms that correspond to a row of variables are such a row. -/
lemma Term.exists_row {terms : List Term}
    (h : List.Forall₂ (Term.Renames V) (xs.map .var) terms) :
    ∃ xs', terms = xs'.map .var ∧ List.Forall₂ V xs xs' := by
  induction xs generalizing terms with
  | nil =>
      obtain rfl := List.forall₂_nil_left_iff.mp h
      exact ⟨[], rfl, .nil⟩
  | cons x xs ih =>
      obtain ⟨term, rest, hterm, hrest, rfl⟩ := List.forall₂_cons_left_iff.mp h
      obtain ⟨xs', rfl, hxs⟩ := ih hrest
      cases hterm with
      | var hxy => exact ⟨_ :: xs', rfl, .cons hxy hxs⟩

/-- What corresponds to a body of two atoms is one. -/
lemma Clause.Renames.pair (h : c.Renames R V c')
    (hc : c.literals = [.ordinary true a, .ordinary true b]) :
    ∃ a' b', a.Renames R V a' ∧ b.Renames R V b' ∧
      (c'.literals = [.ordinary true a', .ordinary true b'] ∨
        c'.literals = [.ordinary true b', .ordinary true a']) := by
  obtain ⟨ls, hls, hperm⟩ := h
  rw [hc] at hls
  cases hls with
  | cons hl hls =>
      cases hls with
      | cons hm hls =>
          cases hls
          cases hl with
          | ordinary _ ha =>
              cases hm with
              | ordinary _ hb => exact ⟨_, _, ha, hb, List.pair_perm.mp hperm⟩

namespace Egd.Compares

/-- Corresponding rows are compared in the same way. -/
lemma of_rows (hc : e.Compares k key place xs ys) (hV : Relator.BiUnique V)
    (hxs : List.Forall₂ V xs xs') (hys : List.Forall₂ V ys ys')
    (hbody : ∃ a b, e'.body.literals = [.ordinary true a, .ordinary true b] ∧
      (a.predicate = k' ∧ a.terms = xs'.map .var) ∧ b.predicate = k' ∧ b.terms = ys'.map .var)
    (hsides : e.left.Renames V e'.left ∧ e.right.Renames V e'.right ∨
      e.left.Renames V e'.right ∧ e.right.Renames V e'.left) :
    e'.Compares k' key place xs' ys' where
  body := hbody
  nodup_left := (List.rel_nodup hV hxs).mp hc.nodup_left
  nodup_right := (List.rel_nodup hV hys).mp hc.nodup_right
  mem_key i := by
    rw [hc.mem_key]
    constructor
    · rintro ⟨x, hx, hy⟩
      obtain ⟨x', hx', hxx⟩ := exists_getElem?_of_forall₂ hxs hx
      obtain ⟨y', hy', hxy⟩ := exists_getElem?_of_forall₂ hys hy
      exact ⟨x', hx', hV.2 hxx hxy ▸ hy'⟩
    · rintro ⟨x', hx', hy'⟩
      obtain ⟨x, hx, hxx⟩ := exists_getElem?_of_forall₂ hxs.flip hx'
      obtain ⟨y, hy, hyx⟩ := exists_getElem?_of_forall₂ hys.flip hy'
      exact ⟨x, hx, hV.1 hyx hxx ▸ hy⟩
  shared i x' hx' hy' := by
    obtain ⟨x, hx, hxx⟩ := exists_getElem?_of_forall₂ hxs.flip hx'
    exact hc.shared i x hx ((List.rel_mem hV hxx hys).mpr hy')
  nonempty := hc.nonempty
  place_notMem := hc.place_notMem
  sides := by
    have hplace : ∀ {xs xs' : List String} {x y}, List.Forall₂ V xs xs' → V x y →
        xs[place]? = some x → xs'[place]? = some y := by
      intro xs xs' x y h hxy hx
      obtain ⟨y', hy', hxy'⟩ := exists_getElem?_of_forall₂ h hx
      rw [hy', hV.2 hxy hxy']
    obtain ⟨left, right, hl, hr, hrows⟩ := hc.sides
    rw [hl, hr] at hsides
    have hrows' : ∀ {left' right'}, V left left' → V right right' →
        xs'[place]? = some left' ∧ ys'[place]? = some right' ∨
          xs'[place]? = some right' ∧ ys'[place]? = some left' := fun hleft hright =>
      hrows.imp (fun h => ⟨hplace hxs hleft h.1, hplace hys hright h.2⟩)
        fun h => ⟨hplace hxs hright h.1, hplace hys hleft h.2⟩
    rcases hsides with ⟨hl', hr'⟩ | ⟨hl', hr'⟩
    · obtain ⟨left', hleft, hl'⟩ := hl'.exists_var
      obtain ⟨right', hright, hr'⟩ := hr'.exists_var
      exact ⟨left', right', hl', hr', hrows' hleft hright⟩
    · obtain ⟨left', hleft, hl'⟩ := hl'.exists_var
      obtain ⟨right', hright, hr'⟩ := hr'.exists_var
      exact ⟨right', left', hr', hl', (hrows' hleft hright).symm⟩

/-- Two rows may be compared in the other order. -/
lemma swap (hc : e.Compares k key place xs ys)
    (hbody : e.body.literals = [.ordinary true a, .ordinary true b])
    (hbody' : e'.body.literals = [.ordinary true b, .ordinary true a])
    (hleft : e'.left = e.left) (hright : e'.right = e.right) :
    e'.Compares k key place ys xs where
  body := by
    obtain ⟨_, _, hab, ha, hb⟩ := hc.body
    cases hbody.symm.trans hab
    exact ⟨b, a, hbody', hb, ha⟩
  nodup_left := hc.nodup_right
  nodup_right := hc.nodup_left
  mem_key i := (hc.mem_key i).trans (exists_congr fun _ => and_comm)
  shared i y hy hx := by
    -- the variable stands in both rows, so at the same place
    obtain ⟨j, hj⟩ := List.mem_iff_getElem?.mp hx
    have hkey : j ∈ key := hc.shared j y hj (List.mem_of_getElem? hy)
    obtain ⟨z, hz, hz'⟩ := (hc.mem_key j).mp hkey
    obtain rfl : y = z := Option.some.inj (hj.symm.trans hz)
    have hlt : j < ys.length := (List.getElem?_eq_some_iff.mp hz').1
    rwa [← (List.getElem?_inj hlt hc.nodup_right).mp (hz'.trans hy.symm)]
  nonempty := hc.nonempty
  place_notMem := hc.place_notMem
  sides := by
    obtain ⟨left, right, hl, hr, hsides⟩ := hc.sides
    refine ⟨left, right, hleft.trans hl, hright.trans hr, ?_⟩
    exact hsides.symm.imp And.symm And.symm

end Egd.Compares

/-! ### What is stated -/

/-- **Variants state the same functional dependency**, over corresponding predicates. -/
theorem Egd.Variant.functional?_eq (hR : Relator.BiUnique R) (h : e.Variant R e')
    (he : e.functional? = some (k, key, place)) :
    ∃ k', R k k' ∧ e'.functional? = some (k', key, place) := by
  obtain ⟨V, hV, hbody, hsides⟩ := h
  obtain ⟨xs, ys, hc⟩ := e.compares_of_functional? he
  obtain ⟨a, b, hab, ⟨rfl, hat⟩, hbp, hbt⟩ := hc.body
  obtain ⟨a', b', ha, hb, hpair⟩ := hbody.pair hab
  obtain ⟨xs', hat', hxs⟩ := Term.exists_row (hat ▸ ha.terms)
  obtain ⟨ys', hbt', hys⟩ := Term.exists_row (hbt ▸ hb.terms)
  have hbp' : b'.predicate = a'.predicate := hR.2 hb.predicate (hbp ▸ ha.predicate)
  refine ⟨a'.predicate, ha.predicate, ?_⟩
  -- the rows in their own order, over the same sides
  have hrows : (Egd.mk ⟨[.ordinary true a', .ordinary true b'], by simp⟩ e'.left e'.right).Compares
      a'.predicate key place xs' ys' :=
    hc.of_rows hV hxs hys ⟨a', b', rfl, ⟨rfl, hat'⟩, hbp', hbt'⟩ hsides
  rcases hpair with hpair | hpair
  · have hsame := hc.of_rows hV hxs hys ⟨a', b', hpair, ⟨rfl, hat'⟩, hbp', hbt'⟩ hsides
    exact hsame.functional?_eq
  · have hswapped : e'.Compares a'.predicate key place ys' xs' :=
      hrows.swap rfl hpair rfl rfl
    exact hswapped.functional?_eq

/-! ### Lists of variants -/

variable {es es' : List Egd} {fd : FunctionalDependency}

open Extraction

lemma other_eq_nil_of_shuffled (hR : Relator.BiUnique R) (h : Shuffled (Egd.Variant R) es es') :
    (ofEgds es).other = [] ↔ (ofEgds es').other = [] := by
  rw [other_ofEgds_eq_nil, other_ofEgds_eq_nil]
  refine h.forall_mem_iff fun e e' hvariant => ?_
  simp only [Option.isSome_iff_exists, Prod.exists]
  constructor
  · rintro ⟨k, key, place, he⟩
    obtain ⟨k', -, he'⟩ := hvariant.functional?_eq hR he
    exact ⟨k', key, place, he'⟩
  · rintro ⟨k', key, place, he'⟩
    obtain ⟨k, -, he⟩ := hvariant.flip.functional?_eq (biUnique_flip hR) he'
    exact ⟨k, key, place, he⟩

/-- **Lists of variants have the same functional dependencies**, over corresponding
predicates. -/
theorem exists_mem_dependencies_of_shuffled (hR : Relator.BiUnique R)
    (h : Shuffled (Egd.Variant R) es es') (hfd : fd ∈ (ofEgds es).dependencies) :
    ∃ fd' ∈ (ofEgds es').dependencies, R fd.predicate fd'.predicate ∧ fd.key = fd'.key ∧
      fd.determined = fd'.determined := by
  obtain ⟨⟨i, hi⟩, hdetermined⟩ := mem_dependencies_ofEgds.mp hfd
  obtain ⟨e, he, hstates⟩ := (hdetermined i).mp hi
  obtain ⟨e', he', hvariant⟩ := h.exists_mem he
  obtain ⟨k', hk', -⟩ := hvariant.functional?_eq hR hstates
  refine ⟨⟨k', fd.key, fd.determined⟩, ?_, hk', rfl, rfl⟩
  refine mem_dependencies_ofEgds.mpr ⟨⟨i, hi⟩, fun j => (hdetermined j).trans ?_⟩
  constructor
  · rintro ⟨e, he, hstates⟩
    obtain ⟨e', he', hvariant⟩ := h.exists_mem he
    obtain ⟨k, hk, hstates'⟩ := hvariant.functional?_eq hR hstates
    exact ⟨e', he', hR.2 hk hk' ▸ hstates'⟩
  · rintro ⟨e', he', hstates'⟩
    obtain ⟨e, he, hvariant⟩ := h.flip.exists_mem he'
    obtain ⟨k, hk, hstates⟩ := Egd.Variant.functional?_eq (biUnique_flip hR) hvariant.flip hstates'
    exact ⟨e, he, hR.1 hk hk' ▸ hstates⟩

end DependencyTheory
