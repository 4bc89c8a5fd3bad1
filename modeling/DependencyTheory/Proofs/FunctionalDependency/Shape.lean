/-
Equality-generating dependencies that state a functional dependency:

* `Egd.Compares`: the shape of such a dependency, two rows of variables over one
  predicate that share the key and are compared at one place;
* `Egd.compares_of_functional?`, `Egd.Compares.functional?_eq`: just the dependencies of this
  shape are recognised;
* `Determines`: whether the key positions of a predicate determine one place;
* `Egd.satisfies_iff_determines`: a dependency of this shape is satisfied iff its key
  determines its place.

Any two tuples that agree on the key are values of the two rows at once, because a
variable of both rows stands at a key position. This is why the shape has to exclude
rows that share a variable elsewhere.
-/
import DependencyTheory.Proofs.Semantics.Facts
import Mathlib.Data.List.Nodup

namespace DependencyTheory

universe u

variable {U : Type u} {K : Vocabulary U} {D : Set (Fact U)}

/-- Sets of positions are equal if they have the same elements. -/
lemma IndexSet.ext {s t : IndexSet} (h : ∀ i, i ∈ s ↔ i ∈ t) : s = t := by
  have hnodup : ∀ r : IndexSet, r.toList.Nodup := fun r => r.ascending.imp Nat.ne_of_lt
  have hperm : s.toList.Perm t.toList := (List.perm_ext_iff_of_nodup (hnodup s) (hnodup t)).mpr h
  have hlist : s.toList = t.toList :=
    hperm.eq_of_pairwise (fun _ _ _ _ hij hji => absurd hij (Nat.lt_asymm hji))
      s.ascending t.ascending
  cases s
  cases t
  subst hlist
  rfl

/-! ### The shape -/

/-- The shape of a dependency that compares two rows over a predicate at one place. The
rows are the variables of its two atoms. They share the variables at the key positions
and no others. -/
structure Egd.Compares (e : Egd) (h : Handle) (key : IndexSet) (place : Nat)
    (xs ys : List String) : Prop where
  body : ∃ a b, e.body.literals = [.ordinary true a, .ordinary true b] ∧
    (a.predicate = h ∧ a.terms = xs.map .var) ∧ b.predicate = h ∧ b.terms = ys.map .var
  nodup_left : xs.Nodup
  nodup_right : ys.Nodup
  mem_key : ∀ i, i ∈ key ↔ ∃ x, xs[i]? = some x ∧ ys[i]? = some x
  shared : ∀ (i : Nat) x, xs[i]? = some x → x ∈ ys → i ∈ key
  nonempty : ∃ i, i ∈ key
  place_notMem : place ∉ key
  sides : ∃ left right, e.left = .var left ∧ e.right = .var right ∧
    (xs[place]? = some left ∧ ys[place]? = some right ∨
      xs[place]? = some right ∧ ys[place]? = some left)

lemma Term.mapM_varName?_eq_some {terms : List Term} {xs : List String} :
    terms.mapM Term.varName? = some xs ↔ terms = xs.map .var := by
  induction terms generalizing xs with
  | nil => cases xs <;> simp
  | cons t terms ih =>
      rw [List.mapM_cons]
      simp only [Option.bind_eq_bind, Option.bind_eq_some_iff, Term.varName?_eq_some, ih]
      constructor
      · rintro ⟨x, rfl, ys, rfl, h⟩
        cases h
        rfl
      · intro h
        obtain ⟨x, ys, rfl, ht, hys⟩ := List.map_eq_cons_iff.mp h.symm
        exact ⟨x, ht.symm, ys, hys.symm, rfl⟩

/-- The terms of an atom have names that all differ iff they are such a row. -/
lemma Atom.distinctNames?_eq_some {a : Atom} {xs : List String} :
    a.distinctNames? = some xs ↔ a.terms = xs.map .var ∧ xs.Nodup := by
  rw [Atom.distinctNames?, Option.bind_eq_bind, Option.bind_eq_some_iff]
  constructor
  · rintro ⟨ys, hys, h⟩
    split at h
    · cases h
      exact ⟨Term.mapM_varName?_eq_some.mp hys, ‹_›⟩
    · exact absurd h (by simp)
  · rintro ⟨hterms, hnodup⟩
    exact ⟨xs, Term.mapM_varName?_eq_some.mpr hterms, if_pos hnodup⟩

/-- The common places of two rows are those at which they have the same variable, and
no variable of both stands at different places. -/
lemma commonPlaces?_eq_some {xs ys : List String} {is : List Nat}
    (h : commonPlaces? xs ys = some is) :
    (∀ i, i ∈ is ↔ ∃ x, xs[i]? = some x ∧ ys[i]? = some x) ∧
      ∀ (i : Nat) x, xs[i]? = some x → x ∈ ys → i ∈ is := by
  rw [commonPlaces?] at h
  split at h
  · rename_i hall
    have hmem : ∀ i, i ∈ is ↔ ∃ x, xs[i]? = some x ∧ ys[i]? = some x := fun i => by
      rw [← Option.some.inj h]
      simp [List.mem_zipIdx_iff_getElem?]
    refine ⟨hmem, fun i x hx hys => (hmem i).mpr ⟨x, hx, ?_⟩⟩
    have hplace := List.all_eq_true.mp hall (x, i) (List.mem_zipIdx_iff_getElem?.mpr hx)
    simpa [hys] using hplace
  · exact absurd h (by simp)

/-- At the place that is equated, one row has the left side and the other the right. -/
lemma equatedPlace?_eq_some {xs ys : List String} {left right : String} {i : Nat}
    (h : equatedPlace? xs ys left right = some i) :
    xs[i]? = some left ∧ ys[i]? = some right ∨ xs[i]? = some right ∧ ys[i]? = some left := by
  have hplace : ∀ {zs : List String} {j}, zs.idxOf? left = some j → zs[j]? = some left := by
    intro zs j hj
    obtain ⟨hlt, heq, -⟩ := List.idxOf?_eq_some_iff.mp hj
    rw [List.getElem?_eq_getElem hlt, heq]
  rw [equatedPlace?] at h
  split at h
  · rename_i j hj
    split at h
    · cases h
      exact Or.inl ⟨hplace hj, ‹_›⟩
    · exact absurd h (by simp)
  · split at h
    · rename_i j hj
      split at h
      · cases h
        exact Or.inr ⟨‹_›, hplace hj⟩
      · exact absurd h (by simp)
    · exact absurd h (by simp)

/-- **What is recognised compares two rows.** -/
theorem Egd.compares_of_functional? {e : Egd} {h : Handle} {key : IndexSet} {place : Nat}
    (hf : e.functional? = some (h, key, place)) :
    ∃ xs ys, e.Compares h key place xs ys := by
  rw [Egd.functional?] at hf
  split at hf
  case h_2 => exact absurd hf (by simp)
  case h_1 first second hbody =>
    simp only [Option.bind_eq_bind, Option.bind_eq_some_iff] at hf
    obtain ⟨a, ha, b, hb, hf⟩ := hf
    split at hf
    case isTrue => exact absurd hf (by simp)
    case isFalse hpred =>
      simp only [Option.bind_eq_some_iff] at hf
      obtain ⟨xs, hxs, ys, hys, is, his, hf⟩ := hf
      split at hf
      case isTrue => exact absurd hf (by simp)
      case isFalse hne =>
        simp only [Option.bind_eq_some_iff] at hf
        obtain ⟨left, hleft, right, hright, i, hi, hf⟩ := hf
        split at hf
        case isTrue => exact absurd hf (by simp)
        case isFalse hmem =>
          cases hf
          rw [Literal.positiveAtom?_eq_some] at ha hb
          subst ha hb
          obtain ⟨hxs, hxn⟩ := Atom.distinctNames?_eq_some.mp hxs
          obtain ⟨hys, hyn⟩ := Atom.distinctNames?_eq_some.mp hys
          obtain ⟨hcommon, hshared⟩ := commonPlaces?_eq_some his
          obtain ⟨j, hj⟩ := List.exists_mem_of_ne_nil is hne
          exact ⟨xs, ys,
            { body := ⟨a, b, hbody, ⟨rfl, hxs⟩, (not_not.mp hpred).symm, hys⟩
              nodup_left := hxn
              nodup_right := hyn
              mem_key := fun i => IndexSet.mem_ofList.trans (hcommon i)
              shared := fun i x hx hy => IndexSet.mem_ofList.mpr (hshared i x hx hy)
              nonempty := ⟨j, IndexSet.mem_ofList.mpr hj⟩
              place_notMem := fun hp => hmem (IndexSet.mem_ofList.mp hp)
              sides := ⟨left, right, Term.varName?_eq_some.mp hleft,
                Term.varName?_eq_some.mp hright, equatedPlace?_eq_some hi⟩ }⟩

/-- Whatever is at the same places of two rows, there is a list of these places, unless some
variable of both stands at different ones. -/
lemma exists_commonPlaces? {xs ys : List String}
    (h : ∀ (i : Nat) x, xs[i]? = some x → x ∈ ys → ys[i]? = some x) :
    ∃ is, commonPlaces? xs ys = some is := by
  refine ⟨_, if_pos (List.all_eq_true.mpr fun (x, i) hx => ?_)⟩
  by_cases hys : x ∈ ys
  · simp [hys, h i x (List.mem_zipIdx_iff_getElem?.mp hx)]
  · simp [hys]

namespace Egd.Compares

variable {e : Egd} {h : Handle} {key : IndexSet} {place : Nat} {xs ys : List String}

/-- A place is found for the two sides of the equality. -/
lemma equatedPlace?_eq (hc : e.Compares h key place xs ys) {left right : String}
    (hsides : xs[place]? = some left ∧ ys[place]? = some right ∨
      xs[place]? = some right ∧ ys[place]? = some left) :
    equatedPlace? xs ys left right = some place := by
  have hfirst : ∀ {zs : List String}, zs.Nodup → zs[place]? = some left →
      zs.idxOf? left = some place := by
    intro zs hzs hleft
    obtain ⟨hlt, hget⟩ := List.getElem?_eq_some_iff.mp hleft
    refine List.idxOf?_eq_some_iff.mpr ⟨hlt, hget, fun j hj heq => ?_⟩
    have hindex : j = place := hzs.getElem_inj_iff.mp (heq.trans hget.symm)
    exact absurd hindex (Nat.ne_of_lt hj)
  rw [equatedPlace?]
  rcases hsides with ⟨hleft, hright⟩ | ⟨hright, hleft⟩
  · rw [hfirst hc.nodup_left hleft]
    exact if_pos hright
  · -- the left side is not in the first row, or it would be in the key
    have hnone : xs.idxOf? left = none := by
      refine List.idxOf?_eq_none_iff.mpr fun hmem => ?_
      obtain ⟨j, hj⟩ := List.mem_iff_getElem?.mp hmem
      have hkey : j ∈ key := hc.shared j left hj (List.mem_of_getElem? hleft)
      obtain ⟨x, hx, hy⟩ := (hc.mem_key j).mp hkey
      obtain rfl : left = x := Option.some.inj (hj.symm.trans hx)
      obtain ⟨hlt, -⟩ := List.getElem?_eq_some_iff.mp hy
      have hindex : j = place :=
        (List.getElem?_inj hlt hc.nodup_right).mp (hy.trans hleft.symm)
      exact hc.place_notMem (hindex ▸ hkey)
    rw [hnone, hfirst hc.nodup_right hleft]
    exact if_pos hright

/-- **What compares two rows is recognised.** -/
lemma functional?_eq (hc : e.Compares h key place xs ys) :
    e.functional? = some (h, key, place) := by
  obtain ⟨a, b, hbody, ⟨hap, hat⟩, hbp, hbt⟩ := hc.body
  obtain ⟨left, right, hleft, hright, hsides⟩ := hc.sides
  have hcommon : ∀ (i : Nat) x, xs[i]? = some x → x ∈ ys → ys[i]? = some x := by
    intro i x hx hys
    obtain ⟨y, hy, hy'⟩ := (hc.mem_key i).mp (hc.shared i x hx hys)
    rwa [← Option.some.inj (hx.symm.trans hy)] at hy'
  obtain ⟨is, his⟩ := exists_commonPlaces? hcommon
  obtain ⟨hmem, -⟩ := commonPlaces?_eq_some his
  have hkey : ∀ i, i ∈ is ↔ i ∈ key := fun i => (hmem i).trans (hc.mem_key i).symm
  have hne : is ≠ [] := by
    obtain ⟨i, hi⟩ := hc.nonempty
    exact List.ne_nil_of_mem ((hkey i).mpr hi)
  have hplace : place ∉ is := fun hp => hc.place_notMem ((hkey place).mp hp)
  have hset : IndexSet.ofList is = key :=
    IndexSet.ext fun i => IndexSet.mem_ofList.trans (hkey i)
  have hxs : a.distinctNames? = some xs := Atom.distinctNames?_eq_some.mpr ⟨hat, hc.nodup_left⟩
  have hys : b.distinctNames? = some ys := Atom.distinctNames?_eq_some.mpr ⟨hbt, hc.nodup_right⟩
  rw [Egd.functional?, hbody]
  simp only [Literal.positiveAtom?, Option.bind_eq_bind, Option.bind_some, hap, hbp, hxs, hys, his,
    hne, hleft, hright, Term.varName?, hc.equatedPlace?_eq hsides, hplace, hset, ne_eq,
    not_true_eq_false, if_false]

end Egd.Compares

/-! ### The meaning -/

/-- Whether any two facts about a predicate that agree on the key agree at one more
place. -/
def Determines (D : Set (Fact U)) (h : Handle) (key : IndexSet) (place : Nat) : Prop :=
  ∀ f ∈ D, ∀ g ∈ D, f.predicate = h → g.predicate = h → AgreeOn key f.args g.args →
    f.args[place]? = g.args[place]?

/-- A functional dependency holds iff its key determines each of its determined
positions. -/
lemma FunctionalDependency.holdsIn_iff {fd : FunctionalDependency} :
    fd.HoldsIn D ↔ ∀ i ∈ fd.determined, Determines D fd.predicate fd.key i :=
  ⟨fun h i hi f hf g hg hfp hgp hkey => h f hf g hg hfp hgp hkey i hi,
    fun h f hf g hg hfp hgp hkey i hi => h i hi f hf g hg hfp hgp hkey⟩

/-- Values for a row of variables that all differ, the other variables as before. -/
lemma exists_map_eq (K : Vocabulary U) {xs : List String} (hxs : xs.Nodup) {as : List U}
    (hlength : xs.length = as.length) (v : String → U) :
    ∃ w : String → U, (∀ x ∉ xs, w x = v x) ∧ xs.map w = as := by
  have hvar : ∀ (i : Nat) x, (xs.map Term.var)[i]? = some (.var x) ↔ xs[i]? = some x := by
    simp [List.getElem?_map]
  have hterms : (xs.map Term.var).length = as.length := by rw [List.length_map, hlength]
  have honce : ∀ x ∈ xs, ∀ i j : Nat, (xs.map Term.var)[i]? = some (.var x) →
      (xs.map Term.var)[j]? = some (.var x) → i = j := by
    intro x _ i j hi hj
    rw [hvar] at hi hj
    exact (List.getElem?_inj (List.getElem?_eq_some_iff.mp hi).1 hxs).mp (hi.trans hj.symm)
  have hrest : ∀ (i : Nat) t, (xs.map Term.var)[i]? = some t → (∀ x, t = .var x → x ∉ xs) →
      as[i]? = some (K.value v t) := by
    intro i t ht hx
    obtain ⟨x, hmem, rfl⟩ := List.mem_map.mp (List.mem_of_getElem? ht)
    exact absurd hmem (hx x rfl)
  obtain ⟨w, hout, hw⟩ := K.exists_value_eq (· ∈ xs) hterms honce hrest
  refine ⟨w, hout, ?_⟩
  rw [← hw, List.map_map]
  rfl

namespace Egd.Compares

variable {e : Egd} {h : Handle} {key : IndexSet} {place : Nat} {xs ys : List String}

/-- The body is true iff both rows of values are facts. -/
lemma holdsAll_iff (hc : e.Compares h key place xs ys) {v : String → U} :
    K.HoldsAll D v e.body.literals ↔
      (∃ f ∈ D, f.predicate = h ∧ f.args = xs.map v) ∧
        ∃ g ∈ D, g.predicate = h ∧ g.args = ys.map v := by
  obtain ⟨a, b, hbody, ⟨hap, hat⟩, hbp, hbt⟩ := hc.body
  have hrow : ∀ {c : Atom} {zs : List String}, c.predicate = h → c.terms = zs.map .var →
      (c.toFact (K.value v) ∈ D ↔ ∃ f ∈ D, f.predicate = h ∧ f.args = zs.map v) := by
    intro c zs hp ht
    have hargs : (c.toFact (K.value v)).args = zs.map v := by
      rw [Atom.args_toFact, ht, List.map_map]
      rfl
    constructor
    · exact fun hmem => ⟨_, hmem, hp, hargs⟩
    · rintro ⟨f, hf, hfp, hfa⟩
      rwa [Fact.ext (hp.trans hfp.symm) (hargs.trans hfa.symm)]
  rw [← hrow hap hat, ← hrow hbp hbt, Vocabulary.HoldsAll, hbody]
  simp [Vocabulary.Holds]

/-- Two rows of values that agree on the key are the values of both rows at once. -/
lemma exists_values (K : Vocabulary U) (hc : e.Compares h key place xs ys) {as bs : List U}
    (has : xs.length = as.length) (hbs : ys.length = bs.length) (hkey : AgreeOn key as bs)
    (v : String → U) : ∃ w : String → U, xs.map w = as ∧ ys.map w = bs := by
  obtain ⟨u, -, hu⟩ := exists_map_eq K hc.nodup_right hbs v
  obtain ⟨w, hout, hw⟩ := exists_map_eq K hc.nodup_left has u
  refine ⟨w, hw, ?_⟩
  rw [← hu]
  refine List.map_congr_left fun y hy => ?_
  by_cases hx : y ∈ xs
  · -- a variable of both rows stands in both at one key position
    obtain ⟨i, hi⟩ := List.mem_iff_getElem?.mp hx
    have hmem := hc.shared i y hi hy
    obtain ⟨z, hz, hzy⟩ := (hc.mem_key i).mp hmem
    obtain rfl : z = y := Option.some.inj (hz.symm.trans hi)
    have hleft : as[i]? = some (w z) := by rw [← hw, List.getElem?_map, hz, Option.map_some]
    have hright : bs[i]? = some (u z) := by rw [← hu, List.getElem?_map, hzy, Option.map_some]
    exact Option.some.inj (hleft.symm.trans ((hkey i hmem).trans hright))
  · exact hout y hx

/-- Where the body is true, the two sides are the values of the rows at the place. -/
lemma value_eq_iff (hc : e.Compares h key place xs ys) {v : String → U} :
    K.value v e.left = K.value v e.right ↔ (xs.map v)[place]? = (ys.map v)[place]? := by
  obtain ⟨left, right, hleft, hright, ⟨hx, hy⟩ | ⟨hx, hy⟩⟩ := hc.sides
  · rw [hleft, hright, List.getElem?_map, List.getElem?_map, hx, hy, Option.map_some,
      Option.map_some, Option.some_inj]
    rfl
  · rw [hleft, hright, List.getElem?_map, List.getElem?_map, hx, hy, Option.map_some,
      Option.map_some, Option.some_inj]
    exact eq_comm

end Egd.Compares

/-- **A dependency that compares two rows is satisfied iff its key determines its
place.** -/
theorem Egd.satisfies_iff_determines {e : Egd} {h : Handle} {key : IndexSet} {place : Nat}
    (hf : e.functional? = some (h, key, place)) :
    K.SatisfiesEgd D e ↔ Determines D h key place := by
  obtain ⟨xs, ys, hc⟩ := e.compares_of_functional? hf
  obtain ⟨a, b, -, ⟨hap, hat⟩, hbp, hbt⟩ := hc.body
  have hxs : xs.length = h.arity := by rw [← hap, ← a.fits, hat, List.length_map]
  have hys : ys.length = h.arity := by rw [← hbp, ← b.fits, hbt, List.length_map]
  constructor
  · intro hsat f hf g hg hfp hgp hkey
    have hflen : xs.length = f.args.length := by rw [hxs, f.fits, hfp]
    have hglen : ys.length = g.args.length := by rw [hys, g.fits, hgp]
    obtain ⟨v, hv, hv'⟩ := hc.exists_values K hflen hglen hkey fun _ => K.constant ""
    have hside := hsat v (hc.holdsAll_iff.mpr ⟨⟨f, hf, hfp, hv.symm⟩, g, hg, hgp, hv'.symm⟩)
    rwa [hc.value_eq_iff, hv, hv'] at hside
  · intro hdet v hv
    obtain ⟨⟨f, hf, hfp, hfa⟩, g, hg, hgp, hga⟩ := hc.holdsAll_iff.mp hv
    rw [hc.value_eq_iff, ← hfa, ← hga]
    refine hdet f hf g hg hfp hgp fun i hi => ?_
    obtain ⟨x, hx, hy⟩ := (hc.mem_key i).mp hi
    rw [hfa, hga, List.getElem?_map, List.getElem?_map, hx, hy]

end DependencyTheory
