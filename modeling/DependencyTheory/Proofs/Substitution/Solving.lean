/-
Solving equations between terms under a running substitution:

* `Substitution.AbsorbedBy`: whether images for all variables make no difference between a
  variable and what a substitution puts in for it;
* `Unification.SolvedForm`: whether a substitution binds some variables and no others, and
  each variable that is an image to itself;
* `Unification.Settles`: whether a result of solving is right for a set of equations, given
  by the images that solve them;
* `settles_solve`, `settles_solveRow`, `settles_solveAgainst`: every step of solving is right
  for the equations solved before and its own.

The equations solved so far are read off from the running substitution: images solve them iff
they absorb it. A substitution in solved form absorbs itself, so it solves them too.
-/
import DependencyTheory.Proofs.Substitution.Order
import DependencyTheory.Substitution.Unification

namespace DependencyTheory

variable {s t : Substitution} {σ : String → Term} {x y : String} {xs : List String}
  {a b new : Term} {as bs : List Term}

namespace Substitution

/-! ### Absorbing a substitution -/

/-- Whether images absorb a substitution: they give a variable and its image under the
substitution the same value. -/
def AbsorbedBy (s : Substitution) (σ : String → Term) : Prop :=
  ∀ x, (s.image x).under σ = σ x

/-- What holds of variables holds of terms. -/
lemma AbsorbedBy.under_applyTerm (h : s.AbsorbedBy σ) (a : Term) :
    (s.applyTerm a).under σ = a.under σ := by
  cases a with
  | var x => exact h x
  | const c => rfl

/-- A variable that is bound to itself is given up for another term, in all images at once. -/
lemma image_replaceImage (hx : s.get? x = some (.var x)) :
    (s.replaceImage (.var x) new).image y =
      if s.image y = .var x then new else s.image y := by
  rw [image, image, applyTerm, applyTerm, replaceImage, get?_mapImages]
  cases hy : s.get? y with
  | some u => rfl
  | none =>
      -- a variable that is not bound is not the one that is given up
      have hne : y ≠ x := by
        rintro rfl
        exact absurd (hx.symm.trans hy) (by simp)
      simp [hne]

/-- **Giving up a variable for a term** adds one equation between the two. -/
lemma absorbedBy_replaceImage (hx : s.get? x = some (.var x)) :
    (s.replaceImage (.var x) new).AbsorbedBy σ ↔ s.AbsorbedBy σ ∧ σ x = new.under σ := by
  have himage : s.image x = .var x := s.fits_image x _ hx
  constructor
  · intro h
    have heq : σ x = new.under σ := by
      rw [← h x, image_replaceImage hx, if_pos himage]
    refine ⟨fun y => ?_, heq⟩
    have hy := h y
    rw [image_replaceImage hx] at hy
    by_cases hyx : s.image y = .var x
    · rw [if_pos hyx] at hy
      rw [hyx, ← hy]
      exact heq
    · rwa [if_neg hyx] at hy
  · rintro ⟨h, heq⟩ y
    rw [image_replaceImage hx]
    by_cases hyx : s.image y = .var x
    · rw [if_pos hyx, ← heq, ← h y, hyx]
      rfl
    · rw [if_neg hyx]
      exact h y

/-- The identity binds each variable of a list to itself, and no other. -/
lemma get?_identity : (identity xs).get? x = if x ∈ xs then some (.var x) else none := by
  suffices general : ∀ (xs : List String) (s : Substitution),
      (∀ y u, s.get? y = some u → u = .var y) →
        (xs.foldl (fun s y => (s.bind? y (.var y)).getD s) s).get? x =
          if x ∈ xs then some (.var x) else s.get? x from
    general xs empty fun y u h => absurd h (by simp [get?, empty])
  intro xs
  induction xs with
  | nil =>
      intro s _
      simp
  | cons z xs ih =>
      intro s hs
      obtain ⟨t, ht⟩ : ∃ t, s.bind? z (.var z) = some t :=
        exists_bind? (σ := .var) (fun y u h => (hs y u h).symm) rfl
      have hget := get?_of_bind? ht
      rw [List.foldl_cons, ht, Option.getD_some, ih t fun y u h => ?_, hget]
      · by_cases hxs : x ∈ xs
        · simp [hxs]
        · by_cases hxz : x = z <;> simp [hxs, hxz]
      · rw [hget] at h
        split at h
        · next hyz => rw [hyz, ← Option.some.inj h]
        · exact hs y u h

/-- All images absorb the identity. -/
lemma absorbedBy_identity : (identity xs).AbsorbedBy σ := fun x => by
  rw [image, applyTerm, get?_identity]
  split <;> rfl

end Substitution

namespace Unification

/-! ### Solved form -/

/-- Whether a substitution binds the variables of a list and no others, and each variable that
is an image to itself. -/
structure SolvedForm (xs : List String) (s : Substitution) : Prop where
  binds : ∀ x, (s.get? x).isSome ↔ x ∈ xs
  idempotent : ∀ x y, s.get? x = some (.var y) → s.get? y = some (.var y)

lemma solvedForm_identity : SolvedForm xs (.identity xs) := by
  constructor
  · intro x
    rw [Substitution.get?_identity]
    split <;> simp_all
  · intro x y hxy
    rw [Substitution.get?_identity] at hxy
    split at hxy
    · next hx =>
        obtain rfl : x = y := Term.var.inj (Option.some.inj hxy)
        rw [Substitution.get?_identity, if_pos hx]
    · exact absurd hxy (by simp)

namespace SolvedForm

/-- A substitution in solved form absorbs itself. -/
lemma absorbedBy_image (h : SolvedForm xs s) : s.AbsorbedBy s.image := by
  intro x
  cases hx : s.get? x with
  | none =>
      have himage : s.image x = .var x := by
        rw [Substitution.image, Substitution.applyTerm, hx]
        rfl
      rw [himage]
      exact himage
  | some u =>
      rw [s.fits_image x u hx]
      cases u with
      | var y => exact s.fits_image y _ (h.idempotent x y hx)
      | const c => rfl

/-- A variable that represents a term is bound to itself. -/
lemma get?_representative (h : SolvedForm xs s) (ha : ∀ x, a = .var x → x ∈ xs)
    (hx : s.applyTerm a = .var x) : s.get? x = some (.var x) := by
  cases a with
  | const c => exact absurd hx (by simp [Substitution.applyTerm])
  | var y =>
      obtain ⟨u, hu⟩ := Option.isSome_iff_exists.mp ((h.binds y).mpr (ha y rfl))
      have himage : s.image y = u := s.fits_image y u hu
      obtain rfl : u = .var x := himage.symm.trans hx
      exact h.idempotent y x hu

/-- A variable may be given up for a constant or for a variable that is bound to itself. -/
lemma replaceImage (h : SolvedForm xs s) (hnew : ∀ y, new = .var y → s.get? y = some (.var y)) :
    SolvedForm xs (s.replaceImage (.var x) new) := by
  have hget : ∀ y, (s.replaceImage (.var x) new).get? y =
      (s.get? y).map fun u => if u = .var x then new else u := fun y => Substitution.get?_mapImages
  refine ⟨fun y => ?_, fun y z hyz => ?_⟩
  · rw [hget, Option.isSome_map]
    exact h.binds y
  · rw [hget] at hyz ⊢
    obtain ⟨u, hu, huz⟩ := Option.map_eq_some_iff.mp hyz
    by_cases hux : u = .var x
    · -- the new image is its own representative, given up or not
      rw [if_pos hux] at huz
      rw [hnew z huz, Option.map_some, huz, ite_self]
    · rw [if_neg hux] at huz
      rw [h.idempotent y z (huz ▸ hu), Option.map_some, if_neg (huz ▸ hux)]

end SolvedForm

/-! ### Solving -/

/-- Whether a result of solving is right for a set of equations: a substitution in solved form
is absorbed by the images that solve them and by no others; if there is no result, nothing
solves them. -/
def Settles (xs : List String) (Solves : (String → Term) → Prop) : Option Substitution → Prop
  | some s => SolvedForm xs s ∧ ∀ σ, s.AbsorbedBy σ ↔ Solves σ
  | none => ∀ σ, ¬Solves σ

variable {Solves Solves' : (String → Term) → Prop} {result : Option Substitution}

lemma Settles.congr (h : Settles xs Solves result) (hiff : ∀ σ, Solves σ ↔ Solves' σ) :
    Settles xs Solves' result := by
  cases result with
  | none => exact fun σ hσ => h σ ((hiff σ).mpr hσ)
  | some s => exact ⟨h.1, fun σ => (h.2 σ).trans (hiff σ)⟩

/-- One step of solving after another is right for the equations of both. -/
lemma Settles.bind (h : Settles xs Solves result) {next : Substitution → Option Substitution}
    (hnext : ∀ t, SolvedForm xs t → Settles xs (fun σ => t.AbsorbedBy σ ∧ Solves' σ) (next t)) :
    Settles xs (fun σ => Solves σ ∧ Solves' σ) (result.bind next) := by
  cases result with
  | none => exact fun σ hσ => h σ hσ.1
  | some t => exact (hnext t h.1).congr fun σ => and_congr_left fun _ => h.2 σ

lemma settles_some (h : SolvedForm xs s) : Settles xs s.AbsorbedBy (some s) :=
  ⟨h, fun _ => Iff.rfl⟩

lemma settles_replaceImage (h : SolvedForm xs s) (hx : s.get? x = some (.var x))
    (hnew : ∀ y, new = .var y → s.get? y = some (.var y)) :
    Settles xs (fun σ => s.AbsorbedBy σ ∧ σ x = new.under σ)
      (some (s.replaceImage (.var x) new)) :=
  ⟨h.replaceImage hnew, fun _ => Substitution.absorbedBy_replaceImage hx⟩

/-- **One equation is solved** under those solved before. -/
theorem settles_solve (h : SolvedForm xs s) (ha : ∀ x, a = .var x → x ∈ xs)
    (hb : ∀ x, b = .var x → x ∈ xs) :
    Settles xs (fun σ => s.AbsorbedBy σ ∧ a.under σ = b.under σ) (solve s a b) := by
  -- images that absorb the substitution may be put into the representatives instead
  suffices hsides : Settles xs
      (fun σ => s.AbsorbedBy σ ∧ (s.applyTerm a).under σ = (s.applyTerm b).under σ)
      (solve s a b) by
    refine hsides.congr fun σ => and_congr_right fun hσ => ?_
    rw [hσ.under_applyTerm, hσ.under_applyTerm]
  have hra : ∀ x, s.applyTerm a = .var x → s.get? x = some (.var x) :=
    fun _ => h.get?_representative ha
  have hrb : ∀ x, s.applyTerm b = .var x → s.get? x = some (.var x) :=
    fun _ => h.get?_representative hb
  have hconst : ∀ c x, Term.const c = .var x → s.get? x = some (.var x) :=
    fun c x hx => absurd hx (by simp)
  rw [solve]
  cases hsa : s.applyTerm a with
  | const c =>
      cases hsb : s.applyTerm b with
      | const d =>
          by_cases hcd : c = d
          · simp only [if_pos hcd]
            exact (settles_some h).congr fun σ => (and_iff_left (congrArg Term.const hcd)).symm
          · simp only [if_neg hcd]
            exact fun σ hσ => hcd (Term.const.inj hσ.2)
      | var y =>
          exact (settles_replaceImage h (hrb y hsb) (hconst c)).congr
            fun σ => and_congr_right fun _ => eq_comm
  | var x =>
      cases hsb : s.applyTerm b with
      | const d => exact settles_replaceImage h (hra x hsa) (hconst d)
      | var y =>
          exact settles_replaceImage h (hra x hsa) fun z hz => hrb z (hsb.trans hz)

/-- **Two lists of terms are made equal** place by place, if they are of one length. -/
theorem settles_solveRow (h : SolvedForm xs s) (has : Term.vars as ⊆ xs)
    (hbs : Term.vars bs ⊆ xs) :
    Settles xs (fun σ => s.AbsorbedBy σ ∧ as.map (Term.under σ) = bs.map (Term.under σ))
      (solveRow s as bs) := by
  induction as generalizing s bs with
  | nil =>
      cases bs with
      | nil => exact (settles_some h).congr fun σ => (and_iff_left rfl).symm
      | cons b bs => exact fun σ hσ => List.cons_ne_nil _ _ hσ.2.symm
  | cons a as ih =>
      cases bs with
      | nil => exact fun σ hσ => List.cons_ne_nil _ _ hσ.2
      | cons b bs =>
          have hfirst : ∀ {a : Term} {as : List Term}, Term.vars (a :: as) ⊆ xs →
              (∀ x, a = .var x → x ∈ xs) ∧ Term.vars as ⊆ xs := fun hsub =>
            ⟨fun x hx => hsub (Term.mem_vars.mpr (hx ▸ List.mem_cons_self)),
              fun x hx => hsub (Term.mem_vars.mpr (List.mem_cons_of_mem _ (Term.mem_vars.mp hx)))⟩
          obtain ⟨ha, has⟩ := hfirst has
          obtain ⟨hb, hbs⟩ := hfirst hbs
          refine ((settles_solve h ha hb).bind fun t ht => ih ht has hbs).congr fun σ => ?_
          rw [and_assoc, List.map_cons, List.map_cons, List.cons.injEq]

/-- **A list of terms is made equal to each of some others.** -/
theorem settles_solveAgainst {first : List Term} {others : List (List Term)}
    (h : SolvedForm xs s) (hfirst : Term.vars first ⊆ xs)
    (hothers : ∀ other ∈ others, Term.vars other ⊆ xs) :
    Settles xs (fun σ => s.AbsorbedBy σ ∧
        ∀ other ∈ others, first.map (Term.under σ) = other.map (Term.under σ))
      (solveAgainst s first others) := by
  induction others generalizing s with
  | nil =>
      exact (settles_some h).congr fun σ =>
        (and_iff_left fun _ ho => absurd ho List.not_mem_nil).symm
  | cons other others ih =>
      obtain ⟨hother, hothers⟩ := List.forall_mem_cons.mp hothers
      rw [solveAgainst, List.foldlM_cons]
      refine ((settles_solveRow h hfirst hother).bind fun t ht => ih ht hothers).congr fun σ => ?_
      rw [and_assoc, List.forall_mem_cons]

end Unification

end DependencyTheory
