/-
Substitutions compared by what they bind, and read as maps on all terms:

* `Term.under`: a term under an image for every variable, all put in at once;
* `Substitution.image`: the images that a substitution gives to all variables,
  those that it does not bind included;
* `Substitution.Fits`: whether images for all variables agree with a
  substitution;
* the order of substitutions: `s ≤ t` says that `t` binds what `s` binds, to
  the same terms.

A search only ever makes its substitution larger, so whatever fits the
substitution at its end fits the one at its start (`Substitution.Fits.mono`).
-/
import DependencyTheory.Substitution.Basic
import Mathlib.Order.Basic
import Mathlib.Tactic.Lemma

namespace DependencyTheory

/-- A term when every variable has an image: a variable becomes its image, a
constant stays what it is. -/
def Term.under (σ : String → Term) : Term → Term
  | .var x => σ x
  | .const c => .const c

lemma Term.under_var : Term.under Term.var = id := by
  funext t
  cases t <;> rfl

/-- Putting in images twice is putting in the images of the images. -/
lemma Term.under_under {σ τ : String → Term} (t : Term) :
    (t.under σ).under τ = t.under fun x => (σ x).under τ := by
  cases t <;> rfl

namespace Substitution

variable {s t u : Substitution} {σ : String → Term} {x : String}

/-- The image of every variable. One that is not bound is its own image. -/
def image (s : Substitution) (x : String) : Term := s.applyTerm (.var x)

/-- Applying a substitution puts in the images of all variables. -/
lemma applyTerm_eq_under (s : Substitution) : s.applyTerm = Term.under s.image := by
  funext t
  cases t <;> rfl

/-! ### The order of substitutions -/

/-- Larger substitutions bind more variables, and the old ones as before. -/
instance : Preorder Substitution where
  le s t := ∀ x u, s.get? x = some u → t.get? x = some u
  le_refl _ _ _ h := h
  le_trans _ _ _ hst htu x u h := htu x u (hst x u h)

/-- A binding that is not refused makes the substitution larger. -/
lemma le_of_bind? {v : Term} (h : s.bind? x v = some t) : s ≤ t := by
  intro y w hy
  rw [get?_of_bind? h y]
  by_cases hyx : y = x
  · subst hyx
    -- an old image of the variable is the new one, or the binding is refused
    have hw : ¬∃ w, s.get? y = some w ∧ w ≠ v := fun hne => by
      rw [bind?_eq_none.mpr hne] at h
      exact absurd h (by simp)
    rw [if_pos rfl]
    exact congrArg some (by_contra fun hne => hw ⟨w, hy, fun heq => hne heq.symm⟩)
  · rw [if_neg hyx]
    exact hy

/-! ### Images that fit a substitution -/

/-- Whether images for all variables agree with a substitution on what it
binds. -/
def Fits (s : Substitution) (σ : String → Term) : Prop :=
  ∀ x u, s.get? x = some u → σ x = u

lemma fits_empty (σ : String → Term) : empty.Fits σ := fun x u h => by
  simp [get?, empty] at h

/-- What fits a substitution fits every smaller one. -/
lemma Fits.mono (h : t.Fits σ) (hst : s ≤ t) : s.Fits σ :=
  fun x u hx => h x u (hst x u hx)

/-- The images of a substitution fit it. -/
lemma fits_image (s : Substitution) : s.Fits s.image := fun x u h => by
  simp [image, applyTerm, h]

lemma fits_image_of_le (h : s ≤ t) : s.Fits t.image := t.fits_image.mono h

/-- Images that fit a substitution fit it with one more binding, if they give the
variable its image. -/
lemma fits_of_bind? {v : Term} (hs : s.Fits σ) (hx : σ x = v)
    (h : s.bind? x v = some t) : t.Fits σ := by
  intro y w hy
  rw [get?_of_bind? h y] at hy
  by_cases hyx : y = x
  · subst hyx
    rw [if_pos rfl] at hy
    rw [hx]
    exact Option.some.inj hy
  · rw [if_neg hyx] at hy
    exact hs y w hy

/-- A binding that agrees with images that fit is not refused. -/
lemma exists_bind? {v : Term} (hs : s.Fits σ) (hx : σ x = v) :
    ∃ t, s.bind? x v = some t := by
  refine Option.ne_none_iff_exists'.mp fun hnone => ?_
  obtain ⟨w, hw, hne⟩ := bind?_eq_none.mp hnone
  exact hne ((hs x w hw).symm.trans hx)

/-- After a binding, the bound variables are the old ones and the new one. -/
lemma isSome_get?_of_bind? {v : Term} {y : String} (h : s.bind? x v = some t) :
    (t.get? y).isSome ↔ (s.get? y).isSome ∨ y = x := by
  rw [get?_of_bind? h y]
  by_cases hyx : y = x
  · simp [hyx]
  · simp [hyx]

end Substitution

end DependencyTheory
