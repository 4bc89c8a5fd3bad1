/-
Matching a list of terms onto another finds the least substitution that does it:

* `matchTerms?_induction`: what holds of a match is proved term by term;
* `le_of_matchTerms?`: the result extends the substitution that it starts from;
* `isSome_get?_of_matchTerms?`: and binds the variables of the matched terms
  besides;
* `map_under_of_matchTerms?`: whatever fits the result turns the terms of the
  first list into those of the second;
* `exists_matchTerms?`: images that fit the start and turn the first list into
  the second fit the result, so there is one.
-/
import DependencyTheory.Homomorphism.Matching
import DependencyTheory.Proofs.Substitution.Order

namespace DependencyTheory.Homomorphism

variable {s u : Substitution} {domain range : List Term} {σ : String → Term}

/-- A match that succeeds goes through the terms one by one: a variable is
bound to the term that it meets, a constant meets itself. -/
@[elab_as_elim]
theorem matchTerms?_induction {P : Substitution → List Term → List Term → Prop}
    (nil : P u [] [])
    (var : ∀ s v x t domain range, s.bind? x t = some v →
      matchTerms? v domain range = some u → P v domain range →
      P s (.var x :: domain) (t :: range))
    (const : ∀ s c domain range, P s domain range →
      P s (.const c :: domain) (.const c :: range))
    (h : matchTerms? s domain range = some u) : P s domain range := by
  induction s, domain, range using matchTerms?.induct with
  | case1 s =>
      cases h
      exact nil
  | case2 s x domain t range ih =>
      obtain ⟨v, hv, h⟩ := Option.bind_eq_some_iff.mp h
      exact var s v x t domain range hv h (ih v h)
  | case3 s c domain range ih =>
      rw [matchTerms?, if_pos rfl] at h
      exact const s c domain range (ih h)
  | case4 s c domain t range hne =>
      rw [matchTerms?, if_neg hne] at h
      exact absurd h (by simp)
  | case5 s domain range h1 h2 h3 =>
      rw [matchTerms?] at h
      · exact absurd h (by simp)
      · exact h1
      · exact h2
      · exact h3

/-- Matching only adds bindings. -/
lemma le_of_matchTerms? (h : matchTerms? s domain range = some u) : s ≤ u := by
  refine matchTerms?_induction (P := fun s _ _ => s ≤ u) (le_refl u) ?_ ?_ h
  · intro s v x t _ _ hv _ ih
    exact (Substitution.le_of_bind? hv).trans ih
  · intro s _ _ _ ih
    exact ih

/-- Afterwards the variables of the matched terms are bound, and no others but
the old ones. -/
lemma isSome_get?_of_matchTerms? (h : matchTerms? s domain range = some u) (x : String) :
    (u.get? x).isSome ↔ (s.get? x).isSome ∨ x ∈ Term.vars domain := by
  refine matchTerms?_induction (P := fun s domain _ =>
    (u.get? x).isSome ↔ (s.get? x).isSome ∨ x ∈ Term.vars domain) ?_ ?_ ?_ h
  · simp
  · intro s v y t domain _ hv _ ih
    rw [ih, Substitution.isSome_get?_of_bind? hv]
    simp [or_assoc]
  · intro s c domain _ ih
    rw [ih]
    simp

/-- Whatever fits the result turns the first list into the second. -/
lemma map_under_of_matchTerms? (h : matchTerms? s domain range = some u)
    (hu : u.Fits σ) : domain.map (Term.under σ) = range := by
  refine matchTerms?_induction
    (P := fun _ domain range => domain.map (Term.under σ) = range) rfl ?_ ?_ h
  · intro s v x t domain range hv h ih
    -- the image bound here is still there at the end
    have hx : u.get? x = some t := le_of_matchTerms? h x t (by
      rw [Substitution.get?_of_bind? hv, if_pos rfl])
    rw [List.map_cons, ih, Term.under, hu x t hx]
  · intro s c domain range ih
    rw [List.map_cons, ih, Term.under]

/-- Images that fit the start and turn the first list into the second are
found: there is a result, and they fit it. -/
lemma exists_matchTerms? (hs : s.Fits σ) (h : domain.map (Term.under σ) = range) :
    ∃ u, matchTerms? s domain range = some u ∧ u.Fits σ := by
  subst h
  induction domain generalizing s with
  | nil => exact ⟨s, rfl, hs⟩
  | cons t domain ih =>
      cases t with
      | var x =>
          obtain ⟨v, hv⟩ := Substitution.exists_bind? (x := x) hs rfl
          obtain ⟨u, hu, hfits⟩ := ih (Substitution.fits_of_bind? hs rfl hv)
          exact ⟨u, by simp [matchTerms?, Term.under, hv, hu], hfits⟩
      | const c =>
          obtain ⟨u, hu, hfits⟩ := ih hs
          exact ⟨u, by simp [matchTerms?, Term.under, hu], hfits⟩

end DependencyTheory.Homomorphism
