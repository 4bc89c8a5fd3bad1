/-
Unification does not depend on the order of the literals:

* `Unification.Aligns`: whether images for all variables make the terms of a literal equal to
  those of another that face them, and that this is an equivalence of literals;
* `unifies_iff`: so images that align all literals with the first align any two of them, and it
  makes no difference which literal is the first;
* `Substitution.SameUpToRepresentatives`: whether two substitutions bind the same variables, put
  the same of them together, and give the same of them constants;
* `rel_unifyLiterals`: lists with the same members have unifiers that are the same up to
  representatives, or both have none;
* `unifyLiterals_perm`: this covers lists in another order, and literals that are repeated.

Which variable stands for those that are put together does depend on the order, since the terms
of every literal are compared with those of the first.
-/
import DependencyTheory.Proofs.Substitution.MostGeneral

namespace DependencyTheory

/-! ### Substitutions that differ by representatives -/

namespace Substitution

variable {s t : Substitution} {σ : String → Term} {x y : String} {c : String}

/-- Whether two substitutions differ by the choice of representatives only: they bind the same
variables, give the same variables one image, and the same variables a given constant. -/
structure SameUpToRepresentatives (s t : Substitution) : Prop where
  binds : ∀ x, (s.get? x).isSome ↔ (t.get? x).isSome
  together : ∀ x y, s.image x = s.image y ↔ t.image x = t.image y
  constant : ∀ x c, s.image x = .const c ↔ t.image x = .const c

/-- Images that absorb a substitution keep together what it puts together. -/
lemma AbsorbedBy.eq_of_image_eq (h : s.AbsorbedBy σ) (hxy : s.image x = s.image y) :
    σ x = σ y := by
  rw [← h x, hxy, h y]

/-- Images that absorb a substitution give the constants that it gives. -/
lemma AbsorbedBy.eq_const_of_image_eq (h : s.AbsorbedBy σ) (hx : s.image x = .const c) :
    σ x = .const c := by
  rw [← h x, hx]
  rfl

/-- Substitutions that absorb each other put the same variables together, and give the same
variables a constant. -/
lemma sameUpToRepresentatives_of_absorbedBy (hbinds : ∀ x, (s.get? x).isSome ↔ (t.get? x).isSome)
    (hst : s.AbsorbedBy t.image) (hts : t.AbsorbedBy s.image) : SameUpToRepresentatives s t where
  binds := hbinds
  together _ _ := ⟨hst.eq_of_image_eq, hts.eq_of_image_eq⟩
  constant _ _ := ⟨hst.eq_const_of_image_eq, hts.eq_const_of_image_eq⟩

end Substitution

open Substitution

namespace Unification

variable {σ : String → Term} {a b c : Literal} {ls ls' : List Literal} {s t : Substitution}

/-! ### Aligned literals -/

/-- Whether images for all variables make the terms of a literal equal to those of another, the
second, that face them. -/
def Aligns (σ : String → Term) (a b : Literal) : Prop :=
  ∃ row, a.Faces b row ∧ a.terms.map (Term.under σ) = row.map (Term.under σ)

lemma Aligns.refl (a : Literal) : Aligns σ a a := by
  cases a with
  | ordinary positive a => exact ⟨a.terms, .predicate rfl, rfl⟩
  | builtIn a => exact ⟨a.terms, .operator rfl, rfl⟩

/-- The converse of a comparison faces it the other way round. -/
lemma faces_of_converse {op : Comparison} {l r l' r' : Term} (h : op ≠ op.converse) :
    (Literal.builtIn (.comparison op.converse l r)).Faces (.builtIn (.comparison op l' r'))
      [r', l'] := by
  have hfaces : (Literal.builtIn (.comparison op.converse l r)).Faces
      (.builtIn (.comparison op.converse.converse l' r')) [r', l'] :=
    .converse fun heq => h (heq.trans op.converse_converse).symm
  rwa [op.converse_converse] at hfaces

lemma Aligns.symm (h : Aligns σ a b) : Aligns σ b a := by
  obtain ⟨row, hfaces, hterms⟩ := h
  cases hfaces with
  | predicate hpredicate => exact ⟨_, .predicate hpredicate.symm, hterms.symm⟩
  | operator hop => exact ⟨_, .operator hop.symm, hterms.symm⟩
  | converse hop =>
      simp only [Literal.terms, BuiltIn.terms, List.map_cons, List.map_nil, List.cons.injEq,
        and_true] at hterms
      exact ⟨_, faces_of_converse hop, by simp [Literal.terms, BuiltIn.terms, hterms]⟩

/-- **Aligning goes on** from one literal to the next: two comparisons that both face a third the
other way round face each other as they stand. -/
lemma Aligns.trans (hab : Aligns σ a b) (hbc : Aligns σ b c) : Aligns σ a c := by
  obtain ⟨row, hfaces, hterms⟩ := hab
  obtain ⟨row', hfaces', hterms'⟩ := hbc
  cases hfaces with
  | predicate hpredicate =>
      cases hfaces' with
      | predicate hpredicate' =>
          exact ⟨_, .predicate (hpredicate.trans hpredicate'), hterms.trans hterms'⟩
  | operator hop =>
      cases hfaces' with
      | operator hop' => exact ⟨_, .operator (hop.trans hop'), hterms.trans hterms'⟩
      | converse hne =>
          obtain ⟨l, r, rfl⟩ := BuiltIn.operator_eq_comparison.mp hop
          exact ⟨_, .converse hne, hterms.trans hterms'⟩
  | converse hne =>
      -- the second row is read from right to left, like the first
      have hturned : ∀ {l r l' r' : Term},
          [l, r].map (Term.under σ) = [l', r'].map (Term.under σ) →
            [r, l].map (Term.under σ) = [r', l'].map (Term.under σ) := by
        simp [and_comm]
      cases hfaces' with
      | operator hop =>
          obtain ⟨l'', r'', rfl⟩ := BuiltIn.operator_eq_comparison.mp hop.symm
          exact ⟨_, .converse hne, hterms.trans (hturned hterms')⟩
      | converse hne' =>
          rw [Comparison.converse_converse]
          exact ⟨_, .operator rfl, hterms.trans (hturned hterms')⟩

/-- **Images unify a list** iff they align any two of its literals. -/
theorem unifies_iff : Unifies σ ls ↔ ∀ a ∈ ls, ∀ b ∈ ls, Aligns σ a b := by
  cases ls with
  | nil => exact iff_of_true trivial fun a ha => absurd ha List.not_mem_nil
  | cons first rest =>
      constructor
      · intro h
        have hfirst : ∀ a ∈ first :: rest, Aligns σ first a :=
          List.forall_mem_cons.mpr ⟨.refl first, h⟩
        exact fun a ha b hb => (hfirst a ha).symm.trans (hfirst b hb)
      · exact fun h other hother =>
          h first List.mem_cons_self other (List.mem_cons_of_mem first hother)

/-! ### Lists with the same members -/

/-- Images unify a list iff they unify any other with the same members. -/
lemma unifies_congr (h : ∀ l, l ∈ ls ↔ l ∈ ls') : Unifies σ ls ↔ Unifies σ ls' := by
  simp only [unifies_iff, h]

/-- Most general unifiers of lists with the same members are the same up to representatives. -/
lemma IsMostGeneralUnifier.sameUpToRepresentatives (h : ∀ l, l ∈ ls ↔ l ∈ ls')
    (hs : IsMostGeneralUnifier ls s) (ht : IsMostGeneralUnifier ls' t) :
    SameUpToRepresentatives s t := by
  refine sameUpToRepresentatives_of_absorbedBy (fun x => ?_)
    (hs.general _ ((unifies_congr h).mpr ht.unifies))
    (ht.general _ ((unifies_congr h).mp hs.unifies))
  rw [hs.binds, ht.binds, List.mem_flatMap, List.mem_flatMap]
  simp only [h]

/-- **Only the members of a list matter** to its unification: two lists with the same members
both have no unifier, or have unifiers that are the same up to representatives. -/
theorem rel_unifyLiterals (h : ∀ l, l ∈ ls ↔ l ∈ ls') :
    Option.Rel SameUpToRepresentatives (unifyLiterals ls) (unifyLiterals ls') := by
  have hsome : (unifyLiterals ls).isSome = true ↔ (unifyLiterals ls').isSome = true := by
    rw [isSome_unifyLiterals_iff, isSome_unifyLiterals_iff]
    exact exists_congr fun σ => unifies_congr h
  cases hs : unifyLiterals ls with
  | none =>
      cases ht : unifyLiterals ls' with
      | none => exact .none
      | some t => simp [hs, ht] at hsome
  | some s =>
      cases ht : unifyLiterals ls' with
      | none => simp [hs, ht] at hsome
      | some t =>
          exact .some ((isMostGeneralUnifier_of_unifyLiterals hs).sameUpToRepresentatives h
            (isMostGeneralUnifier_of_unifyLiterals ht))

/-- **Unification does not depend on the order** of the literals. A list and any permutation of
it both have no unifier, or have unifiers that differ by the choice of representatives only: they
bind the same variables, give the same variables one image, and the same variables a given
constant. Appending a literal once more that the list has already changes as little. -/
theorem unifyLiterals_perm {ls ls' : List Literal} (hperm : ls.Perm ls') :
    Option.Rel SameUpToRepresentatives (unifyLiterals ls) (unifyLiterals ls') ∧
      ∀ l ∈ ls, Option.Rel SameUpToRepresentatives (unifyLiterals ls)
        (unifyLiterals (ls ++ [l])) := by
  refine ⟨rel_unifyLiterals fun l => hperm.mem_iff, fun l hl => rel_unifyLiterals fun l' => ?_⟩
  rw [List.mem_append, List.mem_singleton]
  exact ⟨Or.inl, fun h => h.elim id fun heq => heq ▸ hl⟩

/-- Comparisons of which one is turned, the last of them put first, and the turned one repeated at
the end. The variables `x`, `z` and `w` have one image throughout, but not the same in both
orders. -/
theorem unifyLiterals_perm_chain :
    let compare (op : Comparison) (l r : Term) : Literal := .builtIn (.comparison op l r)
    let lesser := compare .lt (.var "x") (.var "y")
    let turned := compare .gt (.const "c") (.var "z")
    let last := compare .lt (.var "w") (.var "v")
    [lesser, turned, last].Perm [last, lesser, turned] ∧ turned ∈ [lesser, turned, last] ∧
      ∃ s t u, unifyLiterals [lesser, turned, last] = some s ∧
        unifyLiterals [last, lesser, turned] = some t ∧
        unifyLiterals [lesser, turned, last, turned] = some u ∧
        SameUpToRepresentatives s t ∧ SameUpToRepresentatives s u ∧
        s.image "x" = .var "w" ∧ t.image "x" = .var "z" := by
  intro compare lesser turned last
  have hperm : [lesser, turned, last].Perm [last, lesser, turned] := by decide
  have hmem : turned ∈ [lesser, turned, last] := by decide
  obtain ⟨hrel, happend⟩ := unifyLiterals_perm hperm
  have himage : (unifyLiterals [lesser, turned, last]).map (·.image "x") =
      some (.var "w") := by decide
  have himage' : (unifyLiterals [last, lesser, turned]).map (·.image "x") =
      some (.var "z") := by decide
  obtain ⟨s, hs, hsx⟩ := Option.map_eq_some_iff.mp himage
  obtain ⟨t, ht, htx⟩ := Option.map_eq_some_iff.mp himage'
  have hagain := happend turned hmem
  rw [hs, List.cons_append, List.cons_append, List.cons_append, List.nil_append] at hagain
  rw [hs, ht] at hrel
  generalize unifyLiterals [lesser, turned, last, turned] = result at hagain ⊢
  cases hrel with
  | some hst =>
      cases hagain with
      | some hsu => exact ⟨hperm, hmem, s, t, _, hs, ht, rfl, hst, hsu, hsx, htx⟩

end Unification

end DependencyTheory
