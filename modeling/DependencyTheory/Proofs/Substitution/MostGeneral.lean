/-
Most general unifiers of lists of literals:

* `Literal.Faces`: the terms of a literal in the order in which they face those of another;
* `Unifies`: whether images for all variables make the terms of all literals of a list equal
  to those of the first;
* `IsMostGeneralUnifier`: whether a substitution in solved form over the variables of the list
  unifies it, and every unifier is an instance of it;
* `unifyLiterals_mostGeneral`: a list that some images unify has the most general unifier that
  is computed for it, and no other list has one; atoms are unified like the literals that
  affirm them.
-/
import DependencyTheory.Proofs.Substitution.Solving
import Mathlib.Data.List.Forall2

namespace DependencyTheory

/-! ### Facing terms -/

/-- The terms of a literal, the second, as they face those of another: as they stand if both
have the same predicate and are both affirmed or both denied, or if they have the same
built-in operator; and from right to left if one comparison is the converse of the other. -/
inductive Literal.Faces : Literal → Literal → List Term → Prop
  | predicate {positive : Bool} {a b : Atom} (h : a.predicate = b.predicate) :
      Faces (.ordinary positive a) (.ordinary positive b) b.terms
  | operator {a b : BuiltIn} (h : a.operator = b.operator) :
      Faces (.builtIn a) (.builtIn b) b.terms
  | converse {op : Comparison} {l r l' r' : Term} (h : op ≠ op.converse) :
      Faces (.builtIn (.comparison op l r)) (.builtIn (.comparison op.converse l' r')) [r', l']

variable {first other : Literal} {row row' : List Term} {σ : String → Term}
  {ls : List Literal} {s : Substitution}

lemma BuiltIn.operator_eq_comparison {b : BuiltIn} {op : Comparison} :
    b.operator = .comparison op ↔ ∃ l r, b = .comparison op l r := by
  cases b <;> simp [operator]

namespace Unification

/-- The facing terms are computed. -/
lemma facingTerms?_eq_some : facingTerms? first other = some row ↔ first.Faces other row := by
  constructor
  · intro h
    cases first with
    | ordinary p a =>
        cases other with
        | builtIn b => exact absurd h (by simp [facingTerms?])
        | ordinary q b =>
            obtain ⟨⟨hpredicate, rfl⟩, rfl⟩ := Option.ite_some_none_eq_some.mp h
            exact .predicate hpredicate
    | builtIn a =>
        cases other with
        | ordinary q b => exact absurd h (by simp [facingTerms?])
        | builtIn b =>
            rw [facingTerms?] at h
            split at h
            · next hop =>
                obtain rfl := Option.some.inj h
                exact .operator hop
            · next hop =>
                -- operators that differ are those of converse comparisons
                split at h
                · next op op' ha hb =>
                    obtain ⟨l, r, rfl⟩ := BuiltIn.operator_eq_comparison.mp ha
                    obtain ⟨l', r', rfl⟩ := BuiltIn.operator_eq_comparison.mp hb
                    obtain ⟨rfl, rfl⟩ := Option.ite_some_none_eq_some.mp h
                    exact .converse fun heq => hop (congrArg Operator.comparison heq)
                · exact absurd h (by simp)
  · intro h
    cases h with
    | predicate h => simp [facingTerms?, h]
    | operator h => simp [facingTerms?, h]
    | converse h => simp [facingTerms?, BuiltIn.operator, BuiltIn.terms, h]

end Unification

open Unification

namespace Literal.Faces

lemma unique (h : first.Faces other row) (h' : first.Faces other row') : row = row' :=
  Option.some.inj ((facingTerms?_eq_some.mpr h).symm.trans (facingTerms?_eq_some.mpr h'))

/-- Facing terms are the terms of the literal, in some order. -/
lemma mem_iff (h : first.Faces other row) {t : Term} : t ∈ row ↔ t ∈ other.terms := by
  cases h with
  | predicate _ => exact Iff.rfl
  | operator _ => exact Iff.rfl
  | converse _ => simp [Literal.terms, BuiltIn.terms, or_comm]

lemma vars_subset (h : first.Faces other row) : Term.vars row ⊆ other.vars := fun _ hx =>
  Term.mem_vars.mpr (h.mem_iff.mp (Term.mem_vars.mp hx))

end Literal.Faces

namespace Unification

/-- Either all literals of a list have terms that face those of a literal, or one has none. -/
lemma mapM_facingTerms? (first : Literal) (rest : List Literal) :
    (∃ rows, rest.mapM (facingTerms? first) = some rows ∧
        List.Forall₂ first.Faces rest rows) ∨
      rest.mapM (facingTerms? first) = none ∧ ∃ other ∈ rest, ∀ row, ¬first.Faces other row := by
  induction rest with
  | nil => exact Or.inl ⟨[], rfl, .nil⟩
  | cons other rest ih =>
      rw [List.mapM_cons]
      cases hother : facingTerms? first other with
      | none =>
          refine Or.inr ⟨rfl, other, List.mem_cons_self, fun row hrow => ?_⟩
          exact absurd (hother.symm.trans (facingTerms?_eq_some.mpr hrow)) (by simp)
      | some row =>
          obtain ⟨rows, hrows, hfaces⟩ | ⟨hnone, bad, hbad, hrow⟩ := ih
          · rw [hrows]
            exact Or.inl ⟨row :: rows, rfl, .cons (facingTerms?_eq_some.mp hother) hfaces⟩
          · rw [hnone]
            exact Or.inr ⟨rfl, bad, List.mem_cons_of_mem _ hbad, hrow⟩

/-- What holds of all facing rows holds of each literal's facing terms. -/
lemma forall_rows_iff {rest : List Literal} {rows : List (List Term)} {P : List Term → Prop}
    (h : List.Forall₂ first.Faces rest rows) :
    (∀ row ∈ rows, P row) ↔ ∀ other ∈ rest, ∃ row, first.Faces other row ∧ P row := by
  induction h with
  | nil => simp
  | @cons other row rest rows hrow _ ih =>
      rw [List.forall_mem_cons, List.forall_mem_cons, ih]
      refine and_congr_left fun _ => ⟨fun hP => ⟨row, hrow, hP⟩, ?_⟩
      rintro ⟨row', hrow', hP⟩
      rwa [hrow.unique hrow']

/-- Facing rows have no other variables than the literals. -/
lemma vars_rows_subset {rest : List Literal} {rows : List (List Term)}
    (h : List.Forall₂ first.Faces rest rows) :
    ∀ row ∈ rows, Term.vars row ⊆ rest.flatMap Literal.vars := by
  induction h with
  | nil => exact fun row hrow => absurd hrow List.not_mem_nil
  | cons hother _ ih =>
      rw [List.forall_mem_cons, List.flatMap_cons]
      exact ⟨fun x hx => List.mem_append_left _ (hother.vars_subset hx),
        fun row hrow x hx => List.mem_append_right _ (ih row hrow hx)⟩

/-! ### Unifiers -/

/-- Whether images for all variables make the terms of each later literal of a list equal to
those of the first literal, which they face. -/
def Unifies (σ : String → Term) : List Literal → Prop
  | [] => True
  | first :: rest => ∀ other ∈ rest, ∃ row, first.Faces other row ∧
      first.terms.map (Term.under σ) = row.map (Term.under σ)

/-- Whether a substitution is a most general unifier of a list of literals: it binds the
variables of the list, each image that is a variable to itself; it unifies the list; and images
that unify the list give a variable and its image the same value. -/
structure IsMostGeneralUnifier (ls : List Literal) (s : Substitution) : Prop
    extends SolvedForm (ls.flatMap Literal.vars) s where
  unifies : Unifies s.image ls
  general : ∀ σ, Unifies σ ls → ∀ x, (s.image x).under σ = σ x

/-- **Unification is solving** the equations between the terms of the first literal and those
that face them. -/
theorem settles_unifyLiterals (ls : List Literal) :
    Settles (ls.flatMap Literal.vars) (Unifies · ls) (unifyLiterals ls) := by
  cases ls with
  | nil =>
      have hform : SolvedForm [] .empty := solvedForm_identity
      have habsorbs : ∀ σ, Substitution.empty.AbsorbedBy σ := fun _ _ => rfl
      exact ⟨hform, fun σ => iff_of_true (habsorbs σ) trivial⟩
  | cons first rest =>
      rw [unifyLiterals]
      obtain ⟨rows, hrows, hfaces⟩ | ⟨hnone, other, hother, hrow⟩ := mapM_facingTerms? first rest
      · rw [hrows]
        have hfirst : first.vars ⊆ (first :: rest).flatMap Literal.vars :=
          List.subset_append_left _ _
        have hvars : ∀ row ∈ rows, Term.vars row ⊆ (first :: rest).flatMap Literal.vars :=
          fun row hrow x hx => List.mem_append_right _ (vars_rows_subset hfaces row hrow hx)
        refine (settles_solveAgainst solvedForm_identity hfirst hvars).congr fun σ => ?_
        rw [and_iff_right Substitution.absorbedBy_identity, forall_rows_iff hfaces, Unifies]
      · rw [hnone]
        intro σ hσ
        obtain ⟨row, hface, -⟩ := hσ other hother
        exact hrow row hface

/-- What is computed is a most general unifier. -/
lemma isMostGeneralUnifier_of_unifyLiterals (h : unifyLiterals ls = some s) :
    IsMostGeneralUnifier ls s := by
  have hsettles := settles_unifyLiterals ls
  rw [h] at hsettles
  obtain ⟨hform, habsorbs⟩ := hsettles
  exact ⟨hform, (habsorbs s.image).mp hform.absorbedBy_image, fun σ hσ => (habsorbs σ).mpr hσ⟩

/-- A unifier is computed iff some images unify the list. -/
lemma isSome_unifyLiterals_iff : (unifyLiterals ls).isSome = true ↔ ∃ σ, Unifies σ ls := by
  cases h : unifyLiterals ls with
  | none =>
      have hsettles := settles_unifyLiterals ls
      rw [h] at hsettles
      exact iff_of_false (by simp) fun ⟨σ, hσ⟩ => hsettles σ hσ
  | some s => exact iff_of_true rfl ⟨s.image, (isMostGeneralUnifier_of_unifyLiterals h).unifies⟩

/-- Atoms are unified like the literals that affirm them. -/
theorem unifyAtoms_eq (as : List Atom) :
    unifyAtoms as = unifyLiterals (as.map (.ordinary true)) := by
  cases as with
  | nil => rfl
  | cons first rest =>
      have hrows : (rest.map (Literal.ordinary true)).mapM (facingTerms? (.ordinary true first)) =
          if rest.all (·.predicate = first.predicate) then some (rest.map Atom.terms)
          else none := by
        induction rest with
        | nil => rfl
        | cons other rest ih =>
            rw [List.map_cons, List.mapM_cons, ih, facingTerms?]
            by_cases hother : other.predicate = first.predicate
            · by_cases hrest : rest.all (·.predicate = first.predicate) = true <;>
                simp [hother, hrest]
            · simp [hother, Ne.symm hother]
      have hvars : ((first :: rest).map (Literal.ordinary true)).flatMap Literal.vars =
          (first :: rest).flatMap Atom.vars := List.flatMap_map ..
      rw [unifyAtoms, List.map_cons, unifyLiterals, hrows, ← List.map_cons, hvars]
      by_cases hall : rest.all (·.predicate = first.predicate) = true
      · rw [if_pos hall, if_pos hall]
        rfl
      · rw [if_neg hall, if_neg hall]
        rfl

/-- **Most general unifiers are computed.** If some images unify a list of literals, there is
a result, and it is a most general unifier; otherwise there is none. A list of atoms has the
result of the literals that affirm them. -/
theorem unifyLiterals_mostGeneral (ls : List Literal) (as : List Atom) :
    ((∃ σ, Unifies σ ls) → ∃ s, unifyLiterals ls = some s ∧ IsMostGeneralUnifier ls s) ∧
      ((¬∃ σ, Unifies σ ls) → unifyLiterals ls = none) ∧
      unifyAtoms as = unifyLiterals (as.map (.ordinary true)) := by
  refine ⟨fun hunifies => ?_, fun hno => ?_, unifyAtoms_eq as⟩
  · obtain ⟨s, hs⟩ := Option.isSome_iff_exists.mp (isSome_unifyLiterals_iff.mpr hunifies)
    exact ⟨s, hs, isMostGeneralUnifier_of_unifyLiterals hs⟩
  · rw [← isSome_unifyLiterals_iff] at hno
    exact Option.not_isSome_iff_eq_none.mp hno

/-- Comparisons that share a variable, one of them turned. A variable at the end of a chain
stands for the lesser sides, and the constant for the greater ones. -/
theorem unifyLiterals_mostGeneral_chain :
    let compare (op : Comparison) (l r : Term) : Literal := .builtIn (.comparison op l r)
    let ls : List Literal := [compare .lt (.var "x") (.var "y"), compare .gt (.var "z") (.var "x"),
      compare .lt (.var "w") (.const "c")]
    (∃ σ, Unifies σ ls) ∧ ∃ s, unifyLiterals ls = some s ∧ IsMostGeneralUnifier ls s ∧
      s.image "x" = .var "w" ∧ s.image "z" = .const "c" := by
  intro compare ls
  have hunifies : ∃ σ, Unifies σ ls := by
    refine ⟨fun _ => .const "c", fun other hother => ?_⟩
    rcases List.mem_pair.mp hother with rfl | rfl
    · exact ⟨_, .converse (by decide), rfl⟩
    · exact ⟨_, .operator rfl, rfl⟩
  obtain ⟨s, hs, hgeneral⟩ := (unifyLiterals_mostGeneral ls []).1 hunifies
  have himages : (unifyLiterals ls).map (fun s => (s.image "x", s.image "z")) =
      some (.var "w", .const "c") := by decide
  rw [hs] at himages
  obtain ⟨hx, hz⟩ := Prod.mk.inj (Option.some.inj himages)
  exact ⟨hunifies, s, hs, hgeneral, hx, hz⟩

end Unification

end DependencyTheory
