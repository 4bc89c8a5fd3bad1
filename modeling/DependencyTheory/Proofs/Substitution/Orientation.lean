/-
Unification of literals that are written the other way round:

* `Literal.IsSymmetric`: whether a literal is a comparison for equality or difference, which
  says the same with its sides exchanged by means of the same operator;
* `Unification.MakesEqual`: whether images for all variables turn two literals into one;
* `isSome_unifyLiterals_pair_iff`: two literals are unified iff some images make them equal as
  they are written, or make the first equal to the second written the other way round, unless
  the first is symmetric;
* `isSome_unifyLiterals_of_reading`: so of the literals that can be made equal in one way of
  writing them, those are not unified that are symmetric and cannot be made equal as they are
  written; and the same holds of literals that a search finds a homomorphism between;
* `not_unifies_turned_equality`: there are such literals.

One operator faces another in one order only. This is the order in which the sides are written
if the operators are the same, as those of symmetric comparisons are in both orders.
-/
import DependencyTheory.Proofs.Homomorphism.Soundness
import DependencyTheory.Proofs.Schema.Table
import DependencyTheory.Proofs.Substitution.MostGeneral

namespace DependencyTheory

variable {a b b' : Literal} {row : List Term} {σ : String → Term}

/-! ### Facing terms and readings -/

/-- Whether a literal is a comparison whose operator is its own converse. -/
def Literal.IsSymmetric (l : Literal) : Prop :=
  ∃ op left right, l = .builtIn (.comparison op left right) ∧ op.converse = op

/-- The literals that are read the other way round are comparisons. -/
lemma Literal.reading_true_eq_some : b.reading true = some b' ↔
    ∃ op left right, b = .builtIn (.comparison op left right) ∧
      b' = .builtIn (.comparison op.converse right left) := by
  cases b with
  | ordinary p a => simp [reading]
  | builtIn b => cases b <;> simp [reading, BuiltIn.converse, eq_comm]

open Homomorphism

/-- **Terms face each other** in literals of one kind, and if a comparison that is not symmetric
is of one kind with another when this is read the other way round. -/
lemma Literal.faces_iff : a.Faces b row ↔
    Alike (· = ·) a b ∧ row = b.terms ∨
      ¬a.IsSymmetric ∧ ∃ b', b.reading true = some b' ∧ Alike (· = ·) a b' ∧ row = b'.terms := by
  constructor
  · intro h
    cases h with
    | predicate h => exact Or.inl ⟨⟨rfl, h⟩, rfl⟩
    | operator h => exact Or.inl ⟨h, rfl⟩
    | @converse op l r l' r' h =>
        refine Or.inr ⟨?_, _, rfl, congrArg Operator.comparison ?_, rfl⟩
        · rintro ⟨op', l, r, heq, hop⟩
          cases heq
          exact h hop.symm
        · exact op.converse_converse.symm
  · rintro (⟨halike, rfl⟩ | ⟨hsymm, b', hread, halike, rfl⟩)
    · cases a with
      | ordinary p a =>
          cases b with
          | builtIn b => exact halike.elim
          | ordinary q b =>
              obtain ⟨rfl, hpredicate⟩ := halike
              exact .predicate hpredicate
      | builtIn a =>
          cases b with
          | ordinary q b => exact halike.elim
          | builtIn b => exact .operator halike
    · obtain ⟨op, l', r', rfl, rfl⟩ := Literal.reading_true_eq_some.mp hread
      cases a with
      | ordinary p a => exact halike.elim
      | builtIn a =>
          obtain ⟨l, r, rfl⟩ := BuiltIn.operator_eq_comparison.mp halike
          have hne : op.converse ≠ op.converse.converse := fun heq =>
            hsymm ⟨_, l, r, rfl, heq.symm⟩
          have hfaces : (Literal.builtIn (.comparison op.converse l r)).Faces
              (.builtIn (.comparison op.converse.converse l' r')) [r', l'] := .converse hne
          rwa [op.converse_converse] at hfaces

namespace Unification

/-! ### Pairs of literals -/

/-- Whether images for all variables turn two literals into the same. -/
def MakesEqual (σ : String → Term) (a b : Literal) : Prop :=
  a.mapTerms (Term.under σ) = b.mapTerms (Term.under σ)

/-- Literals are the same iff they are of one kind and have the same terms. -/
lemma makesEqual_iff : MakesEqual σ a b ↔
    Alike (· = ·) a b ∧ a.terms.map (Term.under σ) = b.terms.map (Term.under σ) := by
  cases a with
  | ordinary p a =>
      cases b with
      | builtIn b => simp [MakesEqual, Literal.mapTerms, Alike]
      | ordinary q b =>
          simp [MakesEqual, Literal.mapTerms, Alike, Atom.mapTerms, Literal.terms, and_assoc]
  | builtIn a =>
      cases b with
      | ordinary q b => simp [MakesEqual, Literal.mapTerms, Alike]
      | builtIn b =>
          cases a <;> cases b <;>
            simp [MakesEqual, Literal.mapTerms, Alike, BuiltIn.mapTerms, BuiltIn.operator,
              Literal.terms, BuiltIn.terms]

/-- **Two literals are unified** iff they can be made equal as they are written, or the first
is not symmetric and can be made equal to the second written the other way round. -/
theorem isSome_unifyLiterals_pair_iff : (unifyLiterals [a, b]).isSome = true ↔
    (∃ σ, MakesEqual σ a b) ∨
      ¬a.IsSymmetric ∧ ∃ b', b.reading true = some b' ∧ ∃ σ, MakesEqual σ a b' := by
  have hpair : ∀ σ, Unifies σ [a, b] ↔ MakesEqual σ a b ∨
      ¬a.IsSymmetric ∧ ∃ b', b.reading true = some b' ∧ MakesEqual σ a b' := fun σ => by
    simp only [Unifies, List.forall_mem_singleton, Literal.faces_iff, makesEqual_iff]
    constructor
    · rintro ⟨row, ⟨halike, rfl⟩ | ⟨hsymm, b', hread, halike, rfl⟩, hterms⟩
      · exact Or.inl ⟨halike, hterms⟩
      · exact Or.inr ⟨hsymm, b', hread, halike, hterms⟩
    · rintro (⟨halike, hterms⟩ | ⟨hsymm, b', hread, halike, hterms⟩)
      · exact ⟨_, Or.inl ⟨halike, rfl⟩, hterms⟩
      · exact ⟨_, Or.inr ⟨hsymm, b', hread, halike, rfl⟩, hterms⟩
  simp only [isSome_unifyLiterals_iff, hpair]
  constructor
  · rintro ⟨σ, heq | ⟨hsymm, b', hread, heq⟩⟩
    · exact Or.inl ⟨σ, heq⟩
    · exact Or.inr ⟨hsymm, b', hread, σ, heq⟩
  · rintro (⟨σ, heq⟩ | ⟨hsymm, b', hread, σ, heq⟩)
    · exact ⟨σ, Or.inl heq⟩
    · exact ⟨σ, Or.inr ⟨hsymm, b', hread, heq⟩⟩

/-! ### Literals that are mapped onto each other -/

/-- The other way of writing a literal has the same variables. -/
lemma mem_vars_of_reading {turned : Bool} (h : b.reading turned = some b') {x : String} :
    x ∈ b'.vars ↔ x ∈ b.vars := by
  cases turned with
  | false => rw [Option.some.inj h]
  | true =>
      obtain ⟨op, l, r, rfl, rfl⟩ := Literal.reading_true_eq_some.mp h
      simp [Literal.vars, Literal.terms, BuiltIn.terms, or_comm]

/-- Images that turn a literal into one with other variables make the two equal when they are
given to the variables of the first only. -/
lemma exists_makesEqual_of_onto (h : Onto (· = ·) σ a b) (hvars : ∀ x ∈ a.vars, x ∉ b.vars) :
    ∃ σ, MakesEqual σ a b := by
  obtain ⟨halike, hterms⟩ := h
  refine ⟨fun x => if x ∈ a.vars then σ x else .var x, makesEqual_iff.mpr ⟨halike, ?_⟩⟩
  have hfirst : a.terms.map (Term.under fun x => if x ∈ a.vars then σ x else .var x) =
      a.terms.map (Term.under σ) := by
    refine List.map_congr_left fun t ht => ?_
    cases t with
    | const c => rfl
    | var x => exact if_pos (Term.mem_vars.mpr ht)
  have hsecond : b.terms.map (Term.under fun x => if x ∈ a.vars then σ x else .var x) =
      b.terms := by
    refine (List.map_congr_left fun t ht => ?_).trans (List.map_id b.terms)
    cases t with
    | const c => rfl
    | var x => exact if_neg fun hx => hvars x hx (Term.mem_vars.mpr ht)
  rw [hfirst, hsecond, hterms]

/-- Where all predicates are base ones of distinct names, a handle has the definition of no
other. -/
lemma eq_of_sameDefinition {s : Schema} (hnames : s.predicates.DistinctNames)
    (hbase : ∀ p ∈ s.predicates, p.isDerived = false) {d r : Handle}
    (h : SameDefinition ⟨s, s, false⟩ d r) : d = r := by
  rcases sameDefinition_iff.mp h with ⟨p, q, hp, hq, hname, -⟩ | ⟨p, q, hp, -, ⟨hderived, -⟩, -⟩
  · exact Table.RefersTo.handle_unique hnames ⟨p, hp, rfl⟩ ⟨q, hq, hname.symm⟩
  · rw [hbase p (Schema.mem_predicates_of_get? hp)] at hderived
    exact absurd hderived (by simp)

/-- A homomorphism between literals without common variables makes the first equal to the
second, written in one way or the other. -/
lemma exists_makesEqual_of_homomorphism? {s : Schema} {policy : Policy} {h : Substitution}
    (hnames : s.predicates.DistinctNames) (hbase : ∀ p ∈ s.predicates, p.isDerived = false)
    (hfound : (⟨s, s, policy⟩ : Setting).homomorphism? [a] [b] = .ok (some h))
    (hvars : ∀ x ∈ a.vars, x ∉ b.vars) :
    ∃ turned b' σ, b.reading turned = some b' ∧ MakesEqual σ a b' := by
  have hmaps := (maps_of_homomorphismFrom? hfound).imp fun d r => eq_of_sameDefinition hnames hbase
  obtain ⟨b₁, hb₁, turned, b', hread, honto⟩ := hmaps a List.mem_cons_self
  obtain rfl := List.mem_singleton.mp hb₁
  obtain ⟨σ, hσ⟩ := exists_makesEqual_of_onto honto fun x hx hx' =>
    hvars x hx ((mem_vars_of_reading hread).mp hx')
  exact ⟨turned, b', σ, hread, hσ⟩

/-- **Literals that can be made equal in one way of writing them** are unified, unless they are
symmetric and cannot be made equal as they are written. This goes in particular for literals
without common variables between which there is a homomorphism, over a schema of base
predicates. -/
theorem isSome_unifyLiterals_of_reading (a b : Literal) :
    (∀ turned b' σ, b.reading turned = some b' → MakesEqual σ a b' →
      ((unifyLiterals [a, b]).isSome = true ↔ (a.IsSymmetric → ∃ σ, MakesEqual σ a b))) ∧
    ∀ (s : Schema) (policy : Policy) (h : Substitution), s.predicates.DistinctNames →
      (∀ p ∈ s.predicates, p.isDerived = false) →
      (⟨s, s, policy⟩ : Setting).homomorphism? [a] [b] = .ok (some h) →
      (∀ x ∈ a.vars, x ∉ b.vars) →
      ((unifyLiterals [a, b]).isSome = true ↔ (a.IsSymmetric → ∃ σ, MakesEqual σ a b)) := by
  have hreading : ∀ turned b' σ, b.reading turned = some b' → MakesEqual σ a b' →
      ((unifyLiterals [a, b]).isSome = true ↔ (a.IsSymmetric → ∃ σ, MakesEqual σ a b)) := by
    intro turned b' σ hread heq
    rw [isSome_unifyLiterals_pair_iff]
    constructor
    · rintro (hwritten | ⟨hsymm, -⟩) hsymm'
      · exact hwritten
      · exact absurd hsymm' hsymm
    · intro hwritten
      by_cases hsymm : a.IsSymmetric
      · exact Or.inl (hwritten hsymm)
      · cases turned with
        | false => exact Or.inl ⟨σ, Option.some.inj hread ▸ heq⟩
        | true => exact Or.inr ⟨hsymm, b', hread, σ, heq⟩
  refine ⟨hreading, fun s policy h hnames hbase hfound hvars => ?_⟩
  obtain ⟨turned, b', σ, hread, heq⟩ :=
    exists_makesEqual_of_homomorphism? hnames hbase hfound hvars
  exact hreading turned b' σ hread heq

/-- Two terms differ, and a search maps this onto the same with the sides exchanged. They are
unified as they are written, which makes both sides the constant. -/
theorem isSome_unifyLiterals_of_reading_differ :
    let a : Literal := .builtIn (.comparison .ne (.var "x") (.const "c"))
    let b : Literal := .builtIn (.comparison .ne (.const "c") (.var "y"))
    let m : Setting := ⟨⟨[], []⟩, ⟨[], []⟩, .ruleStructural⟩
    (∃ h, m.homomorphism? [a] [b] = .ok (some h) ∧ h.image "x" = .var "y") ∧
      a.IsSymmetric ∧ (∃ σ, MakesEqual σ a b) ∧ (unifyLiterals [a, b]).isSome = true := by
  intro a b m
  have hfound : m.homomorphism? [a] [b] = .ok (some ⟨[("x", .var "y")], by simp⟩) := by
    decide +kernel
  have hwritten : ∃ σ, MakesEqual σ a b := ⟨fun _ => .const "c", rfl⟩
  obtain ⟨-, hhom⟩ := isSome_unifyLiterals_of_reading a b
  refine ⟨⟨_, hfound, rfl⟩, ⟨_, _, _, rfl, rfl⟩, hwritten, ?_⟩
  exact (hhom m.domain _ _ List.nodup_nil (by decide) hfound (by decide)).mpr fun _ => hwritten

/-- An equation is mapped onto another whose sides are exchanged, so that the two can be made
equal in this way, but they are not unified. -/
theorem not_unifies_turned_equality :
    let a : Literal := .builtIn (.comparison .eq (.var "x") (.const "1"))
    let b : Literal := .builtIn (.comparison .eq (.const "1") (.const "2"))
    let m : Setting := ⟨⟨[], []⟩, ⟨[], []⟩, .ruleStructural⟩
    (∃ b' σ, b.reading true = some b' ∧ MakesEqual σ a b') ∧
      (∃ h, m.homomorphism? [a] [b] = .ok (some h)) ∧ (∀ x ∈ a.vars, x ∉ b.vars) ∧
      unifyLiterals [a, b] = none := by
  intro a b m
  have hfound : m.homomorphism? [a] [b] = .ok (some ⟨[("x", .const "2")], by simp⟩) := by
    decide +kernel
  exact ⟨⟨_, fun _ => .const "2", rfl, rfl⟩, ⟨_, hfound⟩, by decide, by decide⟩

end Unification

end DependencyTheory
