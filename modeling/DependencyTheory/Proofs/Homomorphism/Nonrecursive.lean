/-
Definitions that are not recursive are compared exactly:

* `Ranked`, `Nonrecursive`: whether the rules of each predicate refer only to
  predicates of lower rank;
* `Shrinks`: a measure of pairs of predicates that goes down from a comparison to
  those inside it;
* `shrinks_of_ranked`: the ranks of one schema are such a measure, whatever the
  rules of the other are;
* `tells_exact`: with such a measure, an answer is in favour of two predicates iff
  they have the same definition.

A pair that comes up inside its own comparison counts against itself, and a verdict
that rests on this may be wrong. With a measure that goes down no pair comes up
inside its own comparison.
-/
import DependencyTheory.Proofs.Homomorphism.Comparison

namespace DependencyTheory.Homomorphism

variable {base sides : Sides} {μ : Comparand → ℕ} {d r : Handle}

/-! ### Ranks -/

/-- Whether the rules of each predicate refer only to predicates of lower rank. -/
def Ranked (s : Schema) (rank : Handle → ℕ) : Prop :=
  ∀ h p, s.get? h = some p → ∀ rule ∈ p.rules, ∀ l ∈ rule.body.literals,
    ∀ k ∈ l.predicate?, rank k < rank h

/-- Whether no predicate of a schema is defined through itself. -/
def Nonrecursive (s : Schema) : Prop := ∃ rank, Ranked s rank

/-- Whether a measure of pairs goes down from a comparison to all that it can ask
for, in both directions. -/
def Shrinks (base : Sides) (μ : Comparand → ℕ) : Prop :=
  ∀ sides, base.Orients sides → ∀ d r p q, sides.domain.get? d = some p →
    sides.range.get? r = some q → ∀ rule ∈ p.rules, ∀ other ∈ q.rules,
    ∀ a ∈ rule.body.literals, ∀ b ∈ other.body.literals,
    ∀ h ∈ a.predicate?, ∀ k ∈ b.predicate?,
      μ ⟨h, k, sides.turned⟩ < μ ⟨d, r, sides.turned⟩ ∧
        μ ⟨k, h, sides.turn.turned⟩ < μ ⟨d, r, sides.turned⟩

lemma Sides.Orients.swap (h : base.Orients sides) : base.turn.Orients sides := by
  rcases h with rfl | rfl
  · exact Or.inr (Sides.turn_turn sides).symm
  · exact Or.inl rfl

/-- The predicate of a pair that is read in the schema that is the domain at the
start. -/
def homeHandle (base : Sides) (c : Comparand) : Handle :=
  if c.turned = base.turned then c.domain else c.range

@[simp] lemma homeHandle_turned (h k : Handle) : homeHandle base ⟨h, k, base.turned⟩ = h :=
  if_pos rfl

@[simp] lemma homeHandle_not_turned (h k : Handle) :
    homeHandle base ⟨h, k, !base.turned⟩ = k :=
  if_neg (by simp)

/-- The ranks of the domain at the start go down, on whichever side it is. -/
lemma shrinks_of_ranked (base : Sides) {rank : Handle → ℕ} (h : Ranked base.domain rank) :
    Shrinks base fun c => rank (homeHandle base c) := by
  rintro sides (rfl | rfl) d r p q hp hq rule hrule other hother a ha b hb h' hh k hk
  · have hlt : rank h' < rank d := h d p hp rule hrule a ha h' hh
    simp only [Sides.turn, homeHandle_turned, homeHandle_not_turned]
    exact ⟨hlt, hlt⟩
  · have hlt : rank k < rank r := h r q hq other hother b hb k hk
    simp only [Sides.turn, Bool.not_not, homeHandle_turned, homeHandle_not_turned]
    exact ⟨hlt, hlt⟩

/-- It is enough that one of the two schemas has ranks. -/
theorem shrinks_of_nonrecursive
    (h : Nonrecursive base.domain ∨ Nonrecursive base.range) : ∃ μ, Shrinks base μ := by
  rcases h with ⟨rank, hrank⟩ | ⟨rank, hrank⟩
  · exact ⟨fun c => rank (homeHandle base c), shrinks_of_ranked base hrank⟩
  · refine ⟨fun c => rank (homeHandle base.turn c), fun sides ho => ?_⟩
    exact shrinks_of_ranked base.turn hrank sides ho.swap

/-! ### Exact comparisons -/

/-- Declared predicates are among the pairs that a search can compare. -/
lemma mem_comparands (ho : base.Orients sides) {p q : Predicate}
    (hp : sides.domain.get? d = some p) (hq : sides.range.get? r = some q) :
    ⟨d, r, sides.turned⟩ ∈ base.comparands := by
  have hd : d ∈ sides.domain.predicates.handles := Table.mem_handles.mpr (by
    rw [Table.owns, ← Schema.get?, hp]
    rfl)
  have hr : r ∈ sides.range.predicates.handles := Table.mem_handles.mpr (by
    rw [Table.owns, ← Schema.get?, hq]
    rfl)
  have hmem : ∀ turned, (⟨d, r, turned⟩ : Comparand) ∈
      sides.domain.predicates.handles.flatMap fun h =>
        sides.range.predicates.handles.map fun k => ⟨h, k, turned⟩ := fun turned =>
    List.mem_flatMap.mpr ⟨d, hd, List.mem_map.mpr ⟨r, hr, rfl⟩⟩
  rcases ho with rfl | rfl
  · exact List.mem_append_left _ (hmem _)
  · exact List.mem_append_right _ (hmem _)

/-- Predicates of the same definition are declared. -/
lemma SameDefinition.exists_rows (h : SameDefinition sides d r) :
    ∃ p q, sides.domain.get? d = some p ∧ sides.range.get? r = some q := by
  rcases sameDefinition_iff.mp h with ⟨p, q, hp, hq, -⟩ | ⟨p, q, hp, hq, -⟩
  · exact ⟨p, q, hp, hq⟩
  · exact ⟨p, q, hp, hq⟩

/-- Answers that are in favour of two predicates iff these have the same
definition, for pairs that are small enough. -/
def faithful (base : Sides) (μ : Comparand → ℕ) (bound : ℕ) : Meaning where
  ComesUp sides d r := μ ⟨d, r, sides.turned⟩ < bound
  Valid := Recorded base fun b sides d r => b = true ↔ SameDefinition sides d r
  Says b sides d r := b = true ↔ SameDefinition sides d r

/-- **Comparisons are exact where a measure goes down**: by induction on the
measure, as long as all smaller pairs may be compared. -/
theorem tells_exact (hμ : Shrinks base μ) (bound : ℕ) (unopened : List Comparand)
    (hopen : ∀ c ∈ base.comparands, μ c < bound → c ∈ unopened) :
    Tells base (faithful base μ bound)
      (predicatesAgree .ruleStructural (rulesAgree .ruleStructural unopened)) := by
  induction bound using Nat.strong_induction_on generalizing unopened with
  | _ bound ih =>
      intro sides ho d r w b w' hup hw hy
      cases answered_of_yields hy with
      | named hnames => exact ⟨hw, iff_of_true rfl (sameDefinition_iff.mpr (Or.inl hnames))⟩
      | unlike hunlike hrules =>
          refine ⟨hw, iff_of_false (by simp) fun hsame => ?_⟩
          exact (sameDefinition_iff.mp hsame).elim hunlike (hrules rfl _)
      | remembered _ hlookup => exact ⟨hw, (hw sides ho d r b hlookup).2⟩
      | refused _ hclosed =>
          -- a pair of this size that is not open is no pair of declared predicates
          refine ⟨hw, iff_of_false (by simp) fun hsame => ?_⟩
          obtain ⟨p, q, hp, hq⟩ := hsame.exists_rows
          exact hclosed (hopen _ (mem_comparands ho hp hq) hup)
      | @compared b v hunlike hlookup hmem hdefinitions =>
          have hinner := ih (μ ⟨d, r, sides.turned⟩) hup (unopened.erase ⟨d, r, sides.turned⟩)
            fun c hc hlt => by
              have hne : c ≠ ⟨d, r, sides.turned⟩ := by
                rintro rfl
                exact absurd hlt (lt_irrefl _)
              exact (List.mem_erase_of_ne hne).mpr (hopen c hc (hlt.trans hup))
          obtain ⟨hv, htrue, hfalse⟩ := hinner.defines_of_definitionsAgree ho
            (fun p q hp hq rule hrule other hother =>
              ⟨fun a ha b hb h hh k hk =>
                (hμ sides ho d r p q hp hq rule hrule other hother a ha b hb h hh k hk).1,
              fun b hb a ha k hk h hh =>
                (hμ sides ho d r p q hp hq rule hrule other hother a ha b hb h hh k hk).2⟩)
            hw hdefinitions
          have hsays : b = true ↔ SameDefinition sides d r := by
            cases b with
            | true =>
                refine iff_of_true rfl (sameDefinition_iff.mpr (Or.inr ?_))
                exact (htrue rfl).mono fun _ _ _ h => h.mp rfl
            | false =>
                refine iff_of_false (by simp) fun hsame => ?_
                refine (sameDefinition_iff.mp hsame).elim hunlike fun hdefines => ?_
                refine hfalse rfl (hdefines.mono fun _ _ _ h hs => ?_)
                exact absurd (hs.mpr h) (by simp)
          exact ⟨hv.cons ho hunlike hsays, hsays⟩

/-- At the start of a search all pairs may be compared, so there is no bound. -/
theorem tells_sameDefinition (hμ : Shrinks base μ) :
    Tells base { faithful base μ 0 with ComesUp := fun _ _ _ => True }
      (predicatesAgree .ruleStructural (rulesAgree .ruleStructural base.comparands)) := by
  intro sides ho d r w b w' _ hw hy
  exact tells_exact hμ (μ ⟨d, r, sides.turned⟩ + 1) base.comparands (fun c hc _ => hc)
    sides ho d r w b w' (Nat.lt_succ_self _) hw hy

end DependencyTheory.Homomorphism
