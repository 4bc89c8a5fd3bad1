/-
Which predicates match, question by question:

* `yields_predicatesAgree`: a question on two predicates is decided by their
  names, or passed on to the comparison of their rules;
* `yields_rulesAgree`: a comparison of rules is looked up, made, or refused
  because it is under way;
* `Answered`, `answered_of_yields`: all that can happen to a question, both put
  together;
* `answers_predicatesAgree`: when a question has an answer at all.
-/
import DependencyTheory.Proofs.Homomorphism.Attempt
import DependencyTheory.Proofs.Homomorphism.Definition

namespace DependencyTheory.Homomorphism

variable {sides : Sides} {d r : Handle} {p q : Predicate} {policy : Policy}
variable {rules : Agreement} {w w' : Verdicts} {b : Bool}

/-! ### Rows -/

lemma domainRow_eq_ok : sides.domainRow d = .ok p ↔ sides.domain.get? d = some p := by
  rw [Sides.domainRow]
  split <;> simp_all

lemma rangeRow_eq_ok : sides.rangeRow r = .ok q ↔ sides.range.get? r = some q := by
  rw [Sides.rangeRow]
  split <;> simp_all

/-! ### Predicates -/

/-- A question on two predicates that has an answer is decided by their names,
unless it concerns rules: then one predicate is derived and the names differ. -/
lemma yields_predicatesAgree
    (h : Yields (predicatesAgree policy rules sides d r) w b w') :
    ∃ p q, sides.domain.get? d = some p ∧ sides.range.get? r = some q ∧
      (b = namesAgree p q ∧ w' = w ∧
          (policy = .ruleStructural → b = false → p.isDerived = false ∧ q.isDerived = false) ∨
        policy = .ruleStructural ∧ (p.isDerived || q.isDerived) = true ∧
          namesAgree p q = false ∧ Yields (rules sides d r) w b w') := by
  rw [predicatesAgree] at h
  obtain ⟨p, v₁, hdomain, h₁⟩ := yields_bind.mp h
  obtain ⟨hp, rfl⟩ := yields_lift.mp hdomain
  obtain ⟨q, v₂, hrange, h₂⟩ := yields_bind.mp h₁
  obtain ⟨hq, rfl⟩ := yields_lift.mp hrange
  refine ⟨p, q, domainRow_eq_ok.mp hp, rangeRow_eq_ok.mp hq, ?_⟩
  by_cases hderived : (p.isDerived || q.isDerived) = true
  · rw [if_pos hderived] at h₂
    cases policy with
    | forbidden => exact absurd h₂ not_yields_throw
    | sameName =>
        obtain ⟨rfl, rfl⟩ := yields_pure.mp h₂
        exact Or.inl ⟨rfl, rfl, fun hpolicy => absurd hpolicy (by simp)⟩
    | ruleStructural =>
        by_cases hnames : namesAgree p q = true
        · rw [if_pos hnames] at h₂
          obtain ⟨rfl, rfl⟩ := yields_pure.mp h₂
          exact Or.inl ⟨hnames.symm, rfl, fun _ hb => absurd hb (by simp)⟩
        · rw [if_neg hnames] at h₂
          exact Or.inr ⟨rfl, hderived, by simpa using hnames, h₂⟩
  · rw [if_neg hderived] at h₂
    obtain ⟨rfl, rfl⟩ := yields_pure.mp h₂
    exact Or.inl ⟨rfl, rfl, fun _ _ => by simpa using hderived⟩

/-- A question on two declared predicates has an answer where names decide it, and
where a comparison of their rules has one. -/
lemma answers_predicatesAgree (hp : sides.domain.get? d = some p)
    (hq : sides.range.get? r = some q)
    (hcase : policy = .sameName ∨ p.isDerived = false ∧ q.isDerived = false ∨
      policy = .ruleStructural ∧ Answers (rules sides d r)) :
    Answers (predicatesAgree policy rules sides d r) := by
  refine answers_lift_bind (domainRow_eq_ok.mpr hp) ?_
  refine answers_lift_bind (rangeRow_eq_ok.mpr hq) ?_
  rcases hcase with rfl | ⟨hdp, hdq⟩ | ⟨rfl, hrules⟩
  · split <;> exact answers_pure _
  · rw [hdp, hdq]
    exact answers_pure _
  · split
    · by_cases hnames : namesAgree p q = true
      · simp only [hnames, ↓reduceIte]
        exact answers_pure _
      · simp only [hnames, Bool.false_eq_true, ↓reduceIte]
        exact hrules
    · exact answers_pure _

/-! ### Rules -/

/-- A comparison of rules has been made before, is made now and remembered, or
is refused. -/
lemma yields_rulesAgree {unopened : List Comparand}
    (h : Yields (rulesAgree policy unopened sides d r) w b w') :
    w.lookup ⟨d, r, sides.turned⟩ = some b ∧ w' = w ∨
      w.lookup ⟨d, r, sides.turned⟩ = none ∧
        (⟨d, r, sides.turned⟩ ∈ unopened ∧
            (∃ v, Yields (definitionsAgree (predicatesAgree policy
              (rulesAgree policy (unopened.erase ⟨d, r, sides.turned⟩))) sides d r) w b v ∧
              w' = (⟨d, r, sides.turned⟩, b) :: v) ∨
          ⟨d, r, sides.turned⟩ ∉ unopened ∧ b = false ∧ w' = w) := by
  rw [rulesAgree] at h
  obtain ⟨v, v', hget, h₁⟩ := yields_bind.mp h
  obtain ⟨hv, hv'⟩ := yields_get.mp hget
  rw [hv, hv'] at h₁
  cases hlookup : w.lookup ⟨d, r, sides.turned⟩ with
  | some verdict =>
      rw [hlookup] at h₁
      obtain ⟨rfl, rfl⟩ := yields_pure.mp h₁
      exact Or.inl ⟨rfl, rfl⟩
  | none =>
      rw [hlookup] at h₁
      refine Or.inr ⟨rfl, ?_⟩
      by_cases hmem : ⟨d, r, sides.turned⟩ ∈ unopened
      · simp only [hmem, ↓reduceDIte] at h₁
        obtain ⟨verdict, v, hdefinitions, h₂⟩ := yields_bind.mp h₁
        obtain ⟨_, v', hmodify, h₃⟩ := yields_bind.mp h₂
        obtain ⟨rfl, rfl⟩ := yields_pure.mp h₃
        obtain rfl := yields_modify.mp hmodify
        exact Or.inl ⟨hmem, v, hdefinitions, rfl⟩
      · simp only [hmem, ↓reduceDIte] at h₁
        obtain ⟨rfl, rfl⟩ := yields_pure.mp h₁
        exact Or.inr ⟨hmem, rfl, rfl⟩

/-! ### All that can happen -/

/-- What can happen to a question on two predicates, with the verdicts `w`: the
answer and the verdicts afterwards. -/
inductive Answered (policy : Policy) (unopened : List Comparand) (sides : Sides)
    (d r : Handle) (w : Verdicts) : Bool → Verdicts → Prop
  /-- The names agree. -/
  | named : SamePredicate sides d r → Answered policy unopened sides d r w true w
  /-- The names differ, and there are no rules to compare. -/
  | unlike : ¬SamePredicate sides d r →
      (policy = .ruleStructural → ∀ R, ¬Defines R sides d r) →
      Answered policy unopened sides d r w false w
  /-- The rules have been compared before. -/
  | remembered {b : Bool} : ¬SamePredicate sides d r →
      w.lookup ⟨d, r, sides.turned⟩ = some b → Answered policy unopened sides d r w b w
  /-- The rules are compared now. -/
  | compared {b : Bool} {v : Verdicts} : ¬SamePredicate sides d r →
      w.lookup ⟨d, r, sides.turned⟩ = none → ⟨d, r, sides.turned⟩ ∈ unopened →
      Yields (definitionsAgree (predicatesAgree policy
        (rulesAgree policy (unopened.erase ⟨d, r, sides.turned⟩))) sides d r) w b v →
      Answered policy unopened sides d r w b ((⟨d, r, sides.turned⟩, b) :: v)
  /-- The rules are being compared, so they do not match. -/
  | refused : ¬SamePredicate sides d r → ⟨d, r, sides.turned⟩ ∉ unopened →
      Answered policy unopened sides d r w false w

theorem answered_of_yields {unopened : List Comparand}
    (h : Yields (predicatesAgree policy (rulesAgree policy unopened) sides d r) w b w') :
    Answered policy unopened sides d r w b w' := by
  obtain ⟨p, q, hp, hq, ⟨hb, rfl, hbase⟩ | ⟨-, -, hnames, h⟩⟩ := yields_predicatesAgree h
  · have hsame := samePredicate_iff hp hq
    rw [← hb] at hsame
    cases b with
    | true => exact .named (hsame.mpr rfl)
    | false =>
        refine .unlike (fun h => absurd (hsame.mp h) (by simp)) fun hpolicy R => ?_
        rintro ⟨p', q', hp', -, ⟨hderived, -, -⟩, -, -⟩
        cases hp.symm.trans hp'
        exact absurd hderived (by simp [(hbase hpolicy rfl).1])
  · have hunlike : ¬SamePredicate sides d r := fun h => by
      rw [samePredicate_iff hp hq, hnames] at h
      exact absurd h (by simp)
    rcases yields_rulesAgree h with
      ⟨hlookup, rfl⟩ | ⟨hlookup, ⟨hmem, v, hdefinitions, rfl⟩ | ⟨hmem, rfl, rfl⟩⟩
    · exact .remembered hunlike hlookup
    · exact .compared hunlike hlookup hmem hdefinitions
    · exact .refused hunlike hmem

end DependencyTheory.Homomorphism
