/-
Comparing the rules of predicates ends with an answer:

* `Declares`: whether a schema declares the predicates of a list of literals;
* `RulesDeclared`, `rulesDeclared_of_build`: whether it declares those in the bodies
  of its rules, as every schema does that has been built;
* `answers_rulesAgree`: a comparison has an answer, however the definitions refer
  to each other.

The only errors of a comparison are that a predicate is not declared, and that
derived predicates are forbidden.
-/
import DependencyTheory.Proofs.Homomorphism.Agreement
import DependencyTheory.Proofs.Schema.Build

namespace DependencyTheory.Homomorphism

variable {s : Schema} {sides : Sides} {agree : Agreement} {d r : Handle}

/-! ### Declared predicates -/

/-- Whether a schema declares the predicates of all literals of a list. -/
def Declares (s : Schema) (literals : List Literal) : Prop :=
  ∀ l ∈ literals, ∀ h ∈ l.predicate?, ∃ p, s.get? h = some p

/-- Whether a list is declared can be computed. -/
lemma declares_iff {literals : List Literal} :
    Declares s literals ↔ (literals.all fun l => l.predicate?.all s.owns) = true := by
  simp only [Declares, List.all_eq_true, Option.all_eq_true, Schema.owns, Table.owns,
    Option.isSome_iff_exists]
  rfl

/-- Whether a schema declares the predicates in the bodies of its rules. -/
def RulesDeclared (s : Schema) : Prop :=
  ∀ p ∈ s.predicates, ∀ rule ∈ p.rules, Declares s rule.body.literals

/-- A schema that has been built declares the predicates in the bodies of its
rules. -/
theorem rulesDeclared_of_build {b : Builder} (h : b.build = .ok s) : RulesDeclared s := by
  obtain ⟨howns, rfl⟩ := Builder.build_eq_ok.mp h
  intro p hp rule hrule l hl k hk
  have hreference : k ∈ b.references := by
    refine List.mem_append_left _ (List.mem_flatMap.mpr ⟨p, hp, ?_⟩)
    exact List.mem_flatMap.mpr ⟨rule, hrule, List.mem_filterMap.mpr ⟨l, hl, hk⟩⟩
  exact Option.isSome_iff_exists.mp (howns k hreference)

/-! ### Comparisons without errors -/

/-- Whether all questions on declared predicates have answers, whichever way round
the schemas stand. -/
def AnswersDeclared (agree : Agreement) (sides : Sides) : Prop :=
  ∀ d r, (∃ p, sides.domain.get? d = some p) → (∃ q, sides.range.get? r = some q) →
    Answers (agree sides d r)

lemma AnswersDeclared.allAnswered {domain range : List Literal} (h : AnswersDeclared agree sides)
    (hd : Declares sides.domain domain) (hr : Declares sides.range range) :
    AllAnswered agree sides domain range :=
  fun a ha b hb d hda r hrb => h d r (hd a ha d hda) (hr b hb r hrb)

section Rules

variable (h : AnswersDeclared agree sides) (hturn : AnswersDeclared agree sides.turn)

include h hturn

lemma answers_hasCounterpart {rule : Rule} {others : List Rule}
    (hd : Declares sides.domain rule.body.literals)
    (hr : ∀ other ∈ others, Declares sides.range other.body.literals) :
    Answers (hasCounterpart agree sides rule others) := by
  refine answers_anyM fun other hother => ?_
  refine (answers_searchRule (h.allAnswered hd (hr other hother))).bind fun found => ?_
  cases found with
  | none => exact answers_pure _
  | some t =>
      refine (answers_searchRule (hturn.allAnswered (hr other hother) hd)).bind fun found => ?_
      exact answers_pure _

lemma answers_definitionsAgree (hd : RulesDeclared sides.domain) (hr : RulesDeclared sides.range)
    (hp : ∃ p, sides.domain.get? d = some p) (hq : ∃ q, sides.range.get? r = some q) :
    Answers (definitionsAgree agree sides d r) := by
  obtain ⟨p, hp⟩ := hp
  obtain ⟨q, hq⟩ := hq
  have hdp := hd p (Schema.mem_predicates_of_get? hp)
  have hrq := hr q (Schema.mem_predicates_of_get? hq)
  refine answers_lift_bind (domainRow_eq_ok.mpr hp) ?_
  refine answers_lift_bind (rangeRow_eq_ok.mpr hq) ?_
  split
  · refine (answers_allM fun rule hrule =>
      answers_hasCounterpart h hturn (hdp rule hrule) hrq).bind fun all => ?_
    cases all with
    | false => exact answers_pure _
    | true =>
        refine answers_allM fun rule hrule => ?_
        exact answers_hasCounterpart hturn (by rwa [Sides.turn_turn]) (hrq rule hrule) hdp
  · exact answers_pure _

end Rules

/-- **Every comparison has an answer**, between schemas that declare what their
rules refer to: by induction on the pairs that are not being compared. -/
theorem answers_rulesAgree (unopened : List Comparand) (hd : RulesDeclared sides.domain)
    (hr : RulesDeclared sides.range) :
    AnswersDeclared (predicatesAgree .ruleStructural (rulesAgree .ruleStructural unopened))
      sides := by
  induction hn : unopened.length using Nat.strong_induction_on generalizing unopened sides with
  | _ n ih =>
      intro d r hp hq
      obtain ⟨p, hp⟩ := hp
      obtain ⟨q, hq⟩ := hq
      refine answers_predicatesAgree hp hq (Or.inr (Or.inr ⟨rfl, ?_⟩))
      rw [rulesAgree]
      refine answers_get.bind fun v => ?_
      split
      · exact answers_pure _
      · split
        · rename_i hmem
          have hfewer := hn ▸ fewer_unopened hmem
          refine (answers_definitionsAgree (ih _ hfewer _ hd hr rfl) (ih _ hfewer _ hr hd rfl)
            hd hr ⟨p, hp⟩ ⟨q, hq⟩).bind fun verdict => ?_
          exact (answers_modify _).bind fun _ => answers_pure _
        · exact answers_pure _

end DependencyTheory.Homomorphism
