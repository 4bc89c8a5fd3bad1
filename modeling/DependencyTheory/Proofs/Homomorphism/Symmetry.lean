/-
Equivalence does not depend on which side is the domain:

* `SameOutcome`: whether two questions about equivalence get the same verdict, or are both refused
  because of a derived predicate;
* `Setting.DecidedByLiterals.either`: whether a search is refused does not depend on its direction;
* `Setting.run_verdict_symmetric`: two searches lead to the same outcome in either order;
* `Setting.equivalence_symmetric`: so equivalence of lists and of rules is symmetric, under every
  policy.

With domain and range exchanged, the search for a way back is the one that was the search for a
way forth, with verdicts of its own. What a search finds may depend on the order in which it
compares definitions. That does no harm here, because the same two searches are made.
-/
import DependencyTheory.Proofs.Homomorphism.Errors

namespace DependencyTheory.Homomorphism

/-- Whether two questions about equivalence get the same verdict, or both are refused because of
derived predicates, which may have different names. -/
inductive SameOutcome : Except AnalysisError Verdict → Except AnalysisError Verdict → Prop
  | verdict (v : Verdict) : SameOutcome (.ok v) (.ok v)
  | refused (name name' : String) :
      SameOutcome (.error (.derivedLiteral name)) (.error (.derivedLiteral name'))

namespace Setting

variable {m : Setting} {domain range : List Literal}
  {forth back : Except AnalysisError (Option Substitution)}

/-! ### Searches in both directions -/

/-- A search in one direction and one in the other are both answered, or both refused. -/
lemma DecidedByLiterals.either (hforth : m.DecidedByLiterals domain range forth)
    (hback : m.converse.DecidedByLiterals range domain back) :
    (∃ found, forth = .ok found) ∧ (∃ found, back = .ok found) ∨
      (∃ name, forth = .error (.derivedLiteral name)) ∧
        ∃ name, back = .error (.derivedLiteral name) := by
  by_cases hpolicy : m.policy = .forbidden
  · -- an answer that is no refusal is no error at all
    have hanswered {m : Setting} {domain range answer}
        (h : m.DecidedByLiterals domain range answer)
        (hallowed : ¬∃ name, answer = .error (.derivedLiteral name)) :
        ∃ found, answer = .ok found := by
      cases hanswer : answer with
      | ok found => exact ⟨found, rfl⟩
      | error e =>
          obtain ⟨-, name, rfl, -⟩ := (h.error e).mp hanswer
          exact absurd ⟨name, hanswer⟩ hallowed
    have hsame : (∃ name, forth = .error (.derivedLiteral name)) ↔
        ∃ name, back = .error (.derivedLiteral name) :=
      (hforth.forbidden hpolicy).trans (or_comm.trans (hback.forbidden hpolicy).symm)
    by_cases hrefused : ∃ name, forth = .error (.derivedLiteral name)
    · exact Or.inr ⟨hrefused, hsame.mp hrefused⟩
    · exact Or.inl ⟨hanswered hforth hrefused, hanswered hback fun h => hrefused (hsame.mpr h)⟩
  · exact Or.inl ⟨hforth.admitted hpolicy, hback.admitted hpolicy⟩

/-- Two searches that are both answered or both refused lead to the same outcome in either order,
although the second is not made when the first finds nothing. -/
lemma run_verdict_symmetric {decide : Bool → Verdict}
    (h : (∃ found, forth = .ok found) ∧ (∃ found, back = .ok found) ∨
      (∃ name, forth = .error (.derivedLiteral name)) ∧
        ∃ name, back = .error (.derivedLiteral name)) :
    SameOutcome
      (do match ← forth with
        | none => return decide false
        | some _ =>
          let back ← back
          return decide back.isSome)
      (do match ← back with
        | none => return decide false
        | some _ =>
          let forth ← forth
          return decide forth.isSome) := by
  rcases h with ⟨⟨found, rfl⟩, found', rfl⟩ | ⟨⟨name, rfl⟩, name', rfl⟩
  · cases found with
    | none =>
        cases found' with
        | none => exact .verdict (decide false)
        | some _ => exact .verdict (decide false)
    | some _ =>
        cases found' with
        | none => exact .verdict (decide false)
        | some _ => exact .verdict (decide true)
  · exact .refused name name'

/-- The verdict is the same for both directions. -/
lemma verdict_converse : m.converse.verdict range domain = m.verdict domain range := by
  funext bothWays
  simp only [verdict, converse, Bool.and_comm]

/-! ### Both kinds of queries -/

section Declared

variable (hdomain : RulesDeclared m.domain) (hrange : RulesDeclared m.range)

include hdomain hrange

lemma homomorphism?_decided (hd : Declares m.domain domain) (hr : Declares m.range range) :
    m.DecidedByLiterals domain range (m.homomorphism? domain range) :=
  decidedByLiterals fun _ => run_eq_error fun hallowed =>
    answers_search .empty (allAnswered hdomain hrange hd hr hallowed)

lemma ruleHomomorphism?_decided {d r : Rule} (hd : Declares m.domain d.body.literals)
    (hr : Declares m.range r.body.literals) :
    m.DecidedByLiterals d.body.literals r.body.literals (m.ruleHomomorphism? d r) :=
  decidedByLiterals fun _ => run_eq_error fun hallowed =>
    answers_searchRule (allAnswered hdomain hrange hd hr hallowed)

end Declared

/-- **Equivalence is symmetric**, under every policy and between all built schemas: with domain
and range exchanged, two lists of declared literals get the same verdict, and so do two rules,
unless derived predicates are forbidden and come up; then both questions are refused. -/
theorem equivalence_symmetric (m : Setting) {b c : Builder} (hb : b.build = .ok m.domain)
    (hc : c.build = .ok m.range) :
    (∀ domain range, Declares m.domain domain → Declares m.range range →
      SameOutcome (m.equivalence domain range) (m.converse.equivalence range domain)) ∧
    ∀ d r : Rule, Declares m.domain d.body.literals → Declares m.range r.body.literals →
      SameOutcome (m.ruleEquivalence d r) (m.converse.ruleEquivalence r d) := by
  have hdomain := rulesDeclared_of_build hb
  have hrange := rulesDeclared_of_build hc
  refine ⟨fun domain range hd hr => ?_, fun d r hd hr => ?_⟩
  · have heither := (homomorphism?_decided hdomain hrange hd hr).either
      (homomorphism?_decided (m := m.converse) hrange hdomain hr hd)
    rw [equivalence, equivalence, verdict_converse]
    exact run_verdict_symmetric heither
  · have heither := (ruleHomomorphism?_decided hdomain hrange hd hr).either
      (ruleHomomorphism?_decided (m := m.converse) hrange hdomain hr hd)
    rw [ruleEquivalence, ruleEquivalence, verdict_converse]
    exact run_verdict_symmetric heither

/-- Two predicates of which both are compared with a third that is defined through itself, and two
rules whose bodies are refused, each for the predicate of its own domain. -/
theorem equivalence_symmetric_loops :
    let m : Setting := ⟨loops, loops, .ruleStructural⟩
    let strict : Setting := ⟨joins, joins, .forbidden⟩
    let pair : List Literal := [unary 0 "x", unary 1 "x"]
    let target : List Literal := [unary 2 "u"]
    (m.equivalence pair target = .ok .equivalent ∧
        m.converse.equivalence target pair = .ok .equivalent) ∧
      ∀ d r : Rule, d.body.literals = [unary 2 "x"] → r.body.literals = [unary 3 "u"] →
        strict.ruleEquivalence d r = .error (.derivedLiteral "D") ∧
          ∃ name, strict.converse.ruleEquivalence r d = .error (.derivedLiteral name) := by
  intro m strict pair target
  have hloops : (⟨0, loops.predicates, []⟩ : Builder).build = .ok loops := by decide +kernel
  have hjoins : (⟨0, joins.predicates, []⟩ : Builder).build = .ok joins := by decide +kernel
  obtain ⟨hlists, -⟩ := equivalence_symmetric m hloops hloops
  obtain ⟨-, hrules⟩ := equivalence_symmetric strict hjoins hjoins
  have hpair : Declares loops pair := declares_iff.mpr rfl
  have htarget : Declares loops target := declares_iff.mpr rfl
  have hd : Declares joins [unary 2 "x"] := declares_iff.mpr rfl
  have hr : Declares joins [unary 3 "u"] := declares_iff.mpr rfl
  -- the comparisons are nested deeply
  have hequivalent : m.equivalence pair target = .ok .equivalent := by
    decide +kernel
  refine ⟨⟨hequivalent, ?_⟩, fun d r hdbody hrbody => ?_⟩
  · have hsame := hlists pair target hpair htarget
    rw [hequivalent] at hsame
    generalize m.converse.equivalence target pair = outcome at hsame
    cases hsame
    rfl
  · have hsame := hrules d r (hdbody ▸ hd) (hrbody ▸ hr)
    have hrefused : strict.ruleEquivalence d r = .error (.derivedLiteral "D") := by
      rw [ruleEquivalence, ruleHomomorphism?, refuseDerived, hdbody, hrbody]
      rfl
    refine ⟨hrefused, ?_⟩
    rw [hrefused] at hsame
    generalize strict.converse.ruleEquivalence r d = outcome at hsame
    cases hsame
    exact ⟨_, rfl⟩

end Setting

end DependencyTheory.Homomorphism
