/-
Questions about homomorphisms and equivalence, as runs of a search:

* `homomorphismFrom?_eq_ok`, `ruleHomomorphism?_eq_ok`: an answer is what a search
  that starts without verdicts ends with;
* `equivalence_eq_ok`: the verdict on equivalence is what homomorphisms both ways
  say.
-/
import DependencyTheory.Homomorphism.Equivalence
import DependencyTheory.Proofs.Homomorphism.Attempt

namespace DependencyTheory.Homomorphism.Setting

variable {m : Setting} {domain range : List Literal} {found : Option Substitution}

/-! ### Homomorphisms -/

/-- A search that is run to its end, behind a check. -/
lemma run_eq_ok {α : Type} {check : Except AnalysisError Unit} {x : Attempt α} {a : α} :
    (do check; let (found, _) ← x.run []; return found : Except AnalysisError α) = .ok a ↔
      check = .ok () ∧ ∃ w, Yields x [] a w := by
  cases check with
  | error e => exact ⟨fun h => (nomatch h), fun h => (nomatch h.1)⟩
  | ok _ =>
      cases hx : x.run [] with
      | error e =>
          refine ⟨fun h => ?_, fun ⟨_, w, h⟩ => (nomatch hx.symm.trans h)⟩
          simp [bind, Except.bind] at h
      | ok p =>
          obtain ⟨a', w'⟩ := p
          simp only [bind, Except.bind, hx, pure, Except.pure, Except.ok.injEq, true_and, Yields,
            Prod.mk.injEq]
          simp

/-- A homomorphism is what a search without verdicts finds, unless the literals
are refused. -/
lemma homomorphismFrom?_eq_ok {start : Substitution} :
    m.homomorphismFrom? start domain range = .ok found ↔
      m.refuseDerived domain range = .ok () ∧
        ∃ w, Yields (search m.agree m.sides range domain start) [] found w :=
  run_eq_ok

/-- A homomorphism between rules is what a search without verdicts finds. -/
lemma ruleHomomorphism?_eq_ok {d r : Rule} :
    m.ruleHomomorphism? d r = .ok found ↔
      m.refuseDerived d.body.literals r.body.literals = .ok () ∧
        ∃ w, Yields (searchRule m.agree m.sides d r) [] found w :=
  run_eq_ok

/-! ### Equivalence -/

/-- The verdict is in favour of equivalence iff there are homomorphisms both
ways. -/
lemma verdict_eq_equivalent {bothWays : Bool} :
    m.verdict domain range bothWays = .equivalent ↔ bothWays = true := by
  rw [verdict]
  split
  · rename_i h
    simp [h]
  · split <;> simp_all

/-- A verdict is based on a search for a way forth, and if there is one, on a
search for a way back. -/
lemma run_verdict_eq_ok {forth back : Except AnalysisError (Option Substitution)}
    {decide : Bool → Verdict} {v : Verdict} :
    (do match ← forth with
        | none => return decide false
        | some _ =>
          let back ← back
          return decide back.isSome : Except AnalysisError Verdict) = .ok v ↔
      forth = .ok none ∧ decide false = v ∨
        ∃ h way, forth = .ok (some h) ∧ back = .ok way ∧ decide way.isSome = v := by
  cases forth with
  | error e => exact ⟨fun h => (nomatch h), fun h => by simp at h⟩
  | ok way =>
      cases way with
      | none => simp [bind, Except.bind, pure, Except.pure]
      | some h =>
          cases back with
          | error e => simp [bind, Except.bind]
          | ok way => simp [bind, Except.bind, pure, Except.pure]

lemma equivalence_eq_ok {v : Verdict} :
    m.equivalence domain range = .ok v ↔
      m.homomorphism? domain range = .ok none ∧ m.verdict domain range false = v ∨
        ∃ h way, m.homomorphism? domain range = .ok (some h) ∧
          m.converse.homomorphism? range domain = .ok way ∧
          m.verdict domain range way.isSome = v :=
  run_verdict_eq_ok

end DependencyTheory.Homomorphism.Setting
