/-
The steps of a search, run from some verdicts to others:

* `Yields x w a w'`: started with the verdicts `w`, the step `x` answers `a` and
  leaves the verdicts `w'`;
* `yields_bind`: one step after the other;
* `yields_findSomeM?`: the rule for loops that look for an answer, with an
  invariant over what has been tried in vain;
* `Answers`: a step that never ends in an error.

A step that ends in an error yields nothing. That it does not is `Answers`,
and has its own rules.
-/
import DependencyTheory.Homomorphism.Search
import Mathlib.Tactic.Lemma

namespace DependencyTheory.Homomorphism

variable {α β : Type}

/-- Started with the verdicts `w`, the step answers `a` and leaves the
verdicts `w'`. -/
def Yields (x : Attempt α) (w : Verdicts) (a : α) (w' : Verdicts) : Prop :=
  x.run w = .ok (a, w')

variable {x : Attempt α} {f : α → Attempt β} {w w' : Verdicts} {a b : α} {c : β}

/-! ### Single steps -/

/-- An answer that is given at once leaves the verdicts alone. -/
lemma yields_pure : Yields (pure a) w b w' ↔ b = a ∧ w' = w := by
  simp only [Yields, StateT.run_pure]
  constructor
  · intro h
    cases h
    exact ⟨rfl, rfl⟩
  · rintro ⟨rfl, rfl⟩
    rfl

/-- A step with another after it: the second starts where the first ends. -/
lemma yields_bind :
    Yields (x >>= f) w c w' ↔ ∃ a v, Yields x w a v ∧ Yields (f a) v c w' := by
  simp only [Yields, StateT.run_bind]
  cases h : x.run w with
  | error e => simp [bind, Except.bind]
  | ok p =>
      obtain ⟨a, v⟩ := p
      constructor
      · exact fun hc => ⟨a, v, rfl, hc⟩
      · rintro ⟨_, _, ⟨⟩, hc⟩
        exact hc

/-- A step that ends in an error yields nothing. -/
lemma not_yields_throw {e : AnalysisError} : ¬Yields (throw e) w a w' := by
  intro h
  cases h

/-- A question to the schemas leaves the verdicts alone. -/
lemma yields_lift {y : Except AnalysisError α} :
    Yields (liftM y) w a w' ↔ y = .ok a ∧ w' = w := by
  cases y with
  | error e => exact ⟨fun h => (nomatch h), fun h => (nomatch h.1)⟩
  | ok b =>
      constructor
      · intro h
        cases h
        exact ⟨rfl, rfl⟩
      · rintro ⟨h, rfl⟩
        cases h
        rfl

/-- A question to the schemas that has an answer is that answer. -/
lemma lift_ok_bind (a : α) (f : α → Attempt β) :
    (liftM (Except.ok a : Except AnalysisError α) >>= f) = f a := rfl

/-- The verdicts can be looked at without changing them. -/
lemma yields_get {v : Verdicts} :
    Yields (get : Attempt Verdicts) w v w' ↔ v = w ∧ w' = w := by
  constructor
  · intro h
    cases h
    exact ⟨rfl, rfl⟩
  · rintro ⟨rfl, rfl⟩
    rfl

lemma yields_modify {g : Verdicts → Verdicts} {p : PUnit} :
    Yields (modify g : Attempt PUnit) w p w' ↔ w' = g w := by
  constructor
  · intro h
    cases h
    rfl
  · rintro rfl
    rfl

/-! ### Loops -/

section Steps

variable {γ : Type}

/-- Loops over the same list are the same if their steps are, on its members. -/
lemma findSomeM?_congr {f g : α → Attempt (Option β)} {l : List α} (h : ∀ a ∈ l, f a = g a) :
    l.findSomeM? f = l.findSomeM? g := by
  induction l with
  | nil => rfl
  | cons a l ih =>
      rw [List.findSomeM?_cons, List.findSomeM?_cons, h a (by simp),
        ih fun b hb => h b (by simp [hb])]

/-- A loop over computed members computes them as it goes. -/
lemma findSomeM?_map (g : α → β) (f : β → Attempt (Option γ)) (l : List α) :
    (l.map g).findSomeM? f = l.findSomeM? fun a => f (g a) := by
  induction l with
  | nil => rfl
  | cons a l ih => simp only [List.map_cons, List.findSomeM?_cons, ih]

/-- What is found in a loop is changed by changing what its steps find. -/
lemma map_findSomeM? (g : β → γ) (f : α → Attempt (Option β)) (l : List α) :
    Option.map g <$> l.findSomeM? f = l.findSomeM? fun a => Option.map g <$> f a := by
  induction l with
  | nil => simp
  | cons a l ih =>
      simp only [List.findSomeM?_cons, map_bind, bind_map_left]
      refine bind_congr fun answer => ?_
      cases answer with
      | none => exact ih
      | some b => simp

end Steps

/-- The rule for looking for an answer: an invariant over what has been tried
in vain holds of the whole list when nothing is found, and of what comes before
the place of the answer when something is. -/
theorem yields_findSomeM? {f : α → Attempt (Option β)} {l : List α}
    {found : Option β} (Inv : List α → Verdicts → Prop) (start : Inv [] w)
    (step : ∀ before a after v v', l = before ++ a :: after → Inv before v →
      Yields (f a) v none v' → Inv (before ++ [a]) v')
    (h : Yields (l.findSomeM? f) w found w') :
    (found = none → Inv l w') ∧
      ∀ b, found = some b → ∃ before a after v,
        l = before ++ a :: after ∧ Inv before v ∧ Yields (f a) v (some b) w' := by
  -- the tried part and the rest are told apart, so that the induction can move
  -- an element from one to the other
  suffices key : ∀ (rest before : List α) (v : Verdicts), l = before ++ rest →
      Inv before v → Yields (rest.findSomeM? f) v found w' →
      (found = none → Inv l w') ∧
        ∀ b, found = some b → ∃ before a after v,
          l = before ++ a :: after ∧ Inv before v ∧ Yields (f a) v (some b) w' from
    key l [] w rfl start h
  intro rest
  induction rest with
  | nil =>
      intro before v hl hinv h
      obtain ⟨rfl, rfl⟩ := yields_pure.mp h
      rw [List.append_nil] at hl
      exact ⟨fun _ => hl ▸ hinv, fun b hb => absurd hb (by simp)⟩
  | cons a rest ih =>
      intro before v hl hinv h
      obtain ⟨answer, v', ha, h⟩ := yields_bind.mp h
      cases answer with
      | none =>
          exact ih (before ++ [a]) v' (by simp [hl])
            (step before a rest v v' hl hinv ha) h
      | some b =>
          obtain ⟨rfl, rfl⟩ := yields_pure.mp h
          refine ⟨fun hb => absurd hb (by simp), fun b' hb => ?_⟩
          cases hb
          exact ⟨before, a, rest, v, hl, hinv, ha⟩

/-- What every step of a loop keeps, the loop keeps. If it says that some element
passes, one of the steps says so, and if it says that none does, all of them
do. -/
lemma yields_anyM {p : α → Attempt Bool} {l : List α} {found : Bool}
    {Inv : Verdicts → Prop} {Q : α → Bool → Prop}
    (step : ∀ a ∈ l, ∀ v b v', Inv v → Yields (p a) v b v' → Inv v' ∧ Q a b)
    (start : Inv w) (h : Yields (l.anyM p) w found w') :
    Inv w' ∧ (found = true → ∃ a ∈ l, Q a true) ∧
      (found = false → ∀ a ∈ l, Q a false) := by
  induction l generalizing w with
  | nil =>
      obtain ⟨rfl, rfl⟩ := yields_pure.mp h
      exact ⟨start, fun hb => absurd hb (by simp), fun _ a ha => absurd ha (by simp)⟩
  | cons a l ih =>
      obtain ⟨b, v, ha, h⟩ := yields_bind.mp h
      obtain ⟨hv, hb⟩ := step a (by simp) w b v start ha
      cases b with
      | true =>
          obtain ⟨rfl, rfl⟩ := yields_pure.mp h
          exact ⟨hv, fun _ => ⟨a, by simp, hb⟩, fun hfound => absurd hfound (by simp)⟩
      | false =>
          obtain ⟨hw, hsome, hnone⟩ := ih (fun a ha => step a (by simp [ha])) hv h
          refine ⟨hw, fun hfound => ?_, fun hfound a' ha' => ?_⟩
          · obtain ⟨a', ha', hs⟩ := hsome hfound
            exact ⟨a', by simp [ha'], hs⟩
          · rcases List.mem_cons.mp ha' with rfl | ha'
            · exact hb
            · exact hnone hfound a' ha'

/-- The same for loops that ask whether all elements pass. -/
lemma yields_allM {p : α → Attempt Bool} {l : List α} {found : Bool}
    {Inv : Verdicts → Prop} {Q : α → Bool → Prop}
    (step : ∀ a ∈ l, ∀ v b v', Inv v → Yields (p a) v b v' → Inv v' ∧ Q a b)
    (start : Inv w) (h : Yields (l.allM p) w found w') :
    Inv w' ∧ (found = true → ∀ a ∈ l, Q a true) ∧
      (found = false → ∃ a ∈ l, Q a false) := by
  induction l generalizing w with
  | nil =>
      obtain ⟨rfl, rfl⟩ := yields_pure.mp h
      exact ⟨start, fun _ a ha => absurd ha (by simp), fun hb => absurd hb (by simp)⟩
  | cons a l ih =>
      obtain ⟨b, v, ha, h⟩ := yields_bind.mp h
      obtain ⟨hv, hb⟩ := step a (by simp) w b v start ha
      cases b with
      | false =>
          obtain ⟨rfl, rfl⟩ := yields_pure.mp h
          exact ⟨hv, fun hfound => absurd hfound (by simp), fun _ => ⟨a, by simp, hb⟩⟩
      | true =>
          obtain ⟨hw, hall, hsome⟩ := ih (fun a ha => step a (by simp [ha])) hv h
          refine ⟨hw, fun hfound a' ha' => ?_, fun hfound => ?_⟩
          · rcases List.mem_cons.mp ha' with rfl | ha'
            · exact hb
            · exact hall hfound a' ha'
          · obtain ⟨a', ha', hs⟩ := hsome hfound
            exact ⟨a', by simp [ha'], hs⟩

/-! ### Steps without errors -/

/-- Whatever verdicts it is started with, the step does not end in an
error. -/
def Answers (x : Attempt α) : Prop := ∀ w, ∃ a w', Yields x w a w'

lemma answers_pure (a : α) : Answers (pure a : Attempt α) :=
  fun w => ⟨a, w, yields_pure.mpr ⟨rfl, rfl⟩⟩

/-- Two steps without errors make one without errors. -/
lemma Answers.bind (hx : Answers x) (hf : ∀ a, Answers (f a)) :
    Answers (x >>= f) := fun w => by
  obtain ⟨a, v, ha⟩ := hx w
  obtain ⟨c, v', hc⟩ := hf a v
  exact ⟨c, v', yields_bind.mpr ⟨a, v, ha, hc⟩⟩

lemma answers_get : Answers (get : Attempt Verdicts) :=
  fun w => ⟨w, w, yields_get.mpr ⟨rfl, rfl⟩⟩

lemma answers_modify (g : Verdicts → Verdicts) : Answers (modify g : Attempt PUnit) :=
  fun w => ⟨⟨⟩, g w, yields_modify.mpr rfl⟩

/-- A question to the schemas that has an answer, with a step after it. -/
lemma answers_lift_bind {y : Except AnalysisError α} (hy : y = .ok a) (hf : Answers (f a)) :
    Answers (liftM y >>= f) := fun w => by
  obtain ⟨c, w', hc⟩ := hf w
  exact ⟨c, w', yields_bind.mpr ⟨a, w, yields_lift.mpr ⟨hy, rfl⟩, hc⟩⟩

/-- A loop whose steps have no errors has none: it stops early, or it goes through the list. -/
lemma answers_anyM {p : α → Attempt Bool} {l : List α} (h : ∀ a ∈ l, Answers (p a)) :
    Answers (l.anyM p) := by
  induction l with
  | nil => exact answers_pure _
  | cons a l ih =>
      refine (h a (by simp)).bind fun passes => ?_
      cases passes with
      | true => exact answers_pure _
      | false => exact ih fun a ha => h a (by simp [ha])

lemma answers_allM {p : α → Attempt Bool} {l : List α} (h : ∀ a ∈ l, Answers (p a)) :
    Answers (l.allM p) := by
  induction l with
  | nil => exact answers_pure _
  | cons a l ih =>
      refine (h a (by simp)).bind fun passes => ?_
      cases passes with
      | false => exact answers_pure _
      | true => exact ih fun a ha => h a (by simp [ha])

lemma answers_findSomeM? {f : α → Attempt (Option β)} {l : List α}
    (hf : ∀ a ∈ l, Answers (f a)) : Answers (l.findSomeM? f) := by
  induction l with
  | nil => exact answers_pure none
  | cons a l ih =>
      refine (hf a (by simp)).bind fun answer => ?_
      cases answer with
      | some b => exact answers_pure (some b)
      | none => exact ih fun a ha => hf a (by simp [ha])

section Search

variable {agree : Agreement} {sides : Sides}

variable (agree sides) in
/-- Whether all questions on predicates have answers that a search between two
lists can ask. -/
def AllAnswered (domain range : List Literal) : Prop :=
  ∀ a ∈ domain, ∀ b ∈ range, ∀ d ∈ a.predicate?, ∀ r ∈ b.predicate?, Answers (agree sides d r)

/-- A search asks no questions but those on the predicates of its literals. -/
lemma answers_matchLiterals {s : Substitution} {a b : Literal}
    (h : ∀ d ∈ a.predicate?, ∀ r ∈ b.predicate?, Answers (agree sides d r)) :
    Answers (matchLiterals agree sides s a b) := by
  cases a with
  | builtIn a =>
      cases b with
      | builtIn b => exact answers_pure _
      | ordinary q b => exact answers_pure _
  | ordinary p a =>
      cases b with
      | builtIn b => exact answers_pure _
      | ordinary q b =>
          rw [matchLiterals]
          split
          · refine (h _ rfl _ rfl).bind fun answer => ?_
            cases answer <;> exact answers_pure _
          · exact answers_pure _

/-- **A search ends with an answer** if all its questions on predicates have one. -/
lemma answers_search {domain range : List Literal} (s : Substitution)
    (h : AllAnswered agree sides domain range) : Answers (search agree sides range domain s) := by
  induction domain generalizing s with
  | nil => exact answers_pure _
  | cons first rest ih =>
      rw [search]
      refine answers_findSomeM? fun b hb => ?_
      refine (answers_matchLiterals (h first (by simp) b hb)).bind fun ways => ?_
      exact answers_findSomeM? fun u _ => ih u fun a ha => h a (by simp [ha])

/-- So does a comparison of rules, which may not even start a search. -/
lemma answers_searchRule {rule other : Rule}
    (h : AllAnswered agree sides rule.body.literals other.body.literals) :
    Answers (searchRule agree sides rule other) := by
  rw [searchRule]
  split
  · exact answers_search _ h
  · exact answers_pure _

end Search

end DependencyTheory.Homomorphism
