/-
What the checks of the languages answer:

* `Schema.requireAtomicBodies_eq_ok`: a schema is supported iff its bodies are made of
  positive atoms;
* `Schema.affectedPositions_eq_ok`: a supported schema has affected positions;
* `Schema.languageChecks`, `Schema.check_eq_error`: the four checks, which are refused for
  the schemas that are not supported;
* `Schema.covers_of_isWeaklyGuarded`: in a weakly guarded schema, some body literal has all
  variables that stand at affected positions only;
* `Schema.eq_of_isSticky`: in a sticky schema, no marked variable stands twice in its body.
-/
import DependencyTheory.Language
import DependencyTheory.Proofs.Position.Marking
import DependencyTheory.Proofs.Semantics.Facts

namespace DependencyTheory

namespace Tgd

variable {t : Tgd} {xs ys : OrderedSet String}

/-- The literal that covers some variables is one of the body. -/
lemma isSome_coveringLiteral? :
    (t.coveringLiteral? xs).isSome = true ↔ ∃ l ∈ t.body.literals, ∀ x ∈ xs, x ∈ l.vars := by
  simp [coveringLiteral?, OrderedSet.mem_toList]

/-- A body literal that covers some variables covers all subsets of them. -/
lemma isSome_coveringLiteral?_mono (hsubset : ∀ x ∈ ys, x ∈ xs)
    (h : (t.coveringLiteral? xs).isSome = true) : (t.coveringLiteral? ys).isSome = true := by
  obtain ⟨l, hl, hcovers⟩ := isSome_coveringLiteral?.mp h
  exact isSome_coveringLiteral?.mpr ⟨l, hl, fun x hx => hcovers x (hsubset x hx)⟩

end Tgd

namespace Schema

variable {s : Schema} {property : Except AnalysisError Bool} {e : AnalysisError}

/-! ### Supported schemas -/

/-- **A schema is supported** iff all its bodies consist of affirmed atoms. -/
theorem requireAtomicBodies_eq_ok :
    s.requireAtomicBodies = .ok () ↔ ∀ d ∈ s.dependencies, d.body.IsAtomic := by
  have hatom : ∀ l : Literal, l.unsupported? = none ↔ ∃ a, l = .ordinary true a := by
    intro l
    cases l with
    | builtIn b => simp [Literal.unsupported?]
    | ordinary positive a => cases positive <;> simp [Literal.unsupported?]
  have hnone : (s.dependencies.flatMap fun d => d.body.literals).findSome?
      Literal.unsupported? = none ↔ ∀ d ∈ s.dependencies, d.body.IsAtomic := by
    simp only [List.findSome?_eq_none_iff, List.mem_flatMap, hatom, Clause.IsAtomic]
    exact ⟨fun h d hd l hl => h l ⟨d, hd, hl⟩, fun h l ⟨d, hd, hl⟩ => h d hd l hl⟩
  rw [requireAtomicBodies, ← hnone]
  split
  · next reason h => simp [h]
  · next h => simp [h]

/-- The bodies of a supported schema's dependencies consist of affirmed atoms. -/
lemma isAtomic_of_requireAtomicBodies (h : s.requireAtomicBodies = .ok ()) :
    ∀ t ∈ s.tgds, t.body.IsAtomic :=
  fun t ht => requireAtomicBodies_eq_ok.mp h (.tgd t) (mem_tgds.mp ht)

/-- A schema that is not supported has a body literal that the languages leave out. -/
lemma exists_unsupported (h : s.requireAtomicBodies = .error e) :
    ∃ reason, e = .unsupported reason := by
  rw [requireAtomicBodies] at h
  split at h
  · exact ⟨_, (Except.error.inj h).symm⟩
  · cases h

/-- A supported schema has affected positions, and no other schema. -/
lemma affectedPositions_eq_ok {affected : OrderedSet Position} :
    s.affectedPositions = .ok affected ↔
      s.requireAtomicBodies = .ok () ∧ affected = DependencyTheory.affectedPositions s.tgds := by
  rw [affectedPositions]
  cases h : s.requireAtomicBodies with
  | error e => exact ⟨fun he => (nomatch he), fun he => (nomatch he.1)⟩
  | ok => exact ⟨fun he => ⟨rfl, (Except.ok.inj he).symm⟩, fun he => congrArg _ he.2.symm⟩

lemma affectedPositions_eq_error :
    s.affectedPositions = .error e ↔ s.requireAtomicBodies = .error e := by
  rw [affectedPositions]
  cases h : s.requireAtomicBodies with
  | error e' => exact ⟨fun he => congrArg _ (Except.error.inj he),
      fun he => congrArg _ (Except.error.inj he)⟩
  | ok => exact ⟨fun he => (nomatch he), fun he => (nomatch he)⟩

/-- A supported schema has a marking. -/
lemma exists_stickyMarking (h : s.requireAtomicBodies = .ok ()) :
    ∃ marked, stickyMarking s.tgds = .ok marked :=
  ⟨_, stickyMarking_eq_ok.mpr ⟨isAtomic_of_requireAtomicBodies h, rfl⟩⟩

/-! ### Checks -/

lemma isNonConflictingAnd_of_error (h : s.requireAtomicBodies = .error e) :
    s.isNonConflictingAnd property = .error e := by
  rw [isNonConflictingAnd, h]
  rfl

lemma isNonConflictingAnd_of_ok (h : s.requireAtomicBodies = .ok ()) :
    s.isNonConflictingAnd property = if s.isNonConflicting then property else .ok false := by
  rw [isNonConflictingAnd, h]
  rfl

/-- A check of a property that is defined for supported schemas is not defined just for the
others. -/
lemma isNonConflictingAnd_eq_error
    (h : s.requireAtomicBodies = .ok () → ∃ v, property = .ok v) :
    s.isNonConflictingAnd property = .error e ↔ s.requireAtomicBodies = .error e := by
  cases hbodies : s.requireAtomicBodies with
  | error e' =>
      rw [isNonConflictingAnd_of_error hbodies]
      simp
  | ok =>
      obtain ⟨v, rfl⟩ := h hbodies
      rw [isNonConflictingAnd_of_ok hbodies]
      split <;> simp

/-- A check passes iff the schema is supported and non-conflicting, and has the property
in question. -/
lemma isNonConflictingAnd_eq_true : s.isNonConflictingAnd property = .ok true ↔
    s.requireAtomicBodies = .ok () ∧ s.isNonConflicting = true ∧ property = .ok true := by
  cases h : s.requireAtomicBodies with
  | error e =>
      rw [isNonConflictingAnd_of_error h]
      exact ⟨fun he => (nomatch he), fun he => (nomatch he.1)⟩
  | ok =>
      rw [isNonConflictingAnd_of_ok h]
      cases s.isNonConflicting <;> simp

/-- A check still passes on a schema that is supported, non-conflicting and has the property in
question if another one is and has. -/
lemma isNonConflictingAnd_mono {s' : Schema} {property' : Except AnalysisError Bool}
    (hbodies : s.requireAtomicBodies = .ok () → s'.requireAtomicBodies = .ok ())
    (hconflicts : s.isNonConflicting = true → s'.isNonConflicting = true)
    (hproperty : s.requireAtomicBodies = .ok () → property = .ok true → property' = .ok true)
    (h : s.isNonConflictingAnd property = .ok true) :
    s'.isNonConflictingAnd property' = .ok true := by
  obtain ⟨hs, hnone, hp⟩ := isNonConflictingAnd_eq_true.mp h
  exact isNonConflictingAnd_eq_true.mpr ⟨hbodies hs, hconflicts hnone, hproperty hs hp⟩

/-- The property that the check for weak guards looks at, in a supported schema. -/
lemma isWeaklyGuarded_of_ok (h : s.requireAtomicBodies = .ok ()) :
    s.isWeaklyGuarded = s.isNonConflictingAnd (.ok (s.tgds.all fun t =>
      (t.coveringLiteral?
        (t.affectedVariables (DependencyTheory.affectedPositions s.tgds))).isSome)) := by
  rw [isWeaklyGuarded, affectedPositions_eq_ok.mpr ⟨h, rfl⟩]
  rfl

/-- The property that the check for stickiness looks at, in a supported schema. -/
lemma isSticky_of_ok {marked : OrderedSet BodyPosition} (h : stickyMarking s.tgds = .ok marked) :
    s.isSticky = s.isNonConflictingAnd (.ok (decide (marked.toList.filterMap fun p =>
      (p.varName? s.tgds).map fun x => (p.tgd, x)).Nodup)) := by
  rw [isSticky, h]
  rfl

/-- The checks of the languages. -/
def languageChecks : List (Schema → Except AnalysisError Bool) :=
  [isLinear, isGuarded, isWeaklyGuarded, isSticky]

/-- A check is not defined for a schema iff this is not supported, and for the same reason. -/
lemma check_eq_error {e : AnalysisError} : ∀ check ∈ languageChecks,
    (check s = .error e ↔ s.requireAtomicBodies = .error e) := by
  simp only [languageChecks, List.forall_mem_cons, List.not_mem_nil, false_imp_iff, forall_const,
    and_true]
  refine ⟨isNonConflictingAnd_eq_error fun _ => ⟨_, rfl⟩,
    isNonConflictingAnd_eq_error fun _ => ⟨_, rfl⟩,
    isNonConflictingAnd_eq_error fun hbodies => ?_, isNonConflictingAnd_eq_error fun hbodies => ?_⟩
  · rw [affectedPositions_eq_ok.mpr ⟨hbodies, rfl⟩]
    exact ⟨_, rfl⟩
  · obtain ⟨marked, hmarked⟩ := exists_stickyMarking hbodies
    rw [hmarked]
    exact ⟨_, rfl⟩

/-- **In a weakly guarded schema**, some body literal has all the variables that stand in the
body at affected positions only. -/
theorem covers_of_isWeaklyGuarded (h : s.isWeaklyGuarded = .ok true) {t : Tgd}
    (ht : t ∈ s.tgds) : ∃ l ∈ t.body.literals,
      ∀ x ∈ t.affectedVariables (DependencyTheory.affectedPositions s.tgds), x ∈ l.vars := by
  obtain ⟨hbodies, -, -⟩ := isNonConflictingAnd_eq_true.mp h
  rw [isWeaklyGuarded_of_ok hbodies] at h
  obtain ⟨-, -, hall⟩ := isNonConflictingAnd_eq_true.mp h
  exact Tgd.isSome_coveringLiteral?.mp (List.all_eq_true.mp (Except.ok.inj hall) t ht)

/-- **In a sticky schema**, no marked variable stands at two positions of its body. -/
theorem eq_of_isSticky (h : s.isSticky = .ok true) {p q : BodyPosition} {x : String}
    (htgd : p.tgd = q.tgd) (hp : Stands s.tgds p x) (hq : Stands s.tgds q x)
    (hmark : IsMarked s.tgds p.tgd x) : p = q := by
  obtain ⟨hbodies, -, -⟩ := isNonConflictingAnd_eq_true.mp h
  obtain ⟨marked, hmarked⟩ := exists_stickyMarking hbodies
  rw [isSticky_of_ok hmarked] at h
  obtain ⟨-, -, hnodup⟩ := isNonConflictingAnd_eq_true.mp h
  have hone := (nodup_markedNames_iff hmarked).mp (of_decide_eq_true (Except.ok.inj hnodup))
  exact hone p q x htgd hp hq hmark

end Schema

end DependencyTheory
