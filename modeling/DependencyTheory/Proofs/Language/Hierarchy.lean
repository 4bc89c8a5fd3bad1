/-
The checks of the languages among each other:

* `Tgd.isGuarded_of_isLinear`, `Schema.isGuarded_of_isLinear`: a single body literal has all
  variables of the body, so that linear dependencies are guarded;
* `Schema.isWeaklyGuarded_of_isGuarded`: and guarded ones are weakly guarded, since only
  variables of the body stand at affected positions;
* `Schema.checks_hierarchy`: the checks are defined for the same schemas, have one answer where
  there is a conflict, and imply each other in this order.
-/
import DependencyTheory.Proofs.Language.Fixpoints

namespace DependencyTheory

/-- A body of one literal is guarded by it. -/
lemma Tgd.isGuarded_of_isLinear {t : Tgd} (h : t.isLinear = true) : t.isGuarded = true := by
  obtain ⟨l, hl⟩ : ∃ l, t.body.literals = [l] := List.length_eq_one_iff.mp (beq_iff_eq.mp h)
  refine isSome_coveringLiteral?.mpr ⟨l, hl ▸ List.mem_singleton_self l, fun x hx => ?_⟩
  obtain ⟨l', hl', hx⟩ := List.mem_flatMap.mp (OrderedSet.mem_ofList.mp hx)
  rw [hl, List.mem_singleton] at hl'
  exact hl' ▸ hx

namespace Schema

variable {s : Schema}

/-! ### From one check to the next -/

lemma isGuarded_of_isLinear (h : s.isLinear = .ok true) : s.isGuarded = .ok true := by
  refine isNonConflictingAnd_mono id id (fun _ hlinear => congrArg Except.ok ?_) h
  refine List.all_eq_true.mpr fun t ht => ?_
  exact Tgd.isGuarded_of_isLinear (List.all_eq_true.mp (Except.ok.inj hlinear) t ht)

lemma isWeaklyGuarded_of_isGuarded (h : s.isGuarded = .ok true) :
    s.isWeaklyGuarded = .ok true := by
  obtain ⟨hbodies, -, -⟩ := isNonConflictingAnd_eq_true.mp h
  rw [isWeaklyGuarded_of_ok hbodies]
  refine isNonConflictingAnd_mono id id (fun _ hguarded => congrArg Except.ok ?_) h
  refine List.all_eq_true.mpr fun t ht => ?_
  have hguard : (t.coveringLiteral? t.universal).isSome = true :=
    List.all_eq_true.mp (Except.ok.inj hguarded) t ht
  exact Tgd.isSome_coveringLiteral?_mono (fun x hx => (Tgd.mem_affectedVariables.mp hx).1) hguard

/-! ### All checks -/

/-- All checks have an answer iff the bodies are supported. -/
lemma forall_check_eq_ok_iff : (∀ check ∈ languageChecks, ∃ verdict, check s = .ok verdict) ↔
    s.requireAtomicBodies = .ok () := by
  refine ⟨fun h => ?_, fun h check hcheck => ?_⟩
  · obtain ⟨verdict, hlinear⟩ := h isLinear List.mem_cons_self
    cases hbodies : s.requireAtomicBodies with
    | ok => rfl
    | error e =>
        have herror := (check_eq_error isLinear List.mem_cons_self).mpr hbodies
        cases hlinear.symm.trans herror
  · cases hverdict : check s with
    | ok verdict => exact ⟨verdict, rfl⟩
    | error e => cases h.symm.trans ((check_eq_error check hcheck).mp hverdict)

/-- A check that is defined for a schema has the answer "no" where there is a conflict. -/
lemma check_eq_false (hbodies : s.requireAtomicBodies = .ok ())
    (hconflict : s.isNonConflicting = false) : ∀ check ∈ languageChecks, check s = .ok false := by
  have hfalse : ∀ property, s.isNonConflictingAnd property = .ok false := fun property => by
    rw [isNonConflictingAnd_of_ok hbodies, hconflict]
    rfl
  simp only [languageChecks, List.forall_mem_cons, List.not_mem_nil, false_imp_iff, forall_const,
    and_true]
  exact ⟨hfalse _, hfalse _, hfalse _, hfalse _⟩

/-- Whether all checks and the affected positions are refused, for the same reason. -/
def RefusedFor (s : Schema) (reason : Unsupported) : Prop :=
  (∀ check ∈ languageChecks, check s = .error (.unsupported reason)) ∧
    s.affectedPositions = .error (.unsupported reason)

lemma refusedFor_iff {reason : Unsupported} :
    s.RefusedFor reason ↔ s.requireAtomicBodies = .error (.unsupported reason) := by
  rw [RefusedFor, affectedPositions_eq_error]
  exact ⟨fun h => h.2, fun h => ⟨fun check hcheck => (check_eq_error check hcheck).mpr h, h⟩⟩

/-- **The checks form a hierarchy.** Either all of them are refused for one reason, the affected
positions with them, or none is; and they are refused iff some body has a denied atom or a
built-in literal. Where they are not refused, all of them fail if there is a conflict. A linear
schema is guarded, and a guarded one is weakly guarded. -/
theorem checks_hierarchy (s : Schema) :
    ((∃ reason, s.RefusedFor reason) ∨
        ∀ check ∈ languageChecks, ∃ verdict, check s = .ok verdict) ∧
      ((∃ reason, s.RefusedFor reason) ↔
        ∃ d ∈ s.dependencies, ∃ l ∈ d.body.literals,
          (∃ a, l = .ordinary false a) ∨ ∃ b, l = .builtIn b) ∧
      ((∀ check ∈ languageChecks, ∃ verdict, check s = .ok verdict) →
        s.isNonConflicting = false → ∀ check ∈ languageChecks, check s = .ok false) ∧
      (s.isLinear = .ok true → s.isGuarded = .ok true) ∧
      (s.isGuarded = .ok true → s.isWeaklyGuarded = .ok true) := by
  simp only [refusedFor_iff, forall_check_eq_ok_iff]
  refine ⟨?_, requireAtomicBodies_eq_unsupported, check_eq_false, isGuarded_of_isLinear,
    isWeaklyGuarded_of_isGuarded⟩
  cases hbodies : s.requireAtomicBodies with
  | ok => exact Or.inr rfl
  | error e =>
      obtain ⟨reason, rfl⟩ := exists_unsupported hbodies
      exact Or.inl ⟨reason, rfl⟩

end Schema

namespace Ward

/-- Pairs are taken over as they are, although their first value is to determine the second. -/
def collision : Schema :=
  let p (x y : String) : Atom := .ofVars 0 [x, y]
  let e (x y : String) : Atom := .ofVars 1 [x, y]
  ⟨[⟨0, "P", 2, []⟩, ⟨0, "E", 2, []⟩],
    [.tgd (.ofAtoms (.ofAtoms (p "x" "y") []) (e "x" "y") []),
      .egd ⟨.ofAtoms (e "i" "x") [e "i" "y"], .var "x", .var "y"⟩]⟩

/-- The first of two body atoms has all variables. -/
def schema : Schema :=
  let p (x : String) : Atom := .ofVars 0 [x]
  let e (x y : String) : Atom := .ofVars 1 [x, y]
  ⟨[⟨0, "P", 1, []⟩, ⟨0, "E", 2, []⟩],
    [.tgd (.ofAtoms (.ofAtoms (e "x" "y") [p "x"]) (e "y" "z") [])]⟩

/-- A conflict makes all checks fail, single body atoms or not; the detour is linear, hence
guarded; and the guarded schema is weakly guarded without being linear. -/
theorem checks_hierarchy_ward :
    (collision.isNonConflicting = false ∧
        ∀ check ∈ Schema.languageChecks, check collision = .ok false) ∧
      (Detour.schema.isLinear = .ok true ∧ Detour.schema.isGuarded = .ok true) ∧
      (schema.isLinear = .ok false ∧ schema.isGuarded = .ok true ∧
        schema.isWeaklyGuarded = .ok true) := by
  obtain ⟨hanswers, -, hconflict, -, -⟩ := Schema.checks_hierarchy collision
  obtain ⟨-, -, -, hlinear, -⟩ := Schema.checks_hierarchy Detour.schema
  obtain ⟨-, -, -, -, hguarded⟩ := Schema.checks_hierarchy schema
  have hconflicts : collision.isNonConflicting = false := by decide +kernel
  have hbodies : collision.requireAtomicBodies = .ok () := rfl
  have hsupported : ¬∃ reason, collision.RefusedFor reason := by
    rintro ⟨reason, -, haffected⟩
    exact nomatch hbodies.symm.trans (Schema.affectedPositions_eq_error.mp haffected)
  have hdetour : Detour.schema.isLinear = .ok true := by decide +kernel
  have hward : schema.isGuarded = .ok true := by decide +kernel
  refine ⟨⟨hconflicts, hconflict (hanswers.resolve_left hsupported) hconflicts⟩,
    ⟨hdetour, hlinear hdetour⟩, ⟨by decide +kernel, hward, hguarded hward⟩⟩

end Ward

end DependencyTheory
