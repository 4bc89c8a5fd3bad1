/-
When building a schema succeeds:

* `Builder.forM_requireOwned`: a check of all handles passes iff it passes for each;
* `Builder.build_eq_ok`: a builder yields a schema iff its table owns all handles that
  are referred to, and the schema then has its table and dependencies;
* `Schema.withDependencies_eq_ok`: a schema that has been built stays one when its
  dependencies are exchanged for others over its predicates.
-/
import DependencyTheory.Schema.Builder
import Mathlib.Tactic.Lemma

namespace DependencyTheory

namespace Builder

variable {b : Builder}

/-- A check of all handles passes iff it passes for each. -/
lemma forM_requireOwned {hs : List Handle} :
    forM hs b.requireOwned = .ok ⟨⟩ ↔ ∀ h ∈ hs, b.predicates.owns h = true := by
  induction hs with
  | nil => exact ⟨fun _ h hh => absurd hh List.not_mem_nil, fun _ => rfl⟩
  | cons h hs ih =>
      rw [List.forM_cons, List.forall_mem_cons, ← ih]
      by_cases hh : b.predicates.owns h = true
      · have hok : b.requireOwned h = .ok () := if_pos hh
        rw [hok, and_iff_right hh]
        rfl
      · have herror : b.requireOwned h = .error (.predicateOutsideSchema h.index h.arity) :=
          if_neg hh
        rw [herror]
        exact ⟨fun hf => (nomatch hf), fun hf => absurd hf.1 hh⟩

/-- **Building succeeds** iff the table owns all handles that are referred to. -/
theorem build_eq_ok {s : Schema} :
    b.build = .ok s ↔
      (∀ h ∈ b.references, b.predicates.owns h = true) ∧ s = ⟨b.predicates, b.dependencies⟩ := by
  rw [build, List.forM_eq_forM, ← forM_requireOwned]
  cases hcheck : forM b.references b.requireOwned with
  | error e => exact ⟨fun h => (nomatch h), fun h => (nomatch h.1)⟩
  | ok => exact ⟨fun h => ⟨rfl, (Except.ok.inj h).symm⟩, fun h => congrArg Except.ok h.2.symm⟩

end Builder

/-- A built schema stays one with other dependencies over its predicates. -/
theorem Schema.withDependencies_eq_ok {b : Builder} {s : Schema} (hb : b.build = .ok s)
    {ds : List Dependency} (hds : ∀ d ∈ ds, ∀ h ∈ d.predicates, s.owns h = true) :
    s.withDependencies ds = .ok ⟨s.predicates, ds⟩ := by
  obtain ⟨howns, rfl⟩ := Builder.build_eq_ok.mp hb
  refine Builder.build_eq_ok.mpr ⟨fun h hh => ?_, rfl⟩
  rcases List.mem_append.mp hh with hh | hh
  · exact howns h (List.mem_append_left _ hh)
  · obtain ⟨d, hd, hh⟩ := List.mem_flatMap.mp hh
    exact hds d hd h hh

/-- A built schema owns the predicates of its dependencies. -/
theorem Schema.owns_of_build {b : Builder} {s : Schema} (hb : b.build = .ok s) :
    ∀ d ∈ s.dependencies, ∀ h ∈ d.predicates, s.owns h = true := by
  obtain ⟨howns, rfl⟩ := Builder.build_eq_ok.mp hb
  exact fun d hd h hh =>
    howns h (List.mem_append_right _ (List.mem_flatMap.mpr ⟨d, hd, hh⟩))

end DependencyTheory
