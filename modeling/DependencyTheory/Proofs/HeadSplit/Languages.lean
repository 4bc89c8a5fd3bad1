/-
Splitting heads never loses membership in a language:

* `isAffected_split_iff`: the affected positions stay the same;
* `isMarked_split_iff`: a variable is marked in a dependency iff it is in some part of it;
* `Tgd.conflictsWith_of_mem_split`: a part conflicts with no functional dependency with
  which the whole does not;
* `Schema.languages_splitHeads`: so every check that a schema passes is passed by the schema
  with all heads split, and the checks agree if the two agree on conflicts.

The parts of the dependency at place `n` stand one after the other, from the place
`firstPart ts n` on.
-/
import DependencyTheory.Proofs.Conflict.Heads
import DependencyTheory.Proofs.HeadSplit.Models
import DependencyTheory.Proofs.Language.Verdicts
import Mathlib.Data.List.Flatten

namespace DependencyTheory

variable {ts : List Tgd} {t part : Tgd} {n k : Nat} {x : String} {p : Position}

/-! ### Places of parts -/

/-- The place of the first part of the dependency at a place. -/
def firstPart (ts : List Tgd) (n : Nat) : Nat := ((ts.take n).flatMap Tgd.split).length

/-- The parts of a dependency stand one after the other. -/
lemma getElem?_parts (ht : ts[n]? = some t) (hk : k < t.split.length) :
    (ts.flatMap Tgd.split)[firstPart ts n + k]? = t.split[k]? := by
  obtain ⟨hn, rfl⟩ := List.getElem?_eq_some_iff.mp ht
  have hsplit : ts.flatMap Tgd.split = (ts.take n).flatMap Tgd.split ++
      (ts[n].split ++ (ts.drop (n + 1)).flatMap Tgd.split) := by
    rw [← List.flatMap_cons, ← List.drop_eq_getElem_cons hn, ← List.flatMap_append,
      List.take_append_drop]
  rw [hsplit, firstPart, List.getElem?_append_right (Nat.le_add_right _ _),
    Nat.add_sub_cancel_left, List.getElem?_append_left hk]

/-- Every place is that of a part of some dependency. -/
lemma exists_whole {m : Nat} (h : (ts.flatMap Tgd.split)[m]? = some part) :
    ∃ n t k, ts[n]? = some t ∧ t.split[k]? = some part ∧ m = firstPart ts n + k := by
  induction ts generalizing m with
  | nil => exact absurd h (by simp)
  | cons u us ih =>
      rw [List.flatMap_cons] at h
      by_cases hm : m < u.split.length
      · rw [List.getElem?_append_left hm] at h
        exact ⟨0, u, m, rfl, h, (Nat.zero_add m).symm⟩
      · have hle : u.split.length ≤ m := Nat.not_lt.mp hm
        rw [List.getElem?_append_right hle] at h
        obtain ⟨n, t, k, ht, hk, hmk⟩ := ih h
        have hfirst : firstPart (u :: us) (n + 1) = u.split.length + firstPart us n := by
          rw [firstPart, firstPart, List.take_succ_cons, List.flatMap_cons, List.length_append]
        exact ⟨n + 1, t, k, ht, hk, by omega⟩

/-! ### Affected positions -/

/-- **Splitting keeps the affected positions.** -/
theorem isAffected_split_iff : IsAffected (ts.flatMap Tgd.split) p ↔ IsAffected ts p := by
  constructor
  · intro h
    induction h with
    | invented ht ha hp hx =>
        obtain ⟨t, ht, hpart⟩ := List.mem_flatMap.mp ht
        rw [Tgd.universal_of_mem_split hpart] at hx
        exact .invented ht (Tgd.exists_part_iff.mp ⟨_, hpart, ha⟩) hp hx
    | carried ht ha hp hx _ ih =>
        obtain ⟨t, ht, hpart⟩ := List.mem_flatMap.mp ht
        rw [Tgd.universal_of_mem_split hpart] at hx
        rw [(Tgd.mem_split.mp hpart).1] at ih
        exact .carried ht (Tgd.exists_part_iff.mp ⟨_, hpart, ha⟩) hp hx ih
  · intro h
    induction h with
    | invented ht ha hp hx =>
        obtain ⟨part, hpart, ha⟩ := Tgd.exists_part_iff.mpr ha
        rw [← Tgd.universal_of_mem_split hpart] at hx
        exact .invented (List.mem_flatMap.mpr ⟨_, ht, hpart⟩) ha hp hx
    | carried ht ha hp hx _ ih =>
        obtain ⟨part, hpart, ha⟩ := Tgd.exists_part_iff.mpr ha
        rw [← Tgd.universal_of_mem_split hpart] at hx
        rw [← (Tgd.mem_split.mp hpart).1] at ih
        exact .carried (List.mem_flatMap.mpr ⟨_, ht, hpart⟩) ha hp hx ih

/-! ### Marked variables -/

lemma Tgd.standsInBody_of_mem_split (hpart : part ∈ t.split) {q : BodyPosition} :
    part.StandsInBody q x ↔ t.StandsInBody q x := by
  rw [StandsInBody, StandsInBody, (mem_split.mp hpart).1]

/-- What stands in a body stands in the bodies of the parts. -/
lemma stands_moveTo (ht : ts[n]? = some t) (hk : k < t.split.length) {q : BodyPosition} :
    Stands (ts.flatMap Tgd.split) (q.moveTo (firstPart ts n + k)) x ↔ t.StandsInBody q x := by
  have hpart : t.split[k] ∈ t.split := List.getElem_mem hk
  have hplace : (ts.flatMap Tgd.split)[firstPart ts n + k]? = some t.split[k] := by
    rw [getElem?_parts ht hk, List.getElem?_eq_getElem hk]
  rw [← Tgd.standsInBody_of_mem_split hpart]
  constructor
  · rintro ⟨u, hu, hx⟩
    obtain rfl := Option.some.inj (hplace.symm.trans hu)
    exact hx
  · exact fun hx => ⟨_, hplace, hx⟩

/-- What is marked in a part is marked in the whole. -/
lemma isMarked_of_part {m : Nat} (h : IsMarked (ts.flatMap Tgd.split) m x)
    (ht : ts[n]? = some t) (hk : k < t.split.length) (hm : m = firstPart ts n + k) :
    IsMarked ts n x := by
  have hmem : ∀ {n k m : Nat} {t part : Tgd}, ts[n]? = some t → k < t.split.length →
      m = firstPart ts n + k → (ts.flatMap Tgd.split)[m]? = some part → part ∈ t.split := by
    rintro n k m t part ht hk rfl hpart
    rw [getElem?_parts ht hk] at hpart
    exact List.mem_of_getElem? hpart
  induction h generalizing n t k with
  | lost hpart ha hx =>
      exact .lost ht (Tgd.exists_part_iff.mp ⟨_, hmem ht hk hm hpart, ha⟩) hx
  | @exposed m part x y a q hpart ha hx hq _ ih =>
      obtain ⟨u, hu, hy⟩ := hq
      obtain ⟨n', t', k', ht', hk', hm'⟩ := exists_whole hu
      obtain ⟨hlt, -⟩ := List.getElem?_eq_some_iff.mp hk'
      have hpart' : u ∈ t'.split := List.mem_of_getElem? hk'
      have hstands : Stands ts (q.moveTo n') y :=
        ⟨t', ht', (Tgd.standsInBody_of_mem_split hpart').mp hy⟩
      have ha' : a ∈ t.head := Tgd.exists_part_iff.mp ⟨_, hmem ht hk hm hpart, ha⟩
      exact .exposed (q := q.moveTo n') ht ha' hx hstands (ih ht' hlt hm')

/-- **A variable is marked in a dependency iff it is marked in some part.** -/
theorem isMarked_split_iff (ht : ts[n]? = some t) : IsMarked ts n x ↔
    ∃ k < t.split.length, IsMarked (ts.flatMap Tgd.split) (firstPart ts n + k) x := by
  refine ⟨fun h => ?_, fun ⟨k, hk, h⟩ => isMarked_of_part h ht hk rfl⟩
  -- the part that has a given head atom
  have hplace : ∀ {n : Nat} {t : Tgd} {a : Atom}, ts[n]? = some t → a ∈ t.head →
      ∃ (k : Nat) (part : Tgd), k < t.split.length ∧ a ∈ part.head ∧
        (ts.flatMap Tgd.split)[firstPart ts n + k]? = some part := by
    intro n t a ht ha
    obtain ⟨part, hpart, ha⟩ := Tgd.exists_part_iff.mpr ha
    obtain ⟨k, hk, rfl⟩ := List.mem_iff_getElem.mp hpart
    exact ⟨k, _, hk, ha, by rw [getElem?_parts ht hk, List.getElem?_eq_getElem hk]⟩
  induction h generalizing t with
  | lost ht' ha hx =>
      obtain rfl := Option.some.inj (ht'.symm.trans ht)
      obtain ⟨k, part, hk, ha, hpart⟩ := hplace ht ha
      exact ⟨k, hk, .lost hpart ha hx⟩
  | @exposed n t' x y a q ht' ha hx hq _ ih =>
      obtain rfl := Option.some.inj (ht'.symm.trans ht)
      obtain ⟨u, hu, hy⟩ := hq
      obtain ⟨k', hk', hmark⟩ := ih hu
      obtain ⟨k, part, hk, ha, hpart⟩ := hplace ht ha
      have hstands := (stands_moveTo hu hk').mpr hy
      exact ⟨k, hk,
        .exposed (q := q.moveTo (firstPart ts q.tgd + k')) hpart ha hx hstands hmark⟩

/-! ### Conflicts -/

namespace Tgd

variable {fd : FunctionalDependency} {key : IndexSet} {atoms : List Atom} {a : Atom}

/-- A part has the existential variables of its atoms. -/
lemma existentialOccurrences_of_mem_split (hpart : part ∈ t.split)
    (hatoms : ∀ a ∈ atoms, a ∈ part.head) :
    part.existentialOccurrences atoms = t.existentialOccurrences atoms := by
  refine List.filter_congr fun x hx => ?_
  obtain ⟨a, ha, hx⟩ := List.mem_flatMap.mp hx
  obtain ⟨p, hp⟩ := Atom.mem_vars.mp hx
  have ha' : a ∈ t.head := exists_part_iff.mp ⟨part, hpart, hatoms a ha⟩
  rw [decide_eq_decide, mem_existential_iff (hatoms a ha) hp, mem_existential_iff ha' hp,
    universal_of_mem_split hpart]

lemma atomConflicts_of_mem_split (hpart : part ∈ t.split) (ha : a ∈ part.head) :
    part.atomConflicts key a = t.atomConflicts key a := by
  have hatoms : ∀ b ∈ [a], b ∈ part.head := fun b hb => List.mem_singleton.mp hb ▸ ha
  rw [atomConflicts, atomConflicts, existentialOccurrences_of_mem_split hpart hatoms,
    universal_of_mem_split hpart]

/-- **A part has no conflict that the whole does not have.** -/
theorem conflictsWith_of_mem_split (hpart : part ∈ t.split) (h : t.conflictsWith fd = false) :
    part.conflictsWith fd = false := by
  have hhead : part.head.Sublist t.head := head_sublist_of_mem_split hpart
  rw [conflictsWith, Bool.or_eq_false_iff, Bool.and_eq_false_iff, Bool.not_eq_false',
    decide_eq_false_iff_not, decide_eq_true_eq, List.any_eq_false] at h ⊢
  refine ⟨h.1.imp (fun hle hlt => ?_) fun hnodup => ?_, fun a ha => ?_⟩
  · exact hle (hlt.trans_le (hhead.filter _).length_le)
  · rw [existentialOccurrences_of_mem_split hpart fun _ => id]
    exact hnodup.sublist ((hhead.flatMap _).filter _)
  · obtain ⟨ha, hp⟩ := List.mem_filter.mp ha
    rw [atomConflicts_of_mem_split hpart ha]
    exact h.2 a (List.mem_filter.mpr ⟨hhead.subset ha, hp⟩)

end Tgd

/-! ### The whole schema -/

namespace Dependency

variable {d part : Dependency}

lemma body_of_mem_split (h : part ∈ d.split) : part.body = d.body := by
  cases d with
  | egd e => rw [List.mem_singleton.mp h]
  | tgd t =>
      obtain ⟨t', ht', rfl⟩ := List.mem_map.mp h
      exact (Tgd.mem_split.mp ht').1

lemma split_ne_nil (d : Dependency) : d.split ≠ [] := by
  cases d with
  | egd e => exact List.cons_ne_nil _ _
  | tgd t =>
      obtain ⟨part, hpart⟩ := t.exists_part
      exact List.ne_nil_of_mem (List.mem_map_of_mem hpart)

/-- What is looked for in bodies is found in the first of several that are all the same. -/
lemma findSome?_bodies {β : Type} {f : Literal → Option β} {c : Clause} {ds : List Dependency}
    (hne : ds ≠ []) (hbody : ∀ d ∈ ds, d.body = c) :
    (ds.flatMap fun d => d.body.literals).findSome? f = c.literals.findSome? f := by
  induction ds with
  | nil => exact absurd rfl hne
  | cons d ds ih =>
      rw [List.flatMap_cons, List.findSome?_append, hbody d List.mem_cons_self]
      cases ds with
      | nil => exact Option.or_none
      | cons d' ds =>
          rw [ih (List.cons_ne_nil d' ds) fun d hd => hbody d (List.mem_cons_of_mem _ hd),
            Option.or_self]

end Dependency

namespace Schema

variable {s s' : Schema}

/-- The first body literal that is no affirmed atom stays the same. -/
lemma requireAtomicBodies_split (s : Schema) :
    requireAtomicBodies ⟨s.predicates, s.dependencies.flatMap Dependency.split⟩ =
      s.requireAtomicBodies := by
  have hsame : ∀ ds : List Dependency,
      ((ds.flatMap Dependency.split).flatMap fun d => d.body.literals).findSome?
          Literal.unsupported? =
        (ds.flatMap fun d => d.body.literals).findSome? Literal.unsupported? := by
    intro ds
    induction ds with
    | nil => rfl
    | cons d ds ih =>
        rw [List.flatMap_cons, List.flatMap_append, List.findSome?_append, List.flatMap_cons,
          List.findSome?_append, ih, Dependency.findSome?_bodies d.split_ne_nil
            fun part hpart => Dependency.body_of_mem_split hpart]
  rw [requireAtomicBodies, requireAtomicBodies, hsame]

/-- Splitting adds no conflict. -/
lemma isNonConflicting_split (h : s.isNonConflicting = true) :
    isNonConflicting ⟨s.predicates, s.dependencies.flatMap Dependency.split⟩ = true := by
  obtain ⟨hother, hkey, hconflict⟩ := isNonConflicting_iff.mp h
  refine isNonConflicting_iff.mpr ?_
  rw [egds_split, tgds_split]
  refine ⟨hother, hkey, fun part hpart fd hfd => ?_⟩
  obtain ⟨t, ht, hpart⟩ := List.mem_flatMap.mp hpart
  exact Tgd.conflictsWith_of_mem_split hpart (hconflict t ht fd hfd)

/-- A test that the parts pass just when the whole does is passed by all or not by all. -/
lemma all_split {ts : List Tgd} {test test' : Tgd → Bool}
    (h : ∀ t ∈ ts, ∀ part ∈ t.split, test' part = test t) :
    (ts.flatMap Tgd.split).all test' = ts.all test := by
  rw [Bool.eq_iff_iff, List.all_eq_true, List.all_eq_true]
  constructor
  · intro hall t ht
    obtain ⟨part, hpart⟩ := t.exists_part
    rw [← h t ht part hpart]
    exact hall part (List.mem_flatMap.mpr ⟨t, ht, hpart⟩)
  · intro hall part hpart
    obtain ⟨t, ht, hpart⟩ := List.mem_flatMap.mp hpart
    rw [h t ht part hpart]
    exact hall t ht

/-- A part has a literal with the variables at affected positions iff the whole has one. -/
lemma isSome_coveringLiteral?_split {ts : List Tgd} {t part : Tgd} (hpart : part ∈ t.split) :
    (part.coveringLiteral? (part.affectedVariables
        (DependencyTheory.affectedPositions (ts.flatMap Tgd.split)))).isSome =
      (t.coveringLiteral? (t.affectedVariables
        (DependencyTheory.affectedPositions ts))).isSome := by
  have hvariables : ∀ x, x ∈ part.affectedVariables
        (DependencyTheory.affectedPositions (ts.flatMap Tgd.split)) ↔
      x ∈ t.affectedVariables (DependencyTheory.affectedPositions ts) := by
    intro x
    simp only [Tgd.mem_affectedVariables, mem_affectedPositions, isAffected_split_iff,
      Tgd.universal_of_mem_split hpart, (Tgd.mem_split.mp hpart).1]
  rw [Bool.eq_iff_iff, Tgd.isSome_coveringLiteral?, Tgd.isSome_coveringLiteral?,
    (Tgd.mem_split.mp hpart).1]
  simp only [hvariables]

/-- A marked variable stands twice in the body of a part iff one does in that of the
whole. -/
lemma marked_once_split_iff {ts : List Tgd} :
    (∀ p q x, p.tgd = q.tgd → Stands (ts.flatMap Tgd.split) p x →
        Stands (ts.flatMap Tgd.split) q x → IsMarked (ts.flatMap Tgd.split) p.tgd x → p = q) ↔
      ∀ p q x, p.tgd = q.tgd → Stands ts p x → Stands ts q x → IsMarked ts p.tgd x → p = q := by
  constructor
  · rintro hone p q x htgd ⟨t, ht, hp⟩ ⟨u, hu, hq⟩ hmark
    obtain rfl := Option.some.inj (ht.symm.trans (htgd ▸ hu))
    obtain ⟨k, hk, hmark⟩ := (isMarked_split_iff ht).mp hmark
    exact BodyPosition.eq_of_moveTo htgd (hone _ _ x rfl ((stands_moveTo ht hk).mpr hp)
      ((stands_moveTo ht hk).mpr hq) hmark)
  · rintro hone p q x htgd ⟨part, hpart, hp⟩ ⟨part', hpart', hq⟩ hmark
    obtain rfl := Option.some.inj (hpart.symm.trans (htgd ▸ hpart'))
    obtain ⟨n, t, k, ht, hk, hplace⟩ := exists_whole hpart
    obtain ⟨hlt, -⟩ := List.getElem?_eq_some_iff.mp hk
    have hsplit : part ∈ t.split := List.mem_of_getElem? hk
    have hmark : IsMarked ts n x := (isMarked_split_iff ht).mpr ⟨k, hlt, hplace ▸ hmark⟩
    refine BodyPosition.eq_of_moveTo htgd
      (hone (p.moveTo n) (q.moveTo n) x rfl ⟨t, ht, ?_⟩ ⟨t, ht, ?_⟩ hmark)
    · exact (Tgd.standsInBody_of_mem_split hsplit).mp hp
    · exact (Tgd.standsInBody_of_mem_split hsplit).mp hq

/-- How the answers of a check to two schemas compare, of which the second has no conflicts
that the first does not have: errors are the same, a check that is passed is still passed,
and the answers differ only if the schemas differ in that one has a conflict. -/
structure NoLoss (s s' : Schema) (answer answer' : Except AnalysisError Bool) : Prop where
  errors : ∀ e, answer = .error e ↔ answer' = .error e
  passes : answer = .ok true → answer' = .ok true
  agree : s.isNonConflicting = s'.isNonConflicting → answer = answer'

/-- Checks compare like this if they look at properties that agree. -/
lemma noLoss_of_properties {property property' : Except AnalysisError Bool}
    (hbodies : s'.requireAtomicBodies = s.requireAtomicBodies)
    (hconflict : s.isNonConflicting = true → s'.isNonConflicting = true)
    (h : s.requireAtomicBodies = .ok () → ∃ v, property = .ok v ∧ property' = .ok v) :
    NoLoss s s' (s.isNonConflictingAnd property) (s'.isNonConflictingAnd property') := by
  cases hok : s.requireAtomicBodies with
  | error e =>
      rw [isNonConflictingAnd_of_error hok, isNonConflictingAnd_of_error (hbodies.trans hok)]
      exact ⟨fun _ => Iff.rfl, id, fun _ => rfl⟩
  | ok =>
      obtain ⟨v, rfl, rfl⟩ := h hok
      rw [isNonConflictingAnd_of_ok hok, isNonConflictingAnd_of_ok (hbodies.trans hok)]
      cases hs : s.isNonConflicting with
      | true =>
          rw [hconflict hs]
          exact ⟨fun _ => Iff.rfl, id, fun _ => rfl⟩
      | false =>
          refine ⟨fun e => ⟨fun he => (nomatch he), fun he => ?_⟩, fun he => (nomatch he),
            fun he => by rw [← he, hs]⟩
          cases hs' : s'.isNonConflicting <;> rw [hs'] at he <;> exact nomatch he

/-- No check loses a schema when its heads are split. -/
lemma noLoss_splitHeads (s : Schema) : ∀ check ∈ languageChecks,
    NoLoss s ⟨s.predicates, s.dependencies.flatMap Dependency.split⟩ (check s)
      (check ⟨s.predicates, s.dependencies.flatMap Dependency.split⟩) := by
  have hbodies := requireAtomicBodies_split s
  have hconflict := isNonConflicting_split (s := s)
  have hbody : ∀ t ∈ s.tgds, ∀ part ∈ t.split, part.body = t.body :=
    fun t _ part hpart => (Tgd.mem_split.mp hpart).1
  simp only [languageChecks, List.forall_mem_cons, List.not_mem_nil, false_imp_iff, forall_const,
    and_true]
  refine ⟨?_, ?_, ?_, ?_⟩
  · refine noLoss_of_properties hbodies hconflict fun _ => ⟨_, rfl, ?_⟩
    rw [tgds_split, all_split fun t ht part hpart => ?_]
    · rfl
    · rw [Tgd.isLinear, Tgd.isLinear, hbody t ht part hpart]
  · refine noLoss_of_properties hbodies hconflict fun _ => ⟨_, rfl, ?_⟩
    rw [tgds_split, all_split fun t ht part hpart => ?_]
    · rfl
    · rw [Tgd.isGuarded, Tgd.isGuarded, Tgd.guard?, Tgd.guard?, Tgd.coveringLiteral?,
        Tgd.coveringLiteral?, Tgd.universal_of_mem_split hpart, hbody t ht part hpart]
  · refine noLoss_of_properties hbodies hconflict fun hok => ⟨s.tgds.all fun t =>
      (t.coveringLiteral?
        (t.affectedVariables (DependencyTheory.affectedPositions s.tgds))).isSome, ?_, ?_⟩
    · rw [affectedPositions_eq_ok.mpr ⟨hok, rfl⟩]
      rfl
    · rw [affectedPositions_eq_ok.mpr ⟨hbodies.trans hok, rfl⟩]
      refine congrArg Except.ok ?_
      rw [tgds_split]
      exact all_split fun t _ part hpart => isSome_coveringLiteral?_split hpart
  · refine noLoss_of_properties hbodies hconflict fun hok => ?_
    obtain ⟨marked, hmarked⟩ := exists_stickyMarking hok
    obtain ⟨marked', hmarked'⟩ := exists_stickyMarking (hbodies.trans hok)
    rw [hmarked, hmarked']
    refine ⟨_, rfl, congrArg Except.ok (decide_eq_decide.mpr ?_)⟩
    rw [nodup_markedNames_iff hmarked, nodup_markedNames_iff hmarked', tgds_split]
    exact marked_once_split_iff

/-- The marked positions of a dependency are those of its parts. -/
lemma mem_stickyMarking_split {ts : List Tgd} {marked marked' : OrderedSet BodyPosition}
    (h : stickyMarking ts = .ok marked) (h' : stickyMarking (ts.flatMap Tgd.split) = .ok marked')
    {t : Tgd} {p : BodyPosition} (ht : ts[p.tgd]? = some t) : p ∈ marked ↔
      ∃ k < t.split.length, p.moveTo (firstPart ts p.tgd + k) ∈ marked' := by
  rw [mem_stickyMarking h]
  simp only [mem_stickyMarking h']
  constructor
  · rintro ⟨x, hx, hmark⟩
    obtain ⟨k, hk, hmark⟩ := (isMarked_split_iff ht).mp hmark
    exact ⟨k, hk, x, (stands_moveTo ht hk).mpr ((stands_iff ht).mp hx), hmark⟩
  · rintro ⟨k, hk, x, hx, hmark⟩
    exact ⟨x, (stands_iff ht).mpr ((stands_moveTo ht hk).mp hx),
      (isMarked_split_iff ht).mpr ⟨k, hk, hmark⟩⟩

/-- The marking procedure has the same error on the parts or none on both. -/
lemma stickyMarking_split_error {ts : List Tgd} {e : AnalysisError} :
    stickyMarking ts = .error e ↔ stickyMarking (ts.flatMap Tgd.split) = .error e := by
  rw [stickyMarking_eq_error, stickyMarking_eq_error]
  refine and_congr_left fun _ => not_congr ⟨fun h part hpart => ?_, fun h t ht => ?_⟩
  · obtain ⟨t, ht, hpart⟩ := List.mem_flatMap.mp hpart
    rw [(Tgd.mem_split.mp hpart).1]
    exact h t ht
  · obtain ⟨part, hpart⟩ := t.exists_part
    rw [← (Tgd.mem_split.mp hpart).1]
    exact h part (List.mem_flatMap.mpr ⟨t, ht, hpart⟩)

/-- **Splitting heads never loses membership in a language.** Each check has the same error
on the split schema or none on both, still passes where it passed, and has the same answer
if both schemas are non-conflicting or neither is; the split schema is if the schema was.
The affected positions are the same, and a body position is marked iff it is marked in one
of the parts of its dependency. -/
theorem languages_splitHeads {s s' : Schema} (hs : s.splitHeads = .ok s') :
    (∀ check ∈ languageChecks,
      (∀ e, check s = .error e ↔ check s' = .error e) ∧
        (check s = .ok true → check s' = .ok true) ∧
        (s.isNonConflicting = s'.isNonConflicting → check s = check s')) ∧
      (s.isNonConflicting = true → s'.isNonConflicting = true) ∧
      ((∀ e, s.affectedPositions = .error e ↔ s'.affectedPositions = .error e) ∧
        ∀ affected affected', s.affectedPositions = .ok affected →
          s'.affectedPositions = .ok affected' → ∀ p, p ∈ affected ↔ p ∈ affected') ∧
      (∀ n t, s.tgds[n]? = some t → ∀ k < t.split.length,
        s'.tgds[firstPart s.tgds n + k]? = t.split[k]?) ∧
      (∀ e, stickyMarking s.tgds = .error e ↔ stickyMarking s'.tgds = .error e) ∧
      ∀ marked marked', stickyMarking s.tgds = .ok marked →
        stickyMarking s'.tgds = .ok marked' → ∀ n t, s.tgds[n]? = some t → ∀ i j h,
          (⟨n, i, j, h⟩ ∈ marked ↔
            ∃ k < t.split.length, ⟨firstPart s.tgds n + k, i, j, h⟩ ∈ marked') := by
  obtain rfl : s' = ⟨s.predicates, s.dependencies.flatMap Dependency.split⟩ :=
    (Builder.build_eq_ok.mp hs).2
  refine ⟨fun check hcheck => ?_, isNonConflicting_split, ⟨fun e => ?_, ?_⟩, fun n t ht k hk => ?_,
    fun e => ?_, fun marked marked' h h' n t ht i j hd => ?_⟩
  · have hno := noLoss_splitHeads s check hcheck
    exact ⟨hno.errors, hno.passes, hno.agree⟩
  · rw [affectedPositions_eq_error, affectedPositions_eq_error, requireAtomicBodies_split]
  · intro affected affected' h h' p
    obtain ⟨-, rfl⟩ := affectedPositions_eq_ok.mp h
    obtain ⟨-, rfl⟩ := affectedPositions_eq_ok.mp h'
    rw [mem_affectedPositions, mem_affectedPositions, ← isAffected_split_iff, ← tgds_split]
  · rw [← getElem?_parts ht hk, ← tgds_split]
  · rw [stickyMarking_split_error, ← tgds_split]
  · refine mem_stickyMarking_split h ?_ ht
    rw [← h', ← tgds_split]

/-- A head of four atoms, two of them over a predicate that has a key. The value that the
other two share ties the head together, but no part of it. -/
def fan : Schema :=
  let p (x y : String) : Atom := .ofVars 0 [x, y]
  let e (x y : String) : Atom := .ofVars 1 [x, y]
  let q (x : String) : Atom := .ofVars 2 [x]
  ⟨[⟨0, "P", 2, []⟩, ⟨0, "E", 2, []⟩, ⟨0, "Q", 1, []⟩],
    [.tgd (.ofAtoms (.ofAtoms (p "x" "y") []) (e "x" "n") [q "m", p "m" "y", e "y" "k"]),
      .egd ⟨.ofAtoms (e "i" "x") [e "i" "y"], .var "x", .var "y"⟩]⟩

/-- The fan becomes sticky when its head is split, because it has a conflict and its three
parts have none. -/
theorem languages_splitHeads_fan :
    ∃ s', fan.splitHeads = .ok s' ∧ fan.isSticky = .ok false ∧ s'.isSticky = .ok true ∧
      (∀ check ∈ languageChecks, (∀ e, check fan = .error e ↔ check s' = .error e) ∧
        (check fan = .ok true → check s' = .ok true)) ∧
      ∀ marked marked', stickyMarking fan.tgds = .ok marked →
        stickyMarking s'.tgds = .ok marked' → ∀ i j h,
          (⟨0, i, j, h⟩ ∈ marked ↔ ∃ k < 3, ⟨k, i, j, h⟩ ∈ marked') := by
  have hsplit : fan.splitHeads =
      .ok ⟨fan.predicates, fan.dependencies.flatMap Dependency.split⟩ := rfl
  obtain ⟨hchecks, -, -, -, -, hmarked⟩ := languages_splitHeads hsplit
  refine ⟨_, hsplit, by decide +kernel, by decide +kernel,
    fun check hcheck => ⟨(hchecks check hcheck).1, (hchecks check hcheck).2.1⟩,
    fun marked marked' h h' i j hd => ?_⟩
  have hplaces := hmarked marked marked' h h' 0 _ rfl i j hd
  simp only [firstPart, List.take_zero, List.flatMap_nil, List.length_nil, Nat.zero_add] at hplaces
  exact hplaces

end Schema

end DependencyTheory
