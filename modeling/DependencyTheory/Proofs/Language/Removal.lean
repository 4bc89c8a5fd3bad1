/-
Taking dependencies out of a schema:

* `IsAffected.mono`, `IsMarked.reindex`: what fewer dependencies derive, more derive too, with
  the places in the list taken along;
* `Schema.Thins`: whether a schema has some of the tuple-generating dependencies of another, in
  the same order, and the same equality-generating ones;
* `Schema.Thins.isNonConflicting`: no conflict comes up when dependencies are taken out;
* `Schema.languages_of_thins`: neither does an affected or a marked position, and the schema
  stays in the languages in which it was.

Rounds go through the dependencies in order, so with some of them gone, positions are found in
other rounds. The least sets do not show that.
-/
import DependencyTheory.Proofs.Conflict.Heads
import DependencyTheory.Proofs.Language.Fixpoints
import Mathlib.Data.List.NodupEquivFin

namespace DependencyTheory

variable {ts us : List Tgd} {t : Tgd} {p q : BodyPosition} {x : String} {n : ℕ} {place : ℕ → ℕ}

/-! ### What fewer dependencies derive -/

/-- **More dependencies affect more positions.** -/
lemma IsAffected.mono {r : Position} (hsubset : ∀ u ∈ us, u ∈ ts) (h : IsAffected us r) :
    IsAffected ts r := by
  induction h with
  | invented hu ha hp hx => exact .invented (hsubset _ hu) ha hp hx
  | carried hu ha hp hx _ ih => exact .carried (hsubset _ hu) ha hp hx ih

/-- With more affected positions, more variables stand at affected positions only. -/
lemma Tgd.affectedVariables_mono {affected affected' : OrderedSet Position}
    (hsubset : ∀ r ∈ affected', r ∈ affected) (hx : x ∈ t.affectedVariables affected') :
    x ∈ t.affectedVariables affected := by
  obtain ⟨huniversal, hbody⟩ := mem_affectedVariables.mp hx
  exact mem_affectedVariables.mpr
    ⟨huniversal, fun b hb r hr => hsubset r (hbody b hb r hr)⟩

section Places

variable (hplace : ∀ n u, us[n]? = some u → ts[place n]? = some u)

include hplace

/-- A variable stands at the same place of a body when the body is elsewhere in the list. -/
lemma Stands.reindex (h : Stands us p x) : Stands ts (p.moveTo (place p.tgd)) x := by
  obtain ⟨u, hu, hx⟩ := h
  exact ⟨u, hplace _ u hu, hx⟩

/-- **More dependencies mark more variables**, wherever the old ones are among them. -/
lemma IsMarked.reindex (h : IsMarked us n x) : IsMarked ts (place n) x := by
  induction h with
  | lost hu ha hlost => exact .lost (hplace _ _ hu) ha hlost
  | @exposed n u x y a q hu ha hx hq _ ih =>
      have hstands : Stands ts (q.moveTo (place q.tgd)) y := hq.reindex hplace
      exact .exposed (q := q.moveTo (place q.tgd)) (hplace _ _ hu) ha hx hstands ih

/-- What is marked stays so when more dependencies come in. -/
lemma mem_stickyMarking_reindex {marked marked' : OrderedSet BodyPosition}
    (h : stickyMarking ts = .ok marked) (h' : stickyMarking us = .ok marked') (hp : p ∈ marked') :
    p.moveTo (place p.tgd) ∈ marked := by
  obtain ⟨x, hx, hmark⟩ := (mem_stickyMarking h').mp hp
  exact (mem_stickyMarking h).mpr ⟨x, hx.reindex hplace, hmark.reindex hplace⟩

/-- If no marked variable stands twice in its body, none does with some dependencies gone. -/
lemma marked_once_of_reindex
    (hone : ∀ p q x, p.tgd = q.tgd → Stands ts p x → Stands ts q x → IsMarked ts p.tgd x → p = q) :
    ∀ p q x, p.tgd = q.tgd → Stands us p x → Stands us q x → IsMarked us p.tgd x → p = q := by
  intro p q x htgd hp hq hmark
  have hq' : Stands ts (q.moveTo (place p.tgd)) x := htgd ▸ hq.reindex hplace
  exact BodyPosition.eq_of_moveTo htgd
    (hone _ _ x rfl (hp.reindex hplace) hq' (hmark.reindex hplace))

end Places

/-! ### Schemas with dependencies taken out -/

namespace Schema

variable {s s' : Schema}

/-- Whether a schema has some of the tuple-generating dependencies of another, in the same
order, and the same equality-generating ones. -/
structure Thins (s' s : Schema) : Prop where
  tgds : s'.tgds.Sublist s.tgds
  egds : s'.egds = s.egds

namespace Thins

variable (h : s'.Thins s)

include h

lemma mem_dependencies {d : Dependency} (hd : d ∈ s'.dependencies) : d ∈ s.dependencies := by
  cases d with
  | tgd t => exact mem_tgds.mp (h.tgds.subset (mem_tgds.mpr hd))
  | egd e => exact mem_egds.mp (h.egds ▸ mem_egds.mpr hd)

lemma requireAtomicBodies (hs : s.requireAtomicBodies = .ok ()) :
    s'.requireAtomicBodies = .ok () :=
  requireAtomicBodies_eq_ok.mpr fun d hd =>
    requireAtomicBodies_eq_ok.mp hs d (h.mem_dependencies hd)

/-- **No conflict comes up**: the keys are the same, and there are fewer heads. -/
lemma isNonConflicting (hs : s.isNonConflicting = true) : s'.isNonConflicting = true := by
  obtain ⟨hother, hkeys, hconflict⟩ := isNonConflicting_iff.mp hs
  rw [← h.egds] at hother hkeys hconflict
  exact isNonConflicting_iff.mpr
    ⟨hother, hkeys, fun t ht => hconflict t (h.tgds.subset ht)⟩

lemma mem_affectedPositions {r : Position}
    (hr : r ∈ DependencyTheory.affectedPositions s'.tgds) :
    r ∈ DependencyTheory.affectedPositions s.tgds :=
  DependencyTheory.mem_affectedPositions.mpr
    ((DependencyTheory.mem_affectedPositions.mp hr).mono fun _ ht => h.tgds.subset ht)

/-- A property of all dependencies is one of those that are left. -/
lemma all_tgds {pass pass' : Tgd → Bool} (hpass : ∀ t, pass t = true → pass' t = true)
    (hs : s.tgds.all pass = true) : s'.tgds.all pass' = true :=
  List.all_eq_true.mpr fun t ht => hpass t (List.all_eq_true.mp hs t (h.tgds.subset ht))

/-- **A check that passes still does** with dependencies taken out. -/
lemma check_eq_true : ∀ check ∈ languageChecks, check s = .ok true → check s' = .ok true := by
  have hbodies := h.requireAtomicBodies
  have hconflicts := h.isNonConflicting
  simp only [languageChecks, List.forall_mem_cons, List.not_mem_nil, false_imp_iff, forall_const,
    and_true]
  refine ⟨fun hs => ?_, fun hs => ?_, fun hs => ?_, fun hs => ?_⟩
  · refine isNonConflictingAnd_mono hbodies hconflicts (fun _ hall => congrArg Except.ok ?_) hs
    exact h.all_tgds (fun _ => id) (Except.ok.inj hall)
  · refine isNonConflictingAnd_mono hbodies hconflicts (fun _ hall => congrArg Except.ok ?_) hs
    exact h.all_tgds (fun _ => id) (Except.ok.inj hall)
  · obtain ⟨hok, -, -⟩ := isNonConflictingAnd_eq_true.mp hs
    rw [isWeaklyGuarded_of_ok hok] at hs
    rw [isWeaklyGuarded_of_ok (hbodies hok)]
    refine isNonConflictingAnd_mono hbodies hconflicts (fun _ hall => congrArg Except.ok ?_) hs
    refine h.all_tgds (fun t => Tgd.isSome_coveringLiteral?_mono fun x hx => ?_)
      (Except.ok.inj hall)
    exact Tgd.affectedVariables_mono (fun _ => h.mem_affectedPositions) hx
  · obtain ⟨hok, -, -⟩ := isNonConflictingAnd_eq_true.mp hs
    obtain ⟨marked, hmarked⟩ := exists_stickyMarking hok
    obtain ⟨marked', hmarked'⟩ := exists_stickyMarking (hbodies hok)
    rw [isSticky_of_ok hmarked] at hs
    rw [isSticky_of_ok hmarked']
    refine isNonConflictingAnd_mono hbodies hconflicts (fun _ hone => congrArg Except.ok ?_) hs
    obtain ⟨place, hplace⟩ := List.sublist_iff_exists_orderEmbedding_getElem?_eq.mp h.tgds
    refine decide_eq_true ((nodup_markedNames_iff hmarked').mpr ?_)
    exact marked_once_of_reindex (fun n t ht => (hplace n).symm.trans ht)
      ((nodup_markedNames_iff hmarked).mp (of_decide_eq_true (Except.ok.inj hone)))

end Thins

/-- **Membership in a language survives taking dependencies out.** Of a supported schema, what is
left has no new affected positions, and no new marked ones if the places of its dependencies
are read as those which they had before. It passes every check that the schema passes. -/
theorem languages_of_thins (h : s'.Thins s) :
    (s.requireAtomicBodies = .ok () →
      (∃ affected affected', s.affectedPositions = .ok affected ∧
        s'.affectedPositions = .ok affected' ∧ ∀ r ∈ affected', r ∈ affected) ∧
      ∃ marked marked', stickyMarking s.tgds = .ok marked ∧ stickyMarking s'.tgds = .ok marked' ∧
        (∃ place : ℕ ↪o ℕ, ∀ n, s'.tgds[n]? = s.tgds[place n]?) ∧
        ∀ place : ℕ ↪o ℕ, (∀ n, s'.tgds[n]? = s.tgds[place n]?) →
          ∀ p ∈ marked', p.moveTo (place p.tgd) ∈ marked) ∧
    ∀ check ∈ languageChecks, check s = .ok true → check s' = .ok true := by
  refine ⟨fun hbodies => ⟨⟨_, _, affectedPositions_eq_ok.mpr ⟨hbodies, rfl⟩,
    affectedPositions_eq_ok.mpr ⟨h.requireAtomicBodies hbodies, rfl⟩,
    fun _ => h.mem_affectedPositions⟩, ?_⟩, h.check_eq_true⟩
  obtain ⟨marked, hmarked⟩ := exists_stickyMarking hbodies
  obtain ⟨marked', hmarked'⟩ := exists_stickyMarking (h.requireAtomicBodies hbodies)
  refine ⟨marked, marked', hmarked, hmarked',
    List.sublist_iff_exists_orderEmbedding_getElem?_eq.mp h.tgds, fun place hplace p hp => ?_⟩
  exact mem_stickyMarking_reindex (fun n t ht => (hplace n).symm.trans ht) hmarked hmarked' hp

end Schema

namespace Courier

/-- The second of the courier's dependencies, alone. -/
def leg : Schema := ⟨schema.predicates, schema.dependencies.tail⟩

/-- The dependency that is left stands at the first place and stood at the second one. -/
theorem languages_of_thins_courier :
    leg.Thins schema ∧ schema.requireAtomicBodies = .ok () ∧
      (schema.isSticky = .ok true ∧ leg.isSticky = .ok true) ∧
      ∃ affected affected' marked marked', schema.affectedPositions = .ok affected ∧
        leg.affectedPositions = .ok affected' ∧ (∀ r ∈ affected', r ∈ affected) ∧
        stickyMarking schema.tgds = .ok marked ∧ stickyMarking leg.tgds = .ok marked' ∧
        marked'.toList = [⟨0, 0, 0, ⟨0, 2, 3⟩⟩, ⟨0, 0, 2, ⟨0, 2, 3⟩⟩] ∧
        ∀ p ∈ marked', p.moveTo (p.tgd + 1) ∈ marked := by
  have hthins : leg.Thins schema := ⟨List.sublist_cons_self _ _, rfl⟩
  have hbodies : schema.requireAtomicBodies = .ok () := rfl
  have hsticky : schema.isSticky = .ok true := by decide +kernel
  obtain ⟨hpositions, hchecks⟩ := Schema.languages_of_thins hthins
  obtain ⟨⟨affected, affected', haffected, haffected', hsubset⟩,
    marked, marked', hmarked, hmarked', -, hplaces⟩ := hpositions hbodies
  have hlist : (stickyMarking leg.tgds).map OrderedSet.toList =
      .ok [⟨0, 0, 0, ⟨0, 2, 3⟩⟩, ⟨0, 0, 2, ⟨0, 2, 3⟩⟩] := by decide +kernel
  rw [hmarked'] at hlist
  refine ⟨hthins, hbodies, ⟨hsticky, hchecks _ (by simp [Schema.languageChecks]) hsticky⟩,
    affected, affected', marked, marked', haffected, haffected', hsubset, hmarked, hmarked',
    Except.ok.inj hlist, ?_⟩
  exact hplaces (OrderEmbedding.ofStrictMono (· + 1) fun _ _ => Nat.succ_lt_succ) fun _ => rfl

end Courier

end DependencyTheory
