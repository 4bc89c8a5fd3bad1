/-
The sets of positions that the language checks compute, as least sets closed under rules:

* `Schema.affectedPositions_isLeast`: a supported schema has affected positions, the least set
  closed under the rules, and no other schema has any;
* `Repeats`: whether a variable stands at two positions of a body;
* `stickyMarking_isLeast`: the marking is the least set closed under its rules, it has all body
  positions of a variable or none, and the check for stickiness looks for repeated variables
  of which it has all.

Rounds go through the dependencies in order and see what was added on the way; the sets they
end with do not depend on that.
-/
import DependencyTheory.Proofs.Language.Verdicts
import DependencyTheory.Proofs.Position.Stickiness
import Mathlib.Order.Bounds.Defs

namespace DependencyTheory

variable {ts : List Tgd} {t : Tgd} {a : Atom} {x : String} {p q : Position} {n : Nat}
  {marked : OrderedSet BodyPosition} {s : Schema}

/-! ### Affected positions -/

/-- **The affected positions are the least set** closed under the rules. -/
theorem isLeast_affectedPositions (ts : List Tgd) :
    IsLeast {Q | Affected.Closed ts Q} {p | p ∈ affectedPositions ts} := by
  refine ⟨⟨fun t ht x hx a ha p hp => ?_, fun t ht x hx hbody a ha p hp => ?_⟩,
    fun Q hQ p hp => hQ.mem_of_isAffected (mem_affectedPositions.mp hp)⟩
  · exact mem_affectedPositions.mpr (.invented ht ha hp (Tgd.mem_existential.mp hx).2)
  · refine mem_affectedPositions.mpr (.carried ht ha hp (Tgd.mem_frontier.mp hx).2 ?_)
    exact fun b hb q hq => mem_affectedPositions.mp (hbody b (Clause.mem_positiveAtoms.mp hb) q hq)

namespace Schema

/-- A schema is refused iff some body has a denied atom or a built-in literal. -/
lemma requireAtomicBodies_eq_unsupported :
    (∃ reason, s.requireAtomicBodies = .error (.unsupported reason)) ↔
      ∃ d ∈ s.dependencies, ∃ l ∈ d.body.literals,
        (∃ a, l = .ordinary false a) ∨ ∃ b, l = .builtIn b := by
  have hatom : ∀ l : Literal, (¬∃ a, l = .ordinary true a) ↔
      (∃ a, l = .ordinary false a) ∨ ∃ b, l = .builtIn b := by
    intro l
    cases l with
    | builtIn b => simp
    | ordinary positive a => cases positive <;> simp
  have hbodies : (∃ d ∈ s.dependencies, ∃ l ∈ d.body.literals,
      (∃ a, l = .ordinary false a) ∨ ∃ b, l = .builtIn b) ↔ s.requireAtomicBodies ≠ .ok () := by
    rw [ne_eq, requireAtomicBodies_eq_ok]
    simp only [← hatom, Clause.IsAtomic, not_forall, exists_prop]
  rw [hbodies]
  cases h : s.requireAtomicBodies with
  | ok => simp
  | error e =>
      obtain ⟨reason, rfl⟩ := exists_unsupported h
      exact iff_of_true ⟨reason, rfl⟩ (by simp)

/-- **Affected positions are a least fixed point.** If all bodies consist of affirmed atoms,
there are affected positions, each of them listed once: the least set that has the head
positions of existential variables, and with all body positions of a frontier variable its
head positions. They are refused iff some body has a denied atom or a built-in literal. -/
theorem affectedPositions_isLeast (s : Schema) :
    ((∀ d ∈ s.dependencies, d.body.IsAtomic) →
      ∃ affected, s.affectedPositions = .ok affected ∧ affected.toList.Nodup ∧
        IsLeast {Q | Affected.Closed s.tgds Q} {p | p ∈ affected}) ∧
    ((∃ reason, s.affectedPositions = .error (.unsupported reason)) ↔
      ∃ d ∈ s.dependencies, ∃ l ∈ d.body.literals,
        (∃ a, l = .ordinary false a) ∨ ∃ b, l = .builtIn b) := by
  constructor
  · intro hbodies
    refine ⟨_, affectedPositions_eq_ok.mpr ⟨requireAtomicBodies_eq_ok.mpr hbodies, rfl⟩, ?_⟩
    exact ⟨OrderedSet.nodup _, isLeast_affectedPositions s.tgds⟩
  · simp only [affectedPositions_eq_error]
    exact requireAtomicBodies_eq_unsupported

end Schema

namespace Detour

/-- Values are handed on from one dependency to the one before it, the last of which makes them
up, so that the affected positions are found in several rounds. -/
def schema : Schema :=
  let p (x : String) : Atom := .ofVars 0 [x]
  let q (x y : String) : Atom := .ofVars 1 [x, y]
  let r (x : String) : Atom := .ofVars 2 [x]
  ⟨[⟨0, "P", 1, []⟩, ⟨0, "Q", 2, []⟩, ⟨0, "R", 1, []⟩],
    [.tgd (.ofAtoms (.ofAtoms (r "x") []) (p "x") []),
      .tgd (.ofAtoms (.ofAtoms (q "x" "y") []) (r "y") []),
      .tgd (.ofAtoms (.ofAtoms (p "x") []) (q "x" "y") [])]⟩

/-- All positions are affected in the end. -/
theorem affectedPositions_isLeast_detour :
    ∃ affected, schema.affectedPositions = .ok affected ∧
      affected.toList = [⟨⟨0, 1, 2⟩, 1⟩, ⟨⟨0, 2, 1⟩, 0⟩, ⟨⟨0, 0, 1⟩, 0⟩, ⟨⟨0, 1, 2⟩, 0⟩] ∧
      IsLeast {Q | Affected.Closed schema.tgds Q} {p | p ∈ affected} := by
  obtain ⟨hleast, -⟩ := Schema.affectedPositions_isLeast schema
  obtain ⟨affected, h, -, hleast⟩ := hleast (Schema.requireAtomicBodies_eq_ok.mp rfl)
  have hlist : schema.affectedPositions.map OrderedSet.toList =
      .ok [⟨⟨0, 1, 2⟩, 1⟩, ⟨⟨0, 2, 1⟩, 0⟩, ⟨⟨0, 0, 1⟩, 0⟩, ⟨⟨0, 1, 2⟩, 0⟩] := by decide +kernel
  rw [h] at hlist
  exact ⟨affected, h, Except.ok.inj hlist, hleast⟩

end Detour

/-! ### Marked positions -/

/-- **The marked positions are the least set** closed under the rules. -/
theorem isLeast_stickyMarking (h : stickyMarking ts = .ok marked) :
    IsLeast {Q | Marking.Closed ts Q} {p | p ∈ marked} := by
  refine ⟨⟨fun n t ht x _ a ha hlost p hn hx => ?_,
    fun q hq n t ht x _ a ha hexposed p hn hx => ?_⟩, fun Q hQ p hp => ?_⟩
  · exact (mem_stickyMarking h).mpr ⟨x, hx, .lost (hn ▸ ht) ha hlost⟩
  · obtain ⟨y, hy, hmark⟩ := (mem_stickyMarking h).mp hq
    exact (mem_stickyMarking h).mpr ⟨x, hx, .exposed (hn ▸ ht) ha hexposed hy hmark⟩
  · obtain ⟨x, hx, hmark⟩ := (mem_stickyMarking h).mp hp
    exact hQ.marksAll hmark p rfl hx

/-- **A variable is marked as a whole**: a position at which it stands is in the marking iff the
rules mark the variable. -/
lemma mem_stickyMarking_iff_isMarked (h : stickyMarking ts = .ok marked) {p : BodyPosition}
    (hx : Stands ts p x) : p ∈ marked ↔ IsMarked ts p.tgd x := by
  rw [mem_stickyMarking h]
  constructor
  · rintro ⟨y, hy, hmark⟩
    rwa [hx.unique hy]
  · exact fun hmark => ⟨x, hx, hmark⟩

/-- Whether a variable stands at two positions of the body of the dependency at a place. -/
def Repeats (ts : List Tgd) (n : Nat) (x : String) : Prop :=
  ∃ p q, p ≠ q ∧ p.tgd = n ∧ q.tgd = n ∧ Stands ts p x ∧ Stands ts q x

/-- No body repeats a variable at marked positions iff the marking does not have all positions
of a variable that a body repeats. -/
lemma nodup_markedNames_iff_not_repeats (h : stickyMarking ts = .ok marked) :
    (marked.toList.filterMap fun p => (p.varName? ts).map fun x => (p.tgd, x)).Nodup ↔
      ¬∃ n x, Repeats ts n x ∧ MarksAll ts {p | p ∈ marked} n x := by
  rw [nodup_markedNames_iff h]
  constructor
  · rintro hone ⟨n, x, ⟨p, q, hne, rfl, hq, hpx, hqx⟩, hall⟩
    have hmark : IsMarked ts p.tgd x :=
      (mem_stickyMarking_iff_isMarked h hpx).mp (hall p rfl hpx)
    exact hne (hone p q x hq.symm hpx hqx hmark)
  · intro hno p q x htgd hpx hqx hmark
    by_contra hne
    refine hno ⟨p.tgd, x, ⟨p, q, hne, rfl, htgd.symm, hpx, hqx⟩, fun r hr hrx => ?_⟩
    exact (mem_stickyMarking_iff_isMarked h hrx).mpr (hr ▸ hmark)

/-- **The sticky marking is a least fixed point.** For bodies of affirmed atoms, it is the least
set of body positions that has all those of a universal variable that some head atom lacks, or
has at an argument place at which some position is marked; and it has all positions of a
variable in a body or none. The check for stickiness then finds a supported schema without
conflicts sticky iff no body repeats a variable all whose positions are marked. -/
theorem stickyMarking_isLeast :
    (∀ ts : List Tgd, (∀ t ∈ ts, t.body.IsAtomic) →
      ∃ marked, stickyMarking ts = .ok marked ∧ marked.toList.Nodup ∧
        (∀ p ∈ marked, ∃ x, Stands ts p x) ∧
        IsLeast {Q | Marking.Closed ts Q} {p | p ∈ marked} ∧
        ∀ p q x, p.tgd = q.tgd → Stands ts p x → Stands ts q x → (p ∈ marked ↔ q ∈ marked)) ∧
    ∀ s : Schema, s.requireAtomicBodies = .ok () → s.isNonConflicting = true →
      ∃ marked verdict, stickyMarking s.tgds = .ok marked ∧ s.isSticky = .ok verdict ∧
        (verdict = true ↔
          ¬∃ n x, Repeats s.tgds n x ∧ MarksAll s.tgds {p | p ∈ marked} n x) := by
  constructor
  · intro ts hatomic
    obtain ⟨marked, h⟩ : ∃ marked, stickyMarking ts = .ok marked :=
      ⟨_, stickyMarking_eq_ok.mpr ⟨hatomic, rfl⟩⟩
    refine ⟨marked, h, marked.nodup, fun p hp => ?_, isLeast_stickyMarking h,
      fun p q x htgd hp hq => ?_⟩
    · obtain ⟨x, hx, -⟩ := (mem_stickyMarking h).mp hp
      exact ⟨x, hx⟩
    · rw [mem_stickyMarking_iff_isMarked h hp, mem_stickyMarking_iff_isMarked h hq, htgd]
  · intro s hbodies hconflicts
    obtain ⟨marked, h⟩ := Schema.exists_stickyMarking hbodies
    refine ⟨marked, _, h, ?_, decide_eq_true_iff.trans (nodup_markedNames_iff_not_repeats h)⟩
    rw [Schema.isSticky_of_ok h, Schema.isNonConflictingAnd_of_ok hbodies, if_pos hconflicts]

/-- The marking of two dependencies, the second of which loses values that come from the first:
all variables of the first are marked but the one on which its body joins. -/
theorem stickyMarking_isLeast_courier :
    ∃ marked, stickyMarking Courier.schema.tgds = .ok marked ∧
      marked.toList = [⟨1, 0, 0, ⟨0, 2, 3⟩⟩, ⟨1, 0, 2, ⟨0, 2, 3⟩⟩, ⟨0, 0, 0, ⟨0, 0, 2⟩⟩,
        ⟨0, 1, 1, ⟨0, 1, 2⟩⟩] ∧
      IsLeast {Q | Marking.Closed Courier.schema.tgds Q} {p | p ∈ marked} ∧
      Repeats Courier.schema.tgds 0 "y" ∧ Courier.schema.isSticky = .ok true ∧
      ¬∃ n x, Repeats Courier.schema.tgds n x ∧
        MarksAll Courier.schema.tgds {p | p ∈ marked} n x := by
  obtain ⟨hsets, hchecks⟩ := stickyMarking_isLeast
  have hbodies : Courier.schema.requireAtomicBodies = .ok () := rfl
  obtain ⟨marked, h, -, -, hleast, -⟩ :=
    hsets Courier.schema.tgds (Schema.isAtomic_of_requireAtomicBodies hbodies)
  obtain ⟨marked', verdict, h', hverdict, hsticky⟩ :=
    hchecks Courier.schema hbodies (by decide +kernel)
  obtain rfl := Except.ok.inj (h.symm.trans h')
  have hlist : (stickyMarking Courier.schema.tgds).map OrderedSet.toList =
      .ok [⟨1, 0, 0, ⟨0, 2, 3⟩⟩, ⟨1, 0, 2, ⟨0, 2, 3⟩⟩, ⟨0, 0, 0, ⟨0, 0, 2⟩⟩,
        ⟨0, 1, 1, ⟨0, 1, 2⟩⟩] := by decide +kernel
  rw [h] at hlist
  have htrue : Courier.schema.isSticky = .ok true := by decide +kernel
  refine ⟨marked, h, Except.ok.inj hlist, hleast, ?_, htrue, ?_⟩
  · exact ⟨⟨0, 0, 1, ⟨0, 0, 2⟩⟩, ⟨0, 1, 0, ⟨0, 1, 2⟩⟩, by decide, rfl, rfl,
      ⟨_, rfl, _, rfl, rfl, rfl⟩, ⟨_, rfl, _, rfl, rfl, rfl⟩⟩
  · exact hsticky.mp (Except.ok.inj (hverdict.symm.trans htrue))

end DependencyTheory
