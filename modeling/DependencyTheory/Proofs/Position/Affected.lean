/-
The affected positions as the least set that two rules describe:

* `Atom.StandsAt`: whether a variable stands at a position of an atom;
* `IsAffected`: a head position of an existential variable is affected, and so is one of a
  universal variable that stands in the body at affected positions only;
* `Affected.Closed`: the rules as conditions on a set of positions;
* `mem_affectedPositions`: the affected positions that are computed are just these.
-/
import DependencyTheory.Position.Affected
import DependencyTheory.Proofs.Saturation
import Mathlib.Data.Set.Defs

namespace DependencyTheory

/-! ### Variables at positions -/

/-- Whether a variable stands at a position of an atom. -/
def Atom.StandsAt (a : Atom) (x : String) (p : Position) : Prop :=
  a.predicate = p.predicate ∧ a.terms[p.index]? = some (.var x)

variable {a : Atom} {x : String} {p : Position} {t : Tgd} {ts : List Tgd}
  {affected : OrderedSet Position}

/-- The variables of an atom are those that stand somewhere in it. -/
lemma Atom.mem_vars : x ∈ a.vars ↔ ∃ p, a.StandsAt x p := by
  rw [vars, Term.mem_vars, List.mem_iff_getElem?]
  exact ⟨fun ⟨i, hi⟩ => ⟨⟨a.predicate, i⟩, rfl, hi⟩, fun ⟨p, hp⟩ => ⟨p.index, hp.2⟩⟩

lemma Atom.mem_positionsOf {wanted : String → Bool} :
    p ∈ a.positionsOf wanted ↔ ∃ x, wanted x = true ∧ a.StandsAt x p := by
  simp only [positionsOf, List.mem_filterMap, Prod.exists, List.mem_zipIdx_iff_getElem?, StandsAt]
  constructor
  · rintro ⟨term, i, hi, hp⟩
    cases term with
    | const c => cases hp
    | var x =>
        obtain ⟨hx, rfl⟩ := Option.ite_some_none_eq_some.mp hp
        exact ⟨x, hx, rfl, hi⟩
  · rintro ⟨x, hx, hpredicate, hi⟩
    exact ⟨.var x, p.index, hi, Option.ite_some_none_eq_some.mpr ⟨hx, hpredicate ▸ rfl⟩⟩

namespace Tgd

lemma mem_positionsInHead {wanted : String → Bool} :
    p ∈ t.positionsInHead wanted ↔ ∃ a ∈ t.head, ∃ x, wanted x = true ∧ a.StandsAt x p := by
  simp only [positionsInHead, List.mem_flatMap, Atom.mem_positionsOf]

/-- A head variable is existential iff it is not universal. -/
lemma mem_existential_iff (ha : a ∈ t.head) (hx : a.StandsAt x p) :
    x ∈ t.existential ↔ x ∉ t.universal := by
  have hvars : x ∈ a.vars := Atom.mem_vars.mpr ⟨p, hx⟩
  exact ⟨fun h => (mem_existential.mp h).2, (mem_universal_or_existential ha hvars).resolve_left⟩

/-- A head variable is in the frontier iff it is universal. -/
lemma mem_frontier_iff (ha : a ∈ t.head) (hx : a.StandsAt x p) :
    x ∈ t.frontier ↔ x ∈ t.universal := by
  have hhead : x ∈ t.headVariables :=
    OrderedSet.mem_ofList.mpr (List.mem_flatMap.mpr ⟨a, ha, Atom.mem_vars.mpr ⟨p, hx⟩⟩)
  rw [mem_frontier, and_iff_right hhead]

lemma mem_inventing :
    p ∈ t.inventing ↔ ∃ a ∈ t.head, ∃ x, a.StandsAt x p ∧ x ∉ t.universal := by
  rw [inventing, mem_positionsInHead]
  constructor
  · rintro ⟨a, ha, x, hx, hp⟩
    exact ⟨a, ha, x, hp, (mem_existential_iff ha hp).mp (of_decide_eq_true hx)⟩
  · rintro ⟨a, ha, x, hp, hx⟩
    exact ⟨a, ha, x, decide_eq_true ((mem_existential_iff ha hp).mpr hx), hp⟩

lemma mem_affectedVariables : x ∈ t.affectedVariables affected ↔
    x ∈ t.universal ∧ ∀ b ∈ t.body.positiveAtoms, ∀ q, b.StandsAt x q → q ∈ affected := by
  rw [affectedVariables, OrderedSet.mem_filter]
  simp only [List.all_eq_true, decide_eq_true_eq, Atom.mem_positionsOf, beq_iff_eq,
    exists_eq_left]

lemma mem_spread : p ∈ t.spread affected ↔
    ∃ a ∈ t.head, ∃ x, a.StandsAt x p ∧ x ∈ t.affectedVariables affected := by
  rw [spread, mem_positionsInHead]
  simp only [Bool.and_eq_true, decide_eq_true_eq]
  constructor
  · rintro ⟨a, ha, x, ⟨-, hx⟩, hp⟩
    exact ⟨a, ha, x, hp, hx⟩
  · rintro ⟨a, ha, x, hp, hx⟩
    have huniversal : x ∈ t.universal := (mem_affectedVariables.mp hx).1
    exact ⟨a, ha, x, ⟨(mem_frontier_iff ha hp).mpr huniversal, hx⟩, hp⟩

end Tgd

/-! ### The rules -/

/-- Whether a position may hold a value made up for an existential variable: such a
variable stands there in a head, or a universal one does which the body has at positions of
this kind only. -/
inductive IsAffected (ts : List Tgd) : Position → Prop
  | invented {t : Tgd} {a : Atom} {x : String} {p : Position} (ht : t ∈ ts) (ha : a ∈ t.head)
      (hp : a.StandsAt x p) (hx : x ∉ t.universal) : IsAffected ts p
  | carried {t : Tgd} {a : Atom} {x : String} {p : Position} (ht : t ∈ ts) (ha : a ∈ t.head)
      (hp : a.StandsAt x p) (hx : x ∈ t.universal)
      (hbody : ∀ b ∈ t.body.positiveAtoms, ∀ q, b.StandsAt x q → IsAffected ts q) :
      IsAffected ts p

/-- Whether a set of positions has the head positions of all existential variables, and with
all body positions of a frontier variable its head positions too. -/
structure Affected.Closed (ts : List Tgd) (Q : Set Position) : Prop where
  invented : ∀ t ∈ ts, ∀ x ∈ t.existential, ∀ a ∈ t.head, ∀ p, a.StandsAt x p → p ∈ Q
  carried : ∀ t ∈ ts, ∀ x ∈ t.frontier,
    (∀ b, .ordinary true b ∈ t.body.literals → ∀ q, b.StandsAt x q → q ∈ Q) →
      ∀ a ∈ t.head, ∀ p, a.StandsAt x p → p ∈ Q

/-- A set closed under the rules has all that is affected by them. -/
lemma Affected.Closed.mem_of_isAffected {Q : Set Position} (hQ : Affected.Closed ts Q)
    (hp : IsAffected ts p) : p ∈ Q := by
  induction hp with
  | invented ht ha hp hx =>
      exact hQ.invented _ ht _ ((Tgd.mem_existential_iff ha hp).mpr hx) _ ha _ hp
  | carried ht ha hp hx _ ih =>
      refine hQ.carried _ ht _ ((Tgd.mem_frontier_iff ha hp).mpr hx) ?_ _ ha _ hp
      exact fun b hb q hq => ih b (Clause.mem_positiveAtoms.mpr hb) q hq

namespace Affected

lemma mem_start : p ∈ start ts ↔ ∃ t ∈ ts, p ∈ t.inventing := by
  rw [start, OrderedSet.mem_ofList, List.mem_flatMap]

lemma onlyAdds_round (ts : List Tgd) : OnlyAdds (round ts) := by
  induction ts with
  | nil => exact fun affected => List.prefix_refl _
  | cons t ts ih => exact fun affected => OrderedSet.prefix_insertAll.trans (ih _)

/-- A round that adds nothing adds nothing for any of the dependencies. -/
lemma mem_of_round_eq (hfixed : round ts affected = affected) (ht : t ∈ ts)
    (hp : p ∈ t.spread affected) : p ∈ affected := by
  induction ts with
  | nil => exact absurd ht List.not_mem_nil
  | cons u us ih =>
      -- what the first dependency adds is there at the end, so it was there before
      have hround : round us (affected.insertAll (u.spread affected)) = affected := hfixed
      have hfirst : affected.insertAll (u.spread affected) = affected := by
        refine OrderedSet.eq_of_prefix ?_ OrderedSet.prefix_insertAll.length_le
        have hrest := onlyAdds_round us (affected.insertAll (u.spread affected))
        rwa [hround] at hrest
      rcases List.mem_cons.mp ht with rfl | ht
      · rw [← hfirst]
        exact OrderedSet.mem_insertAll.mpr (Or.inr hp)
      · rw [hfirst] at hround
        exact ih hround ht

/-- What a round adds to affected positions is affected. -/
lemma isAffected_of_mem_round {us : List Tgd} (hus : ∀ t ∈ us, t ∈ ts)
    (h : ∀ p ∈ affected, IsAffected ts p) : ∀ p ∈ round us affected, IsAffected ts p := by
  induction us generalizing affected with
  | nil => exact h
  | cons u us ih =>
      refine ih (fun t ht => hus t (List.mem_cons_of_mem u ht)) fun p hp => ?_
      rcases OrderedSet.mem_insertAll.mp hp with hp | hp
      · exact h p hp
      · obtain ⟨a, ha, x, hpa, hx⟩ := Tgd.mem_spread.mp hp
        obtain ⟨huniversal, hbody⟩ := Tgd.mem_affectedVariables.mp hx
        exact .carried (hus u List.mem_cons_self) ha hpa huniversal
          fun b hb q hq => h q (hbody b hb q hq)

end Affected

open Affected in
/-- **The affected positions are the least set** that the rules describe. -/
theorem mem_affectedPositions : p ∈ affectedPositions ts ↔ IsAffected ts p := by
  refine mem_saturate_iff (onlyAdds_round ts) (fun p hp => ?_)
    (fun _ => isAffected_of_mem_round fun _ => id) fun affected hstart hfixed p hp => ?_
  · obtain ⟨t, ht, hp⟩ := mem_start.mp hp
    obtain ⟨a, ha, x, hpa, hx⟩ := Tgd.mem_inventing.mp hp
    exact .invented ht ha hpa hx
  · have hclosed : Closed ts {p | p ∈ affected} := by
      constructor
      · intro t ht x hx a ha p hp
        have hinventing : p ∈ t.inventing :=
          Tgd.mem_inventing.mpr ⟨a, ha, x, hp, (Tgd.mem_existential.mp hx).2⟩
        exact hstart p (mem_start.mpr ⟨t, ht, hinventing⟩)
      · intro t ht x hx hbody a ha p hp
        refine mem_of_round_eq hfixed ht (Tgd.mem_spread.mpr ⟨a, ha, x, hp, ?_⟩)
        refine Tgd.mem_affectedVariables.mpr ⟨(Tgd.mem_frontier.mp hx).2, fun b hb => ?_⟩
        exact hbody b (Clause.mem_positiveAtoms.mp hb)
    exact hclosed.mem_of_isAffected hp

end DependencyTheory
