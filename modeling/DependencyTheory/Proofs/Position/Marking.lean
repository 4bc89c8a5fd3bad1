/-
The marked body positions as the least set that two rules describe:

* `Stands`: whether a variable stands at a body position;
* `IsMarked`: a universal variable is marked if some head atom lacks it, or has it at a
  place that a marked variable has in some body;
* `Marking.Closed`: the rules as conditions on a set of body positions, which has all positions
  of the variables that are marked;
* `mem_stickyMarking`: the marked positions are those at which marked variables stand;
* `nodup_markedNames_iff`: no body repeats a variable at marked positions iff no marked
  variable stands twice in its body.

A variable is marked as a whole: the marking has all its occurrences in a body or none.
-/
import DependencyTheory.Position.Marking
import DependencyTheory.Proofs.Position.Affected
import Mathlib.Data.List.Nodup
import Mathlib.Data.List.Pairwise

namespace DependencyTheory

variable {ts : List Tgd} {t u : Tgd} {n : Nat} {x y : String} {p q : BodyPosition}
  {marked : OrderedSet BodyPosition}

/-! ### Variables at body positions -/

/-- The argument place of a body position. -/
def BodyPosition.place (p : BodyPosition) : Position := ⟨p.predicate, p.index⟩

/-- A body position, taken to another place in a list of dependencies. -/
def BodyPosition.moveTo (q : BodyPosition) (m : Nat) : BodyPosition := { q with tgd := m }

/-- Positions in one body that go to the same place are the same. -/
lemma BodyPosition.eq_of_moveTo {m : Nat} (htgd : p.tgd = q.tgd) (h : p.moveTo m = q.moveTo m) :
    p = q := by
  obtain ⟨n, i, j, k⟩ := p
  obtain ⟨n', i', j', k'⟩ := q
  simp only [moveTo, mk.injEq] at h
  obtain ⟨-, rfl, rfl, rfl⟩ := h
  obtain rfl : n = n' := htgd
  rfl

/-- Whether a variable stands at a position of the body of a dependency. -/
def Tgd.StandsInBody (t : Tgd) (p : BodyPosition) (x : String) : Prop :=
  ∃ b, t.body.literals[p.literal]? = some (.ordinary true b) ∧ b.StandsAt x p.place

/-- Whether a variable stands at a body position of a list of dependencies. -/
def Stands (ts : List Tgd) (p : BodyPosition) (x : String) : Prop :=
  ∃ t, ts[p.tgd]? = some t ∧ t.StandsInBody p x

/-- A variable that stands in a body is universal. -/
lemma Tgd.StandsInBody.mem_universal (h : t.StandsInBody p x) : x ∈ t.universal := by
  obtain ⟨b, hb, hx⟩ := h
  refine OrderedSet.mem_ofList.mpr (List.mem_flatMap.mpr ⟨_, List.mem_of_getElem? hb, ?_⟩)
  exact Atom.mem_vars.mpr ⟨_, hx⟩

/-- A variable of a body atom stands at a body position with the same place. -/
lemma Tgd.exists_standsInBody {b : Atom} {r : Position} (hb : b ∈ t.body.positiveAtoms)
    (hx : b.StandsAt x r) (n : Nat) :
    ∃ p : BodyPosition, p.tgd = n ∧ p.place = r ∧ t.StandsInBody p x := by
  obtain ⟨i, hi⟩ := List.mem_iff_getElem?.mp (Clause.mem_positiveAtoms.mp hb)
  exact ⟨⟨n, i, r.index, r.predicate⟩, rfl, rfl, b, hi, hx⟩

/-- Where the dependency of a position is known, a variable stands there in its body. -/
lemma stands_iff (ht : ts[p.tgd]? = some t) : Stands ts p x ↔ t.StandsInBody p x := by
  constructor
  · rintro ⟨u, hu, hx⟩
    obtain rfl := Option.some.inj (ht.symm.trans hu)
    exact hx
  · exact fun hx => ⟨t, ht, hx⟩

lemma BodyPosition.varName?_eq_some_of_stands (h : Stands ts p x) : p.varName? ts = some x := by
  obtain ⟨t, ht, b, hb, hx⟩ := h
  simp only [varName?, literal?, ht, hb, Option.bind_eq_bind, Option.bind_some]
  have hterm : b.terms[p.index]? = some (.var x) := hx.2
  show b.terms[p.index]?.bind Term.varName? = some x
  rw [hterm]
  rfl

/-- One variable stands at a body position. -/
lemma Stands.unique (hx : Stands ts p x) (hy : Stands ts p y) :
    x = y :=
  Option.some.inj ((BodyPosition.varName?_eq_some_of_stands hx).symm.trans
    (BodyPosition.varName?_eq_some_of_stands hy))

/-- Whether a set of body positions has all those of a variable, in the dependency at a
place. -/
def MarksAll (ts : List Tgd) (Q : Set BodyPosition) (n : Nat) (x : String) : Prop :=
  ∀ p, p.tgd = n → Stands ts p x → p ∈ Q

/-- Only universal variables have body positions. -/
lemma MarksAll.of_universal {Q : Set BodyPosition} (ht : ts[n]? = some t)
    (h : x ∈ t.universal → MarksAll ts Q n x) : MarksAll ts Q n x := by
  rintro p rfl hx
  exact h ((stands_iff ht).mp hx).mem_universal p rfl hx

namespace Marking

lemma mem_occurrences : p ∈ occurrences t n x ↔ p.tgd = n ∧ t.StandsInBody p x := by
  simp only [occurrences, places, List.mem_map, List.mem_filter, List.mem_flatMap, Prod.exists,
    List.mem_zipIdx_iff_getElem?, decide_eq_true_eq]
  constructor
  · rintro ⟨q, term, ⟨⟨l, i, hl, hplace⟩, rfl⟩, rfl⟩
    split at hplace
    · next b hb =>
        obtain ⟨⟨term, j⟩, hj, hq⟩ := List.mem_map.mp hplace
        obtain ⟨rfl, rfl⟩ := Prod.mk.inj hq
        rw [Literal.positiveAtom?_eq_some.mp hb] at hl
        exact ⟨rfl, b, hl, rfl, List.mem_zipIdx_iff_getElem?.mp hj⟩
    · exact absurd hplace List.not_mem_nil
  · rintro ⟨rfl, b, hb, hpredicate, hx⟩
    refine ⟨p, .var x, ⟨⟨_, p.literal, hb, ?_⟩, rfl⟩, rfl⟩
    refine List.mem_map.mpr ⟨(.var x, p.index), List.mem_zipIdx_iff_getElem?.mpr hx, ?_⟩
    exact congrArg (·, _) (congrArg (BodyPosition.mk _ _ _) hpredicate)

lemma mem_lost : x ∈ lost t ↔ x ∈ t.universal ∧ ∃ a ∈ t.head, x ∉ a.vars := by
  simp only [lost, List.mem_filter, List.any_eq_true, decide_eq_true_eq]
  rfl

lemma flagged_iff {r : Position} :
    flagged marked r.predicate r.index = true ↔ ∃ p ∈ marked, p.place = r := by
  simp only [flagged, List.any_eq_true, decide_eq_true_eq]
  refine exists_congr fun p => and_congr_right fun _ => ?_
  cases r
  simp [BodyPosition.place]

lemma mem_exposed : x ∈ exposed t marked ↔
    x ∈ t.universal ∧ ∃ a ∈ t.head, ∃ p ∈ marked, a.StandsAt x p.place := by
  simp only [exposed, List.mem_flatMap, List.mem_filterMap, Prod.exists,
    List.mem_zipIdx_iff_getElem?]
  constructor
  · rintro ⟨a, ha, term, i, hi, hx⟩
    cases term with
    | const c => cases hx
    | var y =>
        obtain ⟨⟨huniversal, hflagged⟩, rfl⟩ := Option.ite_some_none_eq_some.mp hx
        obtain ⟨p, hp, hplace⟩ := (flagged_iff (r := ⟨a.predicate, i⟩)).mp hflagged
        exact ⟨huniversal, a, ha, p, hp, hplace ▸ ⟨rfl, hi⟩⟩
  · rintro ⟨huniversal, a, ha, p, hp, hpredicate, hi⟩
    refine ⟨a, ha, .var x, _, hi, Option.ite_some_none_eq_some.mpr ⟨⟨huniversal, ?_⟩, rfl⟩⟩
    rw [hpredicate]
    exact flagged_iff.mpr ⟨p, hp, rfl⟩

lemma mem_start : p ∈ start ts ↔ ∃ t x, ts[p.tgd]? = some t ∧ t.StandsInBody p x ∧
    ∃ a ∈ t.head, x ∉ a.vars := by
  simp only [start, List.mem_flatMap, Prod.exists, List.mem_zipIdx_iff_getElem?, mem_lost,
    mem_occurrences]
  constructor
  · rintro ⟨t, n, ht, x, ⟨-, hlost⟩, rfl, hx⟩
    exact ⟨t, x, ht, hx, hlost⟩
  · rintro ⟨t, x, ht, hx, hlost⟩
    exact ⟨t, p.tgd, ht, x, ⟨hx.mem_universal, hlost⟩, rfl, hx⟩

lemma mem_promoted : p ∈ promoted ts marked ↔ ∃ t x, ts[p.tgd]? = some t ∧ t.StandsInBody p x ∧
    ∃ a ∈ t.head, ∃ q ∈ marked, a.StandsAt x q.place := by
  simp only [promoted, List.mem_flatMap, Prod.exists, List.mem_zipIdx_iff_getElem?, mem_exposed,
    mem_occurrences]
  constructor
  · rintro ⟨t, n, ht, x, ⟨-, hexposed⟩, rfl, hx⟩
    exact ⟨t, x, ht, hx, hexposed⟩
  · rintro ⟨t, x, ht, hx, hexposed⟩
    exact ⟨t, p.tgd, ht, x, ⟨hx.mem_universal, hexposed⟩, rfl, hx⟩

end Marking

/-! ### The rules -/

/-- Whether the value of a variable of the dependency at a place may get lost: some head
atom lacks the variable, or has it at the place of a body variable for which this is so. -/
inductive IsMarked (ts : List Tgd) : Nat → String → Prop
  | lost {n : Nat} {t : Tgd} {x : String} {a : Atom} (ht : ts[n]? = some t)
      (ha : a ∈ t.head) (hx : x ∉ a.vars) : IsMarked ts n x
  | exposed {n : Nat} {t : Tgd} {x y : String} {a : Atom} {q : BodyPosition}
      (ht : ts[n]? = some t) (ha : a ∈ t.head) (hx : a.StandsAt x q.place)
      (hq : Stands ts q y) (hy : IsMarked ts q.tgd y) : IsMarked ts n x

/-- Whether a set of body positions has all those of each universal variable that some head atom
lacks, or has at an argument place at which the set has a position. -/
structure Marking.Closed (ts : List Tgd) (Q : Set BodyPosition) : Prop where
  lost : ∀ n t, ts[n]? = some t → ∀ x ∈ t.universal, ∀ a ∈ t.head,
    x ∉ a.vars → MarksAll ts Q n x
  exposed : ∀ q ∈ Q, ∀ n t, ts[n]? = some t → ∀ x ∈ t.universal, ∀ a ∈ t.head,
    a.StandsAt x q.place → MarksAll ts Q n x

/-- A set closed under the rules has all positions of the variables that they mark. -/
lemma Marking.Closed.marksAll {Q : Set BodyPosition} (hQ : Marking.Closed ts Q)
    (hmark : IsMarked ts n x) : MarksAll ts Q n x := by
  induction hmark with
  | lost ht ha hlost => exact .of_universal ht fun hx => hQ.lost _ _ ht _ hx _ ha hlost
  | exposed ht ha hplace hq _ ih =>
      exact .of_universal ht fun hx => hQ.exposed _ (ih _ rfl hq) _ _ ht _ hx _ ha hplace

lemma all_positiveAtom?_iff :
    (ts.all fun t => t.body.literals.all fun l => l.positiveAtom?.isSome) = true ↔
      ∀ t ∈ ts, ∀ l ∈ t.body.literals, ∃ a, l = .ordinary true a := by
  simp only [List.all_eq_true, Option.isSome_iff_exists, Literal.positiveAtom?_eq_some]

/-- The marking procedure answers for bodies of positive atoms. -/
lemma stickyMarking_eq_ok : stickyMarking ts = .ok marked ↔
    (∀ t ∈ ts, ∀ l ∈ t.body.literals, ∃ a, l = .ordinary true a) ∧
      marked = saturate (Marking.bound ts) _ (Marking.promoted_staysInside ts)
        (.ofList (Marking.start ts)) fun _ => Marking.mem_bound_of_mem_start := by
  rw [stickyMarking, ← all_positiveAtom?_iff]
  split
  · next h => rw [Except.ok.injEq, and_iff_right h, eq_comm]
  · next h => exact ⟨fun he => (nomatch he), fun he => absurd he.1 h⟩

/-- It has one error, for all other bodies. -/
lemma stickyMarking_eq_error {e : AnalysisError} : stickyMarking ts = .error e ↔
    (¬∀ t ∈ ts, ∀ l ∈ t.body.literals, ∃ a, l = .ordinary true a) ∧
      e = .unsupported .markedBody := by
  rw [stickyMarking, ← all_positiveAtom?_iff]
  split
  · next h => exact ⟨fun he => (nomatch he), fun he => absurd h he.1⟩
  · next h => rw [Except.error.injEq, and_iff_right h, eq_comm]

/-- **The marked positions are those of marked variables**, the least set that the rules
describe. -/
theorem mem_stickyMarking (h : stickyMarking ts = .ok marked) :
    p ∈ marked ↔ ∃ x, Stands ts p x ∧ IsMarked ts p.tgd x := by
  obtain ⟨-, rfl⟩ := stickyMarking_eq_ok.mp h
  refine mem_saturate_iff (P := fun p => ∃ x, Stands ts p x ∧ IsMarked ts p.tgd x)
    (fun _ => OrderedSet.prefix_insertAll) (fun p hp => ?_) (fun marked hmarked p hp => ?_)
    fun marked hstart hfixed p hp => ?_
  · obtain ⟨t, x, ht, hx, a, ha, hlost⟩ := Marking.mem_start.mp (OrderedSet.mem_ofList.mp hp)
    exact ⟨x, ⟨t, ht, hx⟩, .lost ht ha hlost⟩
  · rcases OrderedSet.mem_insertAll.mp hp with hp | hp
    · exact hmarked p hp
    · obtain ⟨t, x, ht, hx, a, ha, q, hq, hplace⟩ := Marking.mem_promoted.mp hp
      obtain ⟨y, hy, hmark⟩ := hmarked q hq
      exact ⟨x, ⟨t, ht, hx⟩, .exposed ht ha hplace hy hmark⟩
  · obtain ⟨x, hx, hmark⟩ := hp
    have hclosed : Marking.Closed ts {p | p ∈ marked} := by
      constructor
      · rintro n t ht x - a ha hlost p rfl hx
        refine hstart p (OrderedSet.mem_ofList.mpr (Marking.mem_start.mpr ?_))
        exact ⟨t, x, ht, (stands_iff ht).mp hx, a, ha, hlost⟩
      · rintro q hq n t ht x - a ha hplace p rfl hx
        have hpromoted : p ∈ Marking.promoted ts marked :=
          Marking.mem_promoted.mpr ⟨t, x, ht, (stands_iff ht).mp hx, a, ha, q, hq, hplace⟩
        exact hfixed ▸ OrderedSet.mem_insertAll.mpr (Or.inr hpromoted)
    exact hclosed.marksAll hmark p rfl hx

/-- **No body repeats a variable at marked positions** iff no marked variable stands at two
positions of its body. -/
theorem nodup_markedNames_iff (h : stickyMarking ts = .ok marked) :
    (marked.toList.filterMap fun p => (p.varName? ts).map fun x => (p.tgd, x)).Nodup ↔
      ∀ p q x, p.tgd = q.tgd → Stands ts p x → Stands ts q x → IsMarked ts p.tgd x → p = q := by
  rw [List.nodup_iff_pairwise_ne, List.pairwise_filterMap]
  have hname : ∀ {p x}, Stands ts p x →
      ((p.varName? ts).map fun x => (p.tgd, x)) = some (p.tgd, x) := fun hp => by
    rw [BodyPosition.varName?_eq_some_of_stands hp, Option.map_some]
  constructor
  · intro hpairs p q x htgd hp hq hmark
    have hmem : p ∈ marked := (mem_stickyMarking h).mpr ⟨x, hp, hmark⟩
    have hmem' : q ∈ marked := (mem_stickyMarking h).mpr ⟨x, hq, htgd ▸ hmark⟩
    by_contra hne
    have hsymm : Std.Symm fun p q : BodyPosition =>
        ∀ b, ((p.varName? ts).map fun x => (p.tgd, x)) = some b →
          ∀ b', ((q.varName? ts).map fun x => (q.tgd, x)) = some b' → b ≠ b' :=
      ⟨fun _ _ h b hb b' hb' he => h b' hb' b hb he.symm⟩
    exact hpairs.forall hmem hmem' hne _ (hname hp) _ (hname hq) (htgd ▸ rfl)
  · intro hone
    refine marked.nodup.pairwise_of_forall_ne fun p hp q hq hne b hb b' hb' heq => hne ?_
    obtain ⟨x, hx, hmark⟩ := (mem_stickyMarking h).mp hp
    obtain ⟨y, hy, -⟩ := (mem_stickyMarking h).mp hq
    obtain rfl := Option.some.inj ((hname hx).symm.trans hb)
    obtain rfl := Option.some.inj ((hname hy).symm.trans hb')
    obtain ⟨htgd, rfl⟩ := Prod.mk.inj heq
    exact hone p q x htgd hx hy hmark

end DependencyTheory
