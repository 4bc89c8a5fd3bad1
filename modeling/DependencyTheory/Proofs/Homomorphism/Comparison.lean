/-
Comparing the rules of two predicates, given what answers on predicates say:

* `Meaning`: which questions come up, which verdicts are valid, and what the
  answers say;
* `Tells`: answers that keep verdicts valid and say what they mean;
* `Tells.mapsRule_of_searchRule`, `Tells.counterparts_of_hasCounterpart`,
  `Tells.defines_of_definitionsAgree`: what a comparison says about rules when the
  answers on predicates tell;
* `tells_provable`: an answer in favour of two predicates says that they have the
  same definition, under every policy and whatever else is being compared.

A comparison in favour of two predicates rests on finitely many others in favour,
since a pair that comes up inside its own comparison counts against itself. That
is why the induction is on the number of pairs that are not being compared. What a
comparison against two predicates says depends on what else is being compared, and
is left open here.
-/
import DependencyTheory.Proofs.Homomorphism.Agreement
import DependencyTheory.Proofs.Homomorphism.FirstChoice

namespace DependencyTheory.Homomorphism

variable {base sides : Sides} {agree : Agreement} {w w' : Verdicts} {b : Bool}

/-! ### Both ways round -/

/-- Whether the schemas stand as at the start of a search, or have changed
places. -/
def Sides.Orients (base sides : Sides) : Prop := sides = base ∨ sides = base.turn

lemma Sides.Orients.turn (h : base.Orients sides) : base.Orients sides.turn := by
  rcases h with rfl | rfl
  · exact Or.inr rfl
  · exact Or.inl (Sides.turn_turn base)

/-- Which way round the schemas stand can be told from the mark. -/
lemma Sides.Orients.eq_of_turned {sides' : Sides} (h : base.Orients sides)
    (h' : base.Orients sides') (hturned : sides.turned = sides'.turned) :
    sides = sides' := by
  rcases h with rfl | rfl <;> rcases h' with rfl | rfl
  · rfl
  · simp [Sides.turn] at hturned
  · simp [Sides.turn] at hturned
  · rfl

/-! ### Answers with a meaning -/

/-- What answers on predicates are to say: the questions that come up, the
verdicts that they may rely on, and what an answer says about two predicates. -/
structure Meaning where
  ComesUp : Likeness
  Valid : Verdicts → Prop
  Says : Bool → Likeness

namespace Meaning

variable (M : Meaning)

/-- Which predicates may be the same, for all that is said against it. -/
def Possible : Likeness := fun sides d r => ¬M.Says false sides d r

/-- Whether all questions on predicates come up that a comparison of two rules
asks in one direction. -/
def Covers (sides : Sides) (rule other : Rule) : Prop :=
  ∀ a ∈ rule.body.literals, ∀ b ∈ other.body.literals,
    ∀ d ∈ a.predicate?, ∀ r ∈ b.predicate?, M.ComesUp sides d r

/-- The same in both directions, for rules of two lists. -/
def CoversAll (sides : Sides) (rules others : List Rule) : Prop :=
  ∀ rule ∈ rules, ∀ other ∈ others,
    M.Covers sides rule other ∧ M.Covers sides.turn other rule

end Meaning

variable {M : Meaning}

lemma Meaning.CoversAll.turn {rules others : List Rule} (h : M.CoversAll sides rules others) :
    M.CoversAll sides.turn others rules := fun other hother rule hrule => by
  obtain ⟨hforth, hback⟩ := h rule hrule other hother
  rw [Sides.turn_turn]
  exact ⟨hback, hforth⟩

variable (base M) in
/-- Whether answers on predicates keep verdicts valid and say what they mean,
whichever way round the schemas stand. -/
def Tells (agree : Agreement) : Prop :=
  ∀ sides, base.Orients sides → ∀ d r w b w', M.ComesUp sides d r → M.Valid w →
    Yields (agree sides d r) w b w' → M.Valid w' ∧ M.Says b sides d r

/-- What such answers vouch for. It does not depend on the verdicts. -/
def Tells.warrant (h : Tells base M agree) (ho : base.Orients sides) :
    Warrant agree sides where
  ComesUp := M.ComesUp sides
  Valid := M.Valid
  Vouches _ d r b := M.Says b sides d r
  valid hup hw hy := (h _ ho _ _ _ _ _ hup hw hy).1
  keeps _ _ _ _ _ _ hs := hs
  vouches hup hw hy := (h _ ho _ _ _ _ _ hup hw hy).2

/-! ### Comparing rules -/

section Rules

variable (h : Tells base M agree) (ho : base.Orients sides)

include h ho

/-- What a search between two rules says about maps between them. -/
lemma Tells.mapsRule_of_searchRule {rule other : Rule} {found : Option Substitution}
    (hcovers : M.Covers sides rule other) (hw : M.Valid w)
    (hy : Yields (searchRule agree sides rule other) w found w') :
    M.Valid w' ∧ (found.isSome = true → MapsRule (M.Says true sides) rule other) ∧
      (found.isSome = false → ¬MapsRule (M.Possible sides) rule other) := by
  obtain ⟨hl, hnone, hsome⟩ := Warrant.mapsRule_of_searchRule (W := h.warrant ho) hcovers hw hy
  refine ⟨hl.1, fun hfound => ?_, fun hfound => ?_⟩
  · obtain ⟨t, ht⟩ := Option.isSome_iff_exists.mp hfound
    exact hsome t ht
  · exact hnone (by simpa using hfound)

/-- What is said about counterparts of a rule among others. -/
lemma Tells.counterparts_of_hasCounterpart {rule : Rule} {others : List Rule}
    (hcovers : ∀ other ∈ others, M.Covers sides rule other ∧ M.Covers sides.turn other rule)
    (hw : M.Valid w) (hy : Yields (hasCounterpart agree sides rule others) w b w') :
    M.Valid w' ∧ (b = true → ∃ other ∈ others, Counterparts (M.Says true) sides rule other) ∧
      (b = false → ∀ other ∈ others, ¬Counterparts M.Possible sides rule other) := by
  obtain ⟨hw', hsome, hnone⟩ := yields_anyM
    (Q := fun other b => (b = true → Counterparts (M.Says true) sides rule other) ∧
      (b = false → ¬Counterparts M.Possible sides rule other))
    (fun other hother v b v' hv hy => by
      obtain ⟨found, v₁, hsearch, hy⟩ := yields_bind.mp hy
      obtain ⟨hv₁, hforth, hnone⟩ := h.mapsRule_of_searchRule ho (hcovers other hother).1 hv hsearch
      split at hy
      · rename_i hfound
        obtain ⟨found', v₂, hsearch', hy'⟩ := yields_bind.mp hy
        obtain ⟨rfl, rfl⟩ := yields_pure.mp hy'
        obtain ⟨hv₂, hback, hnone'⟩ :=
          h.mapsRule_of_searchRule ho.turn (hcovers other hother).2 hv₁ hsearch'
        exact ⟨hv₂, fun hb => ⟨hforth hfound, hback hb⟩, fun hb hc => hnone' hb hc.2⟩
      · rename_i hfound
        obtain ⟨rfl, rfl⟩ := yields_pure.mp hy
        refine ⟨hv₁, fun hb => absurd hb (by simp), fun _ hc => ?_⟩
        exact hnone (Bool.eq_false_of_not_eq_true hfound) hc.1) hw hy
  refine ⟨hw', fun hb => ?_, fun hb other hother => (hnone hb other hother).2 rfl⟩
  obtain ⟨other, hother, hsays⟩ := hsome hb
  exact ⟨other, hother, hsays.1 rfl⟩

/-- What is said about the counterparts of all rules of a list. -/
lemma Tells.matched_of_allM {rules others : List Rule} (hcovers : M.CoversAll sides rules others)
    (hw : M.Valid w)
    (hy : Yields (rules.allM fun rule => hasCounterpart agree sides rule others)
      w b w') :
    M.Valid w' ∧ (b = true → Matched (M.Says true) sides rules others) ∧
      (b = false → ¬Matched M.Possible sides rules others) := by
  obtain ⟨hw', hall, hsome⟩ := yields_allM
    (Q := fun rule b =>
      (b = true → ∃ other ∈ others, Counterparts (M.Says true) sides rule other) ∧
      (b = false → ∀ other ∈ others, ¬Counterparts M.Possible sides rule other))
    (fun rule hrule v b v' hv hy =>
      h.counterparts_of_hasCounterpart ho (hcovers rule hrule) hv hy) hw hy
  refine ⟨hw', fun hb rule hrule => (hall hb rule hrule).1 rfl, fun hb hmatched => ?_⟩
  obtain ⟨rule, hrule, hsays⟩ := hsome hb
  obtain ⟨other, hother, hcounterparts⟩ := hmatched rule hrule
  exact hsays.2 rfl other hother hcounterparts

/-- What a comparison of the rules of two predicates says about their
definitions. -/
theorem Tells.defines_of_definitionsAgree {d r : Handle}
    (hcovers : ∀ p q, sides.domain.get? d = some p → sides.range.get? r = some q →
      M.CoversAll sides p.rules q.rules)
    (hw : M.Valid w) (hy : Yields (definitionsAgree agree sides d r) w b w') :
    M.Valid w' ∧ (b = true → Defines (M.Says true) sides d r) ∧
      (b = false → ¬Defines M.Possible sides d r) := by
  obtain ⟨p, v₁, hdomain, hy₁⟩ := yields_bind.mp hy
  obtain ⟨hp, rfl⟩ := yields_lift.mp hdomain
  obtain ⟨q, v₂, hrange, hy₂⟩ := yields_bind.mp hy₁
  obtain ⟨hq, rfl⟩ := yields_lift.mp hrange
  rw [domainRow_eq_ok] at hp
  rw [rangeRow_eq_ok] at hq
  have hcovers := hcovers p q hp hq
  -- the rows are determined by the handles, so a definition is one by these rules
  have hrows : Defines M.Possible sides d r →
      (p.isDerived = true ∧ q.isDerived = true ∧ p.arity = q.arity) ∧
      Matched M.Possible sides p.rules q.rules ∧
      Matched M.Possible sides.turn q.rules p.rules := by
    rintro ⟨p', q', hp', hq', hdefines⟩
    cases hp.symm.trans hp'
    cases hq.symm.trans hq'
    exact hdefines
  split at hy₂
  · rename_i hshape
    simp only [Bool.and_eq_true, beq_iff_eq, and_assoc] at hshape
    obtain ⟨all, v₃, hallM, hy₃⟩ := yields_bind.mp hy₂
    obtain ⟨hv₃, hforth, hnone⟩ := h.matched_of_allM ho hcovers hw hallM
    split at hy₃
    · rename_i hall
      obtain ⟨hv₄, hback, hnone'⟩ := h.matched_of_allM ho.turn hcovers.turn hv₃ hy₃
      exact ⟨hv₄, fun hb => ⟨p, q, hp, hq, hshape, hforth hall, hback hb⟩,
        fun hb hdefines => hnone' hb (hrows hdefines).2.2⟩
    · rename_i hall
      obtain ⟨rfl, rfl⟩ := yields_pure.mp hy₃
      refine ⟨hv₃, fun hb => absurd hb (by simp), fun _ hdefines => ?_⟩
      exact hnone (Bool.eq_false_of_not_eq_true hall) (hrows hdefines).2.1
  · rename_i hshape
    obtain ⟨rfl, rfl⟩ := yields_pure.mp hy₂
    refine ⟨hw, fun hb => absurd hb (by simp), fun _ hdefines => hshape ?_⟩
    obtain ⟨hderivedp, hderivedq, harity⟩ := (hrows hdefines).1
    simp [hderivedp, hderivedq, harity]

end Rules

/-! ### Verdicts -/

/-- Whether later verdicts repeat the earlier ones. -/
def Extends (w w' : Verdicts) : Prop :=
  ∀ pair b, w.lookup pair = some b → w'.lookup pair = some b

lemma Extends.refl (w : Verdicts) : Extends w w := fun _ _ h => h

/-- A verdict on a pair without one is no contradiction. -/
lemma Extends.cons {pair : Comparand} (h : Extends w w') (hnone : w.lookup pair = none) :
    Extends w ((pair, b) :: w') := fun pair' b' hb' => by
  have hne : (pair' == pair) = false := by
    rw [beq_eq_false_iff_ne]
    rintro rfl
    exact absurd (hnone.symm.trans hb') (by simp)
  rw [List.lookup_cons, hne]
  exact h pair' b' hb'

/-- Whether verdicts are on predicates with different names, and what they say is
right. -/
def Recorded (base : Sides) (Says : Bool → Likeness) (w : Verdicts) : Prop :=
  ∀ sides, base.Orients sides → ∀ d r b, w.lookup ⟨d, r, sides.turned⟩ = some b →
    ¬SamePredicate sides d r ∧ Says b sides d r

variable {Says : Bool → Likeness}

lemma recorded_nil : Recorded base Says [] := fun _ _ _ _ _ h => absurd h (by simp)

lemma Recorded.cons {d r : Handle} (hw : Recorded base Says w) (ho : base.Orients sides)
    (hunlike : ¬SamePredicate sides d r) (hb : Says b sides d r) :
    Recorded base Says ((⟨d, r, sides.turned⟩, b) :: w) := by
  intro sides' ho' d' r' b' hlookup
  rw [List.lookup_cons] at hlookup
  split at hlookup
  · rename_i heq
    simp only [beq_iff_eq, Comparand.mk.injEq] at heq
    obtain ⟨rfl, rfl, hturned⟩ := heq
    obtain rfl := ho'.eq_of_turned ho hturned
    cases hlookup
    exact ⟨hunlike, hb⟩
  · exact hw sides' ho' d' r' b' hlookup

/-! ### Answers in favour -/

/-- Answers that say, when they are in favour of two predicates, that these have
the same definition. Any question may come up, and no verdict of a given start
is changed. -/
def provable (base : Sides) (start : Verdicts) : Meaning where
  ComesUp _ _ _ := True
  Valid w := Recorded base (fun b sides d r => b = true → SameDefinition sides d r) w ∧
    Extends start w
  Says b sides d r := b = true → SameDefinition sides d r

/-- **Answers in favour are right**, however the definitions refer to each other:
by induction on the pairs that are not being compared. -/
theorem tells_provable (policy : Policy) (unopened : List Comparand) (start : Verdicts) :
    Tells base (provable base start) (predicatesAgree policy (rulesAgree policy unopened)) := by
  induction hn : unopened.length using Nat.strong_induction_on generalizing unopened start with
  | _ n ih =>
      intro sides ho d r w b w' _ hw hy
      cases answered_of_yields hy with
      | named hnames => exact ⟨hw, fun _ => sameDefinition_iff.mpr (Or.inl hnames)⟩
      | unlike => exact ⟨hw, fun hb => absurd hb (by simp)⟩
      | remembered _ hlookup => exact ⟨hw, (hw.1 sides ho d r b hlookup).2⟩
      | refused => exact ⟨hw, fun hb => absurd hb (by simp)⟩
      | @compared b v hunlike hlookup hmem hdefinitions =>
          -- the inner comparisons may not change the verdicts at this point either
          have hinner := ih _ (hn ▸ fewer_unopened hmem)
            (unopened.erase ⟨d, r, sides.turned⟩) w rfl
          obtain ⟨hv, htrue, -⟩ := hinner.defines_of_definitionsAgree ho
            (fun p q _ _ rule _ other _ => ⟨fun _ _ _ _ _ _ _ _ => trivial,
              fun _ _ _ _ _ _ _ _ => trivial⟩) ⟨hw.1, Extends.refl w⟩ hdefinitions
          have hsays : b = true → SameDefinition sides d r := fun hb =>
            sameDefinition_iff.mpr (Or.inr ((htrue hb).mono fun _ _ _ h => h rfl))
          refine ⟨⟨hv.1.cons ho hunlike hsays, ?_⟩, hsays⟩
          exact fun pair b' hb' => hv.2.cons hlookup pair b' (hw.2 pair b' hb')

end DependencyTheory.Homomorphism
