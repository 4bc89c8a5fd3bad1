/-
Searches that keep all they change in one memory end like the search that runs:

* `Keeps`: whether a memory says the same as the verdicts found so far and the comparisons that
  are left to open;
* `Mirrors`: whether steps that change a memory end like one that makes verdicts, whatever fuel
  they have, in one memory that keeps them;
* `mirrors_rulesAgree`: a comparison ends alike if the definitions are compared alike while it
  is under way;
* `mirrors_agree`: so do all answers on predicates, with more fuel than there are comparisons
  left to open.
-/
import DependencyTheory.Proofs.Homomorphism.Memory
import DependencyTheory.Proofs.Homomorphism.Nonrecursive
import Mathlib.Data.List.Nodup

namespace DependencyTheory.Homomorphism

variable {α β ι : Type} {base sides : Sides} {unopened : List Comparand} {w : Verdicts} {μ : Memory}
  {pair : Comparand}

/-! ### Memories and verdicts -/

/-- There is a verdict on the comparisons that are listed with one. -/
lemma lookup_ne_none_iff : w.lookup pair ≠ none ↔ pair ∈ w.map Prod.fst := by
  simp only [ne_eq, List.lookup_eq_none_iff, bne_iff_ne, not_forall, not_not, exists_prop,
    List.mem_map, @eq_comm _ pair]

/-- How a comparison stands, given the verdicts found so far and the comparisons left to open:
one that has been opened is under way as long as there is no verdict. -/
def standingWith (base : Sides) (unopened : List Comparand) (w : Verdicts) (pair : Comparand) :
    Option Standing :=
  match w.lookup pair with
  | some verdict => some (.ended verdict)
  | none => if pair ∈ base.comparands ∧ pair ∉ unopened then some .underWay else none

/-- Whether a memory has the schemas in given places and the standing of all comparisons as the
verdicts have it, and has entered just the comparisons with a standing, each once. There is one
verdict on a comparison at most, and none on those under way. -/
structure Keeps (base : Sides) (unopened : List Comparand) (sides : Sides) (w : Verdicts)
    (μ : Memory) : Prop where
  sides : μ.sides = sides
  standing : ∀ pair, μ.standing pair = standingWith base unopened w pair
  nodup : μ.entered.Nodup
  subset : μ.entered ⊆ base.comparands
  mem_entered : ∀ pair, pair ∈ μ.entered ↔ μ.standing pair ≠ none
  single : (w.map Prod.fst).Nodup
  undecided : ∀ pair ∈ base.comparands, pair ∉ unopened → w.lookup pair = none

/-- What is left of this after an error: the schemas are in their places, nothing is under way
but what is open around the step, and no comparison was entered twice. -/
structure Drops (base : Sides) (unopened : List Comparand) (sides : Sides) (μ : Memory) :
    Prop where
  sides : μ.sides = sides
  underWay : ∀ pair, μ.standing pair = some .underWay →
    pair ∈ base.comparands ∧ pair ∉ unopened
  nodup : μ.entered.Nodup
  subset : μ.entered ⊆ base.comparands

section Standing

variable (h : Keeps base unopened sides w μ)

include h

lemma Keeps.standing_of_some {b : Bool} (hlookup : w.lookup pair = some b) :
    μ.standing pair = some (.ended b) := by
  rw [h.standing, standingWith, hlookup]

/-- What is left to open has not been entered. -/
lemma Keeps.standing_of_mem (hlookup : w.lookup pair = none) (hmem : pair ∈ unopened) :
    μ.standing pair = none := by
  simp [h.standing, standingWith, hlookup, hmem]

/-- What has been opened and has no verdict is under way. -/
lemma Keeps.standing_of_not_mem (hbase : pair ∈ base.comparands) (hmem : pair ∉ unopened) :
    μ.standing pair = some .underWay := by
  simp [h.standing, standingWith, h.undecided pair hbase hmem, hbase, hmem]

end Standing

/-- A step that keeps the verdicts may still end with an error. -/
lemma Keeps.drops (h : Keeps base unopened sides w μ) : Drops base unopened sides μ where
  sides := h.sides
  underWay pair hunder := by
    rw [h.standing, standingWith] at hunder
    cases hlookup : w.lookup pair with
    | some verdict => simp [hlookup] at hunder
    | none => simpa [hlookup] using hunder
  nodup := h.nodup
  subset := h.subset

/-- At the start of a search all comparisons are left to open. -/
lemma keeps_start (base : Sides) : Keeps base base.comparands base [] (Memory.start base) where
  sides := rfl
  standing pair := by simp [Memory.start, standingWith]
  nodup := List.nodup_nil
  subset := List.nil_subset _
  mem_entered pair := by simp [Memory.start]
  single := List.nodup_nil
  undecided pair _ _ := rfl

lemma Keeps.turn (h : Keeps base unopened sides w μ) :
    Keeps base unopened sides.turn w μ.turn :=
  ⟨congrArg Sides.turn h.sides, h.standing, h.nodup, h.subset, h.mem_entered, h.single,
    h.undecided⟩

lemma Drops.turn (h : Drops base unopened sides μ) : Drops base unopened sides.turn μ.turn :=
  ⟨congrArg Sides.turn h.sides, h.underWay, h.nodup, h.subset⟩

/-- **A comparison is entered**: it is under way then, and no longer left to open. -/
lemma Keeps.enter (h : Keeps base unopened sides w μ) (hbase : pair ∈ base.comparands)
    (hmem : pair ∈ unopened) (hnodup : unopened.Nodup) (hnone : w.lookup pair = none) :
    Keeps base (unopened.erase pair) sides w (μ.enter pair) where
  sides := h.sides
  standing pair' := by
    by_cases heq : pair' = pair
    · subst heq
      simp [standingWith, hnone, hbase, hnodup.not_mem_erase]
    · rw [Memory.standing_enter_of_ne heq, h.standing]
      simp only [standingWith, List.mem_erase_of_ne heq]
  nodup := by
    have hnew : pair ∉ μ.entered := by
      simp [h.mem_entered, h.standing_of_mem hnone hmem]
    exact h.nodup.append (List.nodup_singleton _) (by simpa using hnew)
  subset := List.append_subset.mpr ⟨h.subset, by simpa using hbase⟩
  mem_entered pair' := by
    by_cases heq : pair' = pair
    · simp [heq]
    · simp [Memory.standing_enter_of_ne heq, heq, h.mem_entered]
  single := h.single
  undecided pair' hpair' hopened := by
    by_cases heq : pair' = pair
    · exact heq ▸ hnone
    · exact h.undecided pair' hpair' fun hmem' => hopened ((List.mem_erase_of_ne heq).mpr hmem')

/-- **A comparison ends with a verdict.** -/
lemma Keeps.leave {b : Bool} (h : Keeps base (unopened.erase pair) sides w μ)
    (hbase : pair ∈ base.comparands) (hmem : pair ∈ unopened) (hnodup : unopened.Nodup) :
    Keeps base unopened sides ((pair, b) :: w) (μ.leave pair (some (.ended b))) := by
  have hnone : w.lookup pair = none := h.undecided pair hbase hnodup.not_mem_erase
  have hlookup {pair' : Comparand} (hne : pair' ≠ pair) :
      List.lookup pair' ((pair, b) :: w) = w.lookup pair' := by
    rw [List.lookup_cons, beq_eq_false_iff_ne.mpr hne]
  refine ⟨h.sides, fun pair' => ?_, h.nodup, h.subset, fun pair' => ?_, ?_,
    fun pair' hpair' hopened => ?_⟩
  · by_cases heq : pair' = pair
    · subst heq
      simp [standingWith, List.lookup_cons_self]
    · rw [Memory.standing_leave_of_ne heq, h.standing]
      simp only [standingWith, hlookup heq, List.mem_erase_of_ne heq]
  · by_cases heq : pair' = pair
    · subst heq
      simp [h.mem_entered, h.standing_of_not_mem hbase hnodup.not_mem_erase]
    · simp [Memory.standing_leave_of_ne heq, h.mem_entered]
  · refine List.nodup_cons.mpr ⟨fun hkey => ?_, h.single⟩
    exact lookup_ne_none_iff.mpr hkey hnone
  · have hne : pair' ≠ pair := fun heq => hopened (heq ▸ hmem)
    rw [hlookup hne]
    exact h.undecided pair' hpair' fun hmem' => hopened (List.mem_of_mem_erase hmem')

/-- A comparison that ends with an error is forgotten. -/
lemma Drops.leave (h : Drops base (unopened.erase pair) sides μ) :
    Drops base unopened sides (μ.leave pair none) where
  sides := h.sides
  underWay pair' hunder := by
    have hne : pair' ≠ pair := by
      rintro rfl
      simp at hunder
    rw [Memory.standing_leave_of_ne hne] at hunder
    obtain ⟨hbase, hopened⟩ := h.underWay pair' hunder
    exact ⟨hbase, fun hmem => hopened ((List.mem_erase_of_ne hne).mpr hmem)⟩
  nodup := h.nodup
  subset := h.subset

/-! ### Steps that end alike -/

/-- Whether a memory keeps what a run of a step has led to, or has dropped it after the same
error. -/
inductive Mirrored (base : Sides) (unopened : List Comparand) (sides : Sides) :
    Except AnalysisError (α × Verdicts) → Except AnalysisError α → Memory → Prop
  | answer {a : α} {w : Verdicts} {μ : Memory} (h : Keeps base unopened sides w μ) :
      Mirrored base unopened sides (.ok (a, w)) (.ok a) μ
  | error {e : AnalysisError} {μ : Memory} (h : Drops base unopened sides μ) :
      Mirrored base unopened sides (.error e) (.error e) μ

/-- Whether steps that change a memory, one for each amount of fuel, end like one that makes
verdicts, begun in any memory that keeps them. The memory that they leave does not depend on the
fuel. -/
def Mirrors (base : Sides) (unopened : List Comparand) (sides : Sides) (x : Attempt α)
    (y : ι → Inquiry α) : Prop :=
  ∀ w μ, Keeps base unopened sides w μ →
    ∃ outcome μ', (∀ i, Ends (y i) μ outcome μ') ∧
      Mirrored base unopened sides (x.run w) outcome μ'

section Steps

variable {x : Attempt α} {y : ι → Inquiry α} {f : α → Attempt β} {g : ι → α → Inquiry β}

lemma mirrors_pure (a : α) : Mirrors base unopened sides (pure a) fun _ : ι => pure a :=
  fun _ μ h => ⟨_, _, fun _ => ends_pure a μ, .answer h⟩

lemma mirrors_throw (e : AnalysisError) :
    Mirrors base unopened sides (throw e : Attempt α) fun _ : ι => throw e :=
  fun _ μ h => ⟨_, _, fun _ => ends_throw e μ, .error h.drops⟩

lemma Mirrors.bind (hx : Mirrors base unopened sides x y)
    (hf : ∀ a, Mirrors base unopened sides (f a) fun i => g i a) :
    Mirrors base unopened sides (x >>= f) fun i => y i >>= g i := by
  intro w μ hμ
  obtain ⟨outcome, μ₁, hends, hmirrored⟩ := hx w μ hμ
  rw [StateT.run_bind]
  generalize x.run w = answer at hmirrored
  cases hmirrored with
  | answer hkeeps =>
      obtain ⟨outcome', μ₂, hends', hmirrored'⟩ := hf _ _ _ hkeeps
      exact ⟨outcome', μ₂, fun i => (hends i).bind (hends' i), hmirrored'⟩
  | error hdrops => exact ⟨_, μ₁, fun i => (hends i).bind_error, .error hdrops⟩

/-- A question to the schemas, with a step after it. -/
lemma mirrors_ask_bind (question : Sides → Except AnalysisError α)
    (hf : ∀ a, question sides = .ok a → Mirrors base unopened sides (f a) fun i => g i a) :
    Mirrors base unopened sides (liftM (question sides) >>= f)
      fun i => Inquiry.ask question >>= g i := by
  intro w μ hμ
  have hask := ends_ask question μ
  rw [hμ.sides] at hask
  cases hanswer : question sides with
  | error e =>
      rw [hanswer] at hask
      exact ⟨_, _, fun _ => hask.bind_error, .error hμ.drops⟩
  | ok a =>
      rw [hanswer] at hask
      obtain ⟨outcome, μ', hends, hmirrored⟩ := hf a hanswer w μ hμ
      exact ⟨outcome, μ', fun i => hask.bind (hends i), hmirrored⟩

/-- What is done with the schemas in changed places has the same end with the schemas put back. -/
lemma Mirrors.turned (h : Mirrors base unopened sides.turn x y) :
    Mirrors base unopened sides x fun i => Inquiry.turned (y i) := by
  intro w μ hμ
  obtain ⟨outcome, μ', hends, hmirrored⟩ := h w μ.turn hμ.turn
  refine ⟨outcome, μ'.turn, fun i => (hends i).turned, ?_⟩
  generalize x.run w = answer at hmirrored
  cases hmirrored with
  | answer hkeeps => exact .answer (Sides.turn_turn sides ▸ hkeeps.turn)
  | error hdrops => exact .error (Sides.turn_turn sides ▸ hdrops.turn)

lemma mirrors_findSomeM? {f : α → Attempt (Option β)} {g : ι → α → Inquiry (Option β)}
    {l : List α} (h : ∀ a ∈ l, Mirrors base unopened sides (f a) fun i => g i a) :
    Mirrors base unopened sides (l.findSomeM? f) fun i => l.findSomeM? (g i) := by
  induction l with
  | nil => exact mirrors_pure none
  | cons a l ih =>
      refine (h a (by simp)).bind fun answer => ?_
      cases answer with
      | some b => exact mirrors_pure (some b)
      | none => exact ih fun a ha => h a (by simp [ha])

lemma mirrors_anyM {p : α → Attempt Bool} {q : ι → α → Inquiry Bool} {l : List α}
    (h : ∀ a ∈ l, Mirrors base unopened sides (p a) fun i => q i a) :
    Mirrors base unopened sides (l.anyM p) fun i => l.anyM (q i) := by
  induction l with
  | nil => exact mirrors_pure false
  | cons a l ih =>
      refine (h a (by simp)).bind fun passes => ?_
      cases passes with
      | true => exact mirrors_pure true
      | false => exact ih fun a ha => h a (by simp [ha])

lemma mirrors_allM {p : α → Attempt Bool} {q : ι → α → Inquiry Bool} {l : List α}
    (h : ∀ a ∈ l, Mirrors base unopened sides (p a) fun i => q i a) :
    Mirrors base unopened sides (l.allM p) fun i => l.allM (q i) := by
  induction l with
  | nil => exact mirrors_pure true
  | cons a l ih =>
      refine (h a (by simp)).bind fun passes => ?_
      cases passes with
      | false => exact mirrors_pure false
      | true => exact ih fun a ha => h a (by simp [ha])

end Steps

/-! ### Searches that end alike -/

section Search

variable {agree : Agreement} {ask : ι → Handle → Handle → Inquiry Bool}

/-- Whether answers on predicates end alike, with the schemas in given places. -/
def MirrorsAgreement (base : Sides) (unopened : List Comparand) (sides : Sides)
    (agree : Agreement) (ask : ι → Handle → Handle → Inquiry Bool) : Prop :=
  ∀ d r, Mirrors base unopened sides (agree sides d r) fun i => ask i d r

variable (h : MirrorsAgreement base unopened sides agree ask)

include h

lemma mirrors_matchLiterals (s : Substitution) (a b : Literal) :
    Mirrors base unopened sides (matchLiterals agree sides s a b)
      fun i => Inquiry.matchLiterals (ask i) s a b := by
  cases a with
  | builtIn a => cases b <;> exact mirrors_pure _
  | ordinary p a =>
      cases b with
      | builtIn b => exact mirrors_pure _
      | ordinary q b =>
          simp only [matchLiterals, Inquiry.matchLiterals]
          split
          · refine (h a.predicate b.predicate).bind fun answer => ?_
            cases answer <;> exact mirrors_pure _
          · exact mirrors_pure _

lemma mirrors_search (domain range : List Literal) (s : Substitution) :
    Mirrors base unopened sides (search agree sides range domain s)
      fun i => Inquiry.search (ask i) range domain s := by
  induction domain generalizing s with
  | nil => exact mirrors_pure _
  | cons first rest ih =>
      simp only [search, Inquiry.search]
      refine mirrors_findSomeM? fun b _ => (mirrors_matchLiterals h s first b).bind fun ways => ?_
      exact mirrors_findSomeM? fun u _ => ih u

lemma mirrors_searchRule (rule other : Rule) :
    Mirrors base unopened sides (searchRule agree sides rule other)
      fun i => Inquiry.searchRule (ask i) rule other := by
  simp only [searchRule, Inquiry.searchRule]
  cases matchTerms? .empty rule.head other.head with
  | none => exact mirrors_pure _
  | some seed => exact mirrors_search h _ _ seed

variable (hturn : MirrorsAgreement base unopened sides.turn agree ask)

include hturn

lemma mirrors_hasCounterpart (rule : Rule) (others : List Rule) :
    Mirrors base unopened sides (hasCounterpart agree sides rule others)
      fun i => Inquiry.hasCounterpart (ask i) rule others := by
  refine mirrors_anyM fun other _ => (mirrors_searchRule h rule other).bind fun found => ?_
  cases found with
  | none => exact mirrors_pure _
  | some t => exact (mirrors_searchRule hturn other rule).turned.bind fun _ => mirrors_pure _

lemma mirrors_definitionsAgree (d r : Handle) :
    Mirrors base unopened sides (definitionsAgree agree sides d r)
      fun i => Inquiry.definitionsAgree (ask i) d r := by
  refine mirrors_ask_bind (·.domainRow d) fun p _ => ?_
  refine mirrors_ask_bind (·.rangeRow r) fun q _ => ?_
  split
  · refine (mirrors_allM fun rule _ => mirrors_hasCounterpart h hturn rule q.rules).bind
      fun all => ?_
    cases all with
    | false => exact mirrors_pure _
    | true =>
        have hback : MirrorsAgreement base unopened sides.turn.turn agree ask :=
          (Sides.turn_turn sides).symm ▸ h
        exact (mirrors_allM fun rule _ => mirrors_hasCounterpart hturn hback rule p.rules).turned
  · exact mirrors_pure _

end Search

/-! ### Comparisons that end alike -/

section Comparisons

variable {policy : Policy} {d r : Handle}

/-- The verdict on two predicates is looked up, or found by comparing their definitions, or
against them. -/
lemma run_rulesAgree (policy : Policy) (unopened : List Comparand) (sides : Sides) (d r : Handle)
    (w : Verdicts) :
    (rulesAgree policy unopened sides d r).run w =
      match w.lookup ⟨d, r, sides.turned⟩ with
      | some verdict => .ok (verdict, w)
      | none =>
        if ⟨d, r, sides.turned⟩ ∈ unopened then
          ((definitionsAgree (predicatesAgree policy
            (rulesAgree policy (unopened.erase ⟨d, r, sides.turned⟩))) sides d r).run w).map
              fun (verdict, w') => (verdict, (⟨d, r, sides.turned⟩, verdict) :: w')
        else .ok (false, w) := by
  rw [rulesAgree, StateT.run_bind, StateT.run_get]
  change StateT.run (match w.lookup ⟨d, r, sides.turned⟩ with | some verdict => _ | none => _) w = _
  cases w.lookup ⟨d, r, sides.turned⟩ with
  | some verdict => rfl
  | none =>
      by_cases hmem : ⟨d, r, sides.turned⟩ ∈ unopened
      · simp only [hmem, dite_true, if_true, StateT.run_bind]
        cases (definitionsAgree _ _ _ _).run w <;> rfl
      · simp only [hmem, dite_false, if_false]
        rfl

/-- **A comparison ends alike** if the definitions are compared alike while it is under way. -/
lemma mirrors_rulesAgree {compare : ι → Handle → Handle → Inquiry Bool} (hnodup : unopened.Nodup)
    (hpair : pair = ⟨d, r, sides.turned⟩) (hbase : pair ∈ base.comparands)
    (hcompare : pair ∈ unopened → Mirrors base (unopened.erase pair) sides
      (definitionsAgree (predicatesAgree policy (rulesAgree policy (unopened.erase pair))) sides
        d r) fun i => compare i d r) :
    Mirrors base unopened sides (rulesAgree policy unopened sides d r)
      fun i => Inquiry.rulesAgree (compare i) d r := by
  intro w μ hμ
  have hpair' : pair = ⟨d, r, μ.sides.turned⟩ := by rw [hμ.sides, hpair]
  rw [run_rulesAgree, ← hpair]
  cases hlookup : w.lookup pair with
  | some verdict =>
      have hstanding := hμ.standing_of_some hlookup
      exact ⟨_, _, fun _ => ends_rulesAgree_ended (hpair' ▸ hstanding), .answer hμ⟩
  | none =>
      by_cases hmem : pair ∈ unopened
      · have hstanding := hμ.standing_of_mem hlookup hmem
        obtain ⟨outcome, μ', hends, hmirrored⟩ :=
          hcompare hmem w _ (hμ.enter hbase hmem hnodup hlookup)
        simp only [if_pos hmem]
        generalize (definitionsAgree _ _ _ _).run w = answer at hmirrored
        cases hmirrored with
        | answer hkeeps =>
            exact ⟨_, _, fun i => (hends i).rulesAgree_ok hpair' hstanding,
              .answer (hkeeps.leave hbase hmem hnodup)⟩
        | error hdrops =>
            exact ⟨_, _, fun i => (hends i).rulesAgree_error hpair' hstanding,
              .error hdrops.leave⟩
      · have hstanding := hμ.standing_of_not_mem hbase hmem
        simp only [if_neg hmem]
        exact ⟨_, _, fun _ => ends_rulesAgree_underWay (hpair' ▸ hstanding), .answer hμ⟩

/-- **All answers on predicates end alike**, with more fuel than there are comparisons left to
open: by induction on these, as a comparison that is entered is no longer left. -/
theorem mirrors_agree {fuel : ι → ℕ} (hfuel : ∀ i, unopened.length < fuel i)
    (hnodup : unopened.Nodup) (ho : base.Orients sides) :
    MirrorsAgreement base unopened sides (predicatesAgree policy (rulesAgree policy unopened))
      fun i => Inquiry.agree policy (fuel i) := by
  induction hn : unopened.length using Nat.strong_induction_on
    generalizing unopened sides fuel with
  | _ n ih =>
      subst hn
      -- there is fuel for the question itself, and enough is left for those inside it
      obtain ⟨left, rfl⟩ : ∃ left : ι → ℕ, fuel = fun i => left i + 1 := by
        have hpos i : 0 < fuel i := Nat.zero_lt_of_lt (hfuel i)
        exact ⟨fun i => fuel i - 1, funext fun i => (Nat.succ_pred_eq_of_pos (hpos i)).symm⟩
      intro d r
      refine mirrors_ask_bind (·.domainRow d) fun p hp => ?_
      refine mirrors_ask_bind (·.rangeRow r) fun q hq => ?_
      split
      · cases policy with
        | forbidden => exact mirrors_throw _
        | sameName => exact mirrors_pure _
        | ruleStructural =>
            simp only
            split
            · exact mirrors_pure _
            · have hbase := mem_comparands ho (domainRow_eq_ok.mp hp) (rangeRow_eq_ok.mp hq)
              refine mirrors_rulesAgree hnodup rfl hbase fun hmem => ?_
              have hfewer := fewer_unopened hmem
              have hleft i := hfewer.trans_le (Nat.lt_succ_iff.mp (hfuel i))
              exact mirrors_definitionsAgree (ih _ hfewer hleft (hnodup.erase _) ho rfl)
                (ih _ hfewer hleft (hnodup.erase _) ho.turn rfl) d r
      · exact mirrors_pure _

end Comparisons

end DependencyTheory.Homomorphism
