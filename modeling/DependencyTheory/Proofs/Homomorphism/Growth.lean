/-
Searches in schemas that have more predicates:

* `Sides.GrowTo`: whether two schemas keep their rows when they get more;
* `Accord`: whether verdicts are the same on all comparisons that could come up before, and none
  of the others is in favour;
* `Follows`: whether a step ends like another one, begun and ended with verdicts that are alike;
* `follows_agree`: so do all answers on predicates that were there before;
* `follows_agree_of_unlike`: a question on a new predicate that has no namesake is answered in the
  negative, and leaves the verdicts alike.

The comparisons that a new predicate brings with it end at once, since it has no rules. They are
remembered, which is why the verdicts are alike and not the same.
-/
import DependencyTheory.Proofs.Homomorphism.Termination

namespace DependencyTheory.Homomorphism

variable {α β : Type} {base sides sides' : Sides} {agree agree' : Agreement} {w w' : Verdicts}
  {pair : Comparand} {d r : Handle} {p q : Predicate}

/-! ### More rows -/

/-- Whether two schemas keep their rows when they get more. -/
structure Sides.GrowTo (sides sides' : Sides) : Prop where
  domain : ∀ h p, sides.domain.get? h = some p → sides'.domain.get? h = some p
  range : ∀ h p, sides.range.get? h = some p → sides'.range.get? h = some p
  turned : sides'.turned = sides.turned

lemma Sides.Orients.refl (base : Sides) : base.Orients base := Or.inl rfl

/-- Growing schemas may be turned round together. -/
lemma Sides.GrowTo.turn (h : sides.GrowTo sides') : sides.turn.GrowTo sides'.turn :=
  ⟨h.range, h.domain, congrArg (!·) h.turned⟩

/-- A list that was declared still has the same first literal over a derived predicate. -/
lemma firstDerived?_grown {s s' : Schema} (hgrow : ∀ h p, s.get? h = some p → s'.get? h = some p)
    {literals : List Literal} (hd : Declares s literals) :
    firstDerived? s' literals = firstDerived? s literals := by
  induction literals with
  | nil => rfl
  | cons l rest ih =>
      have hrow : l.predicate?.bind s'.get? = l.predicate?.bind s.get? := by
        cases hl : l.predicate? with
        | none => rfl
        | some h =>
            obtain ⟨p, hp⟩ := hd l List.mem_cons_self h hl
            exact (hgrow h p hp).trans hp.symm
      have hrest : firstDerived? s' rest = firstDerived? s rest :=
        ih fun l hl => hd l (List.mem_cons_of_mem _ hl)
      rw [firstDerived?] at hrest ⊢
      rw [firstDerived?, List.findSome?_cons, List.findSome?_cons, hrow, hrest]
      rfl

/-! ### Verdicts that are alike -/

/-- Whether verdicts are the same on all comparisons that can come up between two schemas, and
none of the others is in favour. -/
structure Accord (base : Sides) (w w' : Verdicts) : Prop where
  same : ∀ pair ∈ base.comparands, w'.lookup pair = w.lookup pair
  idle : ∀ pair ∉ base.comparands, w'.lookup pair ≠ some true

lemma accord_nil (base : Sides) : Accord base [] [] := ⟨fun _ _ => rfl, fun _ _ h => nomatch h⟩

/-- The same verdict may be added on both sides. -/
lemma Accord.cons (h : Accord base w w') (hpair : pair ∈ base.comparands) (b : Bool) :
    Accord base ((pair, b) :: w) ((pair, b) :: w') where
  same pair' hpair' := by rw [List.lookup_cons, List.lookup_cons, h.same pair' hpair']
  idle pair' hpair' := by
    have hne : (pair' == pair) = false := beq_eq_false_iff_ne.mpr fun heq => hpair' (heq ▸ hpair)
    rw [List.lookup_cons, hne]
    exact h.idle pair' hpair'

/-- So may a verdict against a comparison that could not come up before. -/
lemma Accord.cons_idle (h : Accord base w w') (hpair : pair ∉ base.comparands) :
    Accord base w ((pair, false) :: w') where
  same pair' hpair' := by
    have hne : (pair' == pair) = false := beq_eq_false_iff_ne.mpr fun heq => hpair (heq ▸ hpair')
    rw [List.lookup_cons, hne]
    exact h.same pair' hpair'
  idle pair' hpair' := by
    rw [List.lookup_cons]
    split
    · exact fun h => nomatch h
    · exact h.idle pair' hpair'

/-- Whether two runs end with the same answer and verdicts that are alike, or with the same
error. -/
inductive EndAlike (base : Sides) :
    Except AnalysisError (α × Verdicts) → Except AnalysisError (α × Verdicts) → Prop
  | answer (a : α) {w w' : Verdicts} (h : Accord base w w') :
      EndAlike base (.ok (a, w)) (.ok (a, w'))
  | error (e : AnalysisError) : EndAlike base (.error e) (.error e)

/-- Whether a step ends like another one, begun with any verdicts that are alike. -/
def Follows (base : Sides) (x x' : Attempt α) : Prop :=
  ∀ w w', Accord base w w' → EndAlike base (x.run w) (x'.run w')

section Steps

variable {x x' : Attempt α} {f f' : α → Attempt β} {a : α}

/-- An answer that is given at once is the same on both sides. -/
lemma follows_pure (a : α) : Follows base (pure a) (pure a) := fun _ _ h => .answer a h

lemma follows_throw (e : AnalysisError) : Follows base (throw e : Attempt α) (throw e) :=
  fun _ _ _ => .error e

/-- Sequences follow each other if their steps do. -/
lemma Follows.bind (hx : Follows base x x') (hf : ∀ a, Follows base (f a) (f' a)) :
    Follows base (x >>= f) (x' >>= f') := by
  intro w w' hw
  have hends := hx w w' hw
  rw [StateT.run_bind, StateT.run_bind]
  generalize x.run w = outcome, x'.run w' = outcome' at hends
  cases hends with
  | answer a h => exact hf a _ _ h
  | error e => exact .error e

/-- What is sure to be answered in one way may be asked before. -/
lemma Follows.skip {y : Attempt β} (hx : Follows base (pure a) x') (hf : Follows base y (f' a)) :
    Follows base y (x' >>= f') := by
  intro w w' hw
  have hends := hx w w' hw
  rw [StateT.run_bind]
  rw [StateT.run_pure] at hends
  generalize x'.run w' = outcome' at hends
  cases hends with
  | answer _ h => exact hf _ _ h

/-- Steps that follow each other from the start have the same outcome. -/
lemma Follows.run_eq (h : Follows base x x') (check : Except AnalysisError Unit) :
    (do check; let (found, _) ← x'.run []; return found : Except AnalysisError α) =
      (do check; let (found, _) ← x.run []; return found) := by
  have hends := h [] [] (accord_nil base)
  generalize x.run [] = outcome, x'.run [] = outcome' at hends
  cases hends <;> rfl

/-- Loops that look for an answer stop at the same place. -/
lemma follows_findSomeM? {f f' : α → Attempt (Option β)} {l : List α}
    (h : ∀ a ∈ l, Follows base (f a) (f' a)) :
    Follows base (l.findSomeM? f) (l.findSomeM? f') := by
  induction l with
  | nil => exact follows_pure none
  | cons a l ih =>
      refine (h a (by simp)).bind fun answer => ?_
      cases answer with
      | some b => exact follows_pure (some b)
      | none => exact ih fun a ha => h a (by simp [ha])

/-- A loop may look first where there is nothing to be found. -/
lemma follows_findSomeM?_append {f f' : α → Attempt (Option β)} {idle l : List α}
    (hidle : ∀ a ∈ idle, Follows base (pure none) (f' a))
    (h : ∀ a ∈ l, Follows base (f a) (f' a)) :
    Follows base (l.findSomeM? f) ((idle ++ l).findSomeM? f') := by
  induction idle with
  | nil => exact follows_findSomeM? h
  | cons a idle ih =>
      rw [List.cons_append, List.findSomeM?_cons]
      exact (hidle a (by simp)).skip (ih fun a ha => hidle a (by simp [ha]))

lemma follows_anyM {p p' : α → Attempt Bool} {l : List α}
    (h : ∀ a ∈ l, Follows base (p a) (p' a)) : Follows base (l.anyM p) (l.anyM p') := by
  induction l with
  | nil => exact follows_pure false
  | cons a l ih =>
      refine (h a (by simp)).bind fun passes => ?_
      cases passes with
      | true => exact follows_pure true
      | false => exact ih fun a ha => h a (by simp [ha])

lemma follows_allM {p p' : α → Attempt Bool} {l : List α}
    (h : ∀ a ∈ l, Follows base (p a) (p' a)) : Follows base (l.allM p) (l.allM p') := by
  induction l with
  | nil => exact follows_pure true
  | cons a l ih =>
      refine (h a (by simp)).bind fun passes => ?_
      cases passes with
      | false => exact follows_pure false
      | true => exact ih fun a ha => h a (by simp [ha])

end Steps

/-! ### Searches that end alike -/

section Search

/-- Whether answers on declared predicates end alike. -/
def FollowsDeclared (base : Sides) (agree : Agreement) (sides : Sides) (agree' : Agreement)
    (sides' : Sides) : Prop :=
  ∀ d r, (∃ p, sides.domain.get? d = some p) → (∃ q, sides.range.get? r = some q) →
    Follows base (agree sides d r) (agree' sides' d r)

variable (h : FollowsDeclared base agree sides agree' sides')

include h

lemma follows_matchLiterals {a b : Literal} (s : Substitution)
    (hd : ∀ k ∈ a.predicate?, ∃ p, sides.domain.get? k = some p)
    (hr : ∀ k ∈ b.predicate?, ∃ q, sides.range.get? k = some q) :
    Follows base (matchLiterals agree sides s a b) (matchLiterals agree' sides' s a b) := by
  cases a with
  | builtIn a => cases b <;> exact follows_pure _
  | ordinary p a =>
      cases b with
      | builtIn b => exact follows_pure _
      | ordinary q b =>
          rw [matchLiterals, matchLiterals]
          split
          · refine (h _ _ (hd _ rfl) (hr _ rfl)).bind fun answer => ?_
            cases answer <;> exact follows_pure _
          · exact follows_pure _

omit h in
/-- Literals, one of them over a predicate, cannot be mapped onto each other where the answers are
in the negative. -/
lemma follows_matchLiterals_nil {a b : Literal} (s : Substitution)
    (hsome : a.predicate?.isSome ∨ b.predicate?.isSome)
    (hno : ∀ d ∈ a.predicate?, ∀ r ∈ b.predicate?, Follows base (pure false) (agree sides d r)) :
    Follows base (pure []) (matchLiterals agree sides s a b) := by
  cases a with
  | builtIn a =>
      cases b with
      | builtIn b => simp [Literal.predicate?] at hsome
      | ordinary q b => exact follows_pure []
  | ordinary p a =>
      cases b with
      | builtIn b => exact follows_pure []
      | ordinary q b =>
          rw [matchLiterals]
          split
          · exact (hno _ rfl _ rfl).skip (follows_pure [])
          · exact follows_pure []

/-- **A search ends alike** between declared lists, even if literals are put before the range that
no domain literal can be mapped onto. -/
theorem follows_search_append {domain range : List Literal} (idle : List Literal) (s : Substitution)
    (hd : Declares sides.domain domain) (hr : Declares sides.range range)
    (hidle : ∀ a ∈ domain, ∀ l ∈ idle, ∀ s,
      Follows base (pure []) (matchLiterals agree' sides' s a l)) :
    Follows base (search agree sides range domain s)
      (search agree' sides' (idle ++ range) domain s) := by
  induction domain generalizing s with
  | nil => exact follows_pure _
  | cons first rest ih =>
      rw [search, search]
      refine follows_findSomeM?_append (fun l hl => ?_) fun b hb => ?_
      · exact (hidle first (by simp) l hl s).skip (follows_pure none)
      · refine (follows_matchLiterals h s (hd first (by simp)) (hr b hb)).bind fun ways => ?_
        refine follows_findSomeM? fun u _ => ?_
        exact ih u (fun l hl => hd l (by simp [hl])) fun a ha => hidle a (by simp [ha])

lemma follows_search {domain range : List Literal} (s : Substitution)
    (hd : Declares sides.domain domain) (hr : Declares sides.range range) :
    Follows base (search agree sides range domain s) (search agree' sides' range domain s) :=
  follows_search_append h [] s hd hr fun _ _ _ hl => absurd hl List.not_mem_nil

lemma follows_searchRule {rule other : Rule} (hd : Declares sides.domain rule.body.literals)
    (hr : Declares sides.range other.body.literals) :
    Follows base (searchRule agree sides rule other) (searchRule agree' sides' rule other) := by
  rw [searchRule, searchRule]
  cases matchTerms? .empty rule.head other.head with
  | none => exact follows_pure _
  | some seed => exact follows_search h seed hd hr

variable (hturn : FollowsDeclared base agree sides.turn agree' sides'.turn)

include hturn

lemma follows_hasCounterpart {rule : Rule} {others : List Rule}
    (hd : Declares sides.domain rule.body.literals)
    (hr : ∀ other ∈ others, Declares sides.range other.body.literals) :
    Follows base (hasCounterpart agree sides rule others)
      (hasCounterpart agree' sides' rule others) := by
  refine follows_anyM fun other hother =>
    (follows_searchRule h hd (hr other hother)).bind fun found => ?_
  cases found with
  | none => exact follows_pure _
  | some t => exact (follows_searchRule hturn (hr other hother) hd).bind fun _ => follows_pure _

lemma follows_definitionsAgree (hgrow : sides.GrowTo sides')
    (hd : RulesDeclared sides.domain) (hr : RulesDeclared sides.range)
    (hp : sides.domain.get? d = some p) (hq : sides.range.get? r = some q) :
    Follows base (definitionsAgree agree sides d r) (definitionsAgree agree' sides' d r) := by
  have hdp := hd p (Schema.mem_predicates_of_get? hp)
  have hrq := hr q (Schema.mem_predicates_of_get? hq)
  rw [definitionsAgree, definitionsAgree, domainRow_eq_ok.mpr hp, rangeRow_eq_ok.mpr hq,
    domainRow_eq_ok.mpr (hgrow.domain d p hp), rangeRow_eq_ok.mpr (hgrow.range r q hq)]
  simp only [lift_ok_bind]
  split
  · refine (follows_allM fun rule hrule =>
      follows_hasCounterpart h hturn (hdp rule hrule) hrq).bind fun all => ?_
    cases all with
    | false => exact follows_pure _
    | true =>
        have hback : FollowsDeclared base agree sides.turn.turn agree' sides'.turn.turn := by
          rwa [Sides.turn_turn, Sides.turn_turn]
        exact follows_allM fun rule hrule =>
          follows_hasCounterpart hturn hback (hrq rule hrule) hdp
  · exact follows_pure _

end Search

/-! ### Answers on predicates -/

section Questions

variable {policy : Policy} {unopened unopened' : List Comparand}

/-- Whether the same comparisons are left to open, of those that can come up between two
schemas. -/
def LeaveAlike (base : Sides) (unopened unopened' : List Comparand) : Prop :=
  ∀ pair ∈ base.comparands, unopened'.count pair = unopened.count pair

lemma LeaveAlike.mem_iff (h : LeaveAlike base unopened unopened') (hpair : pair ∈ base.comparands) :
    pair ∈ unopened' ↔ pair ∈ unopened := by
  rw [← List.count_pos_iff, ← List.count_pos_iff, h pair hpair]

lemma LeaveAlike.erase (h : LeaveAlike base unopened unopened') (pair : Comparand) :
    LeaveAlike base (unopened.erase pair) (unopened'.erase pair) := fun pair' hpair' => by
  rw [List.count_erase, List.count_erase, h pair' hpair']

/-- The comparisons that can come up are on declared predicates. -/
lemma exists_rows_of_mem_comparands (ho : base.Orients sides)
    (h : ⟨d, r, sides.turned⟩ ∈ base.comparands) :
    (∃ p, sides.domain.get? d = some p) ∧ ∃ q, sides.range.get? r = some q := by
  simp only [Sides.comparands, List.mem_append, List.mem_flatMap, List.mem_map,
    Comparand.mk.injEq, Table.mem_handles, Table.owns, Option.isSome_iff_exists] at h
  rcases ho with rfl | rfl
  · rcases h with ⟨_, hd, _, hr, rfl, rfl, -⟩ | ⟨_, -, _, -, -, -, hturned⟩
    · exact ⟨hd, hr⟩
    · simp at hturned
  · rcases h with ⟨_, -, _, -, -, -, hturned⟩ | ⟨_, hd, _, hr, rfl, rfl, -⟩
    · simp [Sides.turn] at hturned
    · exact ⟨hd, hr⟩

/-- At the start of a search all comparisons are left to open. -/
lemma leaveAlike_comparands (hgrow : base.GrowTo sides') :
    LeaveAlike base base.comparands sides'.comparands := by
  rintro ⟨d, r, turned⟩ hpair
  have hgrown : (⟨d, r, turned⟩ : Comparand) ∈ sides'.comparands := by
    by_cases hturned : turned = base.turned
    · subst hturned
      obtain ⟨⟨p, hp⟩, q, hq⟩ := exists_rows_of_mem_comparands (.refl base) hpair
      have hmem : ⟨d, r, sides'.turned⟩ ∈ sides'.comparands :=
        mem_comparands (.refl _) (hgrow.domain d p hp) (hgrow.range r q hq)
      rwa [hgrow.turned] at hmem
    · obtain rfl : turned = base.turn.turned := Bool.eq_not_of_ne hturned
      obtain ⟨⟨p, hp⟩, q, hq⟩ := exists_rows_of_mem_comparands (Or.inr rfl) hpair
      have hmem : ⟨d, r, sides'.turn.turned⟩ ∈ sides'.comparands :=
        mem_comparands (Or.inr rfl) (hgrow.turn.domain d p hp) (hgrow.turn.range r q hq)
      rwa [hgrow.turn.turned] at hmem
  rw [List.count_eq_one_of_mem base.nodup_comparands hpair,
    List.count_eq_one_of_mem sides'.nodup_comparands hgrown]

/-- A comparison ends alike if the definitions are compared alike. -/
lemma follows_rulesAgree (hgrow : sides.GrowTo sides') (hopen : LeaveAlike base unopened unopened')
    (hpair : pair = ⟨d, r, sides.turned⟩) (hbase : pair ∈ base.comparands)
    (hcompare : pair ∈ unopened → Follows base
      (definitionsAgree (predicatesAgree policy (rulesAgree policy (unopened.erase pair)))
        sides d r)
      (definitionsAgree (predicatesAgree policy (rulesAgree policy (unopened'.erase pair)))
        sides' d r)) :
    Follows base (rulesAgree policy unopened sides d r)
      (rulesAgree policy unopened' sides' d r) := by
  intro w w' hw
  rw [run_rulesAgree, run_rulesAgree, hgrow.turned, ← hpair, hw.same pair hbase]
  cases w.lookup pair with
  | some verdict => exact .answer verdict hw
  | none =>
      simp only [hopen.mem_iff hbase]
      split
      · rename_i hmem
        have hends := hcompare hmem w w' hw
        generalize (definitionsAgree _ sides _ _).run w = outcome,
          (definitionsAgree _ sides' _ _).run w' = outcome' at hends
        cases hends with
        | answer verdict h => exact .answer verdict (h.cons hbase verdict)
        | error e => exact .error e
      · exact .answer false hw

/-- **All answers on declared predicates end alike**, whatever policy there is: by induction on
the comparisons that are left to open. -/
theorem follows_agree (policy : Policy) (ho : base.Orients sides) (hgrow : sides.GrowTo sides')
    (hd : RulesDeclared sides.domain) (hr : RulesDeclared sides.range)
    (hopen : LeaveAlike base unopened unopened') :
    FollowsDeclared base (predicatesAgree policy (rulesAgree policy unopened)) sides
      (predicatesAgree policy (rulesAgree policy unopened')) sides' := by
  induction hn : unopened.length using Nat.strong_induction_on
    generalizing unopened unopened' sides sides' with
  | _ n ih =>
      subst hn
      rintro d r ⟨p, hp⟩ ⟨q, hq⟩
      rw [predicatesAgree, predicatesAgree, domainRow_eq_ok.mpr hp, rangeRow_eq_ok.mpr hq,
        domainRow_eq_ok.mpr (hgrow.domain d p hp), rangeRow_eq_ok.mpr (hgrow.range r q hq)]
      simp only [lift_ok_bind]
      split
      · cases policy with
        | forbidden => exact follows_throw _
        | sameName => exact follows_pure _
        | ruleStructural =>
            simp only
            split
            · exact follows_pure _
            · refine follows_rulesAgree hgrow hopen rfl (mem_comparands ho hp hq) fun hmem => ?_
              have hfewer := fewer_unopened hmem
              exact follows_definitionsAgree
                (ih _ hfewer ho hgrow hd hr (hopen.erase _) rfl)
                (ih _ hfewer ho.turn hgrow.turn hr hd (hopen.erase _) rfl) hgrow hd hr hp hq
      · exact follows_pure _

/-- **A question on a new predicate is answered in the negative** if the names differ, and one of
the predicates has no rules. A comparison ends at once, and is remembered where no other looks. -/
theorem follows_agree_of_unlike (policy : Policy) (hp : sides'.domain.get? d = some p)
    (hq : sides'.range.get? r = some q) (hunlike : namesAgree p q = false)
    (hrules : (p.isDerived && q.isDerived) = false)
    (hallowed : policy = .forbidden → (p.isDerived || q.isDerived) = false)
    (hnew : ⟨d, r, sides'.turned⟩ ∉ base.comparands) : Follows base (pure false)
      (predicatesAgree policy (rulesAgree policy unopened') sides' d r) := by
  have hdefinitions (inner : Agreement) : definitionsAgree inner sides' d r = pure false := by
    rw [definitionsAgree, domainRow_eq_ok.mpr hp, rangeRow_eq_ok.mpr hq]
    simp only [lift_ok_bind, hrules, Bool.false_and, Bool.false_eq_true, if_false]
  rw [predicatesAgree, domainRow_eq_ok.mpr hp, rangeRow_eq_ok.mpr hq]
  simp only [lift_ok_bind, hunlike]
  split
  · rename_i hderived
    cases policy with
    | forbidden => exact absurd hderived (by simp [hallowed rfl])
    | sameName => exact follows_pure false
    | ruleStructural =>
        intro w w' hw
        simp only [Bool.false_eq_true, if_false]
        rw [run_rulesAgree, hdefinitions]
        cases hlookup : w'.lookup ⟨d, r, sides'.turned⟩ with
        | some verdict =>
            have hverdict : verdict ≠ true := fun h => hw.idle _ hnew (h ▸ hlookup)
            rw [Bool.eq_false_of_not_eq_true hverdict]
            exact .answer false hw
        | none =>
            simp only
            split
            · exact .answer false (hw.cons_idle hnew)
            · exact .answer false hw
  · exact follows_pure false

end Questions

end DependencyTheory.Homomorphism
