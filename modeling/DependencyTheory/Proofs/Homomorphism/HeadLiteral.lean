/-
Comparing rules is comparing bodies with a head literal:

* `Schema.withPredicate`: a schema with a base predicate that is declared besides;
* `Schema.Adds`, `Schema.exists_withPredicate`: a name that is not taken can be declared in every
  built schema, and all that this changes is that there is one more row;
* `follows_search_head`: where both sides have such a predicate of one name, a search for the
  bodies behind literals over it, with the heads as terms, ends like the search between the rules;
* `Setting.homomorphism?_headLiteral`: both together, under every policy.

The literal over the head of one rule can only be mapped onto that over the head of the other, and
no body literal can be mapped onto one of them or the other way round. The search does try all
this, and where rules are compared it remembers that it was in vain.
-/
import DependencyTheory.Proofs.Homomorphism.Growth
import DependencyTheory.Proofs.Schema.Table
import DependencyTheory.Proofs.Semantics.Facts

namespace DependencyTheory

/-! ### One more predicate -/

namespace Schema

variable {s s' : Schema} {h : Handle} {name : String}

/-- The schema with a base predicate that is declared besides, and the handle of this. -/
def withPredicate (s : Schema) (issuer : Nat) (name : String) (arity : Nat) :
    Except SchemaError (Handle × Schema) := do
  let (h, b) ← (s.reopen issuer).declare name arity
  let s' ← (b.addDependencies s.dependencies).build
  return (h, s')

/-- Whether a schema has all rows of another one, and a row without rules that has a name of its
own. -/
structure Adds (s s' : Schema) (h : Handle) (name : String) : Prop where
  rows : ∀ k p, s.get? k = some p → s'.get? k = some p
  row : s'.get? h = some ⟨h.issuer, name, h.arity, []⟩
  new : ∀ p, s.get? h ≠ some p
  unlike : ∀ k p, s.get? k = some p → p.name ≠ name

/-- **A predicate can be declared** in a built schema under every name that is not taken. -/
theorem exists_withPredicate {b : Builder} (hb : b.build = .ok s)
    (hname : s.handleNamed? name = none) (issuer arity : Nat) :
    ∃ h s', s.withPredicate issuer name arity = .ok (h, s') ∧ h.arity = arity ∧
      s.Adds s' h name := by
  let s' : Schema := ⟨s.predicates ++ [⟨issuer, name, arity, []⟩], s.dependencies⟩
  have hrow (k p) : s'.get? k = some p ↔ s.get? k = some p ∨
      k = ⟨issuer, s.predicates.length, arity⟩ ∧ p = ⟨issuer, name, arity, []⟩ := Table.get?_concat
  have hbuild : (⟨issuer, s'.predicates, s.dependencies⟩ : Builder).build = .ok s' := by
    obtain ⟨howns, rfl⟩ := Builder.build_eq_ok.mp hb
    refine Builder.build_eq_ok.mpr ⟨fun k hk => ?_, rfl⟩
    have hk : k ∈ b.references := by simpa [Builder.references, s'] using hk
    obtain ⟨p, hp⟩ := Option.isSome_iff_exists.mp (howns k hk)
    exact Option.isSome_iff_exists.mpr ⟨p, (hrow k p).mpr (Or.inl hp)⟩
  refine ⟨⟨issuer, s.predicates.length, arity⟩, s', ?_, rfl,
    fun k p hp => (hrow k p).mpr (Or.inl hp), (hrow _ _).mpr (Or.inr ⟨rfl, rfl⟩), fun p hp => ?_,
    fun k p hp => ?_⟩
  · have hnone : (s.reopen issuer).predicates.handleNamed? name = none := hname
    rw [withPredicate, Builder.declare, hnone]
    change (do
      let s' ← (⟨issuer, s'.predicates, [] ++ s.dependencies⟩ : Builder).build
      return (_, s')) = _
    rw [List.nil_append, hbuild]
    rfl
  · have hlt := (List.getElem?_eq_some_iff.mp (Table.get?_eq_some.mp hp).1).1
    exact absurd hlt (Nat.lt_irrefl _)
  · exact Table.handleNamed?_eq_none.mp hname p (mem_predicates_of_get? hp)

end Schema

namespace Homomorphism

variable {s t s' t' : Schema} {h k : Handle} {name : String} {policy : Policy}
  {unopened : List Comparand} {rules : Agreement} {d r : Rule}

/-! ### Literals over the new predicates -/

/-- A literal over a base predicate in front changes nothing about the first that is not. -/
lemma firstDerived?_head (hs : s.Adds s' h name) {literals : List Literal}
    (hd : Declares s literals) {positive : Bool} {a : Atom} (ha : a.predicate = h) :
    firstDerived? s' (.ordinary positive a :: literals) = firstDerived? s literals := by
  rw [← firstDerived?_grown hs.rows hd, firstDerived?, firstDerived?, List.findSome?_cons]
  simp [Literal.predicate?, ha, hs.row, Predicate.isDerived]

section Questions

variable (hs : s.Adds s' h name) (ht : t.Adds t' k name)

include hs ht

lemma growTo_of_adds : Sides.GrowTo ⟨s, t, false⟩ ⟨s', t', false⟩ := ⟨hs.rows, ht.rows, rfl⟩

/-- The new predicates have the same name. -/
lemma agree_heads (harity : h.arity = k.arity) :
    predicatesAgree policy rules ⟨s', t', false⟩ h k = pure true := by
  have hd : Sides.domainRow ⟨s', t', false⟩ h = _ := domainRow_eq_ok.mpr hs.row
  have hr : Sides.rangeRow ⟨s', t', false⟩ k = _ := rangeRow_eq_ok.mpr ht.row
  rw [predicatesAgree, hd, hr]
  simp [lift_ok_bind, Predicate.isDerived, namesAgree, harity]

/-- The new predicate of the range has no namesake among those of the domain. -/
lemma follows_agree_onto_head {l : Handle} {p : Predicate} (hp : s.get? l = some p)
    (hallowed : policy = .forbidden → p.isDerived = false) :
    Follows ⟨s, t, false⟩ (pure false)
      (predicatesAgree policy (rulesAgree policy unopened) ⟨s', t', false⟩ l k) := by
  refine follows_agree_of_unlike policy (hs.rows l p hp) ht.row ?_ ?_ (fun hpolicy => ?_)
    fun hmem => ?_
  · simp [namesAgree, hs.unlike l p hp]
  · simp [Predicate.isDerived]
  · rw [hallowed hpolicy]
    rfl
  · obtain ⟨-, q, hq⟩ := exists_rows_of_mem_comparands (.refl ⟨s, t, false⟩) hmem
    exact ht.new q hq

/-- Nor the other way round. -/
lemma follows_agree_of_head {l : Handle} {q : Predicate} (hq : t.get? l = some q)
    (hallowed : policy = .forbidden → q.isDerived = false) :
    Follows ⟨s, t, false⟩ (pure false)
      (predicatesAgree policy (rulesAgree policy unopened) ⟨s', t', false⟩ h l) := by
  refine follows_agree_of_unlike policy hs.row (ht.rows l q hq) ?_ ?_ (fun hpolicy => ?_)
    fun hmem => ?_
  · simp [namesAgree, (ht.unlike l q hq).symm]
  · simp [Predicate.isDerived]
  · rw [hallowed hpolicy]
    rfl
  · obtain ⟨⟨p, hp⟩, -⟩ := exists_rows_of_mem_comparands (.refl ⟨s, t, false⟩) hmem
    exact hs.new p hp

end Questions

/-! ### Searches behind the literals -/

/-- **A search ends alike behind literals that only fit each other.** What the first of them binds
to fit the second is where the search goes on from. If it does not fit, or if nothing is found from
there, there is no other literal that it fits. -/
theorem follows_search_cons {base sides sides' : Sides} {agree agree' : Agreement}
    {domain range : List Literal} {first candidate : Literal} {s : Substitution}
    {seed : Option Substitution} (hagree : FollowsDeclared base agree sides agree' sides')
    (hd : Declares sides.domain domain) (hr : Declares sides.range range)
    (hseed : matchLiterals agree' sides' s first candidate = pure seed.toList)
    (honto : ∀ l ∈ domain, ∀ u, Follows base (pure []) (matchLiterals agree' sides' u l candidate))
    (hof : ∀ l ∈ range, Follows base (pure []) (matchLiterals agree' sides' s first l)) :
    Follows base (match seed with
        | some u => search agree sides range domain u
        | none => pure none)
      (search agree' sides' (candidate :: range) (first :: domain) s) := by
  have hbodies (u) : Follows base (search agree sides range domain u)
      (search agree' sides' (candidate :: range) domain u) :=
    follows_search_append hagree [candidate] u hd hr fun l hl c hc v =>
      List.mem_singleton.mp hc ▸ honto l hl v
  have hmiss : ∀ c ∈ range, Follows base (pure none) (do
      (← matchLiterals agree' sides' s first c).findSomeM? fun u =>
        search agree' sides' (candidate :: range) domain u) :=
    fun c hc => (hof c hc).skip (follows_pure none)
  have hvain := follows_findSomeM?_append (f := fun _ => pure none) (l := []) hmiss
    fun c hc => absurd hc List.not_mem_nil
  rw [List.append_nil] at hvain
  rw [search, List.findSomeM?_cons, hseed, pure_bind]
  cases seed with
  | none => exact (follows_pure none).skip hvain
  | some u =>
      change Follows base (search agree sides range domain u) _
      rw [← bind_pure (search agree sides range domain u), Option.toList_some,
        List.findSomeM?_cons, bind_assoc]
      refine (hbodies u).bind fun found => ?_
      cases found with
      | none => exact hvain
      | some v => exact follows_pure (some v)

/-- **A search behind literals over the heads ends like one between the rules.** -/
theorem follows_search_head (hs : s.Adds s' h name) (ht : t.Adds t' k name)
    (harity : h.arity = k.arity) (hrules : RulesDeclared s) (hrules' : RulesDeclared t)
    (hd : Declares s d.body.literals) (hr : Declares t r.body.literals)
    (hallowed : policy = .forbidden → OverBase s d.body.literals ∧ OverBase t r.body.literals)
    {a b : Atom} (ha : a.predicate = h) (hb : b.predicate = k) (had : a.terms = d.head)
    (hbr : b.terms = r.head) :
    Follows ⟨s, t, false⟩ (searchRule (⟨s, t, policy⟩ : Setting).agree ⟨s, t, false⟩ d r)
      (search (⟨s', t', policy⟩ : Setting).agree ⟨s', t', false⟩
        (.ordinary true b :: r.body.literals) (.ordinary true a :: d.body.literals) .empty) := by
  have hgrow := growTo_of_adds hs ht
  have hagree : FollowsDeclared ⟨s, t, false⟩ (⟨s, t, policy⟩ : Setting).agree ⟨s, t, false⟩
      (⟨s', t', policy⟩ : Setting).agree ⟨s', t', false⟩ :=
    follows_agree policy (.refl _) hgrow hrules hrules' (leaveAlike_comparands hgrow)
  subst ha hb
  refine follows_search_cons hagree hd hr ?_ (fun l hl u => ?_) fun l hl => ?_
  · rw [matchLiterals, if_pos rfl, Setting.agree, startingAgreement, agree_heads hs ht harity,
      pure_bind, if_pos rfl, had, hbr]
  · refine follows_matchLiterals_nil u (Or.inr rfl) fun i hi j hj => ?_
    obtain ⟨p, hp⟩ := hd l hl i hi
    obtain rfl := Option.some.inj hj
    exact follows_agree_onto_head hs ht hp fun hpolicy => (hallowed hpolicy).1 l hl i hi p hp
  · refine follows_matchLiterals_nil .empty (Or.inl rfl) fun i hi j hj => ?_
    obtain ⟨q, hq⟩ := hr l hl j hj
    obtain rfl := Option.some.inj hi
    exact follows_agree_of_head hs ht hq fun hpolicy => (hallowed hpolicy).2 l hl j hj q hq

namespace Setting

/-- **Comparing rules is comparing bodies with a head literal.** Let two schemas be built, and a
name not be taken in either. Then a base predicate of this name can be declared in both, whatever
its arity is. Between two rules with declared bodies and heads of this length, a search has the
same answer, or ends in the same error, as one between the literals over the new predicates that
have the heads as terms, followed by the bodies. -/
theorem homomorphism?_headLiteral {b c : Builder} (hb : b.build = .ok s) (hc : c.build = .ok t)
    (hs : s.handleNamed? name = none) (ht : t.handleNamed? name = none) {n : Nat} {d r : Rule}
    (hd : Declares s d.body.literals) (hr : Declares t r.body.literals)
    (hdn : d.head.length = n) (hrn : r.head.length = n) (issuer issuer' : Nat) :
    ∃ h s' k t' a e, s.withPredicate issuer name n = .ok (h, s') ∧
      t.withPredicate issuer' name n = .ok (k, t') ∧
      Atom.ofTerms h d.head = .ok a ∧ Atom.ofTerms k r.head = .ok e ∧ ∀ policy,
        (⟨s', t', policy⟩ : Setting).homomorphism? (.ordinary true a :: d.body.literals)
            (.ordinary true e :: r.body.literals) =
          (⟨s, t, policy⟩ : Setting).ruleHomomorphism? d r := by
  obtain ⟨h, s', hs', hn, hadds⟩ := Schema.exists_withPredicate hb hs issuer n
  obtain ⟨k, t', ht', hn', hadds'⟩ := Schema.exists_withPredicate hc ht issuer' n
  have hfits : d.head.length = h.arity := hdn.trans hn.symm
  have hfits' : r.head.length = k.arity := hrn.trans hn'.symm
  refine ⟨h, s', k, t', ⟨h, d.head, hfits⟩, ⟨k, r.head, hfits'⟩, hs', ht', dif_pos hfits,
    dif_pos hfits', fun policy => ?_⟩
  have hrefuse : (⟨s', t', policy⟩ : Setting).refuseDerived
      (.ordinary true ⟨h, d.head, hfits⟩ :: d.body.literals)
      (.ordinary true ⟨k, r.head, hfits'⟩ :: r.body.literals) =
        (⟨s, t, policy⟩ : Setting).refuseDerived d.body.literals r.body.literals := by
    rw [refuseDerived, refuseDerived, firstDerived?_head hadds hd rfl,
      firstDerived?_head hadds' hr rfl]
  rw [homomorphism?, homomorphismFrom?, ruleHomomorphism?, hrefuse]
  cases hallowed : (⟨s, t, policy⟩ : Setting).refuseDerived d.body.literals r.body.literals with
  | error e => rfl
  | ok _ =>
      exact (follows_search_head hadds hadds' (hn.trans hn'.symm) (rulesDeclared_of_build hb)
        (rulesDeclared_of_build hc) hd hr (fun hpolicy => overBase_of_allowed hpolicy hallowed)
        rfl rfl rfl rfl).run_eq (.ok ())

/-- Heads in which a variable stands twice, over bodies of one join each. They are compared only
if the joins are, and are refused where these are forbidden. -/
theorem homomorphism?_headLiteral_joins :
    let d : Rule := ⟨[.var "x", .var "x"], .ofAtoms (.ofVars 2 ["x"]) []⟩
    let r : Rule := ⟨[.var "u", .var "u"], .ofAtoms (.ofVars 3 ["u"]) []⟩
    ∃ h s' k t' a e, joins.withPredicate 1 "H" 2 = .ok (h, s') ∧
      joins.withPredicate 2 "H" 2 = .ok (k, t') ∧
      Atom.ofTerms h d.head = .ok a ∧ Atom.ofTerms k r.head = .ok e ∧
      (⟨s', t', .ruleStructural⟩ : Setting).homomorphism? (.ordinary true a :: d.body.literals)
          (.ordinary true e :: r.body.literals) = .ok (some ⟨[("x", .var "u")], by simp⟩) ∧
      (⟨s', t', .sameName⟩ : Setting).homomorphism? (.ordinary true a :: d.body.literals)
          (.ordinary true e :: r.body.literals) = .ok none ∧
      (⟨s', t', .forbidden⟩ : Setting).homomorphism? (.ordinary true a :: d.body.literals)
          (.ordinary true e :: r.body.literals) = .error (.derivedLiteral "D") := by
  intro d r
  have hbuild : (⟨0, joins.predicates, []⟩ : Builder).build = .ok joins := by decide +kernel
  have hname : joins.handleNamed? "H" = none := by decide +kernel
  obtain ⟨h, s', k, t', a, e, hs', ht', ha, he, hanswer⟩ := homomorphism?_headLiteral hbuild hbuild
    hname hname (d := d) (r := r) (declares_iff.mpr rfl) (declares_iff.mpr rfl) rfl rfl 1 2
  refine ⟨h, s', k, t', a, e, hs', ht', ha, he, ?_, ?_, ?_⟩
  · rw [hanswer]
    decide +kernel
  · rw [hanswer]
    decide +kernel
  · rw [hanswer]
    decide +kernel

end Setting

end Homomorphism

end DependencyTheory
