/-
Homomorphisms compose:

* `Literal.reading_reading`, `Onto.reading`: readings of readings are readings, and images that
  turn one literal into another turn its readings into readings of the other;
* `Maps.refl`, `Maps.trans`: each list is mapped into itself, and maps are put one behind the
  other;
* `ReadByName`: whether a policy lets names decide which predicates of a list match;
* `homomorphisms_preorder`: where names decide, the existence of homomorphisms is a preorder, so
  that equivalence over one schema is reflexive and transitive.

A search returns its first homomorphism, and the composition of two of these need not be one that
a search returns. What is composed are the images, and that there are any is all that success
depends on.
-/
import DependencyTheory.Proofs.Homomorphism.ByName
import DependencyTheory.Proofs.Homomorphism.Permutation
import DependencyTheory.Proofs.Substitution.Orientation

namespace DependencyTheory

variable {σ τ : String → Term}

/-! ### Readings -/

/-- A literal that is turned twice is the literal as it is written. -/
lemma Literal.reading_reading {l l' l'' : Literal} {turned again : Bool}
    (h : l.reading turned = some l') (h' : l'.reading again = some l'') :
    ∃ once, l.reading once = some l'' := by
  cases again with
  | false =>
      cases h'
      exact ⟨turned, h⟩
  | true =>
      obtain ⟨op, left, right, rfl, rfl⟩ := reading_true_eq_some.mp h'
      cases turned with
      | false =>
          cases h
          exact ⟨true, h'⟩
      | true =>
          obtain ⟨op', left', right', rfl, heq⟩ := reading_true_eq_some.mp h
          cases heq
          exact ⟨false, by rw [op'.converse_converse]; rfl⟩

namespace Homomorphism

variable {same same' same'' : Handle → Handle → Prop} {domain range target : List Literal}

/-! ### Composition -/

lemma Alike.trans {a b c : Literal} (h : Alike same a b) (h' : Alike same' b c)
    (hsame : ∀ d e r, same d e → same' e r → same'' d r) : Alike same'' a c := by
  cases a with
  | ordinary p a =>
      cases b with
      | builtIn b => cases h
      | ordinary q b =>
          cases c with
          | builtIn c => cases h'
          | ordinary q' c => exact ⟨h.1.trans h'.1, hsame _ _ _ h.2 h'.2⟩
  | builtIn a =>
      cases b with
      | ordinary q b => cases h
      | builtIn b =>
          cases c with
          | ordinary q' c => cases h'
          | builtIn c => exact Eq.trans h h'

lemma Onto.trans {a b c : Literal} (h : Onto same σ a b) (h' : Onto same' τ b c)
    (hsame : ∀ d e r, same d e → same' e r → same'' d r) :
    Onto same'' (fun x => (σ x).under τ) a c := by
  refine ⟨h.1.trans h'.1 hsame, ?_⟩
  rw [← h'.2, ← h.2, List.map_map]
  exact List.map_congr_left fun t _ => t.under_under.symm

/-- What a comparison is turned into is the comparison of what its sides are turned into. -/
lemma Onto.eq_comparison {op : Comparison} {left right : Term} {c : Literal}
    (h : Onto same σ (.builtIn (.comparison op left right)) c) :
    c = .builtIn (.comparison op (left.under σ) (right.under σ)) := by
  obtain ⟨halike, hterms⟩ := h
  cases c with
  | ordinary q c => cases halike
  | builtIn c =>
      obtain ⟨left', right', rfl⟩ := BuiltIn.operator_eq_comparison.mp halike.symm
      obtain ⟨rfl, rfl⟩ : left.under σ = left' ∧ right.under σ = right' := by
        simpa [Literal.terms, BuiltIn.terms] using hterms
      rfl

/-- Images that turn a literal into another turn the readings of the first into readings of the
second. -/
lemma Onto.reading {b b' c : Literal} {turned : Bool} (h : Onto same σ b c)
    (hread : b.reading turned = some b') :
    ∃ c', c.reading turned = some c' ∧ Onto same σ b' c' := by
  cases turned with
  | false =>
      cases hread
      exact ⟨c, rfl, h⟩
  | true =>
      obtain ⟨op, left, right, rfl, rfl⟩ := Literal.reading_true_eq_some.mp hread
      obtain rfl := h.eq_comparison
      exact ⟨_, rfl, rfl, rfl⟩

/-- Each list is mapped into itself by the images that leave all variables as they are. -/
lemma Maps.refl (h : ∀ l ∈ domain, ∀ d ∈ l.predicate?, same d d) :
    Maps same Term.var domain domain := by
  intro a ha
  refine ⟨a, ha, false, a, rfl, ?_, by simp [Term.under_var]⟩
  cases a with
  | ordinary p a => exact ⟨rfl, h _ ha _ rfl⟩
  | builtIn b => exact rfl

/-- **Maps compose.** A comparison may be turned on the way, in either step. -/
theorem Maps.trans (h : Maps same σ domain range) (h' : Maps same' τ range target)
    (hsame : ∀ d e r, same d e → same' e r → same'' d r) :
    Maps same'' (fun x => (σ x).under τ) domain target := by
  intro a ha
  obtain ⟨b, hb, turned, b', hread, honto⟩ := h a ha
  obtain ⟨c, hc, turned', c', hread', honto'⟩ := h' b hb
  -- what is turned in the middle is turned at the end instead
  obtain ⟨c'', hread'', honto''⟩ := honto'.reading hread
  obtain ⟨once, honce⟩ := Literal.reading_reading hread' hread''
  exact ⟨c, hc, once, c'', honce, honto.trans honto'' hsame⟩

/-! ### Names -/

section Names

variable {s t u : Schema} {a b c : Bool} {d e r : Handle}

lemma SamePredicate.refl (h : ∃ p, s.get? d = some p) : SamePredicate ⟨s, s, a⟩ d d := by
  obtain ⟨p, hp⟩ := h
  exact ⟨p, p, hp, hp, rfl, rfl⟩

lemma SamePredicate.trans (h : SamePredicate ⟨s, t, a⟩ d e) (h' : SamePredicate ⟨t, u, b⟩ e r) :
    SamePredicate ⟨s, u, c⟩ d r := by
  obtain ⟨p, q, hp, hq, hname, harity⟩ := h
  obtain ⟨q', k, hq', hk, hname', harity'⟩ := h'
  cases hq.symm.trans hq'
  exact ⟨p, k, hp, hk, hname.trans hname', harity.trans harity'⟩

end Names

variable {policy : Policy} {s t u : Schema} {m : Setting}

/-- Whether the predicates of a list are declared, and a policy lets their names decide which of
them match: it admits derived ones by name, or it forbids them and there are none. -/
def ReadByName (policy : Policy) (s : Schema) (literals : List Literal) : Prop :=
  Declares s literals ∧ (policy = .sameName ∨ policy = .forbidden ∧ OverBase s literals)

lemma ReadByName.namesDecide (hd : ReadByName policy s domain) (hr : ReadByName policy t range) :
    NamesDecide ⟨s, t, policy⟩ domain range := by
  refine ⟨hd.1, hr.1, ?_⟩
  rcases hd.2 with hname | ⟨hpolicy, hbase⟩
  · exact Or.inl hname
  · rcases hr.2 with hname | ⟨-, hbase'⟩
    · exact Or.inl hname
    · exact Or.inr ⟨hbase, hbase'⟩

/-! ### Searches -/

/-- Where names decide, a homomorphism is found iff there is a map. -/
lemma found_iff_maps (hd : ReadByName policy s domain) (hr : ReadByName policy t range) :
    Found ⟨s, t, policy⟩ domain range ↔
      ∃ σ, Maps (SamePredicate ⟨s, t, false⟩) σ domain range := by
  obtain ⟨found, hfound, hiff⟩ := homomorphism?_byName (hd.namesDecide hr)
  refine Iff.trans ?_ hiff
  rw [Found, hfound, Option.isSome_iff_exists]
  simp only [Except.ok.injEq]

lemma found_refl (h : ReadByName policy s domain) : Found ⟨s, s, policy⟩ domain domain :=
  (found_iff_maps h h).mpr ⟨_, Maps.refl fun l hl d hd => SamePredicate.refl (h.1 l hl d hd)⟩

lemma found_trans (ha : ReadByName policy s domain) (hb : ReadByName policy t range)
    (hc : ReadByName policy u target) (h : Found ⟨s, t, policy⟩ domain range)
    (h' : Found ⟨t, u, policy⟩ range target) : Found ⟨s, u, policy⟩ domain target := by
  obtain ⟨σ, hmaps⟩ := (found_iff_maps ha hb).mp h
  obtain ⟨τ, hmaps'⟩ := (found_iff_maps hb hc).mp h'
  exact (found_iff_maps ha hc).mpr
    ⟨_, hmaps.trans hmaps' fun _ _ _ hsame hsame' => hsame.trans hsame'⟩

/-- The verdict is in favour of equivalence iff homomorphisms are found both ways. -/
lemma equivalence_eq_equivalent : m.equivalence domain range = .ok .equivalent ↔
    Found m domain range ∧ Found m.converse range domain := by
  simp only [Setting.equivalence_eq_ok, Setting.verdict_eq_equivalent, Bool.false_eq_true,
    and_false, false_or, Found]
  constructor
  · rintro ⟨h, way, hforth, hback, hway⟩
    obtain ⟨h', rfl⟩ := Option.isSome_iff_exists.mp hway
    exact ⟨⟨h, hforth⟩, h', hback⟩
  · rintro ⟨⟨h, hforth⟩, h', hback⟩
    exact ⟨h, some h', hforth, hback, rfl⟩

/-- **The existence of homomorphisms is a preorder**, where names decide which predicates match:
each list has one to itself, and if there is one from a first list to a second and one from the
second to a third, each over a schema of its own, there is one from the first to the third.
Equivalence over one schema is therefore reflexive and transitive. -/
theorem homomorphisms_preorder (policy : Policy) :
    (∀ s domain, ReadByName policy s domain → Found ⟨s, s, policy⟩ domain domain) ∧
      (∀ s t u domain range target, ReadByName policy s domain → ReadByName policy t range →
        ReadByName policy u target → Found ⟨s, t, policy⟩ domain range →
          Found ⟨t, u, policy⟩ range target → Found ⟨s, u, policy⟩ domain target) ∧
      ∀ s, (∀ domain, ReadByName policy s domain →
          (⟨s, s, policy⟩ : Setting).equivalence domain domain = .ok .equivalent) ∧
        ∀ domain range target, ReadByName policy s domain → ReadByName policy s range →
          ReadByName policy s target →
            (⟨s, s, policy⟩ : Setting).equivalence domain range = .ok .equivalent →
              (⟨s, s, policy⟩ : Setting).equivalence range target = .ok .equivalent →
                (⟨s, s, policy⟩ : Setting).equivalence domain target = .ok .equivalent := by
  refine ⟨fun s domain h => found_refl h,
    fun s t u domain range target ha hb hc h h' => found_trans ha hb hc h h',
    fun s => ⟨fun domain h => ?_, fun domain range target ha hb hc h h' => ?_⟩⟩
  · exact equivalence_eq_equivalent.mpr ⟨found_refl h, found_refl h⟩
  · obtain ⟨hforth, hback⟩ := equivalence_eq_equivalent.mp h
    obtain ⟨hforth', hback'⟩ := equivalence_eq_equivalent.mp h'
    exact equivalence_eq_equivalent.mpr
      ⟨found_trans ha hb hc hforth hforth', found_trans hc hb ha hback' hback⟩

/-- Lists over three schemas that have an edge predicate in different places. They deny an edge
and compare its ends; the comparison is turned in the first step, and turned back in the second,
where one of the ends is a constant. -/
theorem homomorphisms_preorder_edges :
    let s : Schema := ⟨[⟨0, "P", 2, []⟩], []⟩
    let t : Schema := ⟨[⟨1, "Q", 1, []⟩, ⟨1, "P", 2, []⟩], []⟩
    let u : Schema := ⟨[⟨2, "P", 2, []⟩], []⟩
    let apart (issuer index : Nat) (x y : Term) : Literal :=
      .ordinary false ⟨⟨issuer, index, 2⟩, [x, y], rfl⟩
    let below (x y : Term) : Literal := .builtIn (.comparison .lt x y)
    let above (x y : Term) : Literal := .builtIn (.comparison .gt x y)
    let domain : List Literal := [apart 0 0 (.var "x") (.var "y"), below (.var "x") (.var "y")]
    let range : List Literal := [apart 1 1 (.var "y") (.var "x"), above (.var "x") (.var "y")]
    let target : List Literal := [apart 2 0 (.var "x") (.const "1"), below (.var "x") (.const "1")]
    let turned : List Literal := [above (.var "v") (.var "w"), apart 0 0 (.var "w") (.var "v")]
    let again : List Literal := turned ++ domain
    (Found ⟨s, t, .forbidden⟩ domain range ∧ Found ⟨t, u, .forbidden⟩ range target ∧
        Found ⟨s, u, .forbidden⟩ domain target) ∧
      (⟨s, s, .forbidden⟩ : Setting).equivalence domain domain = .ok .equivalent ∧
        (⟨s, s, .forbidden⟩ : Setting).equivalence domain again = .ok .equivalent := by
  intro s t u apart below above domain range target turned again
  obtain ⟨-, htrans, hequivalence⟩ := homomorphisms_preorder .forbidden
  obtain ⟨hrefl, htrans'⟩ := hequivalence s
  have hread : ∀ (s : Schema) ls, (ls.all fun l => l.predicate?.all s.owns) = true →
      firstDerived? s ls = none → ReadByName .forbidden s ls := fun s ls hdeclared hbase =>
    ⟨declares_iff.mpr hdeclared, Or.inr ⟨rfl, firstDerived?_eq_none.mp hbase⟩⟩
  have hdomain : ReadByName .forbidden s domain := hread s domain rfl rfl
  have hturned : ReadByName .forbidden s turned := hread s turned rfl rfl
  have hagain : ReadByName .forbidden s again := hread s again rfl rfl
  have hrange : ReadByName .forbidden t range := hread t range rfl rfl
  have htarget : ReadByName .forbidden u target := hread u target rfl rfl
  have hforth : (⟨s, t, .forbidden⟩ : Setting).homomorphism? domain range =
      .ok (some ⟨[("x", .var "y"), ("y", .var "x")], by simp⟩) := by decide +kernel
  have hback : (⟨t, u, .forbidden⟩ : Setting).homomorphism? range target =
      .ok (some ⟨[("y", .var "x"), ("x", .const "1")], by simp⟩) := by decide +kernel
  have hsame : (⟨s, s, .forbidden⟩ : Setting).equivalence domain turned = .ok .equivalent := by
    decide +kernel
  have hsame' : (⟨s, s, .forbidden⟩ : Setting).equivalence turned again = .ok .equivalent := by
    decide +kernel
  exact ⟨⟨⟨_, hforth⟩, ⟨_, hback⟩,
      htrans s t u _ _ _ hdomain hrange htarget ⟨_, hforth⟩ ⟨_, hback⟩⟩,
    hrefl _ hdomain, htrans' _ _ _ hdomain hturned hagain hsame hsame'⟩

end Homomorphism

end DependencyTheory
