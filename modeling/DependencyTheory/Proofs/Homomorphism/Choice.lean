/-
Homomorphisms between lists of literals, said without a search:

* `Literal.reading`: a literal as it is written, or a comparison the other way
  round;
* `Alike`: whether two literals are of one kind, whatever their terms are;
* `Onto`: whether images for all variables turn one literal into another;
* `Maps`: whether they turn each literal of a list into some literal of another;
* `MapsRule`: whether there are images that map a rule onto another, the head onto
  the head and the body into the body;
* `Choice`: a place in a list of literals and a way to read the literal there;
* `Realises`: whether images turn each literal of a list into the one that is
  chosen for it.

Which predicates count as the same is a parameter of all of them. Choices are
ordered by place, and at one place the literal as it is written comes first;
sequences of choices are ordered lexicographically.
-/
import DependencyTheory.Homomorphism.Matching
import DependencyTheory.Proofs.Substitution.Order
import DependencyTheory.Schema.Basic
import Mathlib.Data.Bool.Basic
import Mathlib.Data.List.Forall2
import Mathlib.Data.List.Lex
import Mathlib.Data.Prod.Lex

namespace DependencyTheory

/-- What a literal says, as it is written or the other way round. Only
comparisons have a second reading. -/
def Literal.reading : Literal → Bool → Option Literal
  | l, false => some l
  | .builtIn b, true => b.converse.map .builtIn
  | .ordinary _ _, true => none

/-- The other reading of an ordinary literal is the literal itself, since there
is none. -/
lemma Literal.reading_ordinary {p : Bool} {a : Atom} {turned : Bool} {l : Literal}
    (h : (Literal.ordinary p a).reading turned = some l) :
    l = .ordinary p a ∧ turned = false := by
  cases turned with
  | false => exact ⟨(Option.some.inj h).symm, rfl⟩
  | true => exact absurd h (by simp [reading])

/-- The readings of a built-in literal are built in. -/
lemma Literal.reading_builtIn {b : BuiltIn} {turned : Bool} {l : Literal}
    (h : (Literal.builtIn b).reading turned = some l) :
    ∃ c, l = .builtIn c ∧ (if turned then b.converse else some b) = some c := by
  cases turned with
  | false => exact ⟨b, (Option.some.inj h).symm, rfl⟩
  | true =>
      obtain ⟨c, hc, rfl⟩ := Option.map_eq_some_iff.mp h
      exact ⟨c, rfl, hc⟩

namespace Homomorphism

variable {same same' : Handle → Handle → Prop} {σ : String → Term}

/-! ### One literal onto another -/

/-- Whether two literals differ in nothing but their terms: they are both
affirmed or both denied, over predicates that count as the same, or have the
same built-in operator. -/
def Alike (same : Handle → Handle → Prop) : Literal → Literal → Prop
  | .ordinary p a, .ordinary q b => p = q ∧ same a.predicate b.predicate
  | .builtIn a, .builtIn b => a.operator = b.operator
  | _, _ => False

lemma Alike.imp {a b : Literal} (h : Alike same a b)
    (hsame : ∀ d r, same d r → same' d r) : Alike same' a b := by
  cases a <;> cases b
  · exact ⟨h.1, hsame _ _ h.2⟩
  · exact h
  · exact h
  · exact h

/-- Whether images for all variables turn one literal into another. -/
def Onto (same : Handle → Handle → Prop) (σ : String → Term) (a b : Literal) : Prop :=
  Alike same a b ∧ a.terms.map (Term.under σ) = b.terms

/-- Whether images for all variables turn each literal of a list into some
literal of another, as it is written or the other way round. -/
def Maps (same : Handle → Handle → Prop) (σ : String → Term)
    (domain range : List Literal) : Prop :=
  ∀ a ∈ domain, ∃ b ∈ range, ∃ turned b', b.reading turned = some b' ∧ Onto same σ a b'

/-- The order of the two lists does not matter. -/
lemma Maps.perm {domain domain' range range' : List Literal}
    (h : Maps same σ domain range) (hd : domain.Perm domain') (hr : range.Perm range') :
    Maps same σ domain' range' := fun a ha => by
  obtain ⟨b, hb, honto⟩ := h a (hd.mem_iff.mpr ha)
  exact ⟨b, hr.mem_iff.mp hb, honto⟩

lemma Maps.imp {domain range : List Literal} (h : Maps same σ domain range)
    (hsame : ∀ d r, same d r → same' d r) : Maps same' σ domain range := fun a ha => by
  obtain ⟨b, hb, turned, b', hread, halike, hterms⟩ := h a ha
  exact ⟨b, hb, turned, b', hread, halike.imp hsame, hterms⟩

/-- Whether there are images that turn the head of a rule into the head of
another, and map its body onto the body of the other. -/
def MapsRule (same : Handle → Handle → Prop) (d r : Rule) : Prop :=
  ∃ σ, d.head.map (Term.under σ) = r.head ∧ Maps same σ d.body.literals r.body.literals

lemma MapsRule.imp {d r : Rule} (h : MapsRule same d r)
    (hsame : ∀ d r, same d r → same' d r) : MapsRule same' d r := by
  obtain ⟨σ, hhead, hbody⟩ := h
  exact ⟨σ, hhead, hbody.imp hsame⟩

/-! ### Sequences of choices -/

/-- A place in a list of literals, and whether the literal there is read the
other way round. -/
abbrev Choice := ℕ ×ₗ Bool

/-- The choice of a place and a reading. -/
def Choice.at (place : ℕ) (turned : Bool) : Choice := toLex (place, turned)

/-- The place comes first in the order of choices, then the reading. -/
lemma Choice.at_lt_at {i j : ℕ} {t u : Bool} :
    Choice.at i t < Choice.at j u ↔ i < j ∨ i = j ∧ t < u :=
  Prod.Lex.toLex_lt_toLex

/-- Sequences of choices are compared choice by choice. -/
lemma Choice.cons_le_cons {c c' : Choice} {cs cs' : List Choice} :
    c :: cs ≤ c' :: cs' ↔ c < c' ∨ c = c' ∧ cs ≤ cs' := by
  rw [← not_lt, ← not_lt, List.cons_lt_cons_iff]
  rcases lt_trichotomy c c' with h | rfl | h
  · simp [h, h.ne', h.not_gt]
  · simp
  · simp [h, h.ne', h.not_gt]

/-- The literal that is chosen from a list. -/
def Choice.literal? (range : List Literal) (c : Choice) : Option Literal :=
  range[(ofLex c).1]?.bind (·.reading (ofLex c).2)

/-- Whether images for all variables turn each literal of a list into the one
that is chosen for it. -/
def Realises (same : Handle → Handle → Prop) (σ : String → Term) (range : List Literal) :
    List Literal → List Choice → Prop :=
  List.Forall₂ fun a c => ∃ b, c.literal? range = some b ∧ Onto same σ a b

lemma Realises.imp {range domain : List Literal} {cs : List Choice}
    (h : Realises same σ range domain cs) (hsame : ∀ d r, same d r → same' d r) :
    Realises same' σ range domain cs := by
  refine List.Forall₂.imp ?_ h
  rintro a c ⟨b, hb, halike, hterms⟩
  exact ⟨b, hb, halike.imp hsame, hterms⟩

/-- The choices determine the images of all variables. -/
lemma Realises.image_eq {τ : String → Term} {range domain : List Literal} {cs : List Choice}
    (h : Realises same σ range domain cs) (h' : Realises same' τ range domain cs) :
    ∀ a ∈ domain, ∀ x ∈ a.vars, σ x = τ x := by
  induction h with
  | nil => exact fun a ha => absurd ha (by simp)
  | @cons a c domain cs hc _ ih =>
      obtain ⟨⟨b', hb', -, hterms'⟩, hrest'⟩ := List.forall₂_cons.mp h'
      obtain ⟨b, hb, -, hterms⟩ := hc
      cases hb.symm.trans hb'
      intro a' ha' x hx
      rcases List.mem_cons.mp ha' with rfl | ha'
      · exact List.map_inj_left.mp (hterms.trans hterms'.symm) (.var x) (Term.mem_vars.mp hx)
      · exact ih hrest' a' ha' x hx

/-- A literal is among the readings of a list iff some choice names it. -/
lemma exists_literal?_iff {range : List Literal} {P : Literal → Prop} :
    (∃ c : Choice, ∃ b, c.literal? range = some b ∧ P b) ↔
      ∃ b ∈ range, ∃ turned b', b.reading turned = some b' ∧ P b' := by
  constructor
  · rintro ⟨c, b', hb', hP⟩
    obtain ⟨b, hb, hread⟩ := Option.bind_eq_some_iff.mp hb'
    exact ⟨b, List.mem_of_getElem? hb, _, b', hread, hP⟩
  · rintro ⟨b, hb, turned, b', hread, hP⟩
    obtain ⟨i, hi⟩ := List.mem_iff_getElem?.mp hb
    exact ⟨Choice.at i turned, b', Option.bind_eq_some_iff.mpr ⟨b, hi, hread⟩, hP⟩

/-- Images map a list onto another iff they realise some sequence of choices:
the choices are made literal by literal. -/
theorem maps_iff_exists_realises {domain range : List Literal} :
    Maps same σ domain range ↔ ∃ cs, Realises same σ range domain cs := by
  constructor
  · intro h
    induction domain with
    | nil => exact ⟨[], List.Forall₂.nil⟩
    | cons a domain ih =>
        obtain ⟨c, hc⟩ := exists_literal?_iff.mpr (h a (by simp))
        obtain ⟨cs, hcs⟩ := ih fun a' ha' => h a' (by simp [ha'])
        exact ⟨c :: cs, List.Forall₂.cons hc hcs⟩
  · rintro ⟨cs, h⟩ a ha
    induction h with
    | nil => exact absurd ha (by simp)
    | @cons a' c _ _ hc _ ih =>
        rcases List.mem_cons.mp ha with rfl | ha
        · exact exists_literal?_iff.mp ⟨c, hc⟩
        · exact ih ha

end Homomorphism

end DependencyTheory
