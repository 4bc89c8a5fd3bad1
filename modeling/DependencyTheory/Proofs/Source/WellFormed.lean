/-
The values that can be spelled at all:

* `IsTerm`, `IsAtom`, `IsLiteral`, `IsHead`, `IsStatement`: values whose names are names,
  whose constants can stand between quotes, and whose bodies and heads are not empty;
* `Spellable`: the values that some tokens spell are those of some kind, and these can be
  spelled with tokens that need no look at what comes behind;
* `layout_of_plain`: such tokens can be laid out, with a blank in front of each;
* `Spellable.exists_layout_iff`: so just these values have layouts.
-/
import DependencyTheory.Proofs.Source.Spelling

namespace DependencyTheory.Source

variable {α : Type} {k : Token} {ks : List Token} {s r : List Char}

/-! ### Well-formed values -/

/-- Whether a variable is a name, and a constant fit to stand between quotes. -/
def IsTerm : Term → Prop
  | .var x => IsName x.toList
  | .const c => IsQuotable c.toList

/-- Whether the predicate of an atom is a name, and its terms are in order. -/
structure IsAtom (a : Atom) : Prop where
  predicate : IsName a.predicate.toList
  terms : ∀ t ∈ a.terms, IsTerm t

/-- Whether the atom or the terms of a literal are in order. -/
def IsLiteral : Literal → Prop
  | .atom _ a => IsAtom a
  | .comparison _ left right => IsTerm left ∧ IsTerm right
  | .truth _ => True

/-- Whether there are one or more items, all of which are in order. -/
def IsListOf (P : α → Prop) (as : List α) : Prop := as ≠ [] ∧ ∀ a ∈ as, P a

/-- Whether a head has atoms, all in order, or an equality of such terms. -/
def IsHead : Head → Prop
  | .atoms as => IsListOf IsAtom as
  | .equality left right => IsTerm left ∧ IsTerm right

/-- Whether a statement has a body, and all of it is in order. -/
def IsStatement : Statement → Prop
  | .rule head body => IsAtom head ∧ IsListOf IsLiteral body
  | .dependency body head => IsListOf IsLiteral body ∧ IsHead head

/-! ### Tokens for them -/

/-- Whether a token can be written, whatever stands right behind it. -/
def Token.Plain (k : Token) : Prop := k.Valid ∧ ∀ s, k.KeepsOff s

lemma Token.plain_name {x : String} (h : IsName x.toList) : (name x).Plain :=
  ⟨h, fun _ => trivial⟩

lemma Token.plain_word {w : String} (hw : w ∈ words) (hnot : w ≠ "not") : (word w).Plain :=
  ⟨hw, fun _ he => absurd he hnot⟩

/-- A number has no quotes. -/
lemma IsNumber.isQuotable {cs : List Char} (h : IsNumber cs) : IsQuotable cs := by
  have hdigits : ∀ {ds}, IsDigits ds → '\'' ∉ ds := fun hds hquote =>
    absurd (hds.2 _ hquote) (by decide)
  refine ⟨?_, fun hquote => ?_⟩
  · obtain ⟨c, rest, rfl, -⟩ := h.exists_first
    exact List.cons_ne_nil c rest
  · obtain ⟨sign, whole, fraction, rfl, hsign, hwhole, hfraction⟩ := h
    rcases List.mem_append.mp hquote with hquote | hquote
    · rcases List.mem_append.mp hquote with hquote | hquote
      · rcases hsign with rfl | rfl <;> exact absurd hquote (by decide)
      · exact hdigits hwhole hquote
    · rcases hfraction with rfl | ⟨ds, hds, rfl⟩
      · exact absurd hquote List.not_mem_nil
      · rcases List.mem_cons.mp hquote with he | hquote
        · exact absurd he (by decide)
        · exact hdigits hds hquote

/-- Whether the values that tokens spell are just those of some kind, and each of these can
be spelled with plain tokens. -/
structure Spellable (P : α → Prop) (Spells : α → List Token → Prop) : Prop where
  holds {a : α} {ks : List Token} : Spells a ks → (∀ k ∈ ks, k.Valid) → P a
  exists_plain {a : α} : P a → ∃ ks, Spells a ks ∧ ∀ k ∈ ks, k.Plain

variable {P : α → Prop} {G : α → List Token → Prop}

lemma Spellable.listed (h : Spellable P G) : Spellable (IsListOf P) (Listed G) := by
  constructor
  · intro as ks hlisted hvalid
    refine ⟨by cases hlisted <;> exact List.cons_ne_nil _ _, ?_⟩
    induction hlisted with
    | one hG => exact fun _ ha => List.mem_singleton.mp ha ▸ h.holds hG hvalid
    | more hG _ ih =>
        rw [List.forall_mem_append, List.forall_mem_cons] at hvalid
        exact List.forall_mem_cons.mpr ⟨h.holds hG hvalid.1, ih hvalid.2.2⟩
  · rintro as ⟨hne, has⟩
    induction as with
    | nil => exact absurd rfl hne
    | cons a as ih =>
        obtain ⟨ks, hG, hks⟩ := h.exists_plain (has a List.mem_cons_self)
        rcases as with _ | ⟨a', as⟩
        · exact ⟨ks, .one hG, hks⟩
        · obtain ⟨ks', hmore, hks'⟩ := ih (List.cons_ne_nil a' as)
            fun b hb => has b (List.mem_cons_of_mem a hb)
          refine ⟨_, .more hG hmore, List.forall_mem_append.mpr ⟨hks, ?_⟩⟩
          exact List.forall_mem_cons.mpr ⟨Token.plain_word (by decide) (by decide), hks'⟩

lemma Spellable.inTurn (h : Spellable P G) : Spellable (fun as => ∀ a ∈ as, P a) (InTurn G) := by
  constructor
  · intro as ks hinturn hvalid
    induction hinturn with
    | nil => exact fun _ ha => absurd ha List.not_mem_nil
    | cons hG _ ih =>
        rw [List.forall_mem_append] at hvalid
        exact List.forall_mem_cons.mpr ⟨h.holds hG hvalid.1, ih hvalid.2⟩
  · intro as has
    induction as with
    | nil => exact ⟨[], .nil, fun _ hk => absurd hk List.not_mem_nil⟩
    | cons a as ih =>
        obtain ⟨ks, hG, hks⟩ := h.exists_plain (has a List.mem_cons_self)
        obtain ⟨ks', hrest, hks'⟩ := ih fun b hb => has b (List.mem_cons_of_mem a hb)
        exact ⟨_, .cons hG hrest, List.forall_mem_append.mpr ⟨hks, hks'⟩⟩

lemma spellable_term : Spellable IsTerm SpellsTerm := by
  constructor
  · intro t ks h hvalid
    cases h with
    | name x => exact hvalid _ List.mem_cons_self
    | quoted c => exact hvalid _ List.mem_cons_self
    | number c => exact IsNumber.isQuotable (hvalid _ List.mem_cons_self)
  · intro t ht
    cases t with
    | var x =>
        exact ⟨_, .name x, fun _ hk => List.mem_singleton.mp hk ▸ Token.plain_name ht⟩
    | const c =>
        exact ⟨_, .quoted c, fun _ hk => List.mem_singleton.mp hk ▸ ⟨ht, fun _ => trivial⟩⟩

lemma spellable_atom : Spellable IsAtom SpellsAtom := by
  constructor
  · rintro a ks ⟨h⟩ hvalid
    simp only [List.forall_mem_cons, List.forall_mem_append] at hvalid
    obtain ⟨hname, -, hterms, -⟩ := hvalid
    rcases h with ⟨rfl, rfl⟩ | h
    · exact ⟨hname, fun _ ht => absurd ht List.not_mem_nil⟩
    · exact ⟨hname, (spellable_term.listed.holds h hterms).2⟩
  · rintro ⟨p, terms⟩ ⟨hname, hterms⟩
    have hlist : ∃ ks, (terms = [] ∧ ks = [] ∨ Listed SpellsTerm terms ks) ∧
        ∀ k ∈ ks, k.Plain := by
      by_cases hne : terms = []
      · exact ⟨[], Or.inl ⟨hne, rfl⟩, fun _ hk => absurd hk List.not_mem_nil⟩
      · obtain ⟨ks, hlisted, hks⟩ := spellable_term.listed.exists_plain ⟨hne, hterms⟩
        exact ⟨ks, Or.inr hlisted, hks⟩
    obtain ⟨ks, h, hks⟩ := hlist
    refine ⟨_, .mk h, ?_⟩
    simp only [List.forall_mem_cons, List.forall_mem_append]
    exact ⟨Token.plain_name hname, Token.plain_word (by decide) (by decide), hks,
      Token.plain_word (by decide) (by decide), fun _ hk => absurd hk List.not_mem_nil⟩

lemma spellable_literal : Spellable IsLiteral SpellsLiteral := by
  constructor
  · intro l ks h hvalid
    cases h with
    | denied _ h => exact spellable_atom.holds h (List.forall_mem_cons.mp hvalid).2
    | affirmed h => exact spellable_atom.holds h hvalid
    | compared hleft _ hright =>
        rw [List.forall_mem_append, List.forall_mem_cons] at hvalid
        exact ⟨spellable_term.holds hleft hvalid.1, spellable_term.holds hright hvalid.2.2⟩
    | truth b => trivial
  · intro l hl
    cases l with
    | atom positive a =>
        obtain ⟨ks, h, hks⟩ := spellable_atom.exists_plain hl
        cases positive with
        | true => exact ⟨ks, .affirmed h, hks⟩
        | false =>
            refine ⟨_, .denied (Or.inl rfl) h, List.forall_mem_cons.mpr ⟨?_, hks⟩⟩
            exact Token.plain_word (by decide) (by decide)
    | comparison op left right =>
        obtain ⟨ks, hleft, hks⟩ := spellable_term.exists_plain hl.1
        obtain ⟨ks', hright, hks'⟩ := spellable_term.exists_plain hl.2
        obtain ⟨w, hw⟩ : ∃ w, w ∈ spellings op := by
          cases op <;> exact ⟨_, List.mem_cons_self⟩
        obtain ⟨hwords, hnot⟩ := mem_words_of_mem_spellings hw
        refine ⟨_, .compared hleft hw hright, ?_⟩
        rw [List.forall_mem_append, List.forall_mem_cons]
        exact ⟨hks, Token.plain_word hwords hnot, hks'⟩
    | truth b =>
        have hword : truthName b ∈ Token.words ∧ truthName b ≠ "not" := by cases b <;> decide
        exact ⟨_, .truth b, fun _ hk =>
          List.mem_singleton.mp hk ▸ Token.plain_word hword.1 hword.2⟩

lemma spellable_head : Spellable IsHead SpellsHead := by
  constructor
  · intro h ks hspells hvalid
    cases hspells with
    | atoms h => exact spellable_atom.listed.holds h hvalid
    | equality hleft hright =>
        rw [List.forall_mem_append, List.forall_mem_cons] at hvalid
        exact ⟨spellable_term.holds hleft hvalid.1, spellable_term.holds hright hvalid.2.2⟩
  · intro h hh
    cases h with
    | atoms as =>
        obtain ⟨ks, h, hks⟩ := spellable_atom.listed.exists_plain hh
        exact ⟨ks, .atoms h, hks⟩
    | equality left right =>
        obtain ⟨ks, hleft, hks⟩ := spellable_term.exists_plain hh.1
        obtain ⟨ks', hright, hks'⟩ := spellable_term.exists_plain hh.2
        refine ⟨_, .equality hleft hright, ?_⟩
        rw [List.forall_mem_append, List.forall_mem_cons]
        exact ⟨hks, Token.plain_word (by decide) (by decide), hks'⟩

lemma spellable_statement : Spellable IsStatement SpellsStatement := by
  constructor
  · intro st ks h hvalid
    cases h with
    | rule hhead hbody =>
        simp only [List.forall_mem_append, List.forall_mem_cons] at hvalid
        exact ⟨spellable_atom.holds hhead hvalid.1.1,
          spellable_literal.listed.holds hbody hvalid.1.2.2⟩
    | dependency hbody hhead =>
        simp only [List.forall_mem_append, List.forall_mem_cons] at hvalid
        exact ⟨spellable_literal.listed.holds hbody hvalid.1.1,
          spellable_head.holds hhead hvalid.1.2.2⟩
  · have hstop : ∀ k ∈ [Token.word "."], k.Plain := fun _ hk =>
      List.mem_singleton.mp hk ▸ Token.plain_word (by decide) (by decide)
    intro st hst
    cases st with
    | rule head body =>
        obtain ⟨ks, hhead, hks⟩ := spellable_atom.exists_plain hst.1
        obtain ⟨ks', hbody, hks'⟩ := spellable_literal.listed.exists_plain hst.2
        refine ⟨_, .rule hhead hbody, ?_⟩
        rw [List.forall_mem_append, List.forall_mem_append, List.forall_mem_cons]
        exact ⟨⟨hks, Token.plain_word (by decide) (by decide), hks'⟩, hstop⟩
    | dependency body head =>
        obtain ⟨ks, hbody, hks⟩ := spellable_literal.listed.exists_plain hst.1
        obtain ⟨ks', hhead, hks'⟩ := spellable_head.exists_plain hst.2
        refine ⟨_, .dependency hbody hhead, ?_⟩
        rw [List.forall_mem_append, List.forall_mem_append, List.forall_mem_cons]
        exact ⟨⟨hks, Token.plain_word (by decide) (by decide), hks'⟩, hstop⟩

/-! ### Layouts of them -/

/-- The tokens of a layout are valid. -/
lemma Layout.valid (h : Layout ks s r) : ∀ k ∈ ks, k.Valid := by
  induction h with
  | done => exact fun _ hk => absurd hk List.not_mem_nil
  | token _ hk _ _ ih => exact List.forall_mem_cons.mpr ⟨hk, ih⟩

/-- Plain tokens can be laid out with a blank in front of each. -/
lemma layout_of_plain (h : ∀ k ∈ ks, k.Plain) :
    Layout ks (ks.flatMap fun k => ' ' :: k.text) [] := by
  induction ks with
  | nil => exact .done
  | cons k ks ih =>
      obtain ⟨⟨hk, hoff⟩, hks⟩ := List.forall_mem_cons.mp h
      have hblank : ∀ c ∈ [' '], Text.isBlank c = true := fun _ hc =>
        List.mem_singleton.mp hc ▸ rfl
      exact .token hblank hk (hoff _) (ih hks)

/-- **Just the well-formed values have layouts.** -/
theorem Spellable.exists_layout_iff (h : Spellable P G) {a : α} :
    (∃ ks s r, G a ks ∧ Layout ks s r ∧ ∀ c ∈ r, Text.isBlank c = true) ↔ P a := by
  constructor
  · rintro ⟨ks, s, r, hG, hks, -⟩
    exact h.holds hG hks.valid
  · intro ha
    obtain ⟨ks, hG, hks⟩ := h.exists_plain ha
    exact ⟨ks, _, [], hG, layout_of_plain hks, fun _ hc => absurd hc List.not_mem_nil⟩

end DependencyTheory.Source
