/-
The readers of literals, which are tried one after the other:

* `kindOf`: how the literal is written with which a text starts, by what stands behind the
  first name;
* `kindOf_of_spells`: a layout of a literal starts as its kind does, so that no kind of
  literals is mistaken for another one;
* `reads_literal`: a literal is read where it is laid out. Names such as `not` and `true` are
  names where a literal needs one.
-/
import DependencyTheory.Proofs.Source.Spelling

namespace DependencyTheory.Source

open Reader

variable {s r : List Char} {ks ks' : List Token} {k : Token} {x w : String} {t : Term} {a : Atom}

/-! ### How literals start -/

/-- The four ways to write a literal. -/
inductive LiteralKind where
  | denied
  | affirmed
  | compared
  | truth
  deriving DecidableEq

/-- The way in which a literal is written. -/
def kind : Literal → LiteralKind
  | .atom false _ => .denied
  | .atom true _ => .affirmed
  | .comparison _ _ _ => .compared
  | .truth _ => .truth

/-- What the spellings of comparisons start with. -/
def comparisonMarks : List Char := ['<', '>', '=', '!']

/-- The kind of a literal that starts with a name, by what comes next behind the name. -/
def kindBehind : Option Char → LiteralKind
  | none => .truth
  | some c =>
    if c = '(' then .affirmed
    else if Text.isNameStart c then .denied
    else if c ∈ comparisonMarks then .compared
    else .truth

/-- The kind of a literal, by how the text starts. -/
def kindOf (s : List Char) : LiteralKind :=
  if next? s = some '!' then .denied
  else
    match name s with
    | .ok (_, r) => kindBehind (next? r)
    | .error _ => .compared

/-- Whether a literal may end here. -/
def EndsLiteral (next : Option Char) : Prop :=
  next = none ∨ next = some ',' ∨ next = some '-' ∨ next = some '.'

/-- A mark of a comparison ends a name, and shows that it was compared. -/
lemma of_mem_comparisonMarks {c : Char} (hc : c ∈ comparisonMarks) :
    NotInName (some c) ∧ kindBehind (some c) = .compared := by
  rw [notInName_iff]
  simp only [comparisonMarks, List.mem_cons, List.not_mem_nil, or_false] at hc
  rcases hc with rfl | rfl | rfl | rfl <;> decide

/-- Where a literal may end, a name has ended. -/
lemma EndsLiteral.notInName {c : Option Char} (h : EndsLiteral c) : NotInName c := by
  rcases h with rfl | rfl | rfl | rfl
  · exact fun d hd => absurd hd (Option.not_mem_none d)
  all_goals exact notInName_iff.mpr (by decide)

/-- A text that starts with a name shows its kind behind the name. -/
lemma kindOf_of_name (h : name s = .ok (x, r)) : kindOf s = kindBehind (next? r) := by
  obtain ⟨_, rfl, hks⟩ := reads_name.sound h
  obtain ⟨c, hnext, hc⟩ := hks.next?_name
  have hne : next? s ≠ some '!' := by
    rw [hnext]
    rintro ⟨⟩
    exact absurd hc (by decide)
  rw [kindOf, if_neg hne, h]

/-- The same for a text whose first two tokens are known. -/
lemma kindOf_of_layout (hks : Layout (.name x :: k :: ks) s r) (hk : NotInName k.text.head?) :
    kindOf s = kindBehind k.text.head? := by
  obtain ⟨s', hname, hrest⟩ := Layout.append_iff.mp
    (show Layout ([.name x] ++ k :: ks) s r from hks)
  rw [← hrest.next?_eq] at hk ⊢
  exact kindOf_of_name (reads_name.complete rfl hname hk)

lemma kindOf_affirmed (h : SpellsAtom a ks) (hks : Layout ks s r) : kindOf s = .affirmed := by
  obtain ⟨-⟩ := h
  exact kindOf_of_layout hks (notInName_iff.mpr (by decide))

/-- A denied atom is recognised, whichever way its denial is written. -/
lemma kindOf_denied (hw : w = "!" ∨ w = "not") (h : SpellsAtom a ks)
    (hks : Layout (.word w :: ks) s r) : kindOf s = .denied := by
  rcases hw with rfl | rfl
  · have hnext : next? s = some '!' := hks.next?_eq
    rw [kindOf, if_pos hnext]
  · -- the word `not` is read as a name, and behind it comes another one
    obtain ⟨-, s', hs, hoff, hrest⟩ := Layout.cons_iff.mp hks
    obtain ⟨c, s'', rfl, hc⟩ := hoff rfl
    have hname : name s = .ok ("not", c :: s'') := by
      refine name_eq_ok.mpr ⟨.of_all (by decide) (by decide), hs, ?_⟩
      exact notInName_iff.mpr (isNamePart_of_isBlank hc)
    obtain ⟨-⟩ := h
    obtain ⟨d, hnext, hd⟩ := hrest.next?_name
    have hne : d ≠ '(' := by
      rintro rfl
      exact absurd hd (by decide)
    rw [kindOf_of_name hname, hnext, kindBehind, if_neg hne, if_pos hd]

/-- A text that starts neither with a name nor with `!` can only start with a comparison. -/
lemma kindOf_of_next? {c : Char} (hnext : next? s = some c) (hc : Text.isNameStart c = false)
    (hne : c ≠ '!') : kindOf s = .compared := by
  have hfirst : next? s ≠ some '!' := by
    rw [hnext]
    exact fun h => hne (Option.some.inj h)
  rw [kindOf, if_neg hfirst]
  split
  · next x r hname =>
      obtain ⟨_, rfl, hks⟩ := reads_name.sound hname
      obtain ⟨d, hnext', hd⟩ := hks.next?_name
      obtain rfl := Option.some.inj (hnext.symm.trans hnext')
      exact absurd hd (by rw [hc]; exact Bool.false_ne_true)
  · rfl

/-- A comparison is recognised by its mark if its first side is a name, and else by that side. -/
lemma kindOf_compared (h : SpellsTerm t ks) (hks : Layout (ks ++ .word w :: ks') s r)
    (hw : ∃ c ∈ comparisonMarks, w.toList.head? = some c) : kindOf s = .compared := by
  obtain ⟨c, hc, hhead⟩ := hw
  obtain ⟨hend, hkind⟩ := of_mem_comparisonMarks hc
  cases h with
  | name x =>
      have hk : NotInName (Token.word w).text.head? := by
        rwa [Token.text, hhead]
      rw [kindOf_of_layout hks hk, Token.text, hhead, hkind]
  | quoted c => exact kindOf_of_next? hks.next?_eq (by decide) (by decide)
  | number c =>
      obtain ⟨d, hnext, hd⟩ := hks.next?_number
      refine kindOf_of_next? hnext (isNameStart_of_number_start hd) ?_
      rintro rfl
      exact absurd hd (by decide)

lemma kindOf_truth {b : Bool} (hks : Layout [.word (truthName b)] s r)
    (hr : EndsLiteral (next? r)) : kindOf s = .truth := by
  -- the words are names, too
  have hname : name s = .ok (truthName b, r) := by
    obtain ⟨-, s', hs, -, hrest⟩ := Layout.cons_iff.mp hks
    obtain rfl := Layout.nil_iff.mp hrest
    refine name_eq_ok.mpr ⟨?_, hs, hr.notInName.head?⟩
    cases b with
    | true => exact .of_all (by decide) (by decide)
    | false => exact .of_all (by decide) (by decide)
  rw [kindOf_of_name hname]
  rcases hr with h | h | h | h <;> rw [h] <;> decide

/-- Every spelling of a comparison starts with one of the marks. -/
lemma head?_of_mem_spellings {op : Comparison} (hw : w ∈ spellings op) :
    ∃ c ∈ comparisonMarks, w.toList.head? = some c := by
  have hall : ∀ w ∈ spellings op, w.toList.head? ∈ comparisonMarks.map some := by
    cases op <;> decide
  obtain ⟨c, hc, hhead⟩ := List.mem_map.mp (hall w hw)
  exact ⟨c, hc, hhead.symm⟩

/-- **The start of a text tells how the literal there is written.** -/
theorem kindOf_of_spells {l : Literal} (h : SpellsLiteral l ks) (hks : Layout ks s r)
    (hr : kind l = .truth → EndsLiteral (next? r)) : kindOf s = kind l := by
  cases h with
  | denied hw ha => exact kindOf_denied hw ha hks
  | affirmed ha => exact kindOf_affirmed ha hks
  | compared hleft hw _ => exact kindOf_compared hleft hks (head?_of_mem_spellings hw)
  | truth b => exact kindOf_truth hks (hr rfl)

/-! ### Literals -/

/-- The word `not` is read with the blanks behind it. -/
lemma notWord_eq_ok : notWord s = .ok (w, r) ↔ w = "not" ∧ ∃ blanks, blanks ≠ [] ∧
    (∀ c ∈ blanks, Text.isBlank c = true) ∧ s = "not".toList ++ (blanks ++ r) ∧
    ∀ c ∈ r.head?, Text.isBlank c = false := by
  simp only [notWord, blanks1, bind_eq_ok, pure_eq_ok, word_eq_ok, span1_eq_ok]
  constructor
  · rintro ⟨_, _, ⟨rfl, rfl⟩, _, _, ⟨blanks, _, ⟨rfl, hne, hblanks, hend⟩, -, rfl⟩, rfl, rfl⟩
    exact ⟨rfl, blanks, hne, hblanks, rfl, hend⟩
  · rintro ⟨rfl, blanks, hne, hblanks, rfl, hend⟩
    exact ⟨_, _, ⟨rfl, rfl⟩, (), r, ⟨blanks, r, ⟨rfl, hne, hblanks, hend⟩, trivial, rfl⟩,
      rfl, rfl⟩

/-- A denial is `!`, or the word `not` with its blanks: no text starts with both. -/
lemma negation_eq_ok : negation s = .ok (w, r) ↔
    w = "!" ∧ s.dropWhile Text.isBlank = "!".toList ++ r ∨
      notWord (s.dropWhile Text.isBlank) = .ok (w, r) := by
  rw [negation, token_eq, firstOf_cons, firstOf_singleton, word_eq_ok]
  refine or_congr_right (and_iff_right_of_imp fun h out hout => ?_)
  obtain ⟨-, blanks, -, -, hs, -⟩ := notWord_eq_ok.mp h
  have hbang := (word_eq_ok.mp (show word "!" (s.dropWhile Text.isBlank) = .ok (out.1, out.2)
    from hout)).2
  rw [hs] at hbang
  exact absurd (List.cons.inj hbang).1 (by decide)

lemma deniedAtom_eq_ok {l : Literal} : deniedAtom s = .ok (l, r) ↔
    ∃ w s' a, negation s = .ok (w, s') ∧ atom s' = .ok (a, r) ∧ l = .atom false a := by
  simp only [deniedAtom, bind_eq_ok, pure_eq_ok]
  constructor
  · rintro ⟨w, s', hw, a, _, ha, rfl, rfl⟩
    exact ⟨w, s', a, hw, ha, rfl⟩
  · rintro ⟨w, s', a, hw, ha, rfl⟩
    exact ⟨w, s', hw, a, r, ha, rfl, rfl⟩

/-- What is read as a denied atom is a layout of one. -/
lemma layout_of_deniedAtom {l : Literal} (h : deniedAtom s = .ok (l, r)) :
    ∃ a w ks, l = .atom false a ∧ (w = "!" ∨ w = "not") ∧ SpellsAtom a ks ∧
      Layout (.word w :: ks) s r := by
  obtain ⟨w, s', a, hw, ha, rfl⟩ := deniedAtom_eq_ok.mp h
  obtain ⟨ks, hspells, hks⟩ := reads_atom.sound ha
  rcases negation_eq_ok.mp hw with ⟨rfl, hs⟩ | hw
  · refine ⟨a, _, ks, rfl, Or.inl rfl, hspells, Layout.cons_iff.mpr ⟨?_, s', hs, ?_, hks⟩⟩
    · exact show "!" ∈ Token.words by decide
    · exact fun he => absurd he (by decide)
  · obtain ⟨rfl, blanks, hne, hblanks, hs, -⟩ := notWord_eq_ok.mp hw
    obtain ⟨c, cs, rfl⟩ := List.exists_cons_of_ne_nil hne
    refine ⟨a, _, ks, rfl, Or.inr rfl, hspells, Layout.cons_iff.mpr ⟨?_, _, hs, ?_, ?_⟩⟩
    · exact show "not" ∈ Token.words by decide
    · exact fun _ => ⟨c, cs ++ s', rfl, hblanks c List.mem_cons_self⟩
    · obtain ⟨hterms⟩ := hspells
      rw [← Layout.dropWhile_iff, List.dropWhile_append_of_pos hblanks, Layout.dropWhile_iff]
      exact hks

/-- Where a denied atom is laid out it is read, the blanks behind `not` by one step of the reader
and those behind `!` by the next one. -/
lemma deniedAtom_of_layout (hw : w = "!" ∨ w = "not") (h : SpellsAtom a ks)
    (hks : Layout (.word w :: ks) s r) : deniedAtom s = .ok (.atom false a, r) := by
  obtain ⟨-, s', hs, hoff, hrest⟩ := Layout.cons_iff.mp hks
  rcases hw with rfl | rfl
  · exact deniedAtom_eq_ok.mpr ⟨"!", s', a, negation_eq_ok.mpr (Or.inl ⟨rfl, hs⟩),
      reads_atom.complete h hrest trivial, rfl⟩
  · obtain ⟨c, s'', rfl, hc⟩ := hoff rfl
    obtain ⟨hsplit, hblanks, hend⟩ := takeWhile_dropWhile_iff.mp
      ⟨Eq.refl ((c :: s'').takeWhile Text.isBlank), Eq.refl ((c :: s'').dropWhile Text.isBlank)⟩
    have hne : (c :: s'').takeWhile Text.isBlank ≠ [] := by
      rw [List.takeWhile_cons_of_pos hc]
      exact List.cons_ne_nil _ _
    have hnot : negation s = .ok ("not", (c :: s'').dropWhile Text.isBlank) := by
      refine negation_eq_ok.mpr (Or.inr (notWord_eq_ok.mpr ⟨rfl, _, hne, hblanks, ?_, hend⟩))
      rw [← hsplit]
      exact hs
    refine deniedAtom_eq_ok.mpr ⟨"not", _, a, hnot, reads_atom.complete h ?_ trivial, rfl⟩
    obtain ⟨hterms⟩ := h
    exact Layout.dropWhile_iff.mpr hrest

lemma reads_deniedAtom :
    Reads deniedAtom (fun l ks => SpellsLiteral l ks ∧ kind l = .denied) EndsLiteral := by
  constructor
  · intro s r l h
    obtain ⟨a, w, ks, rfl, hw, hspells, hks⟩ := layout_of_deniedAtom h
    exact ⟨_, ⟨.denied hw hspells, rfl⟩, hks⟩
  · rintro s r l ks ⟨hspells, hkind⟩ hks -
    cases hspells with
    | denied hw h => exact deniedAtom_of_layout hw h hks
    | _ => cases hkind

lemma reads_affirmedAtom : Reads (Literal.atom true <$> atom)
    (fun l ks => SpellsLiteral l ks ∧ kind l = .affirmed) EndsLiteral := by
  refine ((reads_atom.mono fun _ _ => trivial).map (Literal.atom true)).congr fun l ks => ?_
  constructor
  · rintro ⟨hspells, hkind⟩
    cases hspells with
    | affirmed h => exact ⟨_, h, rfl⟩
    | _ => cases hkind
  · rintro ⟨a, h, rfl⟩
    exact ⟨.affirmed h, rfl⟩

/-- **A comparison is read.** Its first side ends where its mark starts, and the mark where its
second side does, so that neither takes in what belongs to the other. -/
lemma reads_compared :
    Reads compared (fun l ks => SpellsLiteral l ks ∧ kind l = .compared) EndsLiteral := by
  have hright : ∀ left op, Reads (do let right ← term; return Literal.comparison op left right)
      (fun l ks => ∃ right, SpellsTerm right ks ∧ l = .comparison op left right) EndsLiteral :=
    fun left op => (reads_term.mono fun _ h => h.notInName).map (Literal.comparison op left)
  refine (reads_term.bind (fun left => reads_comparison.bind (fun op => hright left op) ?_)
    ?_).congr fun l ks => ?_
  · rintro op l ks s r ⟨right, hterm, -⟩ hks -
    rw [← List.append_nil ks] at hks
    obtain ⟨c, hnext, hc⟩ := hterm.next? hks
    rw [hnext]
    constructor
    · rintro ⟨⟩
      exact absurd hc (by decide)
    · rintro ⟨⟩
      exact absurd hc (by decide)
  · rintro left l _ s r ⟨op, _, ks, ⟨w, hw, rfl⟩, -, rfl⟩ hks -
    obtain ⟨c, hc, hhead⟩ := head?_of_mem_spellings hw
    rw [hks.next?_eq, Token.text, hhead]
    exact (of_mem_comparisonMarks hc).1
  · constructor
    · rintro ⟨hspells, hkind⟩
      cases hspells with
      | compared hleft hw hright =>
          exact ⟨_, _, _, hleft, ⟨_, _, _, ⟨_, hw, rfl⟩, ⟨_, hright, rfl⟩, rfl⟩, rfl⟩
      | _ => cases hkind
    · rintro ⟨left, ks₁, _, hleft, ⟨op, _, ks₂, ⟨w, hw, rfl⟩, ⟨right, hright, rfl⟩, rfl⟩, rfl⟩
      exact ⟨.compared hleft hw hright, rfl⟩

lemma reads_truth : Reads (Literal.truth <$> truthValue)
    (fun l ks => SpellsLiteral l ks ∧ kind l = .truth) EndsLiteral := by
  have hend : ∀ c, EndsLiteral c → ∀ d ∈ c, goesOn d = false := by
    rintro c (rfl | rfl | rfl | rfl) d hd
    · exact absurd hd (Option.not_mem_none d)
    all_goals
      obtain rfl := Option.some.inj hd
      decide
  refine ((reads_truthValue.mono hend).map Literal.truth).congr fun l ks => ?_
  constructor
  · rintro ⟨hspells, hkind⟩
    cases hspells with
    | truth b => exact ⟨b, rfl, rfl⟩
    | _ => cases hkind
  · rintro ⟨b, rfl, rfl⟩
    exact ⟨.truth b, rfl⟩

/-- **One kind of literals or another.** The start of the text tells them apart, so that the
first reader fails where a literal of another kind is meant. -/
lemma orElse_kind {p q : Reader Literal} {ps : List (Reader Literal)} {k : LiteralKind}
    {kinds : List LiteralKind}
    (hp : Reads p (fun l ks => SpellsLiteral l ks ∧ kind l = k) EndsLiteral)
    (hq : Reads (firstOf (q :: ps)) (fun l ks => SpellsLiteral l ks ∧ kind l ∈ kinds) EndsLiteral)
    (hk : k ≠ .truth) (hnot : k ∉ kinds) :
    Reads (firstOf (p :: q :: ps)) (fun l ks => SpellsLiteral l ks ∧ kind l ∈ k :: kinds)
      EndsLiteral := by
  refine (hp.orElse hq ?_).congr fun l ks => ?_
  · rintro s r r' l l' ks' hl ⟨hspells', hkind'⟩ hks' hr
    obtain ⟨ks, ⟨hspells, rfl⟩, hks⟩ := hp.sound hl
    have hkind := kindOf_of_spells hspells hks fun h => absurd h hk
    rw [kindOf_of_spells hspells' hks' fun _ => hr] at hkind
    exact hnot (hkind ▸ hkind')
  · rw [List.mem_cons, and_or_left]

/-- **A literal is read** before a comma, an arrow, a full stop or the end. -/
theorem reads_literal : Reads literal SpellsLiteral EndsLiteral := by
  have htruth : Reads (firstOf [Literal.truth <$> truthValue])
      (fun l ks => SpellsLiteral l ks ∧ kind l ∈ [LiteralKind.truth]) EndsLiteral :=
    reads_truth.single.congr fun l ks => by rw [List.mem_singleton]
  refine (orElse_kind reads_deniedAtom (orElse_kind reads_affirmedAtom
    (orElse_kind reads_compared htruth ?_ ?_) ?_ ?_) ?_ ?_).congr fun l ks => ?_
  any_goals decide
  exact (and_iff_left (by cases kind l <;> decide)).symm

end DependencyTheory.Source
