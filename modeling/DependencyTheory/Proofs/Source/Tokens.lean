/-
The readers of single tokens:

* `name_eq_ok`: a name is as long as it can be;
* `reads_name`, `reads_quotedConstant`, `reads_number`: names and constants are read where
  they are laid out, if no character of a name comes next;
* `reads_comparison`: so are the seven spellings of comparisons, before a term;
* `reads_truthValue`: and the words for truth values, unless they go on as a name or as an
  atom.
-/
import DependencyTheory.Proofs.Source.Reads
import DependencyTheory.Source.Grammar

namespace DependencyTheory.Source

open Reader

variable {s r : List Char} {x c : String}

/-! ### What may come next -/

/-- Whether what comes next, if anything, is no part of a name. -/
def NotInName (next : Option Char) : Prop := ∀ c ∈ next, Text.isNamePart c = false

/-- A character test that fails for what comes next fails for what comes right behind, if it
fails for blanks. -/
lemma head?_of_next? {test : Char → Bool} (hblank : ∀ c, Text.isBlank c = true → test c = false)
    (h : ∀ c ∈ next? s, test c = false) : ∀ c ∈ s.head?, test c = false := by
  cases s with
  | nil => exact fun c hc => absurd hc (Option.not_mem_none c)
  | cons d s =>
      rintro _ ⟨⟩
      by_cases hd : Text.isBlank d = true
      · exact hblank d hd
      · exact h d (by rw [next?, List.dropWhile_cons_of_neg hd]; rfl)

/-- What is no part of a name when blanks are skipped is none when they are not. -/
lemma NotInName.head? (h : NotInName (next? s)) : NotInName s.head? :=
  head?_of_next? (fun _ => isNamePart_of_isBlank) h

lemma toNat_of_isDigit {d : Char} (h : d.isDigit = true) : 48 ≤ d.toNat ∧ d.toNat ≤ 57 := by
  simpa [Char.isDigit, UInt32.le_iff_toNat_le] using h

/-- A name can go on with a digit, though not start with one. -/
lemma isNamePart_of_isDigit {d : Char} (h : d.isDigit = true) : Text.isNamePart d = true := by
  have hnumeral : Text.isNumeral d = true := by
    rw [Text.isNumeral, Text.numeralRanges, Text.inRanges]
    simp only [toNat_of_isDigit h, decide_true, Bool.true_or, Bool.and_self]
  simp [Text.isNamePart, Text.isAlphanumeric, hnumeral]

/-- No name starts with a digit, so numbers and names are told apart at once. -/
lemma isNameStart_of_isDigit {d : Char} (h : d.isDigit = true) : Text.isNameStart d = false := by
  have hrange := toNat_of_isDigit h
  have halphabetic : Text.isAlphabetic d = false := by
    rw [Text.isAlphabetic, Text.alphabeticRanges, Text.inRanges]
    exact Bool.and_eq_false_iff.mpr (Or.inl (decide_eq_false (by omega)))
  rw [Text.isNameStart, halphabetic, Bool.false_or, beq_eq_false_iff_ne]
  rintro rfl
  exact absurd h (by decide)

/-- What is no part of a name is no digit either. -/
lemma NotInName.isDigit (h : NotInName r.head?) : ∀ c ∈ r.head?, c.isDigit = false := by
  intro c hc
  by_contra hd
  rw [Bool.not_eq_false] at hd
  exact absurd (isNamePart_of_isDigit hd) (by rw [h c hc]; exact Bool.false_ne_true)

/-! ### Names -/

/-- **A name is as long as it can be.** -/
lemma name_eq_ok : name s = .ok (x, r) ↔
    IsName x.toList ∧ s.dropWhile Text.isBlank = x.toList ++ r ∧ NotInName r.head? := by
  simp only [name, token_eq, bind_eq_ok, pure_eq_ok, charOf, oneOf_eq_ok, takeWhile_eq_ok]
  constructor
  · rintro ⟨c, s', ⟨hs, hc⟩, cs, s'', ⟨rfl, hcs, hend⟩, rfl, rfl⟩
    rw [String.toList_ofList, hs]
    exact ⟨⟨c, cs, rfl, hc, hcs⟩, rfl, hend⟩
  · rintro ⟨⟨c, cs, hx, hc, hcs⟩, hs, hend⟩
    rw [hx, List.cons_append] at hs
    refine ⟨c, cs ++ r, ⟨hs, hc⟩, cs, r, ⟨rfl, hcs, hend⟩, ?_, rfl⟩
    rw [← hx, String.ofList_toList]

/-- **A name is read** if what comes next does not make it longer. -/
lemma reads_name : Reads name (fun x ks => ks = [.name x]) NotInName := by
  refine Reads.of_token (fun h => ?_) fun hx _ hr hs => name_eq_ok.mpr ⟨hx, hs, hr.head?⟩
  obtain ⟨hx, hs, -⟩ := name_eq_ok.mp h
  exact ⟨hx, hs, trivial⟩

/-! ### Constants -/

/-- A constant between quotes is read up to the quote that closes it. -/
lemma quotedConstant_eq_ok : quotedConstant s = .ok (c, r) ↔
    IsQuotable c.toList ∧ s.dropWhile Text.isBlank = (Token.quoted c).text ++ r := by
  simp only [quotedConstant, token_eq, bind_eq_ok, pure_eq_ok, char, oneOf_eq_ok, span1_eq_ok,
    beq_iff_eq, bne_iff_ne]
  constructor
  · rintro ⟨_, s₁, ⟨hs, rfl⟩, cs, s₂, ⟨rfl, hne, hcs, -⟩, _, s₃, ⟨rfl, rfl⟩, rfl, rfl⟩
    refine ⟨⟨by rwa [String.toList_ofList], ?_⟩, ?_⟩
    · rw [String.toList_ofList]
      exact fun hquote => hcs _ hquote rfl
    · rw [hs, Token.text, String.toList_ofList, List.cons_append, List.append_assoc]
      rfl
  · rintro ⟨⟨hne, hquote⟩, hs⟩
    rw [Token.text, List.cons_append, List.append_assoc] at hs
    refine ⟨'\'', _, ⟨hs, rfl⟩, c.toList, '\'' :: r, ⟨rfl, hne, ?_, ?_⟩, '\'', r,
      ⟨rfl, rfl⟩, ?_, rfl⟩
    · rintro d hd rfl
      exact hquote hd
    · rintro d ⟨⟩
      rfl
    · rw [String.ofList_toList]

/-- **A quoted constant is read**, whatever comes next. -/
lemma reads_quotedConstant :
    Reads quotedConstant (fun c ks => ks = [.quoted c]) fun _ => True := by
  refine Reads.of_token (fun h => ?_) fun hc _ _ hs => quotedConstant_eq_ok.mpr ⟨hc, hs⟩
  obtain ⟨hc, hs⟩ := quotedConstant_eq_ok.mp h
  exact ⟨hc, hs, trivial⟩

lemma digits_eq_ok {ds : List Char} : digits s = .ok (ds, r) ↔
    s = ds ++ r ∧ IsDigits ds ∧ ∀ c ∈ r.head?, c.isDigit = false := by
  rw [digits, span1_eq_ok, IsDigits, and_assoc]

/-- A fraction is a point and all the digits behind it. -/
lemma fraction_eq_ok {cs : List Char} : fraction s = .ok (cs, r) ↔
    ∃ ds, IsDigits ds ∧ cs = '.' :: ds ∧ s = cs ++ r ∧ ∀ c ∈ r.head?, c.isDigit = false := by
  simp only [fraction, bind_eq_ok, pure_eq_ok, char, oneOf_eq_ok, digits_eq_ok, beq_iff_eq]
  constructor
  · rintro ⟨_, s', ⟨rfl, rfl⟩, ds, s'', ⟨rfl, hds, hend⟩, rfl, rfl⟩
    exact ⟨ds, hds, rfl, rfl, hend⟩
  · rintro ⟨ds, hds, rfl, rfl, hend⟩
    exact ⟨'.', ds ++ r, ⟨rfl, rfl⟩, ds, r, ⟨rfl, hds, hend⟩, rfl, rfl⟩

/-- A fraction can be read where there is a point with a digit behind it. -/
lemma exists_fraction_iff : (∃ out, fraction s = .ok out) ↔
    ∃ d r, s = '.' :: d :: r ∧ d.isDigit = true := by
  constructor
  · rintro ⟨⟨cs, r⟩, h⟩
    obtain ⟨ds, ⟨hne, hds⟩, rfl, rfl, -⟩ := fraction_eq_ok.mp h
    obtain ⟨d, ds, rfl⟩ := List.exists_cons_of_ne_nil hne
    exact ⟨d, ds ++ r, rfl, hds d List.mem_cons_self⟩
  · rintro ⟨d, r, rfl, hd⟩
    obtain ⟨hsplit, hdigits, hend⟩ := (takeWhile_dropWhile_iff (s := d :: r)).mp ⟨rfl, rfl⟩
    refine ⟨_, fraction_eq_ok.mpr ⟨_, ⟨?_, hdigits⟩, rfl, congrArg ('.' :: ·) hsplit, hend⟩⟩
    rw [List.takeWhile_cons_of_pos hd]
    exact List.cons_ne_nil _ _

/-- A fraction is left out only where no digit stands behind a point. -/
lemma optional_fraction_eq_ok {o : Option (List Char)} : optional fraction s = .ok (o, r) ↔
    (∃ ds, IsDigits ds ∧ o = some ('.' :: ds) ∧ s = '.' :: ds ++ r ∧
      ∀ c ∈ r.head?, c.isDigit = false) ∨
    o = none ∧ r = s ∧ ¬∃ d r, s = '.' :: d :: r ∧ d.isDigit = true := by
  rw [optional_eq_ok, ← exists_fraction_iff, not_exists]
  refine or_congr_left ⟨?_, ?_⟩
  · rintro ⟨cs, rfl, h⟩
    obtain ⟨ds, hds, rfl, hs, hend⟩ := fraction_eq_ok.mp h
    exact ⟨ds, hds, rfl, hs, hend⟩
  · rintro ⟨ds, hds, rfl, hs, hend⟩
    exact ⟨_, rfl, fraction_eq_ok.mpr ⟨ds, hds, rfl, hs, hend⟩⟩

/-- A sign is left out only where there is none. -/
lemma optional_sign_eq_ok {o : Option Char} : optional (char '-') s = .ok (o, r) ↔
    s = o.toList ++ r ∧ (o = some '-' ∨ o = none ∧ r.head? ≠ some '-') := by
  simp only [optional_eq_ok, char, oneOf_eq_ok, beq_iff_eq]
  constructor
  · rintro (⟨_, rfl, rfl, rfl⟩ | ⟨rfl, rfl, hfail⟩)
    · exact ⟨rfl, Or.inl rfl⟩
    · refine ⟨rfl, Or.inr ⟨rfl, fun hhead => ?_⟩⟩
      obtain ⟨r', rfl⟩ := List.head?_eq_some_iff.mp hhead
      exact hfail _ (oneOf_eq_ok.mpr ⟨rfl, beq_self_eq_true '-'⟩)
  · rintro ⟨rfl, rfl | ⟨rfl, hhead⟩⟩
    · exact Or.inl ⟨'-', rfl, rfl, rfl⟩
    · refine Or.inr ⟨rfl, rfl, fun ⟨d, r'⟩ hd => hhead ?_⟩
      obtain ⟨hr, hdash⟩ := oneOf_eq_ok.mp hd
      rw [show r = d :: r' from hr, beq_iff_eq.mp hdash]
      rfl

/-- A number without a fraction has no point. -/
lemma not_mem_of_sign_append {o : Option Char} {whole : List Char}
    (ho : o = some '-' ∨ o = none) (hwhole : IsDigits whole) : '.' ∉ o.toList ++ whole := by
  intro hpoint
  rcases List.mem_append.mp hpoint with hsign | hdigit
  · rcases ho with rfl | rfl <;> exact absurd hsign (by decide)
  · exact absurd (hwhole.2 _ hdigit) (by decide)

/-- What is read as a number is one, and there is no fraction left behind it. -/
lemma layout_of_number (h : number s = .ok (c, r)) : IsNumber c.toList ∧
    s.dropWhile Text.isBlank = c.toList ++ r ∧ (Token.number c).KeepsOff r := by
  simp only [number, token_eq, bind_eq_ok, pure_eq_ok, optional_sign_eq_ok, digits_eq_ok,
    optional_fraction_eq_ok] at h
  obtain ⟨sign, s₁, ⟨hs, hsign⟩, whole, s₂, ⟨rfl, hwhole, -⟩, o, s₃, hfraction, rfl, rfl⟩ := h
  have hsign' : sign.toList = [] ∨ sign.toList = ['-'] := by
    rcases hsign with rfl | ⟨rfl, -⟩
    · exact Or.inr rfl
    · exact Or.inl rfl
  rw [Token.KeepsOff, String.toList_ofList, hs]
  rcases hfraction with ⟨ds, hds, rfl, rfl, -⟩ | ⟨rfl, rfl, hnone⟩
  · refine ⟨⟨_, _, _, rfl, hsign', hwhole, Or.inr ⟨ds, hds, rfl⟩⟩, ?_, fun hpoint => ?_⟩
    · simp only [Option.getD_some, List.append_assoc]
    · exact absurd (List.mem_append_right _ List.mem_cons_self) hpoint
  · refine ⟨⟨_, _, _, rfl, hsign', hwhole, Or.inl rfl⟩, ?_, fun _ => hnone⟩
    simp only [Option.getD_none, List.append_nil, List.append_assoc]

/-- A number is read if it cannot go on. -/
lemma number_of_layout (hc : IsNumber c.toList) (hs : s.dropWhile Text.isBlank = c.toList ++ r)
    (hoff : (Token.number c).KeepsOff r) (hr : NotInName r.head?) : number s = .ok (c, r) := by
  obtain ⟨sign, whole, frac, htext, hsign, hwhole, hfraction⟩ := hc
  -- the sign, which is the one character that can be read as such
  obtain ⟨o, rfl, ho⟩ : ∃ o : Option Char, o.toList = sign ∧
      (o = some '-' ∨ o = none ∧ (whole ++ (frac ++ r)).head? ≠ some '-') := by
    rcases hsign with rfl | rfl
    · obtain ⟨d, ds, rfl⟩ := List.exists_cons_of_ne_nil hwhole.1
      refine ⟨none, rfl, Or.inr ⟨rfl, fun hdash => ?_⟩⟩
      obtain rfl := Option.some.inj hdash
      exact absurd (hwhole.2 '-' List.mem_cons_self) (by decide)
    · exact ⟨some '-', rfl, Or.inl rfl⟩
  have hsplit : s.dropWhile Text.isBlank = o.toList ++ (whole ++ (frac ++ r)) := by
    rw [hs, htext, List.append_assoc, List.append_assoc]
  simp only [number, token_eq, bind_eq_ok, pure_eq_ok, optional_sign_eq_ok, digits_eq_ok,
    optional_fraction_eq_ok]
  refine ⟨o, _, ⟨hsplit, ho⟩, whole, frac ++ r, ⟨rfl, hwhole, ?_⟩, ?_⟩
  · rcases hfraction with rfl | ⟨ds, -, rfl⟩
    · exact hr.isDigit
    · rintro d ⟨⟩
      rfl
  · rcases hfraction with rfl | ⟨ds, hds, rfl⟩
    · have hpoint : '.' ∉ c.toList := by
        rw [htext, List.append_nil]
        exact not_mem_of_sign_append (ho.imp_right And.left) hwhole
      refine ⟨none, r, Or.inr ⟨rfl, rfl, hoff hpoint⟩, ?_, rfl⟩
      rw [Option.getD_none, ← htext, String.ofList_toList]
    · refine ⟨some ('.' :: ds), r, Or.inl ⟨ds, hds, rfl, rfl, hr.isDigit⟩, ?_, rfl⟩
      rw [Option.getD_some, ← htext, String.ofList_toList]

/-- **A number is read** if what comes next does not make it longer. -/
lemma reads_number : Reads number (fun c ks => ks = [.number c]) NotInName :=
  Reads.of_token layout_of_number fun hc hoff hr hs => number_of_layout hc hs hoff hr.head?

/-! ### Comparisons -/

/-- How a comparison may be written. -/
def spellings (op : Comparison) : List String :=
  if op = .ne then ["<>", "!="] else [op.symbol]

/-- The spellings of comparisons are words, none of which needs blanks behind it. -/
lemma mem_words_of_mem_spellings {op : Comparison} {w : String} (hw : w ∈ spellings op) :
    w ∈ Token.words ∧ w ≠ "not" := by
  have hall : ∀ w ∈ spellings op, w ∈ Token.words ∧ w ≠ "not" := by cases op <;> decide
  exact hall w hw

lemma spelled_eq_ok {w : String} {op op' : Comparison} : spelled w op s = .ok (op', r) ↔
    op' = op ∧ s = w.toList ++ r := by
  rw [spelled, map_eq_ok]
  simp only [word_eq_ok]
  exact ⟨fun ⟨_, ⟨_, hs⟩, hop⟩ => ⟨hop, hs⟩, fun ⟨hop, hs⟩ => ⟨w, ⟨rfl, hs⟩, hop⟩⟩

/-- **A comparison is read**, unless what comes next makes it longer. -/
lemma reads_comparison : Reads comparison (fun op ks => ∃ w ∈ spellings op, ks = [.word w])
    fun c => c ≠ some '=' ∧ c ≠ some '>' := by
  refine (Reads.of_tokens (T := fun op k => ∃ w ∈ spellings op, k = .word w)
    (fun {s r op} h => ?_) ?_).congr fun op ks => ?_
  · have hspelled : ∃ w ∈ spellings op, s.dropWhile Text.isBlank = w.toList ++ r := by
      simp only [comparison, token_eq, firstOf_cons, firstOf_singleton, spelled_eq_ok] at h
      rcases h with ⟨rfl, hs⟩ | ⟨-, ⟨rfl, hs⟩ | ⟨-, ⟨rfl, hs⟩ | ⟨-, ⟨rfl, hs⟩ | ⟨-, ⟨rfl, hs⟩ |
        ⟨-, ⟨rfl, hs⟩ | ⟨-, rfl, hs⟩⟩⟩⟩⟩⟩ <;> exact ⟨_, by decide, hs⟩
    obtain ⟨w, hw, hs⟩ := hspelled
    obtain ⟨hwords, hnot⟩ := mem_words_of_mem_spellings hw
    exact ⟨_, ⟨w, hw, rfl⟩, hwords, hs, fun he => absurd he hnot⟩
  · rintro k s r op ⟨w, hw, rfl⟩ - - ⟨heq, hgt⟩ hs
    -- behind `<` and `>`, what could make a longer spelling
    have heq' : ∀ t, r ≠ '=' :: t := by
      rintro t rfl
      exact heq rfl
    have hgt' : ∀ t, r ≠ '>' :: t := by
      rintro t rfl
      exact hgt rfl
    rw [comparison, token_eq, hs]
    cases op with
    | ne =>
        rcases List.mem_pair.mp hw with rfl | rfl <;>
          simp [firstOf_cons, firstOf_singleton, Prod.forall, spelled_eq_ok, Token.text]
    | _ =>
        obtain rfl := List.mem_singleton.mp hw
        simp [firstOf_cons, firstOf_singleton, Prod.forall, spelled_eq_ok, Token.text,
          Comparison.symbol, heq', hgt']
  · exact ⟨fun ⟨w, hw, hks⟩ => ⟨_, ⟨w, hw, rfl⟩, hks⟩,
      fun ⟨_, ⟨w, hw, hk⟩, hks⟩ => ⟨w, hw, hk ▸ hks⟩⟩

/-! ### Truth values -/

lemma goesOn_of_isBlank {d : Char} (h : Text.isBlank d = true) : goesOn d = false := by
  rcases isBlank_iff.mp h with rfl | rfl | rfl | rfl <;> decide

/-- The two truth values are told apart by the words for them. -/
lemma truthWord_eq_ok {b : Bool} :
    firstOf [(fun _ => true) <$> word "true", (fun _ => false) <$> word "false"] s = .ok (b, r) ↔
      s = (truthName b).toList ++ r := by
  simp only [firstOf_cons, firstOf_singleton, map_eq_ok, word_eq_ok, Prod.forall]
  constructor
  · rintro (⟨_, ⟨-, hs⟩, rfl⟩ | ⟨-, _, ⟨-, hs⟩, rfl⟩)
    · exact hs
    · exact hs
  · rintro rfl
    cases b with
    | true => exact Or.inl ⟨_, ⟨rfl, rfl⟩, rfl⟩
    | false => exact Or.inr ⟨by simp [map_eq_ok, word_eq_ok, truthName], _, ⟨rfl, rfl⟩, rfl⟩

/-- Nothing goes on iff the next character, if any, does not. -/
lemma notFollowedBy_goesOn_eq_ok {u : Unit} : notFollowedBy (charOf goesOn) s = .ok (u, r) ↔
    r = s ∧ ∀ d ∈ s.head?, goesOn d = false := by
  rw [notFollowedBy_eq_ok]
  refine and_congr_right fun _ => ⟨fun h d hd => ?_, fun h ⟨d, s'⟩ hd => ?_⟩
  · obtain ⟨s', rfl⟩ := List.head?_eq_some_iff.mp hd
    by_contra hgoes
    rw [Bool.not_eq_false] at hgoes
    exact h (d, s') (oneOf_eq_ok.mpr ⟨rfl, hgoes⟩)
  · obtain ⟨rfl, hgoes⟩ := oneOf_eq_ok.mp hd
    exact absurd hgoes (by rw [h d rfl]; exact Bool.false_ne_true)

/-- **A truth value is read**, unless it goes on as a name or as an atom. -/
lemma reads_truthValue : Reads truthValue (fun b ks => ks = [.word (truthName b)])
    fun c => ∀ d ∈ c, goesOn d = false := by
  refine Reads.of_token (fun {s r b} h => ?_) fun {s r b} _ _ hr hs => ?_
  · simp only [truthValue, token_eq, bind_eq_ok, pure_eq_ok, truthWord_eq_ok,
      notFollowedBy_goesOn_eq_ok] at h
    obtain ⟨_, s', hs, _, _, ⟨rfl, -⟩, rfl, rfl⟩ := h
    have hword : truthName b ∈ Token.words ∧ truthName b ≠ "not" := by cases b <;> decide
    exact ⟨hword.1, hs, fun he => absurd he hword.2⟩
  · have hend : ∀ d ∈ r.head?, goesOn d = false := head?_of_next? (fun _ => goesOn_of_isBlank) hr
    simp only [truthValue, token_eq, bind_eq_ok, pure_eq_ok, truthWord_eq_ok,
      notFollowedBy_goesOn_eq_ok]
    exact ⟨b, r, hs, (), r, ⟨rfl, hend⟩, rfl, rfl⟩

end DependencyTheory.Source
