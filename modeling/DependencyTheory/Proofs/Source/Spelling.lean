/-
The tokens that spell the parts of a program:

* `SpellsTerm`, `SpellsAtom`, `SpellsLiteral`, `SpellsHead`, `SpellsStatement`: the grammar,
  as a relation between values and tokens;
* `reads_term`, `reads_atom`: terms and atoms are read where they are laid out.
-/
import DependencyTheory.Proofs.Source.Tokens

namespace DependencyTheory.Source

open Reader

variable {s r : List Char} {ks ks' : List Token} {x : String} {t : Term}

/-! ### Spelling -/

/-- Whether tokens spell a term. A constant may stand between quotes or, if it is a number,
without. -/
inductive SpellsTerm : Term → List Token → Prop
  | name (x : String) : SpellsTerm (.var x) [.name x]
  | quoted (c : String) : SpellsTerm (.const c) [.quoted c]
  | number (c : String) : SpellsTerm (.const c) [.number c]

/-- Whether tokens spell an atom: a name, and terms between parentheses. -/
inductive SpellsAtom : Atom → List Token → Prop
  | mk {p : String} {terms : List Term} {ks : List Token}
      (h : terms = [] ∧ ks = [] ∨ Listed SpellsTerm terms ks) :
      SpellsAtom ⟨p, terms⟩ (.name p :: .word "(" :: (ks ++ [.word ")"]))

/-- Whether tokens spell a condition. -/
inductive SpellsLiteral : Literal → List Token → Prop
  | denied {a : Atom} {w : String} {ks : List Token} (hw : w = "!" ∨ w = "not")
      (h : SpellsAtom a ks) : SpellsLiteral (.atom false a) (.word w :: ks)
  | affirmed {a : Atom} {ks : List Token} (h : SpellsAtom a ks) : SpellsLiteral (.atom true a) ks
  | compared {op : Comparison} {left right : Term} {w : String} {ks ks' : List Token}
      (hleft : SpellsTerm left ks) (hw : w ∈ spellings op) (hright : SpellsTerm right ks') :
      SpellsLiteral (.comparison op left right) (ks ++ .word w :: ks')
  | truth (b : Bool) : SpellsLiteral (.truth b) [.word (truthName b)]

/-- Whether tokens spell the head of a dependency. -/
inductive SpellsHead : Head → List Token → Prop
  | atoms {as : List Atom} {ks : List Token} (h : Listed SpellsAtom as ks) :
      SpellsHead (.atoms as) ks
  | equality {left right : Term} {ks ks' : List Token} (hleft : SpellsTerm left ks)
      (hright : SpellsTerm right ks') : SpellsHead (.equality left right) (ks ++ .word "=" :: ks')

/-- Whether tokens spell a statement. -/
inductive SpellsStatement : Statement → List Token → Prop
  | rule {head : Atom} {body : List Literal} {ks ks' : List Token} (hhead : SpellsAtom head ks)
      (hbody : Listed SpellsLiteral body ks') :
      SpellsStatement (.rule head body) (ks ++ .word ":-" :: ks' ++ [.word "."])
  | dependency {body : List Literal} {head : Head} {ks ks' : List Token}
      (hbody : Listed SpellsLiteral body ks) (hhead : SpellsHead head ks') :
      SpellsStatement (.dependency body head) (ks ++ .word "->" :: ks' ++ [.word "."])

/-! ### Terms -/

/-- Whether a term can start with a character. -/
def isTermStart (c : Char) : Bool := Text.isNameStart c || c == '\'' || c == '-' || c.isDigit

namespace Layout

/-- Where a name is laid out, a character comes next that starts one. -/
lemma next?_name (h : Layout (.name x :: ks) s r) :
    ∃ c, next? s = some c ∧ Text.isNameStart c = true := by
  obtain ⟨⟨c, rest, htext, hc, -⟩, -⟩ := cons_iff.mp h
  exact ⟨c, by rw [h.next?_eq, Token.text, htext]; rfl, hc⟩

lemma next?_number (h : Layout (.number x :: ks) s r) :
    ∃ c, next? s = some c ∧ (c = '-' ∨ c.isDigit = true) := by
  obtain ⟨c, rest, htext, hc⟩ := IsNumber.exists_first (cons_iff.mp h).1
  exact ⟨c, by rw [h.next?_eq, Token.text, htext]; rfl, hc⟩

end Layout

lemma isNameStart_of_number_start {c : Char} (h : c = '-' ∨ c.isDigit = true) :
    Text.isNameStart c = false := by
  rcases h with rfl | h
  · decide
  · exact isNameStart_of_isDigit h

/-- Where a term is laid out, a character comes next that starts one. -/
lemma SpellsTerm.next? (h : SpellsTerm t ks) (hks : Layout (ks ++ ks') s r) :
    ∃ c, next? s = some c ∧ isTermStart c = true := by
  cases h with
  | name x =>
      obtain ⟨c, hnext, hc⟩ := Layout.next?_name hks
      exact ⟨c, hnext, by simp [isTermStart, hc]⟩
  | quoted c => exact ⟨'\'', hks.next?_eq, rfl⟩
  | number c =>
      obtain ⟨d, hnext, rfl | hd⟩ := Layout.next?_number hks
      · exact ⟨'-', hnext, rfl⟩
      · exact ⟨d, hnext, by simp [isTermStart, hd]⟩

/-- **A term is read**, unless a character of a name comes next. -/
lemma reads_term : Reads term SpellsTerm NotInName := by
  have hconstant : Reads (firstOf [quotedConstant, number])
      (fun c ks => ks = [.quoted c] ∨ ks = [.number c]) NotInName := by
    refine Reads.orElse (reads_quotedConstant.mono fun _ _ => trivial) reads_number.single ?_
    rintro s r r' c c' _ hquoted rfl hks' -
    obtain ⟨_, rfl, hks⟩ := reads_quotedConstant.sound hquoted
    obtain ⟨d, hnext, hd⟩ := hks'.next?_number
    obtain rfl := Option.some.inj (hks.next?_eq.symm.trans hnext)
    exact absurd hd (by decide)
  refine (Reads.orElse (hconstant.map Term.const) (reads_name.map Term.var).single ?_).congr
    fun t ks => ?_
  · rintro s r r' t t' ks' hconst ⟨x, rfl, -⟩ hks' -
    obtain ⟨c, hnext, hc⟩ := hks'.next?_name
    obtain ⟨ks, ⟨c', rfl | rfl, -⟩, hks⟩ := (hconstant.map Term.const).sound hconst
    · obtain rfl := Option.some.inj (hks.next?_eq.symm.trans hnext)
      exact absurd hc (by decide)
    · obtain ⟨d, hnext', hd⟩ := hks.next?_number
      obtain rfl := Option.some.inj (hnext'.symm.trans hnext)
      exact absurd hc (by rw [isNameStart_of_number_start hd]; exact Bool.false_ne_true)
  · constructor
    · rintro (x | c | c)
      · exact Or.inr ⟨x, rfl, rfl⟩
      · exact Or.inl ⟨c, Or.inl rfl, rfl⟩
      · exact Or.inl ⟨c, Or.inr rfl, rfl⟩
    · rintro (⟨c, rfl | rfl, rfl⟩ | ⟨x, rfl, rfl⟩)
      · exact .quoted c
      · exact .number c
      · exact .name x

/-- No term is read where none can start. -/
lemma next?_of_term {c : Char} (h : term s = .ok (t, r)) (hnext : next? s = some c) :
    isTermStart c = true := by
  obtain ⟨ks, ht, hks⟩ := reads_term.sound h
  rw [← List.append_nil ks] at hks
  obtain ⟨d, hnext', hd⟩ := ht.next? hks
  rwa [Option.some.inj (hnext.symm.trans hnext')]

/-! ### Atoms -/

/-- A given character is read iff the text starts with it. -/
lemma char_eq_ok {c d : Char} : char c s = .ok (d, r) ↔ d = c ∧ s = c :: r := by
  rw [char, oneOf_eq_ok, beq_iff_eq]
  constructor
  · rintro ⟨rfl, rfl⟩
    exact ⟨rfl, rfl⟩
  · rintro ⟨rfl, rfl⟩
    exact ⟨rfl, rfl⟩

lemma reads_open : Reads (token (char '(')) (fun c ks => c = '(' ∧ ks = [.word "("])
    fun _ => True :=
  Reads.mark char_eq_ok (by decide) (by decide)

lemma reads_close : Reads (token (char ')')) (fun c ks => c = ')' ∧ ks = [.word ")"])
    fun _ => True :=
  Reads.mark char_eq_ok (by decide) (by decide)

lemma notInName_iff {c : Char} : NotInName (some c) ↔ Text.isNamePart c = false :=
  ⟨fun h => h c rfl, fun h _ hd => Option.some.inj hd ▸ h⟩

/-- **An atom is read** whatever comes next. -/
lemma reads_atom : Reads atom SpellsAtom fun _ => True := by
  have hterms : Reads (sepBy comma term)
      (fun terms ks => terms = [] ∧ ks = [] ∨ Listed SpellsTerm terms ks) (· = some ')') := by
    refine reads_term.sepBy (notInName_iff.mpr (by decide)) ?_ fun h hnext => ?_
    · rintro _ rfl
      exact ⟨notInName_iff.mpr (by decide), by decide⟩
    · exact absurd (next?_of_term h hnext) (by decide)
  refine (reads_name.bind (fun p => reads_open.mark_bind
    (hterms.bind_mark reads_close rfl (Atom.mk p))) ?_).congr fun a ks => ?_
  · rintro p a _ s r ⟨_, -, rfl⟩ h -
    rw [h.next?_eq]
    exact notInName_iff.mpr (by decide)
  · constructor
    · rintro ⟨h⟩
      exact ⟨_, _, _, rfl, ⟨_, ⟨_, _, h, rfl, rfl⟩, rfl⟩, rfl⟩
    · rintro ⟨p, _, _, rfl, ⟨_, ⟨terms, ks, h, rfl, rfl⟩, rfl⟩, rfl⟩
      exact .mk h

end DependencyTheory.Source
