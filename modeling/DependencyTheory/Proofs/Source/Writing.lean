/-
Programs in the form in which they are written:

* `Atom.render`, `Literal.render`, `Statement.render`, `programText`: the written form of what is
  read;
* `Prints`, `Writes`: whether a text may be put in front of a layout, and whether the written
  form of all values of a kind may;
* `Scan.Passes`: whether no comment starts in a text, nor a constant that is not closed;
* `readAll_programText`: **what is written is read back**.
-/
import DependencyTheory.Proofs.Source.Program
import DependencyTheory.Rendering
import DependencyTheory.Source.Resolution

namespace DependencyTheory.Source

/-! ### The written form -/

/-- A predicate name in front of its terms. -/
def Atom.render (a : Atom) : String :=
  a.predicate ++ "(" ++ DependencyTheory.Term.renderList a.terms ++ ")"

/-- A denied atom has a `not` in front. -/
def Literal.render : Literal → String
  | atom true a => a.render
  | atom false a => "not " ++ a.render
  | comparison op left right => (BuiltIn.comparison op left right).render
  | truth value => (BuiltIn.truth value).render

/-- Atoms separated by commas, or two terms with an equality sign in between. -/
def Head.render : Head → String
  | atoms as => Text.commaSeparated (as.map Atom.render)
  | equality left right => (BuiltIn.comparison .eq left right).render

/-- A statement without its full stop. -/
def Statement.render : Statement → String
  | rule head body => head.render ++ " :- " ++ Text.commaSeparated (body.map Literal.render)
  | dependency body head => Text.commaSeparated (body.map Literal.render) ++ " -> " ++ head.render

/-- Statements on lines of their own, each closed by a full stop. -/
def programText (sts : List Statement) : String :=
  String.join (sts.map fun st => st.render ++ ".\n")

/-! ### Printing -/

variable {α : Type} {cs cs' s r : List Char} {k : Token} {ks ks' : List Token} {w : String}
  {P : α → Prop} {G : α → List Token → Prop} {f : α → String}

/-- Whether a text is a layout of some tokens, whatever is laid out behind it. -/
def Prints (cs : List Char) (ks : List Token) : Prop :=
  ∀ ⦃ks' s r⦄, Layout ks' s r → Layout (ks ++ ks') (cs ++ s) r

lemma Prints.append (h : Prints cs ks) (h' : Prints cs' ks') : Prints (cs ++ cs') (ks ++ ks') := by
  intro ks'' s r hs
  rw [List.append_assoc, List.append_assoc]
  exact h (h' hs)

lemma Prints.token (hk : k.Plain) : Prints k.text [k] := fun _ s _ hs =>
  .token (fun _ hc => absurd hc List.not_mem_nil) hk.1 (hk.2 s) hs

/-- A blank may be in front of a token. -/
lemma Prints.blank (h : Prints cs (k :: ks)) : Prints (' ' :: cs) (k :: ks) := by
  intro ks' s r hs
  rw [List.cons_append, List.cons_append, ← Layout.dropWhile_iff, List.dropWhile_cons_of_pos rfl,
    Layout.dropWhile_iff]
  exact h hs

/-- Behind any word, even behind `not`, there may be a blank. -/
lemma Prints.word_blank (hw : w ∈ Token.words) (h : Prints cs (k :: ks)) :
    Prints (w.toList ++ ' ' :: cs) (.word w :: k :: ks) := by
  intro ks' s r hs
  rw [List.append_assoc]
  exact .token (fun _ hc => absurd hc List.not_mem_nil) hw
    (fun _ => ⟨' ', cs ++ s, rfl, rfl⟩) (h.blank hs)

/-- Whether values of some kind are printed as tokens that spell them, of which there is one at
least. -/
def Writes (P : α → Prop) (G : α → List Token → Prop) (f : α → String) : Prop :=
  ∀ a, P a → ∃ k ks, G a (k :: ks) ∧ Prints (f a).toList (k :: ks)

/-- Commas stand between the members of a list. -/
lemma Writes.listed (h : Writes P G f) :
    Writes (IsListOf P) (Listed G) fun as => Text.commaSeparated (as.map f) := by
  rintro as ⟨hne, has⟩
  induction as with
  | nil => exact absurd rfl hne
  | cons a as ih =>
      obtain ⟨k, ks, hG, hks⟩ := h a (has a List.mem_cons_self)
      rcases as with _ | ⟨a', as⟩
      · exact ⟨k, ks, .one hG, by simpa [Text.commaSeparated] using hks⟩
      · obtain ⟨k', ks', hmore, hks'⟩ := ih (List.cons_ne_nil a' as)
          fun b hb => has b (List.mem_cons_of_mem a hb)
        refine ⟨k, ks ++ .word "," :: k' :: ks', .more hG hmore, ?_⟩
        have hcomma := hks.append (hks'.word_blank (w := ",") (by decide))
        simpa [Text.commaSeparated, String.intercalate_cons_cons, String.toList_append]
          using hcomma

/-- A word between two others, with blanks around it. -/
lemma Prints.between (h : Prints cs ks) (hw : w ∈ Token.words) (h' : Prints cs' (k :: ks')) :
    Prints (cs ++ ' ' :: (w.toList ++ ' ' :: cs')) (ks ++ .word w :: k :: ks') :=
  h.append (h'.word_blank hw).blank

/-! ### Values -/

lemma writes_term : Writes IsTerm SpellsTerm DependencyTheory.Term.render := by
  intro t ht
  cases t with
  | var x => exact ⟨_, [], .name x, .token (Token.plain_name ht)⟩
  | const c =>
      refine ⟨_, [], .quoted c, ?_⟩
      have hquoted : Prints (Token.quoted c).text [.quoted c] := .token ⟨ht, fun _ => trivial⟩
      simpa [DependencyTheory.Term.render, String.toList_append, Token.text] using hquoted

lemma writes_atom : Writes IsAtom SpellsAtom Atom.render := by
  rintro ⟨p, terms⟩ ⟨hname, hterms⟩
  have hword : ∀ w ∈ ["(", ")"], Prints w.toList [.word w] := by
    intro w hw
    have hplain : (Token.word w).Plain := by
      rcases List.mem_pair.mp hw with rfl | rfl <;> exact Token.plain_word (by decide) (by decide)
    exact .token hplain
  have hlist : ∃ ks, (terms = [] ∧ ks = [] ∨ Listed SpellsTerm terms ks) ∧
      Prints (DependencyTheory.Term.renderList terms).toList ks := by
    by_cases hne : terms = []
    · obtain rfl := hne
      exact ⟨[], Or.inl ⟨rfl, rfl⟩, fun _ _ _ hs => hs⟩
    · obtain ⟨k, ks, hlisted, hks⟩ := writes_term.listed terms ⟨hne, hterms⟩
      exact ⟨k :: ks, Or.inr hlisted, hks⟩
  obtain ⟨ks, hspells, hks⟩ := hlist
  refine ⟨_, _, .mk hspells, ?_⟩
  have hatom := (Prints.token (Token.plain_name hname)).append
    ((hword "(" (by simp)).append (hks.append (hword ")" (by simp))))
  simpa [Atom.render, String.toList_append, Token.text] using hatom

lemma writes_comparison (op : Comparison) {left right : DependencyTheory.Term}
    (hleft : IsTerm left) (hright : IsTerm right) : ∃ k ks k' ks', SpellsTerm left (k :: ks) ∧
      SpellsTerm right (k' :: ks') ∧
      Prints (BuiltIn.comparison op left right).render.toList
        (k :: (ks ++ .word op.symbol :: k' :: ks')) := by
  obtain ⟨k, ks, hl, hks⟩ := writes_term left hleft
  obtain ⟨k', ks', hr, hks'⟩ := writes_term right hright
  have hspelling : op.symbol ∈ spellings op := by cases op <;> decide
  have hword := (mem_words_of_mem_spellings hspelling).1
  refine ⟨k, ks, k', ks', hl, hr, ?_⟩
  simpa [BuiltIn.render, String.toList_append] using hks.between hword hks'

lemma writes_literal : Writes IsLiteral SpellsLiteral Literal.render := by
  intro l hl
  cases l with
  | atom positive a =>
      obtain ⟨k, ks, ha, hks⟩ := writes_atom a hl
      cases positive with
      | true => exact ⟨k, ks, .affirmed ha, hks⟩
      | false =>
          refine ⟨_, k :: ks, .denied (Or.inr rfl) ha, ?_⟩
          simpa [Literal.render, String.toList_append] using hks.word_blank (w := "not") (by decide)
  | comparison op left right =>
      obtain ⟨k, ks, k', ks', hleft, hright, hks⟩ := writes_comparison op hl.1 hl.2
      have hspelling : op.symbol ∈ spellings op := by cases op <;> decide
      exact ⟨k, _, .compared hleft hspelling hright, hks⟩
  | truth b =>
      have hword : truthName b ∈ Token.words ∧ truthName b ≠ "not" := by cases b <;> decide
      exact ⟨_, [], .truth b, .token (Token.plain_word hword.1 hword.2)⟩

lemma writes_head : Writes IsHead SpellsHead Head.render := by
  intro h hh
  cases h with
  | atoms as =>
      obtain ⟨k, ks, has, hks⟩ := writes_atom.listed as hh
      exact ⟨k, ks, .atoms has, hks⟩
  | equality left right =>
      obtain ⟨k, ks, k', ks', hleft, hright, hks⟩ := writes_comparison .eq hh.1 hh.2
      exact ⟨k, _, .equality hleft hright, hks⟩

lemma writes_statement :
    Writes IsStatement SpellsStatement fun st => st.render ++ "." := by
  have hstop : Prints ".".toList [.word "."] :=
    .token (Token.plain_word (by decide) (by decide))
  intro st hst
  cases st with
  | rule head body =>
      obtain ⟨k, ks, hhead, hks⟩ := writes_atom head hst.1
      obtain ⟨k', ks', hbody, hks'⟩ := writes_literal.listed body hst.2
      refine ⟨k, _, .rule hhead hbody, ?_⟩
      have hrule := (hks.between (w := ":-") (by decide) hks').append hstop
      simpa [Statement.render, String.toList_append] using hrule
  | dependency body head =>
      obtain ⟨k, ks, hbody, hks⟩ := writes_literal.listed body hst.1
      obtain ⟨k', ks', hhead, hks'⟩ := writes_head head hst.2
      refine ⟨k, _, .dependency hbody hhead, ?_⟩
      have hdependency := (hks.between (w := "->") (by decide) hks').append hstop
      simpa [Statement.render, String.toList_append] using hdependency

/-- A program is a layout of its statements, up to the end of the last line. -/
lemma layout_programText {sts : List Statement} (h : ∀ st ∈ sts, IsStatement st) :
    ∃ ks rest, InTurn SpellsStatement sts ks ∧ Layout ks (programText sts).toList rest ∧
      ∀ c ∈ rest, Text.isBlank c = true := by
  induction sts with
  | nil => exact ⟨[], [], .nil, .done, fun _ hc => absurd hc List.not_mem_nil⟩
  | cons st sts ih =>
      obtain ⟨hst, hsts⟩ := List.forall_mem_cons.mp h
      obtain ⟨k, ks, hspells, hks⟩ := writes_statement st hst
      obtain ⟨ks', rest, hinturn, hks', hrest⟩ := ih hsts
      -- the line feed is in front of the next statement, or at the very end
      have hfeed : ∀ c ∈ ['\n'], Text.isBlank c = true := fun c hc => List.mem_singleton.mp hc ▸ rfl
      obtain ⟨rest', hline, hrest'⟩ := hks'.exists_behind_blanks hrest hfeed
      refine ⟨_, rest', .cons hspells hinturn, ?_, hrest'⟩
      simpa [programText, String.toList_append] using hks hline

/-! ### Comments -/

/-- Whether a text stays when comments are removed and leaves the scan outside of quotes and
comments, whatever comes behind it. -/
def Scan.Passes (cs : List Char) : Prop :=
  ∀ s, Scan.outside.kept (cs ++ s) = cs ++ Scan.outside.kept s

namespace Scan

lemma next_outside {c : Char} (h : c ≠ '#' ∧ c ≠ '\'') : outside.next c = outside := by
  rw [next] <;> simp [h.1, h.2]

lemma next_quoted {c : Char} (h : c ≠ '\'') : quoted.next c = quoted := by
  rw [next] <;> simp [h]

lemma next_comment {c : Char} (h : c ≠ '\n') : comment.next c = comment := by
  rw [next] <;> simp [h]

lemma Passes.append (h : Passes cs) (h' : Passes cs') : Passes (cs ++ cs') := by
  intro s
  rw [List.append_assoc, h, h', List.append_assoc]

/-- A text without number signs and quotes. -/
lemma passes_of_forall (h : ∀ c ∈ cs, c ≠ '#' ∧ c ≠ '\'') : Passes cs := by
  induction cs with
  | nil => exact fun _ => rfl
  | cons c cs ih =>
      obtain ⟨hc, hcs⟩ := List.forall_mem_cons.mp h
      intro s
      rw [List.cons_append, kept, next_outside hc, ih hcs, if_pos (by simp [keeps, hc.1]),
        List.cons_append]

lemma forall_ne_of_isBlank (h : ∀ c ∈ cs, Text.isBlank c = true) :
    ∀ c ∈ cs, c ≠ '#' ∧ c ≠ '\'' := by
  intro c hc
  rcases isBlank_iff.mp (h c hc) with rfl | rfl | rfl | rfl <;> decide

lemma passes_of_isBlank (h : ∀ c ∈ cs, Text.isBlank c = true) : Passes cs :=
  passes_of_forall (forall_ne_of_isBlank h)

/-- Between quotes, everything stays. -/
lemma passes_quoted (h : '\'' ∉ cs) : Passes ('\'' :: (cs ++ ['\''])) := by
  have hquoted : ∀ s, quoted.kept (cs ++ '\'' :: s) = cs ++ '\'' :: outside.kept s := by
    intro s
    induction cs with
    | nil => rfl
    | cons c cs ih =>
        rw [List.mem_cons, not_or] at h
        rw [List.cons_append, kept, next_quoted (Ne.symm h.1), ih h.2]
        rfl
  intro s
  show '\'' :: quoted.kept (cs ++ ['\''] ++ s) = _
  rw [List.append_assoc, List.singleton_append, hquoted, List.cons_append, List.append_assoc]
  rfl

end Scan

/-- Number signs and quotes are in constants between quotes only. -/
lemma Token.Valid.forall_ne (h : k.Valid) (hk : ∀ c, k ≠ .quoted c) :
    ∀ c ∈ k.text, c ≠ '#' ∧ c ≠ '\'' := by
  have hpart : ∀ {c}, Text.isNamePart c = true → c ≠ '#' ∧ c ≠ '\'' := by
    rintro c hc
    constructor <;>
      · rintro rfl
        exact absurd hc (by decide)
  have hdigits : ∀ {ds}, IsDigits ds → ∀ c ∈ ds, c ≠ '#' ∧ c ≠ '\'' := fun hds c hc =>
    hpart (isNamePart_of_isDigit (hds.2 c hc))
  cases k with
  | name x =>
      obtain ⟨c, rest, hx, hc, hrest⟩ := h
      rw [text, hx]
      exact List.forall_mem_cons.mpr
        ⟨hpart (Text.isNamePart_of_isNameStart hc), fun d hd => hpart (hrest d hd)⟩
  | quoted c => exact absurd rfl (hk c)
  | number c =>
      obtain ⟨sign, whole, fraction, hc, hsign, hwhole, hfraction⟩ := h
      rw [text, hc]
      refine List.forall_mem_append.mpr ⟨List.forall_mem_append.mpr ⟨?_, hdigits hwhole⟩, ?_⟩
      · rcases hsign with rfl | rfl <;> simp
      · rcases hfraction with rfl | ⟨ds, hds, rfl⟩
        · simp
        · exact List.forall_mem_cons.mpr ⟨by decide, hdigits hds⟩
  | word w =>
      have hall : ∀ w ∈ words, ∀ c ∈ w.toList, c ≠ '#' ∧ c ≠ '\'' := by
        simp [words]
      exact hall w h

/-- No token starts a comment or leaves a quote open. -/
lemma Token.Valid.passes (h : k.Valid) : Scan.Passes k.text := by
  by_cases hk : ∃ c, k = .quoted c
  · obtain ⟨c, rfl⟩ := hk
    exact Scan.passes_quoted h.2
  · exact Scan.passes_of_forall (h.forall_ne (not_exists.mp hk))

/-- **Comments are removed already** from what is laid out. -/
lemma Layout.exists_passes (h : Layout ks s r) : ∃ cs, s = cs ++ r ∧ Scan.Passes cs := by
  induction h with
  | done => exact ⟨[], rfl, fun _ => rfl⟩
  | token hblanks hk _ _ ih =>
      obtain ⟨cs, rfl, hcs⟩ := ih
      exact ⟨_ ++ cs, (List.append_assoc _ _ _).symm,
        ((Scan.passes_of_isBlank hblanks).append hk.passes).append hcs⟩

lemma withoutComments_of_layout (h : Layout ks s r) (hr : ∀ c ∈ r, Text.isBlank c = true) :
    withoutComments s = s := by
  obtain ⟨cs, rfl, hcs⟩ := h.exists_passes
  have hall := hcs.append (Scan.passes_of_isBlank hr) []
  rwa [List.append_nil, Scan.kept, List.append_nil] at hall

/-! ### Reading back -/

/-- **What is written is read back**, comments removed or not. -/
theorem readAll_programText {sts : List Statement} (h : ∀ st ∈ sts, IsStatement st) :
    readAll program (withoutComments (programText sts).toList) = .ok sts := by
  obtain ⟨ks, rest, hspells, hks, hrest⟩ := layout_programText h
  rw [withoutComments_of_layout hks hrest]
  exact reads_program.readAll_eq_ok.mpr ⟨ks, rest, hspells, hks, hrest⟩

/-- Statements that are read are well-formed. -/
lemma isStatement_of_readAll {cs : List Char} {sts : List Statement}
    (h : readAll program cs = .ok sts) : ∀ st ∈ sts, IsStatement st := by
  obtain ⟨ks, rest, hspells, hks, -⟩ := reads_program.readAll_eq_ok.mp h
  exact spellable_statement.inTurn.holds hspells hks.valid

end DependencyTheory.Source
