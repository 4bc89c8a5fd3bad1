/-
The readers of statements and programs:

* `reads_body`, `reads_head`, `reads_statement`, `reads_program`: the parts of a program are
  read where they are laid out;
* `Reads.readAll_eq_ok`: a whole text is read as a value iff it is a layout of tokens that spell
  the value, with blanks at the end;
* `ended_program_eq_ok`: so this holds of programs, and they are those that are well-formed.
-/
import DependencyTheory.Proofs.Source.Literals
import DependencyTheory.Proofs.Source.WellFormed
import DependencyTheory.Source.Resolution

namespace DependencyTheory.Source

open Reader

variable {α : Type} {s r : List Char} {ks ks' : List Token} {w : String} {a : Atom}

/-! ### Whole texts -/

/-- **A text is read to its end** iff it is a layout, with blanks at the end. -/
lemma Reads.readAll_eq_ok {p : Reader α} {G : α → List Token → Prop} {a : α}
    (h : Reads p G (· = none)) : readAll p s = .ok a ↔
      ∃ ks rest, G a ks ∧ Layout ks s rest ∧ ∀ c ∈ rest, Text.isBlank c = true := by
  rw [← h.ended, readAll]
  split
  · next b r hread =>
      obtain ⟨rfl, -⟩ := Reader.ended_eq_ok.mp hread
      simp [hread]
  · next e hread => simp [hread]

/-! ### Bodies and heads -/

/-- **A body is read** where no further literal may come. -/
lemma reads_body : Reads body (Listed SpellsLiteral) fun c => EndsLiteral c ∧ c ≠ some ',' :=
  reads_literal.sepBy1 (Or.inr (Or.inl rfl))

/-- The first of some items is laid out before a comma or before what comes behind them. -/
lemma Listed.exists_first {G : α → List Token → Prop} {as : List α} (h : Listed G as ks)
    (hks : Layout (ks ++ ks') s r) : ∃ a ks₁ s', G a ks₁ ∧ Layout ks₁ s s' ∧
      (next? s' = some ',' ∨ Layout ks' s' r) := by
  obtain ⟨s', hlist, hrest⟩ := Layout.append_iff.mp hks
  cases h with
  | one h => exact ⟨_, _, s', h, hlist, Or.inr hrest⟩
  | more h _ =>
      obtain ⟨s₁, hfirst, hmore⟩ := Layout.append_iff.mp hlist
      exact ⟨_, _, s₁, h, hfirst, Or.inl hmore.next?_eq⟩

lemma reads_equality : Reads equality
    (fun h ks => ∃ left right ks₁ ks₂, SpellsTerm left ks₁ ∧ SpellsTerm right ks₂ ∧
      h = .equality left right ∧ ks = ks₁ ++ .word "=" :: ks₂) NotInName :=
  reads_term.bind_mark_bind (Reads.word (w := "=") (by decide) (by decide)) reads_term
    (notInName_iff.mpr (by decide)) Head.equality

/-- **A head is read** before a full stop. -/
lemma reads_head : Reads head SpellsHead (· = some '.') := by
  have hatoms : Reads (Head.atoms <$> sepBy1 comma atom)
      (fun h ks => ∃ as, Listed SpellsAtom as ks ∧ h = .atoms as) (· = some '.') := by
    refine ((reads_atom.sepBy1 trivial).mono ?_).map Head.atoms
    rintro _ rfl
    exact ⟨trivial, by decide⟩
  have hequality : Reads equality _ (· = some '.') := reads_equality.mono fun c hc => by
    rw [hc]
    exact notInName_iff.mpr (by decide)
  refine (hatoms.orElse hequality.single ?_).congr fun h ks => ?_
  · rintro s r r' h h' _ hread ⟨left, right, ks₁, ks₂, hleft, -, -, rfl⟩ hks' -
    obtain ⟨ks, ⟨as, has, -⟩, hks⟩ := hatoms.sound hread
    rw [← List.append_nil ks] at hks
    obtain ⟨a, ks', s', ha, hfirst, -⟩ := has.exists_first hks
    have hkind := kindOf_affirmed ha hfirst
    rw [kindOf_compared hleft hks' ⟨'=', by decide, rfl⟩] at hkind
    cases hkind
  · constructor
    · rintro (h | ⟨hleft, hright⟩)
      · exact Or.inl ⟨_, h, rfl⟩
      · exact Or.inr ⟨_, _, _, _, hleft, hright, rfl, rfl⟩
    · rintro (⟨as, h, rfl⟩ | ⟨left, right, ks₁, ks₂, hleft, hright, rfl, rfl⟩)
      · exact .atoms h
      · exact .equality hleft hright

/-! ### Statements -/

/-- **A rule is read** before a full stop, its head up to the turnstile. -/
lemma reads_rule : Reads rule
    (fun st ks => ∃ head body ks₁ ks₂, SpellsAtom head ks₁ ∧ Listed SpellsLiteral body ks₂ ∧
      st = .rule head body ∧ ks = ks₁ ++ .word ":-" :: ks₂) (· = some '.') := by
  refine (reads_atom.bind_mark_bind (Reads.word (w := ":-") (by decide) (by decide)) reads_body
    trivial Statement.rule).mono ?_
  rintro _ rfl
  exact ⟨by simp [EndsLiteral], by decide⟩

/-- **A dependency is read** before a full stop, its body up to the arrow. -/
lemma reads_dependency : Reads dependency
    (fun st ks => ∃ body head ks₁ ks₂, Listed SpellsLiteral body ks₁ ∧ SpellsHead head ks₂ ∧
      st = .dependency body head ∧ ks = ks₁ ++ .word "->" :: ks₂) (· = some '.') :=
  reads_body.bind_mark_bind (Reads.word (w := "->") (by decide) (by decide)) reads_head
    ⟨by simp [EndsLiteral], by decide⟩ Statement.dependency

/-- No rule is read where a dependency is laid out: its body may start with an atom, but there
is no turnstile behind it. -/
lemma rule_ne_ok {body : List Literal} {st : Statement} {r' : List Char}
    (hbody : Listed SpellsLiteral body ks) (hks : Layout (ks ++ .word "->" :: ks') s r) :
    rule s ≠ .ok (st, r') := by
  intro hrule
  obtain ⟨_, ⟨head, body', ks₁, ks₂, hhead, -, -, rfl⟩, hrest⟩ := reads_rule.sound hrule
  obtain ⟨s₁, hatom, hturnstile⟩ := Layout.append_iff.mp hrest
  obtain ⟨l, ks₃, s₂, hl, hfirst, hnext⟩ := hbody.exists_first hks
  replace hnext : next? s₂ = some ',' ∨ next? s₂ = some '-' := hnext.imp_right Layout.next?_eq
  have hkind : kindOf s = kind l :=
    kindOf_of_spells hl hfirst fun _ => hnext.elim (fun h => Or.inr (Or.inl h))
      fun h => Or.inr (Or.inr (Or.inl h))
  rw [kindOf_affirmed hhead hatom] at hkind
  cases hl with
  | affirmed h =>
      have hsame := (reads_atom.complete hhead hatom trivial).symm.trans
        (reads_atom.complete h hfirst trivial)
      obtain ⟨rfl, rfl⟩ := Prod.mk.inj (Except.ok.inj hsame)
      rcases hnext with hnext | hnext <;>
        exact absurd (hturnstile.next?_eq.symm.trans hnext) (by decide)
  | _ => cases hkind

lemma reads_fullStop :
    Reads fullStop (fun w ks => w = "." ∧ ks = [.word "."]) fun _ => True := by
  refine Reads.mark (fun {s r w} => ?_) (by decide) (by decide)
  rw [map_eq_ok]
  constructor
  · rintro ⟨c, hc, rfl⟩
    obtain ⟨rfl, rfl⟩ := char_eq_ok.mp hc
    exact ⟨rfl, rfl⟩
  · rintro ⟨rfl, rfl⟩
    exact ⟨'.', char_eq_ok.mpr ⟨rfl, rfl⟩, rfl⟩

/-- **A statement is read** whatever comes next. -/
theorem reads_statement : Reads statement SpellsStatement fun _ => True := by
  have hchoice := reads_rule.orElse reads_dependency.single
    fun hrule ⟨_, _, _, _, hbody, _, _, he⟩ hks _ => rule_ne_ok hbody (he ▸ hks) hrule
  refine (hchoice.bind_mark reads_fullStop rfl fun st => st).congr fun st ks => ?_
  constructor
  · rintro (⟨hhead, hbody⟩ | ⟨hbody, hhead⟩)
    · exact ⟨_, _, Or.inl ⟨_, _, _, _, hhead, hbody, rfl, rfl⟩, rfl, rfl⟩
    · exact ⟨_, _, Or.inr ⟨_, _, _, _, hbody, hhead, rfl, rfl⟩, rfl, rfl⟩
  · rintro ⟨_, _, ⟨head, body, ks₁, ks₂, hhead, hbody, rfl, rfl⟩ |
      ⟨body, head, ks₁, ks₂, hbody, hhead, rfl, rfl⟩, rfl, rfl⟩
    · exact .rule hhead hbody
    · exact .dependency hbody hhead

/-! ### Programs -/

lemma reads_program : Reads program (InTurn SpellsStatement) (· = none) := by
  refine reads_statement.many fun {st ks} h => ?_
  cases h with
  | rule _ _ => exact List.append_ne_nil_of_right_ne_nil _ (List.cons_ne_nil _ _)
  | dependency _ _ => exact List.append_ne_nil_of_right_ne_nil _ (List.cons_ne_nil _ _)

/-- **The grammar is accepted exactly.** A text is read as a program iff it is a layout of
tokens that spell the program, with nothing but blanks behind. The programs that can be read
from some text are those whose names are spelled as names, whose constants can stand between
quotes, and whose bodies and heads are not empty. -/
theorem ended_program_eq_ok {v : List Statement} :
    (∀ text, ended program text = .ok (v, []) ↔ ∃ ks rest, InTurn SpellsStatement v ks ∧
      Layout ks text rest ∧ ∀ c ∈ rest, Text.isBlank c = true) ∧
    ((∃ text, ended program text = .ok (v, [])) ↔ ∀ st ∈ v, IsStatement st) := by
  refine ⟨fun text => reads_program.ended, ?_⟩
  rw [← spellable_statement.inTurn.exists_layout_iff]
  simp only [reads_program.ended]
  constructor
  · rintro ⟨text, ks, rest, h⟩
    exact ⟨ks, text, rest, h⟩
  · rintro ⟨ks, text, rest, h⟩
    exact ⟨text, ks, rest, h⟩

/-- Names may be words of the language, and a number may end where its statement does. -/
example : ended program "not not(true), ! not (x)->x =1. 2=x,true -> not(1.5, '->') .".toList =
    .ok ([.dependency [.atom false ⟨"not", [.var "true"]⟩, .atom false ⟨"not", [.var "x"]⟩]
        (.equality (.var "x") (.const "1")),
      .dependency [.comparison .eq (.const "2") (.var "x"), .truth true]
        (.atoms [⟨"not", [.const "1.5", .const "->"]⟩])], []) := by
  decide +kernel

end DependencyTheory.Source
