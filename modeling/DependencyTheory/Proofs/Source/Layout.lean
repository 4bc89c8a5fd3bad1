/-
Tokens, and the texts in which they are laid out:

* `Token`: a name, a quoted constant, a bare number, or a word of the language;
* `Token.Valid`, `Token.KeepsOff`: how a token is spelled, and what must not come right
  behind it;
* `Layout`: whether a text consists of some tokens, each with any blanks in front, and of a
  rest;
* `next?`: the first character behind blanks, which is that of the next token.
-/
import DependencyTheory.Source.Reader
import DependencyTheory.Text.Name
import Mathlib.Data.List.DropRight
import Mathlib.Data.List.TakeWhile
import Mathlib.Order.Basic
import Mathlib.Tactic.ByContra
import Mathlib.Tactic.Lemma

namespace DependencyTheory.Source

/-! ### Spelling -/

/-- Whether characters are a name. -/
def IsName (cs : List Char) : Prop :=
  ∃ first rest, cs = first :: rest ∧ Text.isNameStart first = true ∧
    ∀ c ∈ rest, Text.isNamePart c = true

lemma IsName.of_all {first : Char} {rest : List Char} (hfirst : Text.isNameStart first = true)
    (hrest : rest.all Text.isNamePart = true) : IsName (first :: rest) :=
  ⟨first, rest, rfl, hfirst, List.all_eq_true.mp hrest⟩

/-- Whether characters can stand between quotes. -/
def IsQuotable (cs : List Char) : Prop := cs ≠ [] ∧ '\'' ∉ cs

/-- Whether characters are digits, of which there is at least one. -/
def IsDigits (cs : List Char) : Prop := cs ≠ [] ∧ ∀ c ∈ cs, c.isDigit = true

/-- Whether characters are a number: digits, perhaps a sign in front, and perhaps a point
with digits behind. -/
def IsNumber (cs : List Char) : Prop :=
  ∃ sign whole fraction, cs = sign ++ whole ++ fraction ∧ (sign = [] ∨ sign = ['-']) ∧
    IsDigits whole ∧ (fraction = [] ∨ ∃ ds, IsDigits ds ∧ fraction = '.' :: ds)

/-! ### Tokens -/

/-- A smallest part of a dependency text. -/
inductive Token where
  | name (x : String)
  | quoted (c : String)
  | number (c : String)
  | word (w : String)
  deriving DecidableEq

namespace Token

/-- The words and marks that the language has. -/
def words : List String :=
  ["(", ")", ",", ".", "->", ":-", "!", "not", "true", "false",
    "<=", ">=", "<>", "!=", "<", ">", "="]

/-- How a token is written. -/
def text : Token → List Char
  | name x => x.toList
  | quoted c => '\'' :: (c.toList ++ ['\''])
  | number c => c.toList
  | word w => w.toList

/-- Whether a token can be written at all. -/
def Valid : Token → Prop
  | name x => IsName x.toList
  | quoted c => IsQuotable c.toList
  | number c => IsNumber c.toList
  | word w => w ∈ words

/-- Whether a token can be told from the text right behind it: there is a blank behind
`not`, and no fraction behind a number without one. -/
def KeepsOff : Token → List Char → Prop
  | word w, s => w = "not" → ∃ c r, s = c :: r ∧ Text.isBlank c = true
  | number c, s => '.' ∉ c.toList → ¬∃ d r, s = '.' :: d :: r ∧ d.isDigit = true
  | name _, _ => True
  | quoted _, _ => True

end Token

/-! ### Characters that start something -/

lemma isBlank_iff {c : Char} :
    Text.isBlank c = true ↔ c = ' ' ∨ c = '\t' ∨ c = '\r' ∨ c = '\n' := by
  simp only [Text.isBlank, Bool.or_eq_true, beq_iff_eq, or_assoc]

/-- A name does not start with a blank, nor does it go on with one. -/
lemma isNamePart_of_isBlank {c : Char} (h : Text.isBlank c = true) :
    Text.isNamePart c = false := by
  rcases isBlank_iff.mp h with rfl | rfl | rfl | rfl <;> decide

lemma isBlank_of_isNameStart {c : Char} (h : Text.isNameStart c = true) :
    Text.isBlank c = false := by
  by_contra hblank
  rw [Bool.not_eq_false] at hblank
  exact absurd (Text.isNamePart_of_isNameStart h) (by simp [isNamePart_of_isBlank hblank])

lemma isBlank_of_isDigit {c : Char} (h : c.isDigit = true) : Text.isBlank c = false := by
  by_contra hblank
  rw [Bool.not_eq_false] at hblank
  rcases isBlank_iff.mp hblank with rfl | rfl | rfl | rfl <;> exact absurd h (by decide)

/-- A number starts with a sign or a digit. -/
lemma IsNumber.exists_first {cs : List Char} (h : IsNumber cs) :
    ∃ c rest, cs = c :: rest ∧ (c = '-' ∨ c.isDigit = true) := by
  obtain ⟨sign, whole, fraction, rfl, hsign, ⟨hne, hdigits⟩, -⟩ := h
  obtain ⟨d, ds, rfl⟩ := List.exists_cons_of_ne_nil hne
  rcases hsign with rfl | rfl
  · exact ⟨d, ds ++ fraction, rfl, Or.inr (hdigits d List.mem_cons_self)⟩
  · exact ⟨'-', d :: ds ++ fraction, rfl, Or.inl rfl⟩

/-- No token starts with a blank. -/
lemma Token.Valid.exists_first {k : Token} (h : k.Valid) :
    ∃ c rest, k.text = c :: rest ∧ Text.isBlank c = false := by
  cases k with
  | name x =>
      obtain ⟨c, rest, htext, hc, -⟩ := h
      exact ⟨c, rest, htext, isBlank_of_isNameStart hc⟩
  | quoted c => exact ⟨'\'', c.toList ++ ['\''], rfl, rfl⟩
  | number c =>
      obtain ⟨d, rest, htext, rfl | hd⟩ := IsNumber.exists_first h
      · exact ⟨'-', rest, htext, rfl⟩
      · exact ⟨d, rest, htext, isBlank_of_isDigit hd⟩
  | word w =>
      have hall : ∀ w ∈ words, ∃ c rest, w.toList = c :: rest ∧ Text.isBlank c = false := by
        simp [words]
        decide
      exact hall w h

/-- A blank at the end does not matter for what must not come behind a token, nor does what is
behind it. -/
lemma Token.KeepsOff.append_blank {k : Token} {s : List Char} {b : Char} (h : k.KeepsOff s)
    (hb : Text.isBlank b = true) (t : List Char) : k.KeepsOff (s ++ b :: t) := by
  cases k with
  | word w =>
      intro hw
      obtain ⟨c, r, rfl, hc⟩ := h hw
      exact ⟨c, r ++ b :: t, rfl, hc⟩
  | number c =>
      rintro hpoint ⟨d, r, hs, hd⟩
      rcases s with _ | ⟨c₁, _ | ⟨c₂, s⟩⟩
      · obtain ⟨rfl, -⟩ := List.cons.inj hs
        exact absurd hb (by decide)
      · obtain ⟨-, rfl, -⟩ := by simpa using hs
        exact absurd hb (by rw [isBlank_of_isDigit hd]; exact Bool.false_ne_true)
      · obtain ⟨rfl, rfl, -⟩ := by simpa using hs
        exact h hpoint ⟨_, s, rfl, hd⟩
  | name _ => trivial
  | quoted _ => trivial

/-! ### Layouts -/

/-- Whether a text consists of some tokens, with any blanks in front of each, and of a
rest. -/
inductive Layout : List Token → List Char → List Char → Prop
  | done {r : List Char} : Layout [] r r
  | token {blanks s r : List Char} {k : Token} {ks : List Token}
      (hblanks : ∀ c ∈ blanks, Text.isBlank c = true) (hk : k.Valid) (hoff : k.KeepsOff s)
      (h : Layout ks s r) : Layout (k :: ks) (blanks ++ k.text ++ s) r

/-- The first character of a text that is not a blank. -/
def next? (s : List Char) : Option Char := (s.dropWhile Text.isBlank).head?

variable {k : Token} {ks ks' : List Token} {s r : List Char}

namespace Layout

lemma nil_iff : Layout [] s r ↔ s = r :=
  ⟨fun h => by cases h; rfl, fun h => h ▸ done⟩

/-- The text in front of a token is just the blanks there. -/
lemma cons_iff : Layout (k :: ks) s r ↔
    k.Valid ∧ ∃ s', s.dropWhile Text.isBlank = k.text ++ s' ∧ k.KeepsOff s' ∧ Layout ks s' r := by
  constructor
  · intro h
    cases h with
    | @token blanks s' _ _ _ hblanks hk hoff h =>
        obtain ⟨c, rest, htext, hc⟩ := hk.exists_first
        refine ⟨hk, s', ?_, hoff, h⟩
        rw [List.append_assoc, List.dropWhile_append_of_pos hblanks, htext, List.cons_append,
          List.dropWhile_cons_of_neg (by rw [hc]; exact Bool.false_ne_true)]
  · rintro ⟨hk, s', hs, hoff, h⟩
    have hsplit : s = s.takeWhile Text.isBlank ++ k.text ++ s' := by
      rw [List.append_assoc, ← hs, List.takeWhile_append_dropWhile]
    rw [hsplit]
    exact token (fun c hc => List.mem_takeWhile_imp hc) hk hoff h

lemma append_iff : Layout (ks ++ ks') s r ↔ ∃ s', Layout ks s s' ∧ Layout ks' s' r := by
  induction ks generalizing s with
  | nil => simp [nil_iff]
  | cons k ks ih =>
      simp only [List.cons_append, cons_iff, ih]
      constructor
      · rintro ⟨hk, s₁, hs, hoff, s₂, h, h'⟩
        exact ⟨s₂, ⟨hk, s₁, hs, hoff, h⟩, h'⟩
      · rintro ⟨s₂, ⟨hk, s₁, hs, hoff, h⟩, h'⟩
        exact ⟨hk, s₁, hs, hoff, s₂, h, h'⟩

/-- Blanks in front of the first token do not matter. -/
lemma dropWhile_iff : Layout (k :: ks) (s.dropWhile Text.isBlank) r ↔ Layout (k :: ks) s r := by
  simp only [cons_iff, List.dropWhile_idempotent]

/-- What is next is the first character of the first token. -/
lemma next?_eq (h : Layout (k :: ks) s r) : next? s = k.text.head? := by
  obtain ⟨hk, s', hs, -, -⟩ := cons_iff.mp h
  obtain ⟨c, rest, htext, -⟩ := hk.exists_first
  rw [next?, hs, htext]
  rfl

lemma length_le (h : Layout ks s r) : r.length ≤ s.length := by
  induction h with
  | done => exact le_refl _
  | token _ _ _ _ ih =>
      simp only [List.length_append]
      omega

/-- Tokens take up room. -/
lemma length_lt (h : Layout (k :: ks) s r) : r.length < s.length := by
  cases h with
  | token _ hk _ h =>
      obtain ⟨c, rest, htext, -⟩ := hk.exists_first
      have hle := h.length_le
      simp only [List.length_append, htext, List.length_cons]
      omega

/-- Blanks in front of a layout are in front of its first token, or stay with the rest. -/
lemma exists_behind_blanks {blanks : List Char} (h : Layout ks s r)
    (hr : ∀ c ∈ r, Text.isBlank c = true) (hblanks : ∀ c ∈ blanks, Text.isBlank c = true) :
    ∃ r', Layout ks (blanks ++ s) r' ∧ ∀ c ∈ r', Text.isBlank c = true := by
  cases ks with
  | nil =>
      obtain rfl := nil_iff.mp h
      exact ⟨_, done, List.forall_mem_append.mpr ⟨hblanks, hr⟩⟩
  | cons k ks =>
      refine ⟨r, ?_, hr⟩
      rwa [← dropWhile_iff, List.dropWhile_append_of_pos hblanks, dropWhile_iff]

/-- Behind a blank, anything may be put at the end. -/
lemma append_blank {b : Char} (h : Layout ks s r) (hb : Text.isBlank b = true) (t : List Char) :
    Layout ks (s ++ b :: t) (r ++ b :: t) := by
  induction h with
  | done => exact done
  | token hblanks hk hoff _ ih =>
      rw [List.append_assoc]
      exact token hblanks hk (hoff.append_blank hb t) ih

end Layout

end DependencyTheory.Source
