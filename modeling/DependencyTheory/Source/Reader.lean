/-
Reading from the front of a text:

* `Reader`: from a text to a value and the text left over, or to a trace;
* `charOf`, `char`, `word`, `digits`, `eof`, …: the basic steps, which say
  what they looked for when they fail;
* `firstOf`: ordered choice;
* `sepBy1`, `sepBy`, `many`: repetitions, which take as much
  as they can and never fail after the first item.

A repetition goes on only while the text gets shorter, which is why it ends.
-/
import DependencyTheory.Source.Trace

namespace DependencyTheory.Source

/-- A step that reads a value from the front of a text and leaves the rest, or
says what it missed. -/
abbrev Reader (α : Type) := StateT (List Char) (Except Trace) α

namespace Reader

variable {α β : Type}

/-! ### Basic steps -/

/-- Fails where the step starts. -/
def miss (sought : Expectation) : Reader α := fun s => .error [⟨s, sought⟩]

/-- One character that passes a test. -/
def oneOf (sought : Expectation) (p : Char → Bool) : Reader Char
  | [] => miss sought []
  | c :: s => if p c then .ok (c, s) else miss sought (c :: s)

/-- One character of a class. -/
def charOf (p : Char → Bool) : Reader Char := oneOf .charClass p

/-- One given character. -/
def char (c : Char) : Reader Char := oneOf (.char c) (· == c)

/-- The characters up to the first one that fails a test. -/
def takeWhile (p : Char → Bool) : Reader (List Char) := fun s =>
  .ok (s.takeWhile p, s.dropWhile p)

/-- At least one character that passes a test, and all that follow it. -/
def span1 (sought : Expectation) (p : Char → Bool) : Reader (List Char) := fun s =>
  match s.takeWhile p with
  | [] => miss sought s
  | c :: cs => .ok (c :: cs, s.dropWhile p)

/-- ASCII digits, at least one. -/
def digits : Reader (List Char) := span1 .digits Char.isDigit

/-- Blanks, any number of them. -/
def blanks : Reader Unit := fun s => .ok ((), s.dropWhile Text.isBlank)

/-- Blanks, at least one. -/
def blanks1 : Reader Unit := do
  let _ ← span1 .blanks Text.isBlank

/-- A given word. -/
def word (w : String) : Reader String := fun s =>
  if w.toList.isPrefixOf s then .ok (w, s.drop w.toList.length)
  else miss .word s

/-- The end of the text. -/
def eof : Reader Unit
  | [] => .ok ((), [])
  | s => miss .endOfText s

/-! ### Choice and sequence -/

/-- Reads nothing, and fails where `p` could read. -/
def notFollowedBy (p : Reader α) : Reader Unit := fun s =>
  match p s with
  | .ok _ => miss .absence s
  | .error _ => .ok ((), s)

/-- A value if there is one to read; otherwise nothing is read. -/
def optional (p : Reader α) : Reader (Option α) := fun s =>
  match p s with
  | .ok (a, r) => .ok (some a, r)
  | .error _ => .ok (none, s)

/-- The first of several readings that succeeds. When all fail, the trace is
that of the last one, with a note on where the choice started. -/
def firstOf : List (Reader α) → Reader α
  | [] => miss .choice
  | [p] => fun s =>
    match p s with
    | .ok out => .ok out
    | .error trace => .error (trace ++ [⟨s, .choice⟩])
  | p :: q :: ps => fun s =>
    match p s with
    | .ok out => .ok out
    | .error _ => firstOf (q :: ps) s

/-- A step after blanks. -/
def token (p : Reader α) : Reader α := do
  blanks
  p

/-- A step, then nothing but blanks. -/
def ended (p : Reader α) : Reader α := do
  let a ← p
  blanks
  eof
  return a

/-! ### Repetition -/

/-- Further items, each after a separator. A separator without an item behind
it is left unread. -/
def moreItems (sep : Reader β) (item : Reader α) (s : List Char) :
    List α × List Char :=
  match sep s with
  | .error _ => ([], s)
  | .ok (_, afterSep) =>
    match item afterSep with
    | .error _ => ([], s)
    | .ok (a, rest) =>
      if rest.length < s.length then
        let (as, left) := moreItems sep item rest
        (a :: as, left)
      else ([a], rest)
termination_by s.length

/-- At least one item, with separators in between. -/
def sepBy1 (sep : Reader β) (item : Reader α) : Reader (List α) := do
  let a ← item
  return a :: (← fun s => .ok (moreItems sep item s))

/-- Any number of items, with separators in between. -/
def sepBy (sep : Reader β) (item : Reader α) : Reader (List α) := do
  return (← optional (sepBy1 sep item)).getD []

/-- Items one after the other, as many as can be read. -/
def manyFrom (item : Reader α) (s : List Char) : List α × List Char :=
  match item s with
  | .error _ => ([], s)
  | .ok (a, rest) =>
    if rest.length < s.length then
      let (as, left) := manyFrom item rest
      (a :: as, left)
    else ([a], rest)
termination_by s.length

/-- Items one after the other, as many as can be read. -/
def many (item : Reader α) : Reader (List α) := fun s => .ok (manyFrom item s)

end Reader

end DependencyTheory.Source
