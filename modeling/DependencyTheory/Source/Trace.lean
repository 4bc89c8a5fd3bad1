/-
Why a text could not be read:

* `Expectation`: what a reading step looked for;
* `Miss`: a step that did not find it, with the text that was left there;
* `Trace`: the misses of one failed reading, the innermost first;
* `Trace.render`: the misses one after the other, each with its line and a
  caret under the place.

A place is kept as the text that was still unread, which is a tail of the
whole text; line and column are worked out when the trace is shown.
-/
import DependencyTheory.Text.Blank

namespace DependencyTheory.Source

/-! ### Misses -/

/-- What a reading step looked for. -/
inductive Expectation where
  /-- A given word. -/
  | word
  /-- A character of a class. -/
  | charClass
  /-- A given character. -/
  | char (c : Char)
  /-- Digits, at least one. -/
  | digits
  /-- Blanks, at least one. -/
  | blanks
  /-- The text of a quoted constant, at least one character. -/
  | quotedText
  /-- The end of the text. -/
  | endOfText
  /-- Something not to be there. -/
  | absence
  /-- One of several readings, none of which succeeded. -/
  | choice
  deriving DecidableEq

namespace Expectation

/-- The word for an expectation in a trace. -/
def label : Expectation → String
  | word => "Tag"
  | charClass => "Satisfy"
  | char _ => "Char"
  | digits => "Digit"
  | blanks => "MultiSpace"
  | quotedText => "TakeWhile1"
  | endOfText => "Eof"
  | absence => "Not"
  | choice => "Alt"

end Expectation

/-- A reading step that failed, and the text it was to read from. -/
structure Miss where
  unread : List Char
  sought : Expectation
  deriving DecidableEq

/-- The steps that failed together, the innermost first. -/
abbrev Trace := List Miss

/-! ### Showing a trace -/

/-- The number of bytes of a text in UTF-8. -/
def byteCount (text : List Char) : Nat := (text.map Char.utf8Size).foldr (· + ·) 0

namespace Miss

/-- The text in front of the place of a miss. -/
def before (source : List Char) (m : Miss) : List Char :=
  source.take (source.length - m.unread.length)

/-- The number of the line of a miss, counted from one. -/
def lineNumber (source : List Char) (m : Miss) : Nat :=
  1 + (m.before source).count '\n'

/-- What stands on the line of a miss in front of its place. -/
def lineStart (source : List Char) (m : Miss) : List Char :=
  ((m.before source).reverse.takeWhile (· ≠ '\n')).reverse

/-- The line of a miss, without the white space at its end. -/
def line (source : List Char) (m : Miss) : List Char :=
  Text.trimEnd (m.lineStart source ++ m.unread.takeWhile (· ≠ '\n'))

/-- A caret set in by one space for each byte in front of the place. -/
def caret (source : List Char) (m : Miss) : String :=
  String.ofList (List.replicate (byteCount (m.lineStart source)) ' ' ++ ['^'])

/-- One miss, numbered by its place in the trace. -/
def render (source : List Char) (i : Nat) (m : Miss) : String :=
  let number := Nat.repr i
  let excerpt := "\n" ++ String.ofList (m.line source) ++ "\n" ++ m.caret source ++ "\n"
  match source, m.sought with
  | [], .char c =>
    number ++ ": expected '" ++ c.toString ++ "', got empty input\n\n"
  | [], sought => number ++ ": in " ++ sought.label ++ ", got empty input\n\n"
  | _, .char c =>
    number ++ ": at line " ++ Nat.repr (m.lineNumber source) ++ ":" ++ excerpt ++
      "expected '" ++ c.toString ++ "', " ++
      (match m.unread with
        | found :: _ => "found " ++ found.toString
        | [] => "got end of input") ++ "\n\n"
  | _, sought =>
    number ++ ": at line " ++ Nat.repr (m.lineNumber source) ++ ", in " ++
      sought.label ++ ":" ++ excerpt ++ "\n"

end Miss

/-- The misses of a trace, numbered from zero. -/
def Trace.render (source : List Char) (trace : Trace) : String :=
  String.join (trace.zipIdx.map fun (m, i) => m.render source i)

end DependencyTheory.Source
