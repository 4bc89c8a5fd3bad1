/-
A text between double quotes, spelled so that every character of it can be
seen and told apart:

* `escaped`: the spelling of one character;
* `quoted`: the spelling of a text.

A backslash and a double quote get a backslash in front, the usual controls
have a letter, and what has no visible form of its own, or would attach to
the character before it, is written by its code point.
-/
import DependencyTheory.Text.Extending
import DependencyTheory.Text.Unprintable

namespace DependencyTheory.Text

/-- A character written by its code point, in hexadecimal without leading
zeros. -/
def codePoint (c : Char) : List Char :=
  '\\' :: 'u' :: '\x7b' :: (Nat.toDigits 16 c.toNat ++ ['\x7d'])

/-- The spelling of one character between double quotes. -/
def escaped (c : Char) : List Char :=
  if c = '\x00' then ['\\', '0']
  else if c = '\t' then ['\\', 't']
  else if c = '\r' then ['\\', 'r']
  else if c = '\n' then ['\\', 'n']
  else if c = '"' then ['\\', '"']
  else if c = '\\' then ['\\', '\\']
  else if isExtending c then codePoint c
  else if isPrintable c then [c]
  else codePoint c

/-- A text between double quotes. -/
def quoted (s : String) : String :=
  String.ofList ('"' :: (s.toList.flatMap escaped ++ ['"']))

end DependencyTheory.Text
