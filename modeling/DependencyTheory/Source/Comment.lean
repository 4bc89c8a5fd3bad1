/-
Comments, which run from a `#` to the end of the line:

* `Scan`: where a scan of a text is, outside quotes and comments or inside
  one of them;
* `Scan.next`, `Scan.keeps`: what a character changes, and whether it stays;
* `withoutComments`: a text without its comments.

A `#` between single quotes belongs to a constant and starts no comment, and
a single quote in a comment starts no constant. The line feed that ends a
comment stays, so that lines keep their numbers.
-/
namespace DependencyTheory.Source

/-- Where a scan of a text is. -/
inductive Scan where
  | outside
  | quoted
  | comment
  deriving DecidableEq

namespace Scan

/-- Where the scan is after one more character. -/
def next : Scan → Char → Scan
  | outside, '#' => comment
  | outside, '\'' => quoted
  | quoted, '\'' => outside
  | comment, '\n' => outside
  | scan, _ => scan

/-- Whether a character stays. -/
def keeps : Scan → Char → Bool
  | outside, c => c ≠ '#'
  | quoted, _ => true
  | comment, c => c = '\n'

/-- What stays of a text that is scanned from here on. -/
def kept : Scan → List Char → List Char
  | _, [] => []
  | scan, c :: rest =>
    if scan.keeps c then c :: (scan.next c).kept rest else (scan.next c).kept rest

/-- Where the scan is after a text. -/
def after (scan : Scan) (text : List Char) : Scan := text.foldl next scan

end Scan

/-- A text without its comments. -/
def withoutComments (text : List Char) : List Char := Scan.outside.kept text

end DependencyTheory.Source
