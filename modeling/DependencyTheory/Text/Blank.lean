/-
White space, which means two different sets here:

* `isBlank`: the four characters that may stand between the tokens of a
  dependency text;
* `isWhiteSpace`: the Unicode property White_Space, which decides what is cut
  off at the end of a quoted source line;
* `trimEnd`: a line without the white space at its end.
-/
namespace DependencyTheory.Text

/-- Space, tab, carriage return and line feed. -/
def isBlank (c : Char) : Bool :=
  c == ' ' || c == '\t' || c == '\r' || c == '\n'

/-- The Unicode property White_Space. -/
def isWhiteSpace (c : Char) : Bool :=
  let n := c.toNat
  (0x9 ≤ n && n ≤ 0xD) || n == 0x20 || n == 0x85 || n == 0xA0 ||
    n == 0x1680 || (0x2000 ≤ n && n ≤ 0x200A) || n == 0x2028 ||
    n == 0x2029 || n == 0x202F || n == 0x205F || n == 0x3000

/-- The characters up to the last one that is not white space. -/
def trimEnd (line : List Char) : List Char :=
  (line.reverse.dropWhile isWhiteSpace).reverse

end DependencyTheory.Text
