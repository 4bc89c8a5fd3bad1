/-
The spelling of names. Predicates and variables are written as names:

* `isNameStart`: a letter of any script, or an underscore;
* `isNamePart`: such a character, or a numeral of any script.
-/
import DependencyTheory.Text.Alphabetic
import DependencyTheory.Text.Numeral

namespace DependencyTheory.Text

/-- A letter or a numeral of any script. -/
def isAlphanumeric (c : Char) : Bool := isAlphabetic c || isNumeral c

/-- What a name may start with. -/
def isNameStart (c : Char) : Bool := isAlphabetic c || c == '_'

/-- What a name may go on with. -/
def isNamePart (c : Char) : Bool := isAlphanumeric c || c == '_'

/-- A name can go on with whatever it can start with. -/
theorem isNamePart_of_isNameStart {c : Char} (h : isNameStart c = true) :
    isNamePart c = true := by
  simp only [isNameStart, isNamePart, isAlphanumeric, Bool.or_eq_true] at h ⊢
  exact h.imp_left Or.inl

end DependencyTheory.Text
