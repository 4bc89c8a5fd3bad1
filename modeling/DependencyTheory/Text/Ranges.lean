/-
Sets of characters given by code point ranges:

* `inRanges`: membership of a code point in an ascending list of ranges.

The tables of this folder are data of the Unicode standard; what they are
used for is said where they are used.
-/
namespace DependencyTheory.Text

/-- Whether `n` lies in one of the closed ranges, which are listed in
ascending order: the scan ends at the first range that starts above `n`. -/
def inRanges (n : Nat) : List (Nat × Nat) → Bool
  | [] => false
  | (first, last) :: rest => first ≤ n && (n ≤ last || inRanges n rest)

end DependencyTheory.Text
