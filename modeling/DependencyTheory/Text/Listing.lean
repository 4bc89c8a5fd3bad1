/-
How a list of parts is written:

* `commaSeparated`: the parts with a comma and a space in between;
* `braced`: the same between braces, as sets and maps are written.
-/
namespace DependencyTheory.Text

/-- The parts with a comma and a space in between. -/
def commaSeparated (parts : List String) : String := String.intercalate ", " parts

/-- The parts with a comma and a space in between, all between braces. -/
def braced (parts : List String) : String := "\x7b" ++ commaSeparated parts ++ "\x7d"

end DependencyTheory.Text
