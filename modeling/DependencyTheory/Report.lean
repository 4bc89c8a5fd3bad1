/-
The report on a dependency text:

* `Report.overview`: the schema, its functional dependencies, and whether
  they are free of conflicts;
* `Report.languages`: one line for each language;
* `Report.duration`: a time in a unit that suits it;
* `Report.ofText`: the report on a text, or on why it describes no schema.
-/
import DependencyTheory.Language
import DependencyTheory.Rendering
import DependencyTheory.Source.Resolution

namespace DependencyTheory

namespace Report

/-- One functional dependency, and how many dependencies state it. -/
def functionalLine (s : Schema) (f : SourcedDependency) : String :=
  "FD " ++ s.nameOf f.fd.predicate ++ ": " ++ f.fd.key.render ++ " -> " ++
    f.fd.determined.render ++ " (key: " ++ truthName f.fd.isKey ++ ", from " ++
    Nat.repr f.sources.length ++ " egds)\n"

/-- One dependency that states no functional dependency. -/
def otherLine (s : Schema) (e : Egd) : String :=
  "OTHER EGD " ++ e.render s.nameOf ++ "\n"

/-- The schema, its functional dependencies, and whether they are free of
conflicts. -/
def overview (s : Schema) : String :=
  let analysis := Extraction.ofEgds s.egds
  "SCHEMA:\n" ++ s.pretty ++ "\n" ++
    String.join (analysis.functional.map (functionalLine s)) ++
    String.join (analysis.other.map (otherLine s)) ++
    "non-conflicting: " ++ truthName s.isNonConflicting ++ "\n"

/-- The line for one language. -/
def languageLine (language : String) (answer : Except AnalysisError Bool) : String :=
  language ++ ": " ++
    (match answer with
      | .ok member => truthName member
      | .error e => "unknown (" ++ e.message ++ ")") ++ "\n"

/-- The lines for all languages. -/
def languages (s : Schema) : String :=
  languageLine "linear" s.isLinear ++ languageLine "guarded" s.isGuarded ++
    languageLine "weakly guarded" s.isWeaklyGuarded ++ languageLine "sticky" s.isSticky

/-- Why a text describes no schema. -/
def failure : SchemaError → String
  | .unreadable source trace => "PARSE ERROR\n" ++ trace.render source ++ "\n"
  | e => "SCHEMA ERROR " ++ e.message ++ "\n"

/-- A count of nanoseconds in a larger unit of `size` nanoseconds, with the
decimals that it takes and no more. -/
def inUnit (nanoseconds size : Nat) (unit : String) : String :=
  let padded := (Nat.toDigits 10 (size + nanoseconds % size)).tail
  let decimals := (padded.reverse.dropWhile (· = '0')).reverse
  Nat.repr (nanoseconds / size) ++
    String.ofList (if decimals = [] then [] else '.' :: decimals) ++ unit

/-- A time in the largest unit of which it has at least one. -/
def duration (nanoseconds : Nat) : String :=
  if 1000000000 ≤ nanoseconds then inUnit nanoseconds 1000000000 "s"
  else if 1000000 ≤ nanoseconds then inUnit nanoseconds 1000000 "ms"
  else if 1000 ≤ nanoseconds then inUnit nanoseconds 1000 "µs"
  else inUnit nanoseconds 1 "ns"

/-- The words in front of the time. -/
def timePhrase : String := "Language checks took "

/-- The line on how long the language checks took. -/
def timeLine (nanoseconds : Nat) : String :=
  timePhrase ++ duration nanoseconds ++ "\n"

/-- The report on a text, when the language checks took so many nanoseconds. -/
def ofText (text : String) (nanoseconds : Nat) : String :=
  match Schema.ofText 0 text with
  | .ok s => overview s ++ languages s ++ timeLine nanoseconds
  | .error e => failure e

end Report

end DependencyTheory
