/-
Terms, the arguments of predicates:

* `Term`: a variable or a constant;
* `Term.vars`: the variables of a list of terms, with repetitions;
* `Term.render`: a variable bare, a constant between single quotes.
-/
import DependencyTheory.Text.Listing

namespace DependencyTheory

/-- An argument of a predicate. A variable and a constant differ even if they
have the same name; two constants are equal iff their names are. -/
inductive Term where
  | var (name : String)
  | const (name : String)
  deriving DecidableEq

namespace Term

/-- The name of a variable. -/
def varName? : Term → Option String
  | var x => some x
  | const _ => none

theorem varName?_eq_some {t : Term} {x : String} : t.varName? = some x ↔ t = var x := by
  cases t <;> simp [varName?]

/-- Whether a term is a constant. -/
def isConst : Term → Bool
  | var _ => false
  | const _ => true

/-- The variables of a list of terms, in order and with repetitions. -/
def vars (terms : List Term) : List String := terms.filterMap varName?

@[simp] theorem mem_vars {terms : List Term} {x : String} :
    x ∈ vars terms ↔ var x ∈ terms := by
  simp only [vars, List.mem_filterMap]
  constructor
  · rintro ⟨t, ht, hx⟩
    cases t <;> simp_all [varName?]
  · exact fun h => ⟨var x, h, rfl⟩

/-- A variable is written bare, a constant between single quotes. -/
def render : Term → String
  | var x => x
  | const c => "'" ++ c ++ "'"

/-- Terms separated by commas. -/
def renderList (terms : List Term) : String :=
  Text.commaSeparated (terms.map render)

end Term

end DependencyTheory
