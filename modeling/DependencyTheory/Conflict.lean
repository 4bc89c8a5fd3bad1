/-
Conflicts between tuple-generating and functional dependencies:

* `Tgd.conflictsWith`: whether firing a dependency may produce tuples that
  violate a functional dependency;
* `Schema.isNonConflicting`: whether the equality-generating dependencies of
  a schema are key dependencies with which no other dependency conflicts.
-/
import DependencyTheory.FunctionalDependency
import DependencyTheory.Schema.Basic

namespace DependencyTheory

namespace Tgd

/-- The occurrences of existential variables in a list of head atoms. -/
def existentialOccurrences (t : Tgd) (atoms : List Atom) : List String :=
  (atoms.flatMap Atom.vars).filter (· ∈ t.existential)

/-- Whether a head atom may stand for a tuple that violates a functional
dependency of its predicate: it has a constant, an existential variable
twice, or a universal variable outside the key. -/
def atomConflicts (t : Tgd) (key : IndexSet) (a : Atom) : Bool :=
  a.terms.any Term.isConst ||
    !decide (t.existentialOccurrences [a]).Nodup ||
    a.terms.zipIdx.any fun (term, i) =>
      match term with
      | .var x => x ∈ t.universal && i ∉ key
      | .const _ => false

/-- Whether firing the dependency may violate the functional dependency. Two
head atoms over the same predicate are also tied together by an existential
variable that the head has twice. -/
def conflictsWith (t : Tgd) (fd : FunctionalDependency) : Bool :=
  let affected := t.head.filter (·.predicate = fd.predicate)
  (1 < affected.length && !decide (t.existentialOccurrences t.head).Nodup) ||
    affected.any (t.atomConflicts fd.key)

end Tgd

/-- Whether some dependency conflicts with some functional dependency. -/
def anyConflict (ts : List Tgd) (fds : List FunctionalDependency) : Bool :=
  ts.any fun t => fds.any t.conflictsWith

/-- Whether every equality-generating dependency states a key dependency and
no tuple-generating dependency conflicts with any of them. -/
def Schema.isNonConflicting (s : Schema) : Bool :=
  let analysis := Extraction.ofEgds s.egds
  analysis.other.isEmpty && analysis.dependencies.all FunctionalDependency.isKey &&
    !anyConflict s.tgds analysis.dependencies

end DependencyTheory
