/-
Most general unifiers of literals and of atoms:

* `solve`: one equation solved under the equations solved so far;
* `solveRow`: two lists of terms, place by place;
* `facingTerms?`: the terms of a literal in the order in which they are
  compared with those of another, `none` when the two never unify;
* `unifyLiterals`, `unifyAtoms`: the unifier of a whole list.

The running substitution binds every variable of the list, at first to
itself. Its images are always representatives: a variable that is an image
is its own image. So an equation between two representatives is solved by
turning one of them into the other wherever it is an image.
-/
import DependencyTheory.Substitution.Basic

namespace DependencyTheory

namespace Unification

/-- Solves one equation: two different constants cannot be made equal, and
otherwise a representative that is a variable gives way to the other side. -/
def solve (s : Substitution) (a b : Term) : Option Substitution :=
  match s.applyTerm a, s.applyTerm b with
  | .const c, .const d => if c = d then some s else none
  | .var x, .const c => some (s.replaceImage (.var x) (.const c))
  | .const c, .var x => some (s.replaceImage (.var x) (.const c))
  | .var x, .var y => some (s.replaceImage (.var x) (.var y))

/-- Solves the equations between two lists of terms of one length. -/
def solveRow (s : Substitution) : List Term → List Term → Option Substitution
  | [], [] => some s
  | a :: as, b :: bs => (solve s a b).bind fun s => solveRow s as bs
  | _, _ => none

/-- Solves the equations between a list of terms and each of some others. -/
def solveAgainst (s : Substitution) (first : List Term)
    (others : List (List Term)) : Option Substitution :=
  others.foldlM (fun s other => solveRow s first other) s

/-- The terms of `other` in the order in which they face those of `first`.
Literals that can be unified have the same predicate and polarity, or the
same operator, or are comparisons with converse operators, of which the
second is then read from right to left. -/
def facingTerms? : Literal → Literal → Option (List Term)
  | .ordinary p a, .ordinary q b =>
    if a.predicate = b.predicate ∧ p = q then some b.terms else none
  | .builtIn a, .builtIn b =>
    if a.operator = b.operator then some b.terms
    else
      match a.operator, b.operator with
      | .comparison c, .comparison d =>
        if c.converse = d then some b.terms.reverse else none
      | _, _ => none
  | _, _ => none

end Unification

open Unification

/-- The most general unifier of a list of literals, if they have one. -/
def unifyLiterals : List Literal → Option Substitution
  | [] => some .empty
  | first :: rest => do
    let rows ← rest.mapM (facingTerms? first)
    solveAgainst (.identity ((first :: rest).flatMap Literal.vars)) first.terms rows

/-- The most general unifier of a list of atoms, if they have one. -/
def unifyAtoms : List Atom → Option Substitution
  | [] => some .empty
  | first :: rest =>
    if rest.all (·.predicate = first.predicate) then
      solveAgainst (.identity ((first :: rest).flatMap Atom.vars)) first.terms
        (rest.map Atom.terms)
    else none

end DependencyTheory
