/-
Substitutions, finite maps from variables to terms:

* `Substitution`: pairs of a variable and a term, no variable twice;
* `Substitution.get?`: the view through which substitutions are reasoned
  about;
* `Substitution.bind?`: one more binding, refused when it contradicts an old
  one;
* `Substitution.union?`: two substitutions at once, if they agree;
* `Substitution.applyTerm`, `applyAtom`, `applyLiteral`: all images put in at
  once.

The order of the pairs shows only in how the map came about: two
substitutions are the same map when `Substitution.sameMap` holds.
-/
import DependencyTheory.Literal

namespace DependencyTheory

/-- A finite map from variables to terms. -/
structure Substitution where
  bindings : List (String × Term)
  distinct : (bindings.map Prod.fst).Nodup
  deriving DecidableEq

namespace Substitution

/-- The map that binds nothing. -/
def empty : Substitution := ⟨[], List.nodup_nil⟩

/-- The image of a variable. -/
def get? (s : Substitution) (x : String) : Option Term := s.bindings.lookup x

/-- The bound variables, in the order in which they were bound. -/
def vars (s : Substitution) : List String := s.bindings.map Prod.fst

/-- Whether a variable is bound. -/
def contains (s : Substitution) (x : String) : Bool := (s.get? x).isSome

/-- The number of bound variables. -/
def size (s : Substitution) : Nat := s.bindings.length

/-- Whether nothing is bound. -/
def isEmpty (s : Substitution) : Bool := s.bindings.isEmpty

/-- Whether every bound variable is its own image. -/
def isIdentity (s : Substitution) : Bool :=
  s.bindings.all fun (x, t) => t = .var x

theorem bindings_inj {s t : Substitution} : s.bindings = t.bindings ↔ s = t := by
  cases s
  cases t
  simp

/-- Whether two substitutions bind the same variables to the same terms. -/
def sameMap (s t : Substitution) : Bool :=
  s.size == t.size && s.bindings.all fun (x, u) => t.get? x = some u

/-! ### Binding variables -/

theorem get?_eq_none {s : Substitution} {x : String} :
    s.get? x = none ↔ x ∉ s.vars := by
  simp [get?, vars, List.lookup_eq_none_iff]
  grind

/-- The map with a binding for a variable that has none. -/
def append (s : Substitution) (x : String) (t : Term) (fresh : s.get? x = none) :
    Substitution :=
  ⟨s.bindings ++ [(x, t)], by
    rw [List.map_append, List.nodup_append]
    refine ⟨s.distinct, by simp, ?_⟩
    rintro y hy z hz rfl
    simp only [List.map_cons, List.map_nil, List.mem_singleton] at hz
    exact get?_eq_none.mp fresh (hz ▸ hy)⟩

theorem get?_append {s : Substitution} {x y : String} {t : Term}
    {fresh : s.get? x = none} :
    (s.append x t fresh).get? y = if y = x then some t else s.get? y := by
  simp only [get?, append, List.lookup_append] at fresh ⊢
  by_cases h : y = x
  · subst h
    simp [fresh]
  · have h' : (y == x) = false := by simpa using h
    simp [h, h', List.lookup_cons]

/-- The map with one more binding. A variable that is bound already keeps its
image: the same image again changes nothing, another one is refused. -/
def bind? (s : Substitution) (x : String) (t : Term) : Option Substitution :=
  match h : s.get? x with
  | some u => if u = t then some s else none
  | none => some (s.append x t h)

theorem bind?_of_some {s : Substitution} {x : String} {t u : Term} (h : s.get? x = some u) :
    s.bind? x t = if u = t then some s else none := by
  unfold bind?
  split
  · rename_i v hv
    cases hv.symm.trans h
    rfl
  · rename_i hv
    cases hv.symm.trans h

theorem bind?_of_none {s : Substitution} {x : String} {t : Term} (h : s.get? x = none) :
    s.bind? x t = some (s.append x t h) := by
  unfold bind?
  split
  · rename_i v hv
    cases hv.symm.trans h
  · rfl

/-- A binding is refused exactly when the variable has another image. -/
theorem bind?_eq_none {s : Substitution} {x : String} {t : Term} :
    s.bind? x t = none ↔ ∃ u, s.get? x = some u ∧ u ≠ t := by
  unfold bind?
  split
  · rename_i u hu
    by_cases h : u = t <;> simp [h, hu]
  · rename_i hu
    simp [hu]

/-- A binding that is not refused gives the variable its image and leaves the
others theirs. -/
theorem get?_of_bind? {s u : Substitution} {x : String} {t : Term}
    (h : s.bind? x t = some u) (y : String) :
    u.get? y = if y = x then some t else s.get? y := by
  unfold bind? at h
  split at h
  · rename_i v hv
    split at h
    · cases h
      by_cases hy : y = x <;> simp_all
    · exact absurd h (by simp)
  · cases h
    exact get?_append

/-- Each variable of a list bound to itself. -/
def identity (xs : List String) : Substitution :=
  xs.foldl (fun s x => (s.bind? x (.var x)).getD s) empty

/-- Some images turned into others; the bound variables stay the same. -/
def mapImages (f : String → Term → Term) (s : Substitution) : Substitution :=
  ⟨s.bindings.map fun (x, t) => (x, f x t), by
    rw [List.map_map]
    exact s.distinct⟩

theorem get?_mapImages {f : String → Term → Term} {s : Substitution} {x : String} :
    (s.mapImages f).get? x = (s.get? x).map (f x) := by
  simp only [get?, mapImages]
  induction s.bindings with
  | nil => rfl
  | cons b rest ih =>
    obtain ⟨y, t⟩ := b
    by_cases h : x = y
    · simp [h]
    · have h' : (x == y) = false := by simpa using h
      simpa [List.lookup_cons, h'] using ih

/-- Every image that is `old` turned into `new`. -/
def replaceImage (s : Substitution) (old new : Term) : Substitution :=
  s.mapImages fun _ t => if t = old then new else t

/-- The map with a new image for a variable, bound before or not. -/
def set (s : Substitution) (x : String) (t : Term) : Substitution :=
  match h : s.get? x with
  | some _ => s.mapImages fun y u => if y = x then t else u
  | none => s.append x t h

/-- The map of a list of pairs, in which the last pair of a variable
counts. -/
def ofPairs (pairs : List (String × Term)) : Substitution :=
  pairs.foldl (fun s (x, t) => s.set x t) empty

/-- Both maps at once, if they agree on the variables that both bind. -/
def union? (s t : Substitution) : Option Substitution :=
  t.bindings.foldlM (fun u (x, image) => u.bind? x image) s

/-! ### Applying a substitution -/

/-- A variable becomes its image; a constant, or a variable that is not
bound, stays what it is. -/
def applyTerm (s : Substitution) : Term → Term
  | .var x => (s.get? x).getD (.var x)
  | .const c => .const c

/-- All terms of a list at once. -/
def applyTerms (s : Substitution) (terms : List Term) : List Term :=
  terms.map s.applyTerm

/-- All terms of an atom at once. -/
def applyAtom (s : Substitution) (a : Atom) : Atom := a.mapTerms s.applyTerm

/-- All terms of a literal at once. -/
def applyLiteral (s : Substitution) (l : Literal) : Literal := l.mapTerms s.applyTerm

/-- The bindings between braces, in the order of the variables' names. -/
def render (s : Substitution) : String :=
  let sorted := s.bindings.mergeSort fun a b => decide (¬b.1 < a.1)
  Text.braced (sorted.map fun (x, t) => x ++ ": " ++ t.render)

end Substitution

end DependencyTheory
