/-
Repeating a step on a set until the step adds nothing:

* `saturate`: the repetition, for steps that stay inside a finite list;
* `saturate_induction`: what the start has and the step keeps, the end has.

A round that adds nothing is the last one, and every other round makes the
set larger, so there are at most as many rounds as the list has elements.
-/
import DependencyTheory.OrderedSet

namespace DependencyTheory

universe u

variable {α : Type u}

/-- A step that puts nothing into a set but elements of a list, if the set has
no others. -/
def StaysInside (bound : List α) (step : OrderedSet α → OrderedSet α) : Prop :=
  ∀ s : OrderedSet α, (∀ a ∈ s, a ∈ bound) → ∀ a ∈ step s, a ∈ bound

/-- `step` applied until the set stops growing. The list `bound` holds all
that the start and the steps ever put into the set. -/
def saturate (bound : List α) (step : OrderedSet α → OrderedSet α)
    (inside : StaysInside bound step)
    (s : OrderedSet α) (start : ∀ a ∈ s, a ∈ bound) : OrderedSet α :=
  if s.size < (step s).size then
    saturate bound step inside (step s) (inside s start)
  else step s
termination_by bound.length - s.size
decreasing_by
  have := OrderedSet.size_le_length (inside s start)
  omega

/-- What the start has and every step keeps, the end has. -/
theorem saturate_induction {bound : List α} {step : OrderedSet α → OrderedSet α}
    {inside : StaysInside bound step}
    {P : OrderedSet α → Prop} (keep : ∀ s, P s → P (step s))
    {s : OrderedSet α} {start : ∀ a ∈ s, a ∈ bound} (base : P s) :
    P (saturate bound step inside s start) := by
  fun_induction saturate bound step inside s start with
  | case1 s start _ ih => exact ih (keep s base)
  | case2 s start _ => exact keep s base

end DependencyTheory
