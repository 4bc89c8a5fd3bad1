/-
What repeating a step on a set leads to:

* `OnlyAdds`: whether a step puts elements at the end of a set and does nothing else;
* `saturate_fixed`: the step adds nothing to the end of the repetition;
* `mem_saturate_iff`: the end of the repetition is the least set that has the start and to
  which the step adds nothing, whatever is known to describe that set.

Steps that only add to a set leave it as it is, its order included, when they do not make
it longer.
-/
import DependencyTheory.Proofs.OrderedSet
import DependencyTheory.Saturation

namespace DependencyTheory

universe u

variable {α : Type u}

/-! ### Adding until nothing is new -/

/-- A step that only adds to a set, at its end. -/
def OnlyAdds (step : OrderedSet α → OrderedSet α) : Prop :=
  ∀ s : OrderedSet α, s.toList <+: (step s).toList

variable {bound : List α} {step : OrderedSet α → OrderedSet α} {inside : StaysInside bound step}
  {s : OrderedSet α} {start : ∀ a ∈ s, a ∈ bound}

/-- **The step adds nothing to the end of its repetition.** -/
theorem saturate_fixed (hstep : OnlyAdds step) :
    step (saturate bound step inside s start) = saturate bound step inside s start := by
  fun_induction saturate bound step inside s start with
  | case1 s start _ ih => exact ih
  | case2 s start hsize =>
      have hfixed : s = step s := OrderedSet.eq_of_prefix (hstep s) (Nat.not_lt.mp hsize)
      rw [← hfixed]
      exact hfixed.symm

/-- **The end of a repetition is the least set** that has the start and to which the step
adds nothing. -/
theorem mem_saturate_iff (hstep : OnlyAdds step) {P : α → Prop} (hstart : ∀ a ∈ s, P a)
    (hkeep : ∀ t : OrderedSet α, (∀ a ∈ t, P a) → ∀ a ∈ step t, P a)
    (hleast : ∀ t : OrderedSet α, (∀ a ∈ s, a ∈ t) → step t = t → ∀ a, P a → a ∈ t) {a : α} :
    a ∈ saturate bound step inside s start ↔ P a := by
  constructor
  · exact fun ha => saturate_induction (P := fun t => ∀ a ∈ t, P a) hkeep hstart a ha
  · refine hleast _ ?_ (saturate_fixed hstep) a
    refine saturate_induction (P := fun t => ∀ a ∈ s, a ∈ t) (fun t ht a ha => ?_) fun _ => id
    exact (hstep t).subset (ht a ha)

end DependencyTheory
