/-
Runs of firings, one after the other:

* `Firing`: a dependency with the values under which it fires, and `Firing.uses` and
  `Firing.adds`, the facts that its body and its head become;
* `Vocabulary.Runs`: which firings lead from one set of facts to another, under a condition
  on the values that are chosen for existential variables;
* `Vocabulary.Runs.keeps`: what each firing keeps, a run keeps, and it holds where each
  firing takes place;
* `Vocabulary.UsedBy`: whether a firing uses what an earlier one has added.
-/
import DependencyTheory.Proofs.Semantics.Facts

namespace DependencyTheory

universe u

variable {U : Type u}

/-- A dependency with the values of its variables. -/
structure Firing (U : Type u) where
  tgd : Tgd
  values : String → U

namespace Firing

variable (K : Vocabulary U) (f : Firing U)

/-- The facts that the atoms of the body become. -/
def uses : Set (Fact U) :=
  {g | ∃ b, .ordinary true b ∈ f.tgd.body.literals ∧ g = b.toFact (K.value f.values)}

/-- The facts that the atoms of the head become. -/
def adds : Set (Fact U) := {g | ∃ a ∈ f.tgd.head, g = a.toFact (K.value f.values)}

end Firing

namespace Vocabulary

variable (K : Vocabulary U) (s : Schema) (Allowed : Set (Fact U) → Firing U → Prop)

/-- Whether firings lead, one after the other, from one set of facts to another. A
dependency fires under values that make its body true and that are allowed at this point of
the run; its head is added. -/
inductive Runs : Set (Fact U) → List (Firing U) → Set (Fact U) → Prop
  | done {D : Set (Fact U)} : Runs D [] D
  | fires {D D' : Set (Fact U)} {f : Firing U} {fs : List (Firing U)} (ht : f.tgd ∈ s.tgds)
      (hbody : K.HoldsAll D f.values f.tgd.body.literals) (hallowed : Allowed D f)
      (hrest : Runs (D ∪ f.adds K) fs D') : Runs D (f :: fs) D'

/-- Whether the firing at place `j` uses a fact that the earlier one at place `i` adds. -/
def UsedBy (fs : List (Firing U)) (i j : Nat) : Prop :=
  i < j ∧ ∃ f g, fs[i]? = some f ∧ fs[j]? = some g ∧ ∃ h ∈ f.adds K, h ∈ g.uses K

variable {K s Allowed} {D D' : Set (Fact U)} {fs : List (Firing U)}

/-- **What each firing keeps, a run keeps**; and it holds whenever a dependency fires. -/
theorem Runs.keeps (h : K.Runs s Allowed D fs D') {Inv : Set (Fact U) → Prop}
    (hstep : ∀ D (f : Firing U), f.tgd ∈ s.tgds → K.HoldsAll D f.values f.tgd.body.literals →
      Inv D → Inv (D ∪ f.adds K)) (hstart : Inv D) :
    Inv D' ∧ ∀ f ∈ fs, f.tgd ∈ s.tgds ∧
      ∃ D, Inv D ∧ K.HoldsAll D f.values f.tgd.body.literals := by
  induction h with
  | done => exact ⟨hstart, fun f hf => absurd hf List.not_mem_nil⟩
  | @fires D D' f fs ht hbody _ _ ih =>
      obtain ⟨hend, hall⟩ := ih (hstep D f ht hbody hstart)
      refine ⟨hend, fun g hg => ?_⟩
      rcases List.mem_cons.mp hg with rfl | hg
      · exact ⟨ht, D, hstart, hbody⟩
      · exact hall g hg

/-- The dependencies that fire are those of the schema. -/
lemma Runs.tgd_mem (h : K.Runs s Allowed D fs D') : ∀ f ∈ fs, f.tgd ∈ s.tgds := fun f hf =>
  ((h.keeps (fun _ _ _ _ (_ : True) => trivial) trivial).2 f hf).1

end Vocabulary

end DependencyTheory
