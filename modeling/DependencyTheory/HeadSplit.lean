/-
Splitting the heads of tuple-generating dependencies:

* `linkedGroups`: a list cut into groups of elements that are linked,
  directly or through others;
* `Tgd.split`: one dependency for each group of head atoms that are linked by
  existential variables;
* `Schema.splitHeads`: a schema with all heads split.

Atoms of different groups share no existential variable, so the groups can be
satisfied independently of each other.
-/
import DependencyTheory.Schema.Builder

namespace DependencyTheory

universe u

variable {α : Type u}

/-- Cuts a list of numbered elements into groups. The first element joins all
groups of the rest that have an element linked to it; groups are ordered by
their first elements, and elements keep their order inside a group. -/
def linkedGroups (linked : α → α → Bool) :
    List (α × Nat) → List (List (α × Nat))
  | [] => []
  | a :: rest =>
    let (joined, apart) := (linkedGroups linked rest).partition fun group =>
      group.any fun b => linked a.1 b.1
    let numbers := joined.flatten.map Prod.snd
    (a :: rest.filter fun b => b.2 ∈ numbers) :: apart

theorem linkedGroups_ne_nil {linked : α → α → Bool} {as : List (α × Nat)}
    {group : List (α × Nat)} (h : group ∈ linkedGroups linked as) : group ≠ [] := by
  induction as generalizing group with
  | nil => simp [linkedGroups] at h
  | cons a rest ih =>
    simp only [linkedGroups, List.partition_eq_filter_filter, List.mem_cons] at h
    rcases h with rfl | h
    · simp
    · exact ih (List.mem_filter.mp h).1

namespace Tgd

/-- Whether two head atoms have an existential variable in common. -/
def sharesExistential (t : Tgd) (a b : Atom) : Bool :=
  a.vars.any fun x => x ∈ t.existential && x ∈ b.vars

/-- One dependency for each group of linked head atoms, all with the body of
the whole. -/
def split (t : Tgd) : List Tgd :=
  (linkedGroups t.sharesExistential t.head.zipIdx).attach.map fun ⟨group, h⟩ =>
    ⟨t.body, group.map Prod.fst, by simpa using linkedGroups_ne_nil h⟩

end Tgd

/-- The parts of a dependency; one that generates an equality has no other
part than itself. -/
def Dependency.split : Dependency → List Dependency
  | tgd t => t.split.map tgd
  | egd e => [egd e]

/-- The schema with the head of every dependency split. -/
def Schema.splitHeads (s : Schema) : Except SchemaError Schema :=
  s.withDependencies (s.dependencies.flatMap Dependency.split)

end DependencyTheory
