/-
Sets of facts in which functional dependencies hold:

* `FunctionalDependency.HoldsIn.insert`: a fact that agrees with no other on the key
  may be added;
* `FunctionalDependency.HoldsIn.map`: the values may be exchanged for others, as long as
  they still differ;
* `FunctionalDependency.exists_maximal`: within any set of facts there is a largest
  choice that keeps some functional dependencies, and whatever it leaves out agrees with
  a fact in it on a key.
-/
import DependencyTheory.Proofs.Semantics.Facts
import Mathlib.Data.Set.Insert
import Mathlib.Order.Zorn

namespace DependencyTheory

universe u

variable {U V : Type u} {D E : Set (Fact U)}

/-- Values that differ stay apart, so lists agree iff their images do. -/
lemma agreeOn_map {h : U → V} (hinj : Function.Injective h) {key : IndexSet} {as bs : List U} :
    AgreeOn key (as.map h) (bs.map h) ↔ AgreeOn key as bs := by
  simp only [AgreeOn, List.getElem?_map, (Option.map_injective hinj).eq_iff]

namespace FunctionalDependency

variable {fd : FunctionalDependency} {fds : List FunctionalDependency}

/-- A fact that agrees with none over its predicate on the key may be added. -/
lemma HoldsIn.insert (h : fd.HoldsIn D) {f : Fact U}
    (hnone : f.predicate = fd.predicate → ∀ g ∈ D, g.predicate = fd.predicate →
      ¬AgreeOn fd.key f.args g.args) : fd.HoldsIn (insert f D) := by
  intro g hg g' hg' hp hp' hkey
  rcases Set.mem_insert_iff.mp hg with rfl | hold
  · rcases Set.mem_insert_iff.mp hg' with rfl | hold'
    · exact fun _ _ => rfl
    · exact absurd hkey (hnone hp g' hold' hp')
  · rcases Set.mem_insert_iff.mp hg' with rfl | hold'
    · exact absurd (fun i hi => (hkey i hi).symm) (hnone hp' g hold hp)
    · exact h g hold g' hold' hp hp' hkey

/-- The facts may be about other values that differ. -/
lemma HoldsIn.map {h : U → V} (hinj : Function.Injective h) (hD : fd.HoldsIn D) :
    fd.HoldsIn (Fact.map h '' D) := by
  rintro _ ⟨f, hf, rfl⟩ _ ⟨g, hg, rfl⟩ hfp hgp hkey
  exact (agreeOn_map hinj).mpr (hD f hf g hg hfp hgp ((agreeOn_map hinj).mp hkey))

/-- The union of a chain keeps what all its members keep. -/
lemma holdsIn_sUnion {c : Set (Set (Fact U))} (hchain : IsChain (· ⊆ ·) c)
    (hc : ∀ M ∈ c, fd.HoldsIn M) : fd.HoldsIn (⋃₀ c) := by
  rintro f ⟨M, hM, hf⟩ g ⟨N, hN, hg⟩ hfp hgp hkey
  rcases hchain.total hM hN with hsub | hsub
  · exact hc N hN f (hsub hf) g hg hfp hgp hkey
  · exact hc M hM f hf g (hsub hg) hfp hgp hkey

/-- **There is a largest choice of facts** that has given ones and keeps some functional
dependencies. Whatever it leaves out agrees with a fact in it on a key. -/
theorem exists_maximal (hsub : D ⊆ E) (hD : ∀ fd ∈ fds, fd.HoldsIn D) :
    ∃ M, D ⊆ M ∧ M ⊆ E ∧ (∀ fd ∈ fds, fd.HoldsIn M) ∧
      ∀ f ∈ E, f ∉ M → ∃ fd ∈ fds, f.predicate = fd.predicate ∧
        ∃ g ∈ M, g.predicate = fd.predicate ∧ AgreeOn fd.key f.args g.args := by
  obtain ⟨M, hDM, hmax⟩ := zorn_subset_nonempty {M | M ⊆ E ∧ ∀ fd ∈ fds, fd.HoldsIn M}
    (fun c hc hchain _ => ⟨⋃₀ c, ⟨Set.sUnion_subset fun M hM => (hc hM).1,
      fun fd hfd => holdsIn_sUnion hchain fun M hM => (hc hM).2 fd hfd⟩,
      fun M hM => Set.subset_sUnion_of_mem hM⟩) D ⟨hsub, hD⟩
  refine ⟨M, hDM, hmax.prop.1, hmax.prop.2, fun f hf hnot => ?_⟩
  -- otherwise the fact could be added
  by_contra hnone
  have hinsert : ∀ fd ∈ fds, fd.HoldsIn (insert f M) := by
    intro fd hfd
    exact (hmax.prop.2 fd hfd).insert fun hp g hg hgp hkey =>
      hnone ⟨fd, hfd, hp, g, hg, hgp, hkey⟩
  have hlarger := hmax.le_of_ge ⟨Set.insert_subset hf hmax.prop.1, hinsert⟩
    (Set.subset_insert f M)
  exact hnot (hlarger (Set.mem_insert f M))

end FunctionalDependency

end DependencyTheory
