/-
What the functional dependencies of a list say together:

* `SourcedDependency.Backed`: whether the determined positions of an entry are those
  that its sources state;
* `Extraction.Accounts`: whether all entries are backed, and the sources of all entries
  and what is left over make up a list;
* `Extraction.accounts_ofEgds`: every extraction accounts for the list it is made from;
* `Extraction.satisfies_iff_extraction`: the list is satisfied iff the functional
  dependencies hold and the rest is satisfied, and each functional dependency says what
  its sources say;
* `Extraction.mem_dependencies_ofEgds`: the functional dependencies are those that determine
  all that the members of the list state for their predicate and key.
-/
import DependencyTheory.Proofs.FunctionalDependency.Shape

namespace DependencyTheory

universe u

variable {U : Type u}

/-! ### Backed entries -/

/-- Whether the sources of an entry state its predicate and key, each with one of the
determined positions, and all of these. -/
structure SourcedDependency.Backed (f : SourcedDependency) : Prop where
  source : ∀ e ∈ f.sources, ∃ i, e.functional? = some (f.fd.predicate, f.fd.key, i)
  mem_determined : ∀ i, i ∈ f.fd.determined ↔
    ∃ e ∈ f.sources, e.functional? = some (f.fd.predicate, f.fd.key, i)

/-- An entry that is backed says what its sources say. -/
lemma SourcedDependency.Backed.holdsIn_iff {f : SourcedDependency} (hf : f.Backed)
    (K : Vocabulary U) (D : Set (Fact U)) :
    f.fd.HoldsIn D ↔ ∀ e ∈ f.sources, K.SatisfiesEgd D e := by
  rw [FunctionalDependency.holdsIn_iff]
  constructor
  · intro h e he
    obtain ⟨i, hi⟩ := hf.source e he
    exact (Egd.satisfies_iff_determines hi).mpr (h i ((hf.mem_determined i).mpr ⟨e, he, hi⟩))
  · intro h i hi
    obtain ⟨e, he, hfunctional⟩ := (hf.mem_determined i).mp hi
    exact (Egd.satisfies_iff_determines hfunctional).mp (h e he)

namespace Extraction

variable {predicate : Handle} {key : IndexSet} {place : Nat} {e : Egd}

/-! ### One more dependency -/

/-- Recording a dependency keeps all entries backed. -/
lemma backed_record (he : e.functional? = some (predicate, key, place))
    {fs : List SourcedDependency} (hfs : ∀ f ∈ fs, f.Backed) :
    ∀ f ∈ record predicate key place e fs, f.Backed := by
  induction fs with
  | nil =>
      intro f hf
      obtain rfl := List.mem_singleton.mp hf
      refine ⟨fun e' he' => ?_, fun i => by simp [he, eq_comm]⟩
      obtain rfl := List.mem_singleton.mp he'
      exact ⟨place, he⟩
  | cons g rest ih =>
      have hg := hfs g List.mem_cons_self
      have hrest := fun f hf => hfs f (List.mem_cons_of_mem g hf)
      intro f hf
      rw [record] at hf
      split at hf
      · rename_i hsame
        obtain ⟨rfl, rfl⟩ := hsame
        rcases List.mem_cons.mp hf with rfl | hf
        · refine ⟨fun e' he' => ?_, fun i => ?_⟩
          · rcases List.mem_append.mp he' with he' | he'
            · exact hg.source e' he'
            · obtain rfl := List.mem_singleton.mp he'
              exact ⟨place, he⟩
          · simp only [IndexSet.mem_insert, hg.mem_determined, List.mem_append,
              List.mem_singleton, or_and_right, exists_or, exists_eq_left, he]
            simp [or_comm, eq_comm]
        · exact hrest f hf
      · rcases List.mem_cons.mp hf with rfl | hf
        · exact hg
        · exact ih hrest f hf

/-- Recording a dependency makes it a source, and leaves the other sources. -/
lemma mem_sources_record {fs : List SourcedDependency} {e' : Egd} :
    (∃ f ∈ record predicate key place e fs, e' ∈ f.sources) ↔
      e' = e ∨ ∃ f ∈ fs, e' ∈ f.sources := by
  induction fs with
  | nil => simp [record]
  | cons g rest ih =>
      rw [record]
      split
      · simp only [List.mem_cons, exists_eq_or_imp, List.mem_append, List.not_mem_nil, or_false]
        rw [or_assoc, or_left_comm]
      · simp only [List.mem_cons, exists_eq_or_imp]
        rw [ih, or_left_comm]

/-! ### The whole list -/

/-- Whether all entries are backed, and sources and rest are together the members of a
list. -/
structure Accounts (analysis : Extraction) (es : List Egd) : Prop where
  backed : ∀ f ∈ analysis.functional, f.Backed
  mem : ∀ e, e ∈ es ↔ (∃ f ∈ analysis.functional, e ∈ f.sources) ∨ e ∈ analysis.other

/-- One step accounts for one more dependency. -/
lemma Accounts.add {analysis : Extraction} {es : List Egd} (h : Accounts analysis es) (e : Egd) :
    Accounts (analysis.add e) (es ++ [e]) := by
  rw [Extraction.add]
  split
  · rename_i predicate key place he
    refine ⟨backed_record he h.backed, fun e' => ?_⟩
    rw [mem_sources_record, List.mem_append, h.mem, List.mem_singleton]
    rw [or_comm, ← or_assoc]
  · refine ⟨h.backed, fun e' => ?_⟩
    rw [List.mem_append, List.mem_append, h.mem, or_assoc]

/-- **An extraction accounts for its list.** -/
theorem accounts_ofEgds (es : List Egd) : Accounts (ofEgds es) es := by
  have hall : ∀ es done : List Egd, ∀ analysis : Extraction, Accounts analysis done →
      Accounts (es.foldl Extraction.add analysis) (done ++ es) := by
    intro es
    induction es with
    | nil =>
        intro done analysis h
        rwa [List.append_nil]
    | cons e es ih =>
        intro done analysis h
        have hadd := ih (done ++ [e]) (analysis.add e) (h.add e)
        rwa [List.append_assoc, List.singleton_append] at hadd
  exact hall es [] ⟨[], []⟩ ⟨by simp, by simp⟩

/-- All dependencies of a list are satisfied iff the sources of all entries and the rest
are. -/
lemma satisfies_iff_accounts {analysis : Extraction} {es : List Egd} (h : Accounts analysis es)
    (K : Vocabulary U) (D : Set (Fact U)) :
    (∀ e ∈ es, K.SatisfiesEgd D e) ↔
      (∀ f ∈ analysis.functional, f.fd.HoldsIn D) ∧ ∀ e ∈ analysis.other, K.SatisfiesEgd D e := by
  constructor
  · intro hes
    refine ⟨fun f hf => ?_, fun e he => hes e ((h.mem e).mpr (Or.inr he))⟩
    refine ((h.backed f hf).holdsIn_iff K D).mpr fun e he => ?_
    exact hes e ((h.mem e).mpr (Or.inl ⟨f, hf, he⟩))
  · rintro ⟨hfunctional, hother⟩ e he
    rcases (h.mem e).mp he with ⟨f, hf, he⟩ | he
    · exact ((h.backed f hf).holdsIn_iff K D).mp (hfunctional f hf) e he
    · exact hother e he

/-- If there is no rest, a list is satisfied iff its functional dependencies hold. -/
lemma satisfies_iff_of_other_eq_nil {es : List Egd} (h : (ofEgds es).other = [])
    (K : Vocabulary U) (D : Set (Fact U)) :
    (∀ e ∈ es, K.SatisfiesEgd D e) ↔ ∀ fd ∈ (ofEgds es).dependencies, fd.HoldsIn D := by
  rw [satisfies_iff_accounts (accounts_ofEgds es) K D, h]
  simp [dependencies]

/-- **Extraction keeps the meaning of a list.** In every set of facts, all dependencies
of the list are satisfied iff all functional dependencies hold and what is left over is
satisfied; and each functional dependency holds iff its own sources are satisfied. -/
theorem satisfies_iff_extraction (K : Vocabulary U) (D : Set (Fact U)) (es : List Egd) :
    ((∀ e ∈ es, K.SatisfiesEgd D e) ↔
      (∀ f ∈ (ofEgds es).functional, f.fd.HoldsIn D) ∧
        ∀ e ∈ (ofEgds es).other, K.SatisfiesEgd D e) ∧
      ∀ f ∈ (ofEgds es).functional,
        (f.fd.HoldsIn D ↔ ∀ e ∈ f.sources, K.SatisfiesEgd D e) :=
  ⟨satisfies_iff_accounts (accounts_ofEgds es) K D,
    fun f hf => ((accounts_ofEgds es).backed f hf).holdsIn_iff K D⟩

/-! ### What is collected -/

/-- The predicate and key of an entry. -/
def entryKey (f : SourcedDependency) : Handle × IndexSet := (f.fd.predicate, f.fd.key)

/-- Recording a dependency changes the entry for its predicate and key or adds one. -/
lemma map_entryKey_record (fs : List SourcedDependency) :
    (record predicate key place e fs).map entryKey =
      if (predicate, key) ∈ fs.map entryKey then fs.map entryKey
      else fs.map entryKey ++ [(predicate, key)] := by
  induction fs with
  | nil => rfl
  | cons g rest ih =>
      rw [record]
      by_cases hg : g.fd.predicate = predicate ∧ g.fd.key = key
      · obtain ⟨rfl, rfl⟩ := hg
        simp [entryKey]
      · have hne : (predicate, key) ≠ entryKey g :=
          fun h => hg ⟨(congrArg Prod.fst h).symm, (congrArg Prod.snd h).symm⟩
        simp only [if_neg hg, List.map_cons, ih, List.mem_cons, or_iff_right hne]
        split
        · rfl
        · rfl

lemma sources_ne_nil_record {fs : List SourcedDependency} (h : ∀ f ∈ fs, f.sources ≠ []) :
    ∀ f ∈ record predicate key place e fs, f.sources ≠ [] := by
  induction fs with
  | nil => simp [record]
  | cons g rest ih =>
      obtain ⟨hg, hrest⟩ := List.forall_mem_cons.mp h
      rw [record]
      split
      · exact List.forall_mem_cons.mpr ⟨List.append_ne_nil_of_right_ne_nil _ (by simp), hrest⟩
      · exact List.forall_mem_cons.mpr ⟨hg, ih hrest⟩

/-- Whether there is one entry for each predicate and key, with some source, and nothing is left
over that states a functional dependency. -/
structure Tidy (analysis : Extraction) : Prop where
  distinct : (analysis.functional.map entryKey).Nodup
  stated : ∀ f ∈ analysis.functional, f.sources ≠ []
  other : ∀ e ∈ analysis.other, e.functional? = none

lemma Tidy.add {analysis : Extraction} (h : Tidy analysis) (e : Egd) : Tidy (analysis.add e) := by
  rw [Extraction.add]
  split
  · refine ⟨?_, sources_ne_nil_record h.stated, h.other⟩
    rw [map_entryKey_record]
    split
    · exact h.distinct
    · next hnew => exact List.nodup_append.mpr ⟨h.distinct, List.nodup_singleton _, by grind⟩
  · next hnone =>
      refine ⟨h.distinct, h.stated, fun e' he' => ?_⟩
      rcases List.mem_append.mp he' with he' | he'
      · exact h.other e' he'
      · rwa [List.mem_singleton.mp he']

lemma tidy_ofEgds (es : List Egd) : Tidy (ofEgds es) :=
  List.foldlRecOn es Extraction.add ⟨List.nodup_nil, nofun, nofun⟩ fun _ h e _ => h.add e

/-- Nothing is left over iff every dependency states a functional one. -/
lemma other_ofEgds_eq_nil {es : List Egd} :
    (ofEgds es).other = [] ↔ ∀ e ∈ es, e.functional?.isSome = true := by
  have haccounts := accounts_ofEgds es
  constructor
  · intro hnil e he
    rcases (haccounts.mem e).mp he with ⟨f, hf, he⟩ | he
    · obtain ⟨i, hi⟩ := (haccounts.backed f hf).source e he
      exact Option.isSome_iff_exists.mpr ⟨_, hi⟩
    · exact absurd he (hnil ▸ List.not_mem_nil)
  · intro hall
    refine List.eq_nil_iff_forall_not_mem.mpr fun e he => ?_
    have hsome := hall e ((haccounts.mem e).mpr (Or.inr he))
    rw [(tidy_ofEgds es).other e he] at hsome
    cases hsome

/-- **The functional dependencies of a list** determine what its members state for their
predicate and key, and something at all. -/
theorem mem_dependencies_ofEgds {es : List Egd} {fd : FunctionalDependency} :
    fd ∈ (ofEgds es).dependencies ↔ (∃ i, i ∈ fd.determined) ∧
      ∀ i, i ∈ fd.determined ↔
        ∃ e ∈ es, e.functional? = some (fd.predicate, fd.key, i) := by
  have haccounts := accounts_ofEgds es
  have htidy := tidy_ofEgds es
  -- who states something is a source of the entry with the predicate and key
  have hsource : ∀ e ∈ es, ∀ {predicate key i}, e.functional? = some (predicate, key, i) →
      ∃ f ∈ (ofEgds es).functional, entryKey f = (predicate, key) ∧ e ∈ f.sources := by
    intro e he predicate key i hstates
    rcases (haccounts.mem e).mp he with ⟨f, hf, he⟩ | he
    · obtain ⟨j, hj⟩ := (haccounts.backed f hf).source e he
      rw [hstates] at hj
      cases hj
      exact ⟨f, hf, rfl, he⟩
    · cases hstates.symm.trans (htidy.other e he)
  have hdetermined : ∀ f ∈ (ofEgds es).functional, ∀ i, i ∈ f.fd.determined ↔
      ∃ e ∈ es, e.functional? = some (f.fd.predicate, f.fd.key, i) := by
    intro f hf i
    rw [(haccounts.backed f hf).mem_determined]
    constructor
    · exact fun ⟨e, he, hstates⟩ => ⟨e, (haccounts.mem e).mpr (Or.inl ⟨f, hf, he⟩), hstates⟩
    · rintro ⟨e, he, hstates⟩
      obtain ⟨f', hf', hkey, he'⟩ := hsource e he hstates
      rw [List.inj_on_of_nodup_map htidy.distinct hf' hf hkey] at he'
      exact ⟨e, he', hstates⟩
  rw [dependencies, List.mem_map]
  constructor
  · rintro ⟨f, hf, rfl⟩
    obtain ⟨e, he⟩ := List.exists_mem_of_ne_nil _ (htidy.stated f hf)
    obtain ⟨i, hi⟩ := (haccounts.backed f hf).source e he
    exact ⟨⟨i, ((haccounts.backed f hf).mem_determined i).mpr ⟨e, he, hi⟩⟩, hdetermined f hf⟩
  · rintro ⟨⟨i, hi⟩, hfd⟩
    obtain ⟨e, he, hstates⟩ := (hfd i).mp hi
    obtain ⟨f, hf, hkey, -⟩ := hsource e he hstates
    obtain ⟨hpredicate, hkey⟩ := Prod.mk.inj hkey
    refine ⟨f, hf, ?_⟩
    have hset : f.fd.determined = fd.determined := by
      refine IndexSet.ext fun j => ?_
      rw [hdetermined f hf, hfd, hpredicate, hkey]
    cases fd
    cases hfields : f.fd
    simp only [hfields] at hpredicate hkey hset
    rw [hpredicate, hkey, hset]

end Extraction

end DependencyTheory
