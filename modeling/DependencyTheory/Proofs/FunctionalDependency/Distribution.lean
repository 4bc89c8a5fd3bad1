/-
How the members of a list are distributed among its functional dependencies:

* `FunctionalDependency.WellFormed`: whether key and determined positions are some positions of
  the predicate each, and have none in common; such a dependency is accepted by the check on
  positions, and its two sizes tell whether it has all positions;
* `Extraction.other_ofEgds`, `Extraction.sources_eq_filter`: what is left over and the sources of
  each entry are members of the list in their order, told apart by what they state;
* `Extraction.perm_ofEgds`: together they are all members, repetitions included;
* `Extraction.Distributes`: all this, with entries in the order in which they are first stated;
* `Extraction.ofEgds_wellFormed`: every extraction distributes its list among well-formed entries,
  whose order, sources and leftovers are all that the order of the list has an influence on.

An entry grows with the list, by one position at a time and without a check. It stays well formed
because every position is one that a source of the entry equates.
-/
import DependencyTheory.Proofs.FunctionalDependency.Extraction
import Mathlib.Data.List.Induction
import Mathlib.Data.List.Perm.Subperm

namespace DependencyTheory

/-! ### Well-formed dependencies -/

namespace FunctionalDependency

/-- Whether key and determined positions are some positions of the predicate each, and have none
in common. -/
structure WellFormed (fd : FunctionalDependency) : Prop where
  key_nonempty : ∃ i, i ∈ fd.key
  determined_nonempty : ∃ i, i ∈ fd.determined
  disjoint : ∀ i ∈ fd.key, i ∉ fd.determined
  key_lt : ∀ i ∈ fd.key, i < fd.predicate.arity
  determined_lt : ∀ i ∈ fd.determined, i < fd.predicate.arity

variable {fd : FunctionalDependency}

/-- The check on positions accepts a well-formed dependency. -/
lemma WellFormed.ofPositions?_eq (h : fd.WellFormed) :
    ofPositions? fd.predicate fd.key.toList fd.determined.toList = some fd := by
  have hofList : ∀ is : IndexSet, IndexSet.ofList is.toList = is := fun is =>
    IndexSet.ext fun i => IndexSet.mem_ofList
  have hrange : (fd.key.toList ++ fd.determined.toList).all (· < fd.predicate.arity) = true := by
    simp only [List.all_eq_true, decide_eq_true_eq]
    exact fun i hi => (List.mem_append.mp hi).elim (h.key_lt i) (h.determined_lt i)
  have hdisjoint : fd.key.toList.all (· ∉ fd.determined.toList) = true := by
    simp only [List.all_eq_true, decide_eq_true_eq]
    exact h.disjoint
  rw [ofPositions?, hrange, hdisjoint, hofList, hofList]
  rfl

/-- **Two sizes tell a key dependency**: the positions are as many as the arity iff they are all
positions of the predicate. -/
lemma WellFormed.isKey_iff (h : fd.WellFormed) :
    fd.isKey = true ↔ ∀ i, i < fd.predicate.arity ↔ i ∈ fd.key ∨ i ∈ fd.determined := by
  have hnodup : (fd.key.toList ++ fd.determined.toList).Nodup :=
    List.Nodup.append (fd.key.ascending.imp Nat.ne_of_lt) (fd.determined.ascending.imp Nat.ne_of_lt)
      h.disjoint
  have hsub : fd.key.toList ++ fd.determined.toList ⊆ List.range fd.predicate.arity :=
    fun i hi => List.mem_range.mpr
      ((List.mem_append.mp hi).elim (h.key_lt i) (h.determined_lt i))
  have hsize : fd.isKey = true ↔
      (fd.key.toList ++ fd.determined.toList).length = fd.predicate.arity := by
    rw [isKey, beq_iff_eq, List.length_append]
    rfl
  have hmem : ∀ i, (i ∈ List.range fd.predicate.arity ↔
      i ∈ fd.key.toList ++ fd.determined.toList) ↔
        (i < fd.predicate.arity ↔ i ∈ fd.key ∨ i ∈ fd.determined) := fun i => by
    rw [List.mem_range, List.mem_append, IndexSet.mem_toList, IndexSet.mem_toList]
  rw [hsize, ← forall_congr' hmem, ← List.perm_ext_iff_of_nodup List.nodup_range hnodup]
  constructor
  · intro hlength
    exact ((List.subperm_of_subset hnodup hsub).perm_of_length_le
      (by rw [hlength, List.length_range])).symm
  · intro hperm
    rw [← hperm.length_eq, List.length_range]

end FunctionalDependency

/-- The positions that two rows share and the one at which they are compared are positions of the
predicate. -/
lemma Egd.Compares.lt_arity {e : Egd} {h : Handle} {key : IndexSet} {place : Nat}
    {xs ys : List String} (hc : e.Compares h key place xs ys) :
    (∀ i ∈ key, i < h.arity) ∧ place < h.arity := by
  obtain ⟨a, b, -, ⟨hpredicate, hterms⟩, -⟩ := hc.body
  have hlength : xs.length = h.arity := by
    rw [← hpredicate, ← a.fits, hterms, List.length_map]
  have hlt : ∀ {i : Nat} {x}, xs[i]? = some x → i < h.arity := fun hx =>
    hlength ▸ (List.getElem?_eq_some_iff.mp hx).1
  refine ⟨fun i hi => ?_, ?_⟩
  · obtain ⟨x, hx, -⟩ := (hc.mem_key i).mp hi
    exact hlt hx
  · obtain ⟨left, right, -, -, ⟨hx, -⟩ | ⟨hx, -⟩⟩ := hc.sides
    · exact hlt hx
    · exact hlt hx

namespace SourcedDependency

variable {f : SourcedDependency}

/-- Whether a dependency equates a position in rows that share the key of an entry. -/
def EquatedBy (f : SourcedDependency) (e : Egd) (i : Nat) : Prop :=
  ∃ xs ys, e.Compares f.fd.predicate f.fd.key i xs ys

lemma equatedBy_iff {e : Egd} {i : Nat} :
    f.EquatedBy e i ↔ e.functional? = some (f.fd.predicate, f.fd.key, i) :=
  ⟨fun ⟨_, _, hc⟩ => hc.functional?_eq, Egd.compares_of_functional?⟩

/-- **An entry with a source is well formed** when its determined positions are those that its
sources equate. -/
lemma Backed.wellFormed (h : f.Backed) (hsources : f.sources ≠ []) : f.fd.WellFormed := by
  have hequated : ∀ i ∈ f.fd.determined, ∃ e ∈ f.sources, f.EquatedBy e i := by
    intro i hi
    obtain ⟨e, he, hstates⟩ := (h.mem_determined i).mp hi
    exact ⟨e, he, equatedBy_iff.mpr hstates⟩
  obtain ⟨e, he⟩ := List.exists_mem_of_ne_nil _ hsources
  obtain ⟨place, hplace⟩ := h.source e he
  obtain ⟨xs, ys, hc⟩ := Egd.compares_of_functional? hplace
  refine ⟨hc.nonempty, ⟨place, (h.mem_determined place).mpr ⟨e, he, hplace⟩⟩, ?_,
    hc.lt_arity.1, ?_⟩
  · intro i hkey hi
    obtain ⟨e', -, xs', ys', hc'⟩ := hequated i hi
    exact hc'.place_notMem hkey
  · intro i hi
    obtain ⟨e', -, xs', ys', hc'⟩ := hequated i hi
    exact hc'.lt_arity.2

/-- Whether a source of an entry comes in a list before all sources of another. -/
def Precedes (es : List Egd) (f g : SourcedDependency) : Prop :=
  ∃ before e after, es = before ++ e :: after ∧ e ∈ f.sources ∧ ∀ e' ∈ before, e' ∉ g.sources

end SourcedDependency

open SourcedDependency

/-! ### Members of the list -/

/-- The predicate and key that an equality-generating dependency states. -/
def Egd.statedKey? (e : Egd) : Option (Handle × IndexSet) :=
  e.functional?.map fun stated => (stated.1, stated.2.1)

lemma Egd.statedKey?_eq_some {e : Egd} {k : Handle × IndexSet} :
    e.statedKey? = some k ↔ ∃ i, e.functional? = some (k.1, k.2, i) := by
  rw [statedKey?, Option.map_eq_some_iff]
  constructor
  · rintro ⟨⟨h, key, i⟩, hstates, rfl⟩
    exact ⟨i, hstates⟩
  · rintro ⟨i, hstates⟩
    exact ⟨_, hstates, rfl⟩

namespace Extraction

variable {es : List Egd} {e : Egd} {predicate : Handle} {key : IndexSet} {place : Nat}
  {fs : List SourcedDependency} {f g : SourcedDependency}

lemma ofEgds_concat (es : List Egd) (e : Egd) : ofEgds (es ++ [e]) = (ofEgds es).add e :=
  List.foldl_concat ..

/-- What is left over are the members that state nothing, in their order. -/
lemma other_ofEgds (es : List Egd) :
    (ofEgds es).other = es.filter fun e => e.functional?.isNone := by
  induction es using List.reverseRecOn with
  | nil => rfl
  | append_singleton es e ih =>
      rw [ofEgds_concat, add, List.filter_append, ← ih]
      cases hstates : e.functional? with
      | none => simp [hstates]
      | some stated => simp [hstates]

/-- The entries have the predicates and keys that members of the list state. -/
lemma mem_entryKeys {k : Handle × IndexSet} :
    k ∈ (ofEgds es).functional.map entryKey ↔ ∃ e ∈ es, e.statedKey? = some k := by
  induction es using List.reverseRecOn with
  | nil => simp [ofEgds]
  | append_singleton es e ih =>
      rw [ofEgds_concat, add]
      simp only [List.mem_append, List.mem_singleton, or_and_right, exists_or, exists_eq_left, ← ih]
      cases hstates : e.functional? with
      | none => simp [Egd.statedKey?, hstates]
      | some stated =>
          have hkey : e.statedKey? = some k ↔ (stated.1, stated.2.1) = k := by
            rw [Egd.statedKey?, hstates, Option.map_some, Option.some_inj]
          rw [map_entryKey_record, hkey]
          split
          · next hold => exact (or_iff_left_of_imp fun heq => heq ▸ hold).symm
          · rw [List.mem_append, List.mem_singleton, eq_comm]

/-- A dependency that is recorded becomes the last source of the entry for what it states; the
sources of the other entries stay. -/
lemma sources_record (hstates : e.statedKey? = some (predicate, key))
    (hnodup : (fs.map entryKey).Nodup)
    (hnew : (predicate, key) ∉ fs.map entryKey →
      es.filter (fun e => e.statedKey? = some (predicate, key)) = [])
    (hfs : ∀ f ∈ fs, f.sources = es.filter fun e => e.statedKey? = some (entryKey f)) :
    ∀ f ∈ record predicate key place e fs,
      f.sources = (es ++ [e]).filter fun e => e.statedKey? = some (entryKey f) := by
  have hother : ∀ f : SourcedDependency, entryKey f ≠ (predicate, key) →
      f.sources = (es.filter fun e => e.statedKey? = some (entryKey f)) →
        f.sources = (es ++ [e]).filter fun e => e.statedKey? = some (entryKey f) := by
    intro f hne hf
    have hnot : ¬(predicate, key) = entryKey f := fun heq => hne heq.symm
    simp [List.filter_append, hstates, hnot, ← hf]
  induction fs with
  | nil =>
      intro f hf
      obtain rfl := List.mem_singleton.mp hf
      change [e] = (es ++ [e]).filter fun e => e.statedKey? = some (predicate, key)
      rw [List.filter_append, hnew List.not_mem_nil]
      simp [hstates]
  | cons g rest ih =>
      obtain ⟨hg, hrest⟩ := List.forall_mem_cons.mp hfs
      obtain ⟨hapart, hnodup⟩ := List.nodup_cons.mp hnodup
      rw [record]
      split
      · next hsame =>
          have hkey : entryKey g = (predicate, key) := Prod.ext hsame.1 hsame.2
          refine List.forall_mem_cons.mpr ⟨?_, fun f hf => ?_⟩
          · simp only [List.filter_append, hg, hkey]
            simp [entryKey, hsame, hstates]
          · refine hother f (fun heq => hapart ?_) (hrest f hf)
            exact hkey.trans heq.symm ▸ List.mem_map_of_mem hf
      · next hdiffer =>
          have hne : entryKey g ≠ (predicate, key) := fun heq =>
            hdiffer ⟨congrArg Prod.fst heq, congrArg Prod.snd heq⟩
          refine List.forall_mem_cons.mpr ⟨hother g hne hg, ih hnodup (fun h => hnew ?_) hrest⟩
          exact fun hmem => (List.mem_cons.mp hmem).elim (fun heq => hne heq.symm) h

/-- **The sources of an entry** are the members of the list that state its predicate and key, in
their order. -/
theorem sources_eq_filter (es : List Egd) : ∀ f ∈ (ofEgds es).functional,
    f.sources = es.filter fun e => e.statedKey? = some (entryKey f) := by
  induction es using List.reverseRecOn with
  | nil => exact fun f hf => absurd hf List.not_mem_nil
  | append_singleton es e ih =>
      rw [ofEgds_concat, add]
      cases hstates : e.functional? with
      | none =>
          have hnone : e.statedKey? = none := by rw [Egd.statedKey?, hstates, Option.map_none]
          simpa [List.filter_append, hnone] using ih
      | some stated =>
          have hkey : e.statedKey? = some (stated.1, stated.2.1) := by
            rw [Egd.statedKey?, hstates, Option.map_some]
          refine sources_record hkey (tidy_ofEgds es).distinct (fun hnew => ?_) ih
          refine List.filter_eq_nil_iff.mpr fun e' he' hstates' => hnew ?_
          exact mem_entryKeys.mpr ⟨e', he', of_decide_eq_true hstates'⟩

/-- Recording a dependency adds it to the sources. -/
lemma flatMap_sources_record (fs : List SourcedDependency) :
    ((record predicate key place e fs).flatMap SourcedDependency.sources).Perm
      (e :: fs.flatMap SourcedDependency.sources) := by
  induction fs with
  | nil => rfl
  | cons g rest ih =>
      rw [record]
      split
      · rw [List.flatMap_cons, List.flatMap_cons, List.append_assoc, List.singleton_append]
        exact List.perm_middle
      · rw [List.flatMap_cons, List.flatMap_cons]
        exact (ih.append_left g.sources).trans List.perm_middle

/-- **Nothing is lost**: what is left over and all sources are the members of the list, each as
often as in the list. -/
theorem perm_ofEgds (es : List Egd) :
    ((ofEgds es).other ++ (ofEgds es).functional.flatMap SourcedDependency.sources).Perm es := by
  induction es using List.reverseRecOn with
  | nil => rfl
  | append_singleton es e ih =>
      refine List.Perm.trans ?_ ((ih.cons e).trans (List.perm_append_singleton e es).symm)
      rw [ofEgds_concat, add]
      cases e.functional? with
      | none =>
          rw [List.append_assoc, List.singleton_append]
          exact List.perm_middle
      | some stated =>
          exact ((flatMap_sources_record _).append_left _).trans List.perm_middle

/-! ### The order of the entries -/

/-- Whether a member of a list states the one predicate and key before any states the other. -/
def StatedBefore (es : List Egd) (k l : Handle × IndexSet) : Prop :=
  ∃ before e after, es = before ++ e :: after ∧ e.statedKey? = some k ∧
    ∀ e' ∈ before, e'.statedKey? ≠ some l

lemma StatedBefore.concat {k l : Handle × IndexSet} (h : StatedBefore es k l) :
    StatedBefore (es ++ [e]) k l := by
  obtain ⟨before, e₀, after, rfl, hk, hl⟩ := h
  exact ⟨before, e₀, after ++ [e], by simp, hk, hl⟩

/-- **Entries stand in the order in which they are first stated.** -/
theorem pairwise_statedBefore (es : List Egd) :
    ((ofEgds es).functional.map entryKey).Pairwise (StatedBefore es) := by
  induction es using List.reverseRecOn with
  | nil => exact .nil
  | append_singleton es e ih =>
      have hold := ih.imp fun {k l} (h : StatedBefore es k l) => h.concat (e := e)
      rw [ofEgds_concat, add]
      cases e.functional? with
      | none => exact hold
      | some stated =>
          rw [map_entryKey_record]
          split
          · exact hold
          · next hnew =>
              -- what is stated for the first time comes behind all that has been stated
              refine List.pairwise_append.mpr ⟨hold, List.pairwise_singleton .., ?_⟩
              intro k hk l hl
              obtain rfl := List.mem_singleton.mp hl
              obtain ⟨e', he', hstates⟩ := mem_entryKeys.mp hk
              obtain ⟨before, after, rfl⟩ := List.append_of_mem he'
              refine StatedBefore.concat ⟨before, e', after, rfl, hstates, fun e'' he'' => ?_⟩
              exact fun hstates' => hnew (mem_entryKeys.mpr ⟨e'', by simp [he''], hstates'⟩)

/-! ### The whole list -/

/-- Whether an extraction distributes the members of a list: each is left over or a source of one
entry as often as it is in the list, and nowhere else; members keep their order among those left
over and among the sources of an entry; and entries stand in the order of their first sources,
one for each predicate and key. -/
structure Distributes (analysis : Extraction) (es : List Egd) : Prop where
  perm : (analysis.other ++ analysis.functional.flatMap SourcedDependency.sources).Perm es
  other_sublist : analysis.other.Sublist es
  sources_sublist : ∀ f ∈ analysis.functional, f.sources.Sublist es
  other_apart : ∀ f ∈ analysis.functional, ∀ e ∈ f.sources, e ∉ analysis.other
  sources_apart : analysis.functional.Pairwise fun f g => ∀ e ∈ f.sources, e ∉ g.sources
  distinct : (analysis.functional.map fun f => (f.fd.predicate, f.fd.key)).Nodup
  order : analysis.functional.Pairwise (Precedes es)

lemma distributes_ofEgds (es : List Egd) : (ofEgds es).Distributes es := by
  have hsources : ∀ f ∈ (ofEgds es).functional, ∀ e,
      e ∈ f.sources ↔ e ∈ es ∧ e.statedKey? = some (entryKey f) := by
    intro f hf e
    rw [sources_eq_filter es f hf, List.mem_filter, decide_eq_true_eq]
  have hdistinct := (tidy_ofEgds es).distinct
  refine ⟨perm_ofEgds es, ?_, fun f hf => ?_, fun f hf e he hother => ?_, ?_, hdistinct, ?_⟩
  · rw [other_ofEgds]
    exact List.filter_sublist
  · rw [sources_eq_filter es f hf]
    exact List.filter_sublist
  · have hnone := (tidy_ofEgds es).other e hother
    obtain ⟨i, hi⟩ := Egd.statedKey?_eq_some.mp ((hsources f hf e).mp he).2
    cases hnone.symm.trans hi
  · refine (List.pairwise_map.mp hdistinct).imp_of_mem fun {f g} hf hg hne e he he' => hne ?_
    have hf' := ((hsources f hf e).mp he).2
    exact Option.some.inj (hf'.symm.trans ((hsources g hg e).mp he').2)
  · refine (List.pairwise_map.mp (pairwise_statedBefore es)).imp_of_mem fun {f g} hf hg h => ?_
    obtain ⟨before, e, after, heq, hstates, hbefore⟩ := h
    refine ⟨before, e, after, heq, (hsources f hf e).mpr ⟨heq ▸ by simp, hstates⟩, ?_⟩
    exact fun e' he' hg' => hbefore e' he' ((hsources g hg e').mp hg').2

/-- The functional dependencies of a list do not depend on its order, but for their own. -/
lemma perm_dependencies {es' : List Egd} (hperm : es.Perm es') :
    (ofEgds es).dependencies.Perm (ofEgds es').dependencies := by
  have hnodup : ∀ es, (ofEgds es).dependencies.Nodup := by
    intro es
    refine .of_map (fun fd => (fd.predicate, fd.key)) ?_
    rw [dependencies, List.map_map]
    exact (tidy_ofEgds es).distinct
  refine (List.perm_ext_iff_of_nodup (hnodup es) (hnodup es')).mpr fun fd => ?_
  simp only [mem_dependencies_ofEgds, hperm.mem_iff]

/-- **Extraction loses nothing, and its entries are well formed.** Every member of the list is
left over or a source of one entry, as often as it is in the list, all in the order of the list.
What is left over compares no rows. The determined positions of an entry are those that its
sources equate, so that it is well formed, and two sizes tell whether it has all positions of its
predicate. In another order the list has the same functional dependencies. -/
theorem ofEgds_wellFormed {es es' : List Egd} (hperm : es.Perm es') :
    (ofEgds es).Distributes es ∧
      (∀ e ∈ (ofEgds es).other, ∀ h key i xs ys, ¬e.Compares h key i xs ys) ∧
      (∀ f ∈ (ofEgds es).functional, f.fd.WellFormed ∧
        (∀ e ∈ f.sources, ∃ i, f.EquatedBy e i) ∧
        (∀ i, i ∈ f.fd.determined ↔ ∃ e ∈ f.sources, f.EquatedBy e i) ∧
        FunctionalDependency.ofPositions? f.fd.predicate f.fd.key.toList
          f.fd.determined.toList = some f.fd ∧
        (f.fd.isKey = true ↔
          ∀ i, i < f.fd.predicate.arity ↔ i ∈ f.fd.key ∨ i ∈ f.fd.determined)) ∧
      (ofEgds es).dependencies.Perm (ofEgds es').dependencies := by
  refine ⟨distributes_ofEgds es, fun e he h key i xs ys hc => ?_, fun f hf => ?_,
    perm_dependencies hperm⟩
  · cases hc.functional?_eq.symm.trans ((tidy_ofEgds es).other e he)
  · have hbacked := (accounts_ofEgds es).backed f hf
    have hwell := hbacked.wellFormed ((tidy_ofEgds es).stated f hf)
    simp only [equatedBy_iff]
    exact ⟨hwell, hbacked.source, hbacked.mem_determined, hwell.ofPositions?_eq, hwell.isKey_iff⟩

/-- Two of four dependencies over a predicate with three positions state the same key, one of them
twice; together they have all positions. One states another key, and one shares variables across
positions. -/
theorem ofEgds_wellFormed_row :
    let row (xs : List String) : Atom := .ofVars 0 xs
    let second : Egd :=
      ⟨.ofAtoms (row ["k", "x", "u"]) [row ["k", "y", "v"]], .var "x", .var "y"⟩
    let third : Egd :=
      ⟨.ofAtoms (row ["k", "x", "u"]) [row ["k", "y", "v"]], .var "v", .var "u"⟩
    let first : Egd :=
      ⟨.ofAtoms (row ["a", "k", "u"]) [row ["b", "k", "v"]], .var "a", .var "b"⟩
    let crossed : Egd :=
      ⟨.ofAtoms (row ["k", "x", "u"]) [row ["x", "k", "v"]], .var "u", .var "v"⟩
    let es := [second, crossed, first, third, second]
    es.Perm [first, third, crossed, second, second] ∧ (ofEgds es).Distributes es ∧
      (ofEgds es).dependencies.Perm
        (ofEgds [first, third, crossed, second, second]).dependencies ∧
      ∃ f g, (ofEgds es).functional = [f, g] ∧ f.sources = [second, third, second] ∧
        f.fd.WellFormed ∧ (∀ i, i < f.fd.predicate.arity ↔ i ∈ f.fd.key ∨ i ∈ f.fd.determined) ∧
        ¬∀ i, i < g.fd.predicate.arity ↔ i ∈ g.fd.key ∨ i ∈ g.fd.determined := by
  intro row second third first crossed es
  have hperm : es.Perm [first, third, crossed, second, second] := by decide
  obtain ⟨hdistributes, -, hentries, hdependencies⟩ := ofEgds_wellFormed hperm
  have hfound : (ofEgds es).functional.map (fun f => (f.sources, f.fd.isKey)) =
      [([second, third, second], true), ([first], false)] := by decide
  obtain ⟨f, fs, hfs, hf, hrest⟩ := List.map_eq_cons_iff.mp hfound
  obtain ⟨g, rfl, hg⟩ := List.map_eq_singleton_iff.mp hrest
  obtain ⟨hsources, hkey⟩ := Prod.mk.inj hf
  obtain ⟨hwell, -, -, -, hall⟩ := hentries f (by simp [hfs])
  obtain ⟨-, -, -, -, hnot⟩ := hentries g (by simp [hfs])
  refine ⟨hperm, hdistributes, hdependencies, f, g, hfs, hsources, hwell, hall.mp hkey, ?_⟩
  rw [← hnot, (Prod.mk.inj hg).2]
  exact Bool.false_ne_true

end Extraction

end DependencyTheory
