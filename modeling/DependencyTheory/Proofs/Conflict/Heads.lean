/-
Head atoms that do not conflict with a key:

* `Tgd.Accords`: whether an atom has variables only, no existential variable twice, and
  universal variables at key positions only;
* `Tgd.accords_of_conflictsWith`: the head atoms over the predicate of a functional
  dependency are like this if there is no conflict;
* `Tgd.eq_of_conflictsWith`: then no two of them share an existential variable;
* `Tgd.Accords.exists_toFact_eq`: a fact that agrees with such an atom on the key is the
  atom itself, under other values for the existential variables;
* `Schema.isNonConflicting_iff`: what the check of a schema says.
-/
import DependencyTheory.Conflict
import DependencyTheory.Proofs.Semantics.Facts
import Mathlib.Data.List.Nodup
import Mathlib.Data.List.Pairwise

namespace DependencyTheory

universe u

variable {U : Type u} {K : Vocabulary U} {t : Tgd} {fd : FunctionalDependency} {a b : Atom}
  {x : String}

/-! ### One atom -/

/-- A name that passes a test stands at one place of a list of terms, if the names that
pass it are all different. -/
lemma Term.place_unique {p : String → Bool} {terms : List Term} {i j : Nat}
    (hnodup : ((Term.vars terms).filter p).Nodup) (hx : p x = true)
    (hi : terms[i]? = some (.var x)) (hj : terms[j]? = some (.var x)) : i = j := by
  -- what stands first does not stand again
  have hfirst : ∀ {rest : List Term} {k : Nat},
      ((Term.vars (.var x :: rest)).filter p).Nodup → rest[k]? ≠ some (.var x) := by
    intro rest k h hk
    have hvars : Term.vars (.var x :: rest) = x :: Term.vars rest := rfl
    rw [hvars, List.filter_cons_of_pos hx] at h
    exact (List.nodup_cons.mp h).1
      (List.mem_filter.mpr ⟨Term.mem_vars.mpr (List.mem_of_getElem? hk), hx⟩)
  induction terms generalizing i j with
  | nil => exact absurd hi (by simp)
  | cons term rest ih =>
      have hrest : ((Term.vars rest).filter p).Nodup := by
        refine hnodup.sublist (List.Sublist.filter p ?_)
        exact (List.sublist_cons_self term rest).filterMap _
      cases i with
      | zero =>
          obtain rfl : term = .var x := Option.some.inj hi
          cases j with
          | zero => rfl
          | succ j => exact absurd (List.getElem?_cons_succ.symm.trans hj) (hfirst hnodup)
      | succ i =>
          cases j with
          | zero =>
              obtain rfl : term = .var x := Option.some.inj hj
              exact absurd (List.getElem?_cons_succ.symm.trans hi) (hfirst hnodup)
          | succ j => exact congrArg (· + 1) (ih hrest hi hj)

namespace Tgd

/-- Whether an atom of a head accords with a key: it has variables only, no existential
variable stands in it twice, and universal variables stand at key positions. -/
structure Accords (t : Tgd) (key : IndexSet) (a : Atom) : Prop where
  var : ∀ term ∈ a.terms, ∃ x, term = .var x
  once : ∀ x ∈ t.existential, ∀ i j : Nat, a.terms[i]? = some (.var x) →
    a.terms[j]? = some (.var x) → i = j
  universal : ∀ x ∈ t.universal, ∀ i : Nat, a.terms[i]? = some (.var x) → i ∈ key

lemma accords_of_atomConflicts {key : IndexSet} (h : t.atomConflicts key a = false) :
    t.Accords key a := by
  simp only [atomConflicts, Bool.or_eq_false_iff, Bool.not_eq_false', decide_eq_true_eq] at h
  obtain ⟨⟨hconst, hnodup⟩, huniversal⟩ := h
  refine ⟨fun term hterm => ?_, fun x hx i j hi hj => ?_, fun x hx i hi => ?_⟩
  · have hnot := List.any_eq_false.mp hconst term hterm
    cases term with
    | var x => exact ⟨x, rfl⟩
    | const c => exact absurd rfl hnot
  · rw [existentialOccurrences, List.flatMap_singleton] at hnodup
    exact Term.place_unique hnodup (decide_eq_true hx) hi hj
  · have hnot := List.any_eq_false.mp huniversal (.var x, i)
      (List.mem_zipIdx_iff_getElem?.mpr hi)
    simpa [hx] using hnot

/-- Without a conflict, the head atoms over the predicate accord with the key. -/
lemma accords_of_conflictsWith (h : t.conflictsWith fd = false) (ha : a ∈ t.head)
    (hp : a.predicate = fd.predicate) : t.Accords fd.key a := by
  rw [conflictsWith, Bool.or_eq_false_iff] at h
  have hnot := List.any_eq_false.mp h.2 a (List.mem_filter.mpr ⟨ha, decide_eq_true hp⟩)
  exact accords_of_atomConflicts (by simpa using hnot)

/-- Without a conflict, no two atoms over the predicate share an existential
variable. -/
lemma eq_of_conflictsWith (h : t.conflictsWith fd = false) (ha : a ∈ t.head) (hb : b ∈ t.head)
    (hpa : a.predicate = fd.predicate) (hpb : b.predicate = fd.predicate)
    (hx : x ∈ t.existential) (hxa : x ∈ a.vars) (hxb : x ∈ b.vars) : a = b := by
  rw [conflictsWith, Bool.or_eq_false_iff, Bool.and_eq_false_iff, Bool.not_eq_false',
    decide_eq_false_iff_not, decide_eq_true_eq] at h
  have hmem : ∀ {c}, c ∈ t.head → c.predicate = fd.predicate →
      c ∈ t.head.filter (·.predicate = fd.predicate) :=
    fun hc hp => List.mem_filter.mpr ⟨hc, decide_eq_true hp⟩
  rcases h.1 with hlength | hnodup
  · -- there is one such atom only
    obtain ⟨c, hc⟩ : ∃ c, t.head.filter (·.predicate = fd.predicate) = [c] := by
      refine List.length_eq_one_iff.mp (Nat.le_antisymm (Nat.not_lt.mp hlength) ?_)
      exact List.length_pos_of_mem (hmem ha hpa)
    have hall : ∀ {d}, d ∈ t.head → d.predicate = fd.predicate → d = c :=
      fun hd hp => List.mem_singleton.mp (hc ▸ hmem hd hp)
    rw [hall ha hpa, hall hb hpb]
  · -- no existential variable stands twice, so not in two atoms
    rw [existentialOccurrences, List.filter_flatMap, List.nodup_flatMap] at hnodup
    have hocc : ∀ {c : Atom}, x ∈ c.vars → x ∈ c.vars.filter (· ∈ t.existential) :=
      fun hc => List.mem_filter.mpr ⟨hc, decide_eq_true hx⟩
    have hsymm : Std.Symm (Function.onFun List.Disjoint fun c : Atom =>
        c.vars.filter (· ∈ t.existential)) := ⟨fun _ _ h _ hb ha => h ha hb⟩
    by_contra hne
    exact hnodup.2.forall ha hb hne (hocc hxa) (hocc hxb)

/-- **A fact that agrees with an atom on the key is a value of it**: the existential
variables can be given the values of the fact, and the others keep theirs. -/
theorem Accords.exists_toFact_eq {key : IndexSet} (h : t.Accords key a) (ha : a ∈ t.head)
    {v : String → U} {f : Fact U} (hp : a.predicate = f.predicate)
    (hkey : AgreeOn key (a.toFact (K.value v)).args f.args) :
    ∃ w : String → U, (∀ x, x ∉ t.existential → w x = v x) ∧ a.toFact (K.value w) = f := by
  have hlength : a.terms.length = f.args.length := by rw [a.fits, f.fits, hp]
  obtain ⟨w, hw, hargs⟩ := K.exists_value_eq (v := v) (· ∈ t.existential) hlength h.once
    fun i term hterm hfixed => by
      obtain ⟨x, rfl⟩ := h.var term (List.mem_of_getElem? hterm)
      have hx : x ∈ a.vars := Term.mem_vars.mpr (List.mem_of_getElem? hterm)
      have huniversal : x ∈ t.universal :=
        (mem_universal_or_existential ha hx).resolve_right (hfixed x rfl)
      rw [← hkey i (h.universal x huniversal i hterm), Atom.args_toFact, List.getElem?_map,
        hterm, Option.map_some]
  exact ⟨w, hw, Fact.ext hp hargs⟩

end Tgd

/-! ### The whole schema -/

/-- What it means that a schema is non-conflicting: every dependency that generates
equalities states a key, and no other dependency conflicts with one. -/
lemma Schema.isNonConflicting_iff {s : Schema} : s.isNonConflicting = true ↔
    (Extraction.ofEgds s.egds).other = [] ∧
      (∀ fd ∈ (Extraction.ofEgds s.egds).dependencies, fd.isKey = true) ∧
      ∀ t ∈ s.tgds, ∀ fd ∈ (Extraction.ofEgds s.egds).dependencies,
        t.conflictsWith fd = false := by
  simp only [isNonConflicting, anyConflict, Bool.and_eq_true, List.isEmpty_iff, List.all_eq_true,
    Bool.not_eq_true', List.any_eq_false, Bool.not_eq_true, and_assoc]

end DependencyTheory
