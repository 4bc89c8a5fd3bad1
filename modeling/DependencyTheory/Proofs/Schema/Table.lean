/-
Handles and names in tables of predicates:

* `Table.RefersTo`: whether a handle refers to a row with a given name;
* `Table.refersTo_concat`, `Table.refersTo_modify`: what declaring a predicate and adding a
  rule change about that;
* `Table.DistinctNames`: whether no two rows have the same name;
* `Table.handleNamed?_eq_some`: then looking up a name finds just the handle that refers to
  the row with this name.
-/
import DependencyTheory.Schema.Basic
import Mathlib.Data.List.Nodup
import Mathlib.Tactic.Lemma

namespace DependencyTheory.Table

variable {table : Table} {h : Handle} {p q : Predicate} {name : String} {i : Nat}

/-! ### References -/

/-- Whether a handle refers to a row with a given name. -/
def RefersTo (table : Table) (h : Handle) (name : String) : Prop :=
  ∃ p, table.get? h = some p ∧ p.name = name

lemma owns_iff : table.owns h = true ↔ ∃ name, table.RefersTo h name := by
  rw [owns, Option.isSome_iff_exists]
  constructor
  · rintro ⟨p, hp⟩
    exact ⟨p.name, p, hp, rfl⟩
  · rintro ⟨-, p, hp, -⟩
    exact ⟨p, hp⟩

/-- A handle refers to one row only. -/
lemma RefersTo.name_unique {other : String} (hn : table.RefersTo h name)
    (ho : table.RefersTo h other) : name = other := by
  obtain ⟨p, hp, rfl⟩ := hn
  obtain ⟨q, hq, rfl⟩ := ho
  rw [Option.some.inj (hp.symm.trans hq)]

/-- A handle that refers to a row has its place inside the table. -/
lemma RefersTo.index_lt (hn : table.RefersTo h name) : h.index < table.length := by
  obtain ⟨p, hp, -⟩ := hn
  exact (List.getElem?_eq_some_iff.mp (get?_eq_some.mp hp).1).1

lemma get?_handleOf (hp : table[i]? = some p) : table.get? (handleOf p i) = some p :=
  get?_eq_some.mpr ⟨hp, rfl, rfl⟩

/-- The handle of the row that a handle refers to is the handle itself. -/
lemma handleOf_of_get? (hp : table.get? h = some p) : handleOf p h.index = h := by
  obtain ⟨-, hissuer, harity⟩ := get?_eq_some.mp hp
  rw [handleOf, hissuer, harity]

/-- One more row is one more handle. -/
lemma get?_concat : get? (table ++ [p]) h = some q ↔
    table.get? h = some q ∨ h = handleOf p table.length ∧ q = p := by
  rw [get?_eq_some, get?_eq_some]
  rcases Nat.lt_trichotomy h.index table.length with hlt | heq | hgt
  · rw [List.getElem?_append_left hlt]
    refine (or_iff_left fun ⟨he, _⟩ => ?_).symm
    rw [he] at hlt
    exact Nat.lt_irrefl _ hlt
  · rw [heq, List.getElem?_concat_length, List.getElem?_eq_none (Nat.le_refl _)]
    constructor
    · rintro ⟨hq, hissuer, harity⟩
      obtain rfl := Option.some.inj hq
      exact Or.inr ⟨by rw [handleOf, hissuer, harity, ← heq], rfl⟩
    · rintro (⟨hq, -⟩ | ⟨rfl, rfl⟩)
      · exact absurd hq (by simp)
      · exact ⟨rfl, rfl, rfl⟩
  · have hlength : (table ++ [p]).length ≤ h.index := by
      rw [List.length_append, List.length_singleton]
      omega
    rw [List.getElem?_eq_none hlength, List.getElem?_eq_none (Nat.le_of_lt hgt)]
    constructor
    · rintro ⟨hq, -⟩
      exact absurd hq (by simp)
    · rintro (⟨hq, -⟩ | ⟨rfl, -⟩)
      · exact absurd hq (by simp)
      · exact absurd hgt (Nat.lt_irrefl _)

/-- **Declaring a predicate** adds one reference. -/
lemma refersTo_concat : RefersTo (table ++ [p]) h name ↔
    table.RefersTo h name ∨ h = handleOf p table.length ∧ name = p.name := by
  simp only [RefersTo, get?_concat]
  constructor
  · rintro ⟨q, hq | ⟨rfl, rfl⟩, rfl⟩
    · exact Or.inl ⟨q, hq, rfl⟩
    · exact Or.inr ⟨rfl, rfl⟩
  · rintro (⟨q, hq, hname⟩ | ⟨rfl, rfl⟩)
    · exact ⟨q, Or.inl hq, hname⟩
    · exact ⟨p, Or.inr ⟨rfl, rfl⟩, rfl⟩

/-- A row that is changed in its rules only is referred to as before. -/
lemma get?_modify {f : Predicate → Predicate}
    (hf : ∀ p, (f p).issuer = p.issuer ∧ (f p).arity = p.arity) :
    get? (table.modify i f) h = (table.get? h).map fun p => if i = h.index then f p else p := by
  rw [get?, get?, List.getElem?_modify]
  cases hp : table[h.index]? with
  | none => rfl
  | some p =>
      obtain ⟨hissuer, harity⟩ := hf p
      by_cases hi : i = h.index
      · simp [hi, Option.filter_some, hissuer, harity, apply_ite (Option.map _)]
      · simp [hi]

/-- **Adding a rule** changes no reference. -/
lemma refersTo_modify {f : Predicate → Predicate}
    (hf : ∀ p, (f p).issuer = p.issuer ∧ (f p).arity = p.arity) (hname : ∀ p, (f p).name = p.name) :
    RefersTo (table.modify i f) h name ↔ table.RefersTo h name := by
  simp only [RefersTo, get?_modify hf, Option.map_eq_some_iff]
  constructor
  · rintro ⟨_, ⟨p, hp, rfl⟩, rfl⟩
    refine ⟨p, hp, ?_⟩
    split
    · rw [hname]
    · rfl
  · rintro ⟨p, hp, rfl⟩
    refine ⟨_, ⟨p, hp, rfl⟩, ?_⟩
    split
    · rw [hname]
    · rfl

/-! ### Names -/

/-- Whether no two rows have the same name. -/
def DistinctNames (table : Table) : Prop := (table.map Predicate.name).Nodup

/-- A name is not found iff no row has it. -/
lemma handleNamed?_eq_none : table.handleNamed? name = none ↔ ∀ p ∈ table, p.name ≠ name := by
  simp only [handleNamed?, Option.map_eq_none_iff, List.find?_eq_none, Prod.forall, beq_iff_eq]
  constructor
  · intro h p hp
    obtain ⟨i, hi⟩ := List.mem_iff_getElem?.mp hp
    exact h p i (List.mem_zipIdx_iff_getElem?.mpr hi)
  · exact fun h p i hi => h p (List.mem_of_getElem? (List.mem_zipIdx_iff_getElem?.mp hi))

/-- The handle that is found for a name refers to a row with this name. -/
lemma refersTo_of_handleNamed? (hh : table.handleNamed? name = some h) :
    table.RefersTo h name := by
  obtain ⟨⟨p, i⟩, hfind, rfl⟩ := Option.map_eq_some_iff.mp hh
  have hrow : table[i]? = some p :=
    List.mem_zipIdx_iff_getElem?.mp (List.mem_of_find?_eq_some hfind)
  have hname : p.name = name := by simpa using List.find?_some hfind
  exact ⟨p, get?_handleOf hrow, hname⟩

/-- Two handles that refer to rows of the same name are the same, if names are distinct. -/
lemma RefersTo.handle_unique {k : Handle} (hdistinct : table.DistinctNames)
    (hh : table.RefersTo h name) (hk : table.RefersTo k name) : h = k := by
  obtain ⟨p, hp, hpn⟩ := hh
  obtain ⟨q, hq, hqn⟩ := hk
  have hnames : (table.map Predicate.name)[h.index]? = (table.map Predicate.name)[k.index]? := by
    rw [List.getElem?_map, List.getElem?_map, (get?_eq_some.mp hp).1, (get?_eq_some.mp hq).1,
      Option.map_some, Option.map_some, hpn, hqn]
  have hlt : h.index < (table.map Predicate.name).length := by
    rw [List.length_map]
    exact RefersTo.index_lt ⟨p, hp, hpn⟩
  have hindex : h.index = k.index := (List.getElem?_inj hlt hdistinct).mp hnames
  have hrow : p = q := by
    have hsame := (get?_eq_some.mp hp).1
    rw [hindex, (get?_eq_some.mp hq).1] at hsame
    exact (Option.some.inj hsame).symm
  rw [← handleOf_of_get? hp, ← handleOf_of_get? hq, hindex, hrow]

/-- **A name is looked up right**: what is found is the handle that refers to the row with
this name. -/
theorem handleNamed?_eq_some (hdistinct : table.DistinctNames) :
    table.handleNamed? name = some h ↔ table.RefersTo h name := by
  refine ⟨refersTo_of_handleNamed?, fun hh => ?_⟩
  cases hfound : table.handleNamed? name with
  | none =>
      obtain ⟨p, hp, hpn⟩ := hh
      have hmem : p ∈ table := List.mem_of_getElem? (get?_eq_some.mp hp).1
      exact absurd hpn (handleNamed?_eq_none.mp hfound p hmem)
  | some k =>
      rw [(refersTo_of_handleNamed? hfound).handle_unique hdistinct hh]

/-- Every row is found by its name. -/
lemma exists_handleNamed? (hdistinct : table.DistinctNames) (hp : p ∈ table) :
    ∃ h, table.handleNamed? p.name = some h ∧ table.get? h = some p := by
  obtain ⟨i, hi⟩ := List.mem_iff_getElem?.mp hp
  have hget : table.get? (handleOf p i) = some p := get?_handleOf hi
  exact ⟨_, (handleNamed?_eq_some hdistinct).mpr ⟨p, hget, rfl⟩, hget⟩

/-- Names stay distinct when a predicate is declared under a name that is not taken. -/
lemma DistinctNames.concat (hdistinct : table.DistinctNames)
    (hnew : table.handleNamed? p.name = none) : DistinctNames (table ++ [p]) := by
  rw [DistinctNames, List.map_append, List.map_singleton]
  refine List.Nodup.append hdistinct (List.nodup_singleton _) fun name hname hp => ?_
  obtain ⟨q, hq, rfl⟩ := List.mem_map.mp hname
  exact handleNamed?_eq_none.mp hnew q hq (List.mem_singleton.mp hp)

/-- What is read off all rows stays when a row is changed in other respects. -/
lemma map_modify {β : Type} {g : Predicate → β} {f : Predicate → Predicate}
    (hg : ∀ p, g (f p) = g p) : (table.modify i f).map g = table.map g := by
  refine List.ext_getElem? fun j => ?_
  rw [List.getElem?_map, List.getElem?_map, List.getElem?_modify]
  cases table[j]? with
  | none => rfl
  | some p => by_cases hi : i = j <;> simp [hi, hg]

/-- Names stay distinct when rows are changed in other respects. -/
lemma DistinctNames.modify (hdistinct : table.DistinctNames) {f : Predicate → Predicate}
    (hname : ∀ p, (f p).name = p.name) : DistinctNames (table.modify i f) := by
  rw [DistinctNames, map_modify hname]
  exact hdistinct

end DependencyTheory.Table
