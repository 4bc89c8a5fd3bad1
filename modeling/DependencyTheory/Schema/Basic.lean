/-
Schemas, which declare predicates and state dependencies over them:

* `Rule`: a derivation rule, `head :- body`;
* `Predicate`: a row of a schema's table;
* `Schema`: a table and the dependencies over it;
* `Schema.handleNamed?`, `Schema.get?`: from a name to a handle, and from a
  handle to the row that it refers to.

A row remembers the builder that declared it. A handle refers to a row of a
table only if it was issued by that builder for that place and arity, so
copies of a table share their handles and unrelated tables never do.
-/
import DependencyTheory.Dependency

namespace DependencyTheory

/-! ### Tables of predicates -/

/-- A derivation rule. The head lists the terms of the predicate that the
rule derives. -/
structure Rule where
  head : List Term
  body : Clause
  deriving DecidableEq

/-- A row of a table of predicates. -/
structure Predicate where
  issuer : Nat
  name : String
  arity : Nat
  rules : List Rule
  deriving DecidableEq

/-- A predicate is derived when it has a derivation rule, and base when it
has none. -/
def Predicate.isDerived (p : Predicate) : Bool := !p.rules.isEmpty

/-- The predicates of a schema, in order of declaration. -/
abbrev Table := List Predicate

namespace Table

/-- The row that a handle refers to: the one at its place, if issuer and
arity agree. -/
def get? (table : Table) (h : Handle) : Option Predicate :=
  (table[h.index]?).filter fun p => p.issuer == h.issuer && p.arity == h.arity

/-- A handle refers to the row at its place that has its issuer and arity. -/
theorem get?_eq_some {table : Table} {h : Handle} {p : Predicate} :
    table.get? h = some p ↔
      table[h.index]? = some p ∧ p.issuer = h.issuer ∧ p.arity = h.arity := by
  rw [get?, Option.filter_eq_some_iff, Bool.and_eq_true, beq_iff_eq, beq_iff_eq]

/-- Whether a handle refers to a row of the table. -/
def owns (table : Table) (h : Handle) : Bool := (table.get? h).isSome

/-- The handle of the row at a place. -/
def handleOf (p : Predicate) (index : Nat) : Handle := ⟨p.issuer, index, p.arity⟩

/-- The handles of all rows, in order. -/
def handles (table : Table) : List Handle :=
  table.zipIdx.map fun (p, i) => handleOf p i

/-- The handle of the row with a given name. -/
def handleNamed? (table : Table) (name : String) : Option Handle :=
  (table.zipIdx.find? fun (p, _) => p.name == name).map fun (p, i) => handleOf p i

/-- The handles of a table are those that it owns. -/
theorem mem_handles {table : Table} {h : Handle} :
    h ∈ table.handles ↔ table.owns h = true := by
  simp only [handles, List.mem_map, Prod.exists, List.mem_zipIdx_iff_getElem?, owns,
    get?, Option.isSome_filter, handleOf]
  constructor
  · rintro ⟨p, i, hp, rfl⟩
    simp [hp]
  · intro hh
    cases hp : table[h.index]? with
    | none => simp [hp] at hh
    | some p =>
      simp only [hp, Option.any_some, Bool.and_eq_true, beq_iff_eq] at hh
      exact ⟨p, h.index, hp, by rw [hh.1, hh.2]⟩

end Table

/-! ### Schemas -/

/-- A table of predicates and the dependencies over them. -/
structure Schema where
  predicates : Table
  dependencies : List Dependency
  deriving DecidableEq

namespace Schema

/-- Whether a handle refers to a predicate of the schema. -/
def owns (s : Schema) (h : Handle) : Bool := s.predicates.owns h

/-- The predicate that a handle refers to. -/
def get? (s : Schema) (h : Handle) : Option Predicate := s.predicates.get? h

/-- The predicate that a handle refers to has the arity of the handle. -/
theorem arity_of_get? {s : Schema} {h : Handle} {p : Predicate} (hp : s.get? h = some p) :
    p.arity = h.arity :=
  (Table.get?_eq_some.mp hp).2.2

/-- The predicate that a handle refers to is declared. -/
theorem mem_predicates_of_get? {s : Schema} {h : Handle} {p : Predicate}
    (hp : s.get? h = some p) : p ∈ s.predicates :=
  List.mem_of_getElem? (Table.get?_eq_some.mp hp).1

/-- The handle of the predicate with a given name. -/
def handleNamed? (s : Schema) (name : String) : Option Handle :=
  s.predicates.handleNamed? name

/-- The tuple-generating dependencies, in order. -/
def tgds (s : Schema) : List Tgd := s.dependencies.filterMap Dependency.tgd?

/-- The equality-generating dependencies, in order. -/
def egds (s : Schema) : List Egd := s.dependencies.filterMap Dependency.egd?

/-- The tuple-generating dependencies are those of the schema. -/
theorem mem_tgds {s : Schema} {t : Tgd} : t ∈ s.tgds ↔ .tgd t ∈ s.dependencies := by
  rw [tgds, List.mem_filterMap]
  constructor
  · rintro ⟨d, hd, h⟩
    cases d with
    | tgd t' => exact Option.some.inj h ▸ hd
    | egd e => exact nomatch h
  · exact fun h => ⟨.tgd t, h, rfl⟩

/-- The equality-generating dependencies are those of the schema. -/
theorem mem_egds {s : Schema} {e : Egd} : e ∈ s.egds ↔ .egd e ∈ s.dependencies := by
  rw [egds, List.mem_filterMap]
  constructor
  · rintro ⟨d, hd, h⟩
    cases d with
    | tgd t => exact nomatch h
    | egd e' => exact Option.some.inj h ▸ hd
  · exact fun h => ⟨.egd e, h, rfl⟩

/-- A predicate as it is named in the schema, or its label when the schema
does not own it. -/
def nameOf (s : Schema) (h : Handle) : String :=
  match s.get? h with
  | some p => p.name
  | none => h.label

end Schema

end DependencyTheory
