/-
Schemas and builders with an index of names beside the table:

* `Table.InStep`: whether an index has each name at the place of its row, and no other names;
* `IndexedSchema`, `IndexedBuilder`: what is kept of a schema and of a builder, and
  `IndexedBuilder.plain`, the builder without the index;
* `Edit`: something that is done to a builder in place, with the changes that were made before a
  refusal;
* `Edit.predicate`, `Edit.rule`, `Edit.dependencies`, `IndexedBuilder.build`,
  `IndexedSchema.toBuilder`, `IndexedSchema.splitHeads`: the operations;
* `Edit.Agrees`: whether an edit has the answer of a step of the plain builder, leaves the index in
  step, and **changes nothing when it is refused**;
* `Edit.agrees_predicate`, `Edit.agrees_rule`, `IndexedBuilder.build_eq`,
  `IndexedSchema.splitHeads_eq`: all operations do so.

An edit that is refused ends with some builder as well. That it is the one from before is proved,
and depends on all checks being made before the first change.
-/
import DependencyTheory.Proofs.HeadSplit.Parts
import DependencyTheory.Proofs.Schema.Integrity

namespace DependencyTheory

/-! ### An index of names -/

namespace Table

variable {table : Table} {index : Std.HashMap String Nat} {p : Predicate} {name : String} {i : Nat}

/-- Whether an index of names is in step with a table: it has a name at a place iff the row at this
place has this name. -/
def InStep (table : Table) (index : Std.HashMap String Nat) : Prop :=
  ∀ name (i : Nat), index[name]? = some i ↔ ∃ p, table[i]? = some p ∧ p.name = name

/-- The handle of the row at the place that the index has for a name. -/
def indexed? (table : Table) (index : Std.HashMap String Nat) (name : String) : Option Handle := do
  let i ← index[name]?
  let p ← table[i]?
  return handleOf p i

lemma inStep_nil : InStep [] ∅ := by
  intro name i
  simp

/-- A table that has an index in step has distinct names. -/
lemma InStep.distinctNames (h : table.InStep index) : table.DistinctNames := by
  refine List.nodup_iff_getElem?_ne_getElem?.mpr fun i j hij hj hsame => ?_
  rw [List.length_map] at hj
  rw [List.getElem?_map, List.getElem?_map, List.getElem?_eq_getElem hj, Option.map_some,
    Option.map_eq_some_iff] at hsame
  have hrow : index[table[j].name]? = some j :=
    (h _ _).mpr ⟨_, List.getElem?_eq_getElem hj, rfl⟩
  have heq : i = j := Option.some.inj (((h _ _).mpr hsame).symm.trans hrow)
  omega

/-- **The index finds** what going through the rows finds. -/
lemma InStep.indexed?_eq (h : table.InStep index) :
    table.indexed? index name = table.handleNamed? name := by
  cases hi : index[name]? with
  | none =>
      have hnone : table.handleNamed? name = none := by
        refine handleNamed?_eq_none.mpr fun p hp hname => ?_
        obtain ⟨i, hrow⟩ := List.mem_iff_getElem?.mp hp
        exact absurd (hi.symm.trans ((h name i).mpr ⟨p, hrow, hname⟩)) (by simp)
      rw [indexed?, hi, hnone]
      rfl
  | some i =>
      obtain ⟨p, hrow, hname⟩ := (h name i).mp hi
      rw [(handleNamed?_eq_some h.distinctNames).mpr ⟨p, get?_handleOf hrow, hname⟩, indexed?, hi]
      show (table[i]?.bind fun p => some (handleOf p i)) = _
      rw [hrow, Option.bind_some]

/-- A name is in the index iff going through the rows finds it. -/
lemma InStep.contains_eq (h : table.InStep index) :
    index.contains name = (table.handleNamed? name).isSome := by
  rw [Std.HashMap.contains_eq_isSome_getElem?, ← h.indexed?_eq, indexed?]
  cases hi : index[name]? with
  | none => rfl
  | some i =>
      obtain ⟨p, hrow, -⟩ := (h name i).mp hi
      show true = (table[i]?.bind fun p => some (handleOf p i)).isSome
      rw [hrow, Option.bind_some, Option.isSome_some]

/-- **Declaring a predicate** under a new name keeps the index in step. -/
lemma InStep.concat (h : table.InStep index) (hnew : index.contains p.name = false) :
    InStep (table ++ [p]) (index.insert p.name table.length) := by
  intro name i
  rw [Std.HashMap.getElem?_insert]
  split
  · next hsame =>
      rw [← beq_iff_eq.mp hsame, Option.some.injEq]
      constructor
      · rintro rfl
        exact ⟨p, List.getElem?_concat_length, rfl⟩
      · rintro ⟨q, hq, hname⟩
        rcases Nat.lt_or_ge i table.length with hlt | hge
        · rw [List.getElem?_append_left hlt] at hq
          have hold := (h p.name i).mpr ⟨q, hq, hname⟩
          rw [Std.HashMap.contains_eq_isSome_getElem?, hold] at hnew
          exact absurd hnew (by simp)
        · have hlt := (List.getElem?_eq_some_iff.mp hq).1
          rw [List.length_append, List.length_singleton] at hlt
          omega
  · next hother =>
      rw [h name i]
      refine exists_congr fun q => and_congr_left fun hname => ?_
      rcases Nat.lt_or_ge i table.length with hlt | hge
      · rw [List.getElem?_append_left hlt]
      · rw [List.getElem?_eq_none hge, List.getElem?_append_right hge]
        refine ⟨fun hq => absurd hq (by simp), fun hq => absurd ?_ hother⟩
        rw [beq_iff_eq, ← hname, List.mem_singleton.mp (List.mem_of_getElem? hq)]

/-- The index stays in step when rows are changed in other respects. -/
lemma InStep.modify (h : table.InStep index) {f : Predicate → Predicate}
    (hname : ∀ p, (f p).name = p.name) : InStep (table.modify i f) index := by
  intro name j
  rw [h name j, List.getElem?_modify]
  cases table[j]? with
  | none => simp
  | some p => by_cases hij : i = j <;> simp [hij, hname]

end Table

/-! ### Schemas and builders -/

/-- A schema with an index of the names in its table. -/
structure IndexedSchema where
  predicates : Table
  index : Std.HashMap String Nat
  dependencies : List Dependency

/-- A builder with an index of the names in its table. Its number has 32 bits. -/
structure IndexedBuilder where
  issuer : UInt32
  predicates : Table
  index : Std.HashMap String Nat
  dependencies : List Dependency

namespace IndexedSchema

/-- The schema without the index. -/
def plain (s : IndexedSchema) : Schema := ⟨s.predicates, s.dependencies⟩

/-- The predicate that a handle refers to. -/
def get? (s : IndexedSchema) (h : Handle) : Option Predicate := s.predicates.get? h

/-- The handle of the predicate that the index has for a name. -/
def predicateNamed? (s : IndexedSchema) (name : String) : Option Handle :=
  s.predicates.indexed? s.index name

/-- A builder over copies of table and index, without dependencies. -/
def toBuilder (s : IndexedSchema) (issuer : UInt32) : IndexedBuilder :=
  ⟨issuer, s.predicates, s.index, []⟩

end IndexedSchema

namespace IndexedBuilder

/-- A builder without predicates and dependencies. -/
def new (issuer : UInt32) : IndexedBuilder := ⟨issuer, [], ∅, []⟩

/-- The builder without the index. -/
def plain (b : IndexedBuilder) : Builder := ⟨b.issuer.toNat, b.predicates, b.dependencies⟩

/-- Refuses a body with a predicate that the table does not own. -/
def requireBody (b : IndexedBuilder) (c : Clause) : Except SchemaError Unit :=
  forM c.predicates b.plain.requireOwned

/-- Refuses a dependency with a predicate that the table does not own. The body is checked before
the head. -/
def requireDependency (b : IndexedBuilder) : Dependency → Except SchemaError Unit
  | .tgd t => do
    b.requireBody t.body
    forM t.head fun a => b.plain.requireOwned a.predicate
  | .egd e => b.requireBody e.body

/-- The finished schema, if the bodies of all rules and then all dependencies pass. -/
def build (b : IndexedBuilder) : Except SchemaError IndexedSchema := do
  forM b.predicates fun p => forM p.rules fun r => b.requireBody r.body
  forM b.dependencies b.requireDependency
  return ⟨b.predicates, b.index, b.dependencies⟩

end IndexedBuilder

/-! ### Edits -/

/-- Something that is done to a builder in place. It ends with the builder that is there afterwards,
also when it is refused. -/
abbrev Edit : Type → Type := EStateM SchemaError IndexedBuilder

namespace Edit

/-- The builder that is there afterwards, with an answer or without. -/
def after {α : Type} : EStateM.Result SchemaError IndexedBuilder α → IndexedBuilder
  | .ok _ b => b
  | .error _ b => b

/-- Declares a base predicate under a name that is not taken, and issues the handle for it. -/
def predicate (name : String) (arity : Nat) : Edit Handle := do
  if (← get).index.contains name then
    throw (.duplicatePredicate name)
  let place := (← get).predicates.length
  modify fun b =>
    { b with predicates := b.predicates ++ [⟨b.issuer.toNat, name, arity, []⟩] }
  modify fun b => { b with index := b.index.insert name place }
  return ⟨(← get).issuer.toNat, place, arity⟩

/-- Adds a derivation rule to a predicate. -/
def rule (h : Handle) (rule : Rule) : Edit Unit := do
  ofExcept ((← get).plain.requireOwned h)
  if rule.head.length ≠ h.arity then
    throw (.arityMismatch h.arity rule.head.length)
  modify fun b =>
    { b with predicates := b.predicates.modify h.index fun p =>
        { p with rules := p.rules ++ [rule] } }

/-- Adds a dependency. -/
def dependency (d : Dependency) : Edit Unit :=
  modify fun b => { b with dependencies := b.dependencies ++ [d] }

/-- Adds dependencies. -/
def dependencies (ds : List Dependency) : Edit Unit :=
  modify fun b => { b with dependencies := b.dependencies ++ ds }

/-- Adds the parts of a dependency, one by one. -/
def parts : Dependency → Edit Unit
  | .tgd t => do forM (← ofExcept t.splitBySearch) fun part => dependency (.tgd part)
  | .egd e => dependency (.egd e)

end Edit

/-- The schema that a new builder over the same table makes of the parts of all dependencies. -/
def IndexedSchema.splitHeads (s : IndexedSchema) (issuer : UInt32) :
    Except SchemaError IndexedSchema :=
  match forM s.dependencies Edit.parts (s.toBuilder issuer) with
  | .ok _ b => b.build
  | .error e _ => .error e

/-! ### Edits and steps of the plain builder -/

namespace Edit

variable {α : Type} {b b' : IndexedBuilder} {name : String} {arity : Nat} {h : Handle}

/-- Whether an edit of a builder agrees with a step of the plain builder: it has the same answer,
and ends with a builder in step which is the one that the step makes if there is an answer, and
the one from before if there is none. -/
inductive Agrees (b : IndexedBuilder) :
    Except SchemaError (α × Builder) → EStateM.Result SchemaError IndexedBuilder α → Prop
  | done (a : α) (b' : IndexedBuilder) (hstep : b'.predicates.InStep b'.index) :
      Agrees b (.ok (a, b'.plain)) (.ok a b')
  | refused (e : SchemaError) : Agrees b (.error e) (.error e b)

/-- What declaring a predicate does, one change after the other. -/
lemma predicate_eq : predicate name arity b =
    if b.index.contains name = true then .error (.duplicatePredicate name) b
    else .ok ⟨b.issuer.toNat, b.predicates.length, arity⟩
      { b with
        predicates := b.predicates ++ [⟨b.issuer.toNat, name, arity, []⟩]
        index := b.index.insert name b.predicates.length } := by
  show (if b.index.contains name = true then _ else _ : Edit Handle) b = _
  split <;> rfl

/-- **What is refused changes nothing.** -/
lemma Agrees.eq_of_error {step : Except SchemaError (α × Builder)} {e : SchemaError}
    (h : Agrees b step (.error e b')) : b' = b := by
  cases h
  rfl

/-- **Declaring a predicate** in place is declaring it. -/
theorem agrees_predicate (hb : b.predicates.InStep b.index) (name : String) (arity : Nat) :
    Agrees b (b.plain.declare name arity) (predicate name arity b) := by
  have hcontains : b.index.contains name = (b.plain.predicates.handleNamed? name).isSome :=
    hb.contains_eq
  rw [predicate_eq, Builder.declare]
  split
  · next k hk =>
      rw [if_pos (by rw [hcontains, hk, Option.isSome_some])]
      exact .refused _
  · next hnone =>
      have hnew : b.index.contains name = false := by rw [hcontains, hnone, Option.isSome_none]
      rw [if_neg (by rw [hnew]; exact Bool.false_ne_true)]
      exact .done _ ⟨b.issuer, _, _, b.dependencies⟩ (hb.concat hnew)

/-- What adding a rule does, one check after the other. -/
lemma rule_eq {rule : Rule} : Edit.rule h rule b =
    if b.predicates.owns h = true then
      if rule.head.length = h.arity then
        .ok () { b with
          predicates := b.predicates.modify h.index fun p => { p with rules := p.rules ++ [rule] } }
      else .error (.arityMismatch h.arity rule.head.length) b
    else .error (.predicateOutsideSchema h.index h.arity) b := by
  show (ofExcept (b.plain.requireOwned h) >>= _ : Edit Unit) b = _
  by_cases howns : b.predicates.owns h = true
  · have hcheck : b.plain.requireOwned h = .ok () := if_pos howns
    rw [if_pos howns, hcheck]
    show (if rule.head.length ≠ h.arity then _ else _ : Edit Unit) b = _
    by_cases hlength : rule.head.length = h.arity
    · rw [if_pos hlength, if_neg fun hne => hne hlength]
      rfl
    · rw [if_neg hlength, if_pos hlength]
      rfl
  · have hcheck : b.plain.requireOwned h = .error (.predicateOutsideSchema h.index h.arity) :=
      if_neg howns
    rw [if_neg howns, hcheck]
    rfl

/-- **Adding a rule** in place is adding it. -/
theorem agrees_rule (hb : b.predicates.InStep b.index) (h : Handle) (rule : Rule) :
    Agrees b ((b.plain.addRule h rule).map fun b' => ((), b')) (Edit.rule h rule b) := by
  rw [rule_eq, Builder.addRule, Builder.requireOwned]
  by_cases howns : b.predicates.owns h = true
  · rw [if_pos howns, if_pos (show b.plain.predicates.owns h = true from howns)]
    by_cases hlength : rule.head.length = h.arity
    · rw [if_pos hlength, if_pos hlength]
      have hstep := hb.modify (i := h.index) (f := fun p => { p with rules := p.rules ++ [rule] })
        fun _ => rfl
      exact .done () ⟨b.issuer, _, b.index, b.dependencies⟩ hstep
    · rw [if_neg hlength, if_neg hlength]
      exact .refused _
  · rw [if_neg howns, if_neg (show ¬b.plain.predicates.owns h = true from howns)]
    exact .refused _

/-- **Adding a dependency** in place is adding it. -/
theorem agrees_dependency (hb : b.predicates.InStep b.index) (d : Dependency) :
    Agrees b (.ok ((), b.plain.addDependencies [d])) (dependency d b) :=
  .done () ⟨b.issuer, b.predicates, b.index, b.dependencies ++ [d]⟩ hb

/-- **Adding dependencies** in place is adding them. -/
theorem agrees_dependencies (hb : b.predicates.InStep b.index) (ds : List Dependency) :
    Agrees b (.ok ((), b.plain.addDependencies ds)) (dependencies ds b) :=
  .done () ⟨b.issuer, b.predicates, b.index, b.dependencies ++ ds⟩ hb

/-- Edits that add something for each of several elements add all of it. -/
lemma forM_dependencies {f : α → Edit Unit} {g : α → List Dependency}
    (hf : ∀ a b, f a b = .ok () { b with dependencies := b.dependencies ++ g a }) (as : List α) :
    forM as f b = .ok () { b with dependencies := b.dependencies ++ as.flatMap g } := by
  induction as generalizing b with
  | nil => rw [List.flatMap_nil, List.append_nil]; rfl
  | cons a as ih =>
      have hstep : forM (a :: as) f b =
          forM as f { b with dependencies := b.dependencies ++ g a } := by
        show EStateM.bind (f a) (fun _ => forM as f) b = _
        rw [EStateM.bind, hf]
      rw [hstep, ih, List.flatMap_cons, List.append_assoc]

/-- The parts of a dependency are added, and nothing else is changed. -/
lemma parts_eq (d : Dependency) (b : IndexedBuilder) :
    parts d b = .ok () { b with dependencies := b.dependencies ++ d.split } := by
  cases d with
  | egd e => rfl
  | tgd t =>
      rw [parts, t.splitBySearch_eq_ok, Dependency.split, List.map_eq_flatMap]
      exact forM_dependencies (fun _ _ => rfl) _

end Edit

/-! ### Building and splitting -/

/-- Elements of lists are gone through list by list. -/
lemma forM_flatMap {m : Type → Type} [Monad m] [LawfulMonad m] {α β : Type} (as : List α)
    (f : α → List β) (g : β → m Unit) :
    forM (as.flatMap f) g = forM as fun a => forM (f a) g := by
  induction as with
  | nil => rfl
  | cons a as ih => rw [List.flatMap_cons, List.forM_append, ih, List.forM_cons]

namespace IndexedBuilder

variable (b : IndexedBuilder)

/-- All handles of a dependency are checked, in their order. -/
lemma requireDependency_eq (d : Dependency) :
    b.requireDependency d = forM d.predicates b.plain.requireOwned := by
  cases d with
  | tgd t =>
      rw [requireDependency, Dependency.predicates, List.forM_append, List.forM_map]
      rfl
  | egd e => rfl

/-- **A builder with an index builds** what the plain one builds. -/
theorem build_eq :
    b.build = b.plain.build.map fun s => ⟨s.predicates, b.index, s.dependencies⟩ := by
  let inRules := b.plain.predicates.flatMap fun p => p.rules.flatMap fun r => r.body.predicates
  let inDependencies := b.plain.dependencies.flatMap Dependency.predicates
  have hrules : (forM b.predicates fun p => forM p.rules fun r => b.requireBody r.body) =
      forM inRules b.plain.requireOwned := by
    rw [forM_flatMap]
    simp only [forM_flatMap]
    rfl
  have hdependencies : forM b.dependencies b.requireDependency =
      forM inDependencies b.plain.requireOwned := by
    rw [forM_flatMap, funext b.requireDependency_eq]
    rfl
  rw [build, hrules, hdependencies, Builder.build, Builder.references, List.forM_eq_forM,
    List.forM_append]
  cases forM inRules b.plain.requireOwned with
  | error e => rfl
  | ok =>
      cases forM inDependencies b.plain.requireOwned with
      | error e => rfl
      | ok => rfl

end IndexedBuilder

/-- **A schema with an index is split** like the plain one, whatever the number of the builder. -/
theorem IndexedSchema.splitHeads_eq (s : IndexedSchema) (issuer : UInt32) :
    s.splitHeads issuer = s.plain.splitHeads.map fun s' =>
      ⟨s'.predicates, s.index, s'.dependencies⟩ := by
  rw [splitHeads, Edit.forM_dependencies Edit.parts_eq]
  exact IndexedBuilder.build_eq _

/-! ### What is in order -/

/-- Whether the index of a builder is in step with its table, and the plain builder is sound. -/
structure IndexedBuilder.Sound (b : IndexedBuilder) : Prop where
  inStep : b.predicates.InStep b.index
  plain : b.plain.Sound

/-- Whether a schema with an index is in order as regards its references: the index is in step with
the table, finds the handle of each predicate and nothing else, and the schema without the index
is intact. -/
structure IndexedSchema.Intact (s : IndexedSchema) : Prop where
  inStep : s.predicates.InStep s.index
  named : ∀ name h, s.predicateNamed? name = some h ↔ ∃ p, s.get? h = some p ∧ p.name = name
  declared : ∀ p ∈ s.predicates, ∃ h, s.predicateNamed? p.name = some h ∧ s.get? h = some p
  plain : s.plain.Intact

/-- With an index in step, a schema is intact if it is so without the index. -/
lemma IndexedSchema.intact_of_plain {s : IndexedSchema} (hstep : s.predicates.InStep s.index)
    (hs : s.plain.Intact) : s.Intact := by
  have hindex : ∀ name, s.predicateNamed? name = s.plain.handleNamed? name :=
    fun name => hstep.indexed?_eq
  refine ⟨hstep, fun name h => ?_, fun p hp => ?_, hs⟩
  · rw [hindex]
    exact hs.named name h
  · rw [hindex]
    exact hs.declared p hp

lemma IndexedBuilder.sound_new (issuer : UInt32) : (new issuer).Sound :=
  ⟨Table.inStep_nil, Builder.sound_new _⟩

/-- A builder over the table of an intact schema is sound. -/
lemma IndexedSchema.Intact.toBuilder {s : IndexedSchema} (hs : s.Intact) (issuer : UInt32) :
    (s.toBuilder issuer).Sound :=
  ⟨hs.inStep, hs.plain.sound_reopen _⟩

/-- **An edit keeps a builder sound** if the step that it agrees with does. -/
lemma Edit.Agrees.sound {α : Type} {b : IndexedBuilder} {step : Except SchemaError (α × Builder)}
    {result : EStateM.Result SchemaError IndexedBuilder α} (h : Agrees b step result)
    (hb : b.Sound) (hstep : ∀ a b', step = .ok (a, b') → b'.Sound) : (after result).Sound := by
  cases h with
  | done a b' hindex => exact ⟨hindex, hstep a _ rfl⟩
  | refused e => exact hb

/-- A schema with an index in step is intact if it has the table of an intact plain schema. -/
lemma IndexedSchema.intact_of_map {index : Std.HashMap String Nat}
    {result : Except SchemaError Schema} {s : IndexedSchema}
    (h : (result.map fun s => (⟨s.predicates, index, s.dependencies⟩ : IndexedSchema)) = .ok s)
    (hstep : ∀ s', result = .ok s' → s'.predicates.InStep index ∧ s'.Intact) : s.Intact := by
  cases result with
  | error e => cases h
  | ok s' =>
      obtain rfl := Except.ok.inj h
      exact intact_of_plain (hstep s' rfl).1 (hstep s' rfl).2

/-- **What a sound builder builds is intact.** -/
theorem IndexedBuilder.Sound.intact {b : IndexedBuilder} {s : IndexedSchema} (hb : b.Sound)
    (hs : b.build = .ok s) : s.Intact := by
  rw [b.build_eq] at hs
  refine IndexedSchema.intact_of_map hs fun s' hplain => ⟨?_, hb.plain.intact hplain⟩
  rw [(Builder.build_eq_ok.mp hplain).2]
  exact hb.inStep

/-- **Splitting all heads keeps a schema intact.** -/
theorem IndexedSchema.Intact.splitHeads {s s' : IndexedSchema} (hs : s.Intact) {issuer : UInt32}
    (h : s.splitHeads issuer = .ok s') : s'.Intact := by
  rw [s.splitHeads_eq] at h
  refine IndexedSchema.intact_of_map h fun s'' hplain => ⟨?_, hs.plain.withDependencies hplain⟩
  rw [(Builder.build_eq_ok.mp hplain).2]
  exact hs.inStep

end DependencyTheory
