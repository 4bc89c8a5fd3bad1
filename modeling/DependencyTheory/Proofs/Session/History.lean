/-
Histories of sessions:

* `Operation`, `Session.perform`, `Session.run`: what can be done in a session, one operation
  after the other, and `Event`, what comes of it;
* `Session.Step`: all that one operation can do, as a relation;
* `Session.run_keeps`: what each step keeps, a history keeps;
* `Session.intact_of_run`: **every schema that is ever built is intact**.

Literals, atoms, rules and dependencies are values of their types, which only their checked
constructors make; their handles may be any at all, of whatever builder. Schemas are known by
the order in which they are made, so that a schema stays within reach when its name is given to
another, and builders by their numbers.
-/
import DependencyTheory.HeadSplit
import DependencyTheory.Proofs.Schema.Integrity
import DependencyTheory.Proofs.Semantics.Facts
import DependencyTheory.Session

namespace DependencyTheory

/-! ### Operations and events -/

/-- Something that is done in a session: a builder is opened, changed or used up, or a schema is
split. Builders are found under their names and schemas by their numbers. -/
inductive Operation where
  | openBuilder (name : String)
  | reopen (schema : Nat) (name : String)
  | declare (builder predicate : String) (arity : Nat)
  | addRule (builder : String) (h : Handle) (rule : Rule)
  | addDependencies (builder : String) (ds : List Dependency)
  | build (builder name : String)
  | splitHeads (schema : Nat) (name : String)

/-- What comes of an operation. A builder is opened, for the table of a schema or without one; a
predicate is declared and a handle issued; a schema is built or split from another. -/
inductive Event where
  | opened (builder : Nat)
  | reopened (schema builder : Nat)
  | declared (builder : Nat) (predicate : String) (arity : Nat) (h : Handle)
  | built (builder schema : Nat)
  | split (schema part : Nat)
  | changed
  | refused (e : SchemaError)
  | missing

/-! ### Changes of a builder -/

namespace Builder

/-- Whether a builder is changed in its rules or dependencies. -/
inductive Changes (b : Builder) : Builder → Prop
  | rule {h : Handle} {rule : Rule} {b' : Builder} (hr : b.addRule h rule = .ok b') : Changes b b'
  | dependencies (ds : List Dependency) : Changes b (b.addDependencies ds)

variable {b b' : Builder}

/-- A change keeps a builder sound. -/
lemma Changes.sound (h : b.Changes b') (hb : b.Sound) : b'.Sound := by
  cases h with
  | rule hr => exact hb.addRule hr
  | dependencies ds => exact hb.addDependencies ds

lemma Changes.issuer (h : b.Changes b') : b.issuer = b'.issuer := by
  cases h with
  | rule hr => rw [(addRule_eq_ok.mp hr).2.2]
  | dependencies ds => rfl

/-- No handle refers to anything else than before. -/
lemma Changes.refersTo (h : b.Changes b') {k : Handle} {name : String} :
    b'.predicates.RefersTo k name ↔ b.predicates.RefersTo k name := by
  cases h with
  | rule hr =>
      rw [(addRule_eq_ok.mp hr).2.2]
      exact Table.refersTo_modify (fun _ => ⟨rfl, rfl⟩) fun _ => rfl
  | dependencies ds => rfl

end Builder

namespace Session

/-- The schema with a number, where the first one that is made has the number zero. -/
def made? (s : Session) (k : Nat) : Option Schema := (s.schemas.reverse[k]?).map Prod.snd

/-- The session after an operation, and what has come of it. -/
def perform (s : Session) : Operation → Session × Event
  | .openBuilder name => (s.openBuilder name, .opened s.issued)
  | .reopen k name =>
    match s.made? k with
    | some schema => (s.reopen schema name, .reopened k s.issued)
    | none => (s, .missing)
  | .declare name predicate arity =>
    match s.builder? name with
    | some b =>
      match s.declare name b predicate arity with
      | .ok (h, s') => (s', .declared b.issuer predicate arity h)
      | .error e => (s, .refused e)
    | none => (s, .missing)
  | .addRule name h rule =>
    match s.builder? name with
    | some b =>
      match s.addRule name b h rule with
      | .ok s' => (s', .changed)
      | .error e => (s, .refused e)
    | none => (s, .missing)
  | .addDependencies name ds =>
    match s.builder? name with
    | some b => (s.addDependencies name b ds, .changed)
    | none => (s, .missing)
  | .build name schemaName =>
    match s.builder? name with
    | some b =>
      match s.build name b with
      | (.ok schema, s') =>
        (s'.putSchema schemaName schema, .built b.issuer s.schemas.length)
      | (.error e, s') => (s', .refused e)
    | none => (s, .missing)
  | .splitHeads k name =>
    match s.made? k with
    | some schema =>
      match schema.splitHeads with
      | .ok part => (s.putSchema name part, .split k s.schemas.length)
      | .error e => (s, .refused e)
    | none => (s, .missing)

/-- The session after several operations, and what has come of each. -/
def run (s : Session) : List Operation → Session × List Event
  | [] => (s, [])
  | op :: ops => ((s.perform op).1.run ops |>.1, (s.perform op).2 :: ((s.perform op).1.run ops).2)

/-! ### What is under a name -/

variable {s s' : Session} {name other : String} {b : Builder} {schema : Schema} {k : Nat}

/-- A builder that is put away is found under its name, and the others as before. -/
lemma builder?_putBuilder :
    (s.putBuilder name b).builder? other = if other = name then some b else s.builder? other := by
  rw [builder?, putBuilder, List.lookup_cons]
  by_cases h : other = name
  · simp [h]
  · simp [h, beq_eq_false_iff_ne.mpr h, builder?]

/-- A builder that is there when another one has been put under a name is this one, or was
there before. -/
lemma builder?_of_putBuilder {b' : Builder} (h : (s.putBuilder name b).builder? other = some b') :
    other = name ∧ b = b' ∨ other ≠ name ∧ s.builder? other = some b' := by
  rw [builder?_putBuilder] at h
  split at h
  · next hname => exact Or.inl ⟨hname, Option.some.inj h⟩
  · next hname => exact Or.inr ⟨hname, h⟩

/-- A builder that is closed is not found any more. -/
lemma builder?_closeBuilder :
    (s.closeBuilder name).builder? other = if other = name then none else s.builder? other := by
  rw [builder?, closeBuilder, builder?]
  induction s.builders with
  | nil => simp
  | cons entry rest ih =>
      obtain ⟨n, b⟩ := entry
      by_cases hn : n = name
      · rw [List.filter_cons_of_neg (by simp [hn]), List.lookup_cons, hn, ih]
        by_cases ho : other = name
        · simp [ho]
        · simp [ho, beq_eq_false_iff_ne.mpr ho]
      · rw [List.filter_cons_of_pos (by simp [hn]), List.lookup_cons, List.lookup_cons, ih]
        by_cases ho : other = n
        · simp [ho, hn]
        · simp [beq_eq_false_iff_ne.mpr ho]

lemma builder?_of_closeBuilder (h : (s.closeBuilder name).builder? other = some b) :
    other ≠ name ∧ s.builder? other = some b := by
  rw [builder?_closeBuilder] at h
  split at h
  · cases h
  · next hname => exact ⟨hname, h⟩

lemma lt_of_made? (h : s.made? k = some schema) : k < s.schemas.length := by
  obtain ⟨entry, hentry, -⟩ := Option.map_eq_some_iff.mp h
  simpa using (List.getElem?_eq_some_iff.mp hentry).1

/-- A schema that is made gets the next number, and the others keep theirs. -/
lemma made?_putSchema {old : Schema} : (s.putSchema name schema).made? k = some old ↔
    s.made? k = some old ∨ k = s.schemas.length ∧ old = schema := by
  simp only [made?, putSchema, List.reverse_cons]
  rcases Nat.lt_trichotomy k s.schemas.length with hlt | rfl | hgt
  · rw [List.getElem?_append_left (by simpa using hlt)]
    exact (or_iff_left fun h => absurd h.1 (Nat.ne_of_lt hlt)).symm
  · rw [← List.length_reverse, List.getElem?_concat_length,
      List.getElem?_eq_none (Nat.le_refl _)]
    simp [eq_comm]
  · rw [List.getElem?_eq_none (by simp; omega), List.getElem?_eq_none (by simp; omega)]
    simp [Nat.ne_of_gt hgt]

/-! ### Single steps -/

/-- What one operation can do to a session, and the event that goes with it. -/
inductive Step (s : Session) : Event → Session → Prop
  | opened (name : String) : Step s (.opened s.issued) (s.openBuilder name)
  | reopened (name : String) {k : Nat} {schema : Schema} (hk : s.made? k = some schema) :
      Step s (.reopened k s.issued) (s.reopen schema name)
  | declared {name predicate : String} {arity : Nat} {b b' : Builder} {h : Handle}
      (hb : s.builder? name = some b) (hd : b.declare predicate arity = .ok (h, b')) :
      Step s (.declared b.issuer predicate arity h) (s.putBuilder name b')
  | changed {name : String} {b b' : Builder} (hb : s.builder? name = some b)
      (hc : b.Changes b') : Step s .changed (s.putBuilder name b')
  | built {name : String} {b : Builder} {schema : Schema} (schemaName : String)
      (hb : s.builder? name = some b) (hs : b.build = .ok schema) :
      Step s (.built b.issuer s.schemas.length)
        ((s.closeBuilder name).putSchema schemaName schema)
  | wasted {name : String} {b : Builder} {e : SchemaError} (hb : s.builder? name = some b)
      (hs : b.build = .error e) : Step s (.refused e) (s.closeBuilder name)
  | split (name : String) {k : Nat} {schema part : Schema} (hk : s.made? k = some schema)
      (hs : schema.splitHeads = .ok part) :
      Step s (.split k s.schemas.length) (s.putSchema name part)
  | refused (e : SchemaError) : Step s (.refused e) s
  | missing : Step s .missing s

/-- **An operation is a step.** -/
theorem step_perform (s : Session) (op : Operation) :
    s.Step (s.perform op).2 (s.perform op).1 := by
  cases op with
  | openBuilder name => exact .opened name
  | reopen k name =>
      rw [perform]
      split
      · next schema hk => exact .reopened name hk
      · exact .missing
  | declare name predicate arity =>
      rw [perform]
      split
      · next b hb =>
          rw [declare]
          cases hd : b.declare predicate arity with
          | error e => exact .refused e
          | ok out => exact .declared hb hd
      · exact .missing
  | addRule name h rule =>
      rw [perform]
      split
      · next b hb =>
          rw [addRule]
          cases hr : b.addRule h rule with
          | error e => exact .refused e
          | ok b' => exact .changed hb (.rule hr)
      · exact .missing
  | addDependencies name ds =>
      rw [perform]
      split
      · next b hb => exact .changed hb (.dependencies ds)
      · exact .missing
  | build name schemaName =>
      rw [perform]
      split
      · next b hb =>
          rw [build]
          cases hs : b.build with
          | error e => exact .wasted hb hs
          | ok schema => exact .built schemaName hb hs
      · exact .missing
  | splitHeads k name =>
      rw [perform]
      split
      · next schema hk =>
          cases hs : schema.splitHeads with
          | error e => exact .refused e
          | ok part => exact .split name hk hs
      · exact .missing

/-- **What each step keeps, a history keeps**: a condition on the session and on the events so
far. -/
theorem run_keeps {P : List Event → Session → Prop}
    (hstep : ∀ {es s e s'}, s.Step e s' → P es s → P (es ++ [e]) s') (es : List Event)
    (h : P es s) (ops : List Operation) : P (es ++ (s.run ops).2) (s.run ops).1 := by
  induction ops generalizing s es with
  | nil => rwa [run, List.append_nil]
  | cons op ops ih =>
      have hrest := ih _ (hstep (s.step_perform op) h)
      rwa [List.append_assoc] at hrest

/-! ### Intact schemas -/

/-- Whether all builders in a session are sound and all schemas intact. -/
structure InOrder (s : Session) : Prop where
  builders : ∀ name b, s.builder? name = some b → b.Sound
  schemas : ∀ k schema, s.made? k = some schema → schema.Intact

lemma InOrder.putBuilder (h : s.InOrder) (hb : b.Sound) : (s.putBuilder name b).InOrder := by
  refine ⟨fun other b' hb' => ?_, h.schemas⟩
  rcases builder?_of_putBuilder hb' with ⟨-, rfl⟩ | ⟨-, hb'⟩
  · exact hb
  · exact h.builders other b' hb'

lemma InOrder.closeBuilder (h : s.InOrder) : (s.closeBuilder name).InOrder :=
  ⟨fun other b' hb' => h.builders other b' (builder?_of_closeBuilder hb').2, h.schemas⟩

/-- An intact schema may be added to a session in order. -/
lemma InOrder.putSchema (h : s.InOrder) (hs : schema.Intact) :
    (s.putSchema name schema).InOrder := by
  refine ⟨h.builders, fun k old hk => ?_⟩
  rcases made?_putSchema.mp hk with hk | ⟨-, rfl⟩
  · exact h.schemas k old hk
  · exact hs

lemma inOrder_empty : empty.InOrder := ⟨nofun, nofun⟩

/-- **A step keeps a session in order.** -/
theorem Step.inOrder {e : Event} (h : s.Step e s') (hs : s.InOrder) : s'.InOrder := by
  have hfresh : ({ s with issued := s.issued + 1 } : Session).InOrder :=
    ⟨hs.builders, hs.schemas⟩
  cases h with
  | opened name => exact hfresh.putBuilder (Builder.sound_new _)
  | reopened name hk => exact hfresh.putBuilder ((hs.schemas _ _ hk).sound_reopen _)
  | declared hb hd => exact hs.putBuilder ((hs.builders _ _ hb).declare hd)
  | changed hb hc => exact hs.putBuilder (hc.sound (hs.builders _ _ hb))
  | built schemaName hb hbuilt =>
      exact hs.closeBuilder.putSchema ((hs.builders _ _ hb).intact hbuilt)
  | wasted hb _ => exact hs.closeBuilder
  | split name hk hsplit => exact hs.putSchema ((hs.schemas _ _ hk).withDependencies hsplit)
  | refused e => exact hs
  | missing => exact hs

/-- **Every schema that is ever built is intact**, whatever has been done in the session. -/
theorem intact_of_run (ops : List Operation) (k : Nat) (schema : Schema)
    (hk : (empty.run ops).1.made? k = some schema) : schema.Intact := by
  have horder : (empty.run ops).1.InOrder :=
    run_keeps (P := fun _ s => s.InOrder) (fun hstep hs => hstep.inOrder hs) [] inOrder_empty ops
  exact horder.schemas k schema hk

end Session

end DependencyTheory
