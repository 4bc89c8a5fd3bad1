/-
Builders and schemas that are worked on in place:

* `Workspace`: the builders and schemas made so far, with the number for the next builder, which
  has 32 bits and begins again after the last one;
* `Command`, `Workspace.perform`, `Workspace.run`: what can be done, one command after the other;
* `Workspace.InOrder`: whether all builders are sound and all schemas intact, which
  `Workspace.InOrder.perform` and `Workspace.InOrder.run` keep;
* `Workspace.intact_of_commands`: **every schema that is ever built is intact**, and a builder that
  refuses a predicate or a rule is as it was before.

That two builders may get the same number, if there are enough of them, makes no difference here:
handles are checked against the table that they are used with.
-/
import DependencyTheory.Proofs.Schema.Indexed
import DependencyTheory.Proofs.Session.History

namespace DependencyTheory

/-- The builders and schemas that have been made, known by the order in which they were made.
Building uses a builder up. -/
structure Workspace where
  next : UInt32
  builders : List (Option IndexedBuilder)
  schemas : List IndexedSchema

/-- Something that is done to a builder or with a schema. -/
inductive Command where
  | new
  | toBuilder (schema : Nat)
  | predicate (builder : Nat) (name : String) (arity : Nat)
  | rule (builder : Nat) (h : Handle) (rule : Rule)
  | dependency (builder : Nat) (d : Dependency)
  | dependencies (builder : Nat) (ds : List Dependency)
  | build (builder : Nat)
  | splitHeads (schema : Nat)

namespace Workspace

/-! ### Commands -/

/-- The workspace before the first command, with the number that the first builder gets. -/
def start (next : UInt32) : Workspace := ⟨next, [], []⟩

/-- The builder with a number, unless it is used up. -/
def builder? (w : Workspace) (k : Nat) : Option IndexedBuilder := (w.builders[k]?).join

/-- Puts a builder in the place of another, or leaves the place empty. -/
def setBuilder (w : Workspace) (k : Nat) (b : Option IndexedBuilder) : Workspace :=
  { w with builders := w.builders.set k b }

/-- One more builder, which gets the next number. -/
def addBuilder (w : Workspace) (make : UInt32 → IndexedBuilder) : Workspace :=
  ⟨w.next + 1, w.builders ++ [some (make w.next)], w.schemas⟩

/-- One more schema, if there is one. -/
def addSchema (w : Workspace) : Except SchemaError IndexedSchema → Workspace
  | .ok s => { w with schemas := w.schemas ++ [s] }
  | .error _ => w

/-- Does something to a builder in place. What is there afterwards is kept, whatever the answer. -/
def edit {α : Type} (w : Workspace) (k : Nat) (act : Edit α) : Workspace :=
  match w.builder? k with
  | some b => w.setBuilder k (some (Edit.after (act b)))
  | none => w

/-- The workspace after a command. -/
def perform (w : Workspace) : Command → Workspace
  | .new => w.addBuilder .new
  | .toBuilder k =>
    match w.schemas[k]? with
    | some s => w.addBuilder s.toBuilder
    | none => w
  | .predicate k name arity => w.edit k (.predicate name arity)
  | .rule k h rule => w.edit k (.rule h rule)
  | .dependency k d => w.edit k (.dependency d)
  | .dependencies k ds => w.edit k (.dependencies ds)
  | .build k =>
    match w.builder? k with
    | some b => (w.setBuilder k none).addSchema b.build
    | none => w
  | .splitHeads k =>
    match w.schemas[k]? with
    | some s => { w with next := w.next + 1 }.addSchema (s.splitHeads w.next)
    | none => w

/-- The workspace after several commands. -/
def run (w : Workspace) (commands : List Command) : Workspace := commands.foldl perform w

/-! ### What every command keeps -/

/-- Whether all builders are sound and all schemas intact. -/
structure InOrder (w : Workspace) : Prop where
  builders : ∀ k b, w.builder? k = some b → b.Sound
  schemas : ∀ s ∈ w.schemas, s.Intact

variable {w : Workspace}

lemma inOrder_start (next : UInt32) : (start next).InOrder :=
  ⟨fun k b h => absurd h (by simp [start, builder?]), fun s hs => absurd hs List.not_mem_nil⟩

lemma InOrder.setBuilder (hw : w.InOrder) {k : Nat} {b : Option IndexedBuilder}
    (hb : ∀ b' ∈ b, b'.Sound) : (w.setBuilder k b).InOrder := by
  refine ⟨fun j b' hj => ?_, hw.schemas⟩
  rw [builder?, Workspace.setBuilder, List.getElem?_set] at hj
  split at hj
  · split at hj
    · exact hb b' hj
    · cases hj
  · exact hw.builders j b' hj

lemma InOrder.addBuilder (hw : w.InOrder) {make : UInt32 → IndexedBuilder}
    (hmake : ∀ issuer, (make issuer).Sound) : (w.addBuilder make).InOrder := by
  refine ⟨fun j b hj => ?_, hw.schemas⟩
  rw [builder?, Workspace.addBuilder, List.getElem?_append] at hj
  split at hj
  · exact hw.builders j b hj
  · have hmem : b ∈ (some (make w.next) : Option IndexedBuilder) := by
      cases hplace : j - w.builders.length with
      | zero => rwa [hplace] at hj
      | succ i => rw [hplace] at hj; cases hj
    rw [← Option.some.inj hmem]
    exact hmake w.next

lemma InOrder.addSchema (hw : w.InOrder) {result : Except SchemaError IndexedSchema}
    (hs : ∀ s, result = .ok s → s.Intact) : (w.addSchema result).InOrder := by
  cases result with
  | error e => exact hw
  | ok s =>
      refine ⟨hw.builders, fun s' hs' => ?_⟩
      rcases List.mem_append.mp hs' with hs' | hs'
      · exact hw.schemas s' hs'
      · rw [List.mem_singleton.mp hs']
        exact hs s rfl

/-- An edit that agrees with a step of the plain builder keeps a workspace in order if the step
keeps builders sound. -/
lemma InOrder.edit {α : Type} (hw : w.InOrder) {k : Nat} {act : Edit α}
    (step : Builder → Except SchemaError (α × Builder))
    (hagrees : ∀ b : IndexedBuilder, b.Sound → Edit.Agrees b (step b.plain) (act b))
    (hstep : ∀ b : Builder, b.Sound → ∀ a b', step b = .ok (a, b') → b'.Sound) :
    (w.edit k act).InOrder := by
  rw [Workspace.edit]
  split
  · next b hb =>
      have hsound := hw.builders k b hb
      refine hw.setBuilder fun b' hb' => ?_
      obtain rfl := Option.some.inj hb'
      exact (hagrees b hsound).sound hsound (hstep b.plain hsound.plain)
  · exact hw

/-- **A command keeps a workspace in order.** -/
theorem InOrder.perform (hw : w.InOrder) (command : Command) : (w.perform command).InOrder := by
  cases command with
  | new => exact hw.addBuilder IndexedBuilder.sound_new
  | toBuilder k =>
      rw [Workspace.perform]
      split
      · next s hs => exact hw.addBuilder (hw.schemas s (List.mem_of_getElem? hs)).toBuilder
      · exact hw
  | predicate k name arity =>
      exact hw.edit (fun b => b.declare name arity)
        (fun b hb => Edit.agrees_predicate hb.inStep name arity)
        fun b hb h b' hstep => hb.declare hstep
  | rule k h rule =>
      refine hw.edit (fun b => (b.addRule h rule).map fun b' => ((), b'))
        (fun b hb => Edit.agrees_rule hb.inStep h rule) fun b hb _ b' hstep => ?_
      cases hadd : b.addRule h rule with
      | error e =>
          rw [hadd] at hstep
          cases hstep
      | ok b'' =>
          rw [hadd] at hstep
          cases hstep
          exact hb.addRule hadd
  | dependency k d =>
      refine hw.edit (fun b => .ok ((), b.addDependencies [d]))
        (fun b hb => Edit.agrees_dependency hb.inStep d) fun b hb _ b' hstep => ?_
      cases hstep
      exact hb.addDependencies [d]
  | dependencies k ds =>
      refine hw.edit (fun b => .ok ((), b.addDependencies ds))
        (fun b hb => Edit.agrees_dependencies hb.inStep ds) fun b hb _ b' hstep => ?_
      cases hstep
      exact hb.addDependencies ds
  | build k =>
      rw [Workspace.perform]
      split
      · next b hb =>
          have hclosed : (w.setBuilder k none).InOrder := hw.setBuilder (by simp)
          exact hclosed.addSchema fun s hs => (hw.builders k b hb).intact hs
      · exact hw
  | splitHeads k =>
      rw [Workspace.perform]
      split
      · next s hs =>
          have hcounted : ({ w with next := w.next + 1 } : Workspace).InOrder :=
            ⟨hw.builders, hw.schemas⟩
          exact hcounted.addSchema fun s' hs' =>
            (hw.schemas s (List.mem_of_getElem? hs)).splitHeads hs'
      · exact hw

/-- **A history keeps a workspace in order.** -/
theorem InOrder.run (hw : w.InOrder) (commands : List Command) : (w.run commands).InOrder := by
  induction commands generalizing w with
  | nil => exact hw
  | cons command commands ih => exact ih (hw.perform command)

/-- **Every schema that is ever built is intact**, whatever has been done before, and however many
builders there have been. A builder that refuses a predicate or a rule is as it was before, in all
its parts, and its answers are those of the builder without an index. Sessions, which do without
indexes, have intact schemas only, too. -/
theorem intact_of_commands (next : UInt32) (commands : List Command) :
    (∀ s ∈ ((start next).run commands).schemas, s.Intact) ∧
    (∀ k b, ((start next).run commands).builder? k = some b →
      (∀ name arity e b', Edit.predicate name arity b = .error e b' → b' = b) ∧
      (∀ h rule e b', Edit.rule h rule b = .error e b' → b' = b) ∧
      (∀ name arity, Edit.Agrees b (b.plain.declare name arity) (Edit.predicate name arity b)) ∧
      ∀ h rule, Edit.Agrees b ((b.plain.addRule h rule).map fun b' => ((), b'))
        (Edit.rule h rule b)) ∧
    ∀ operations k schema,
      (Session.empty.run operations).1.made? k = some schema → schema.Intact := by
  have hw := (inOrder_start next).run commands
  refine ⟨hw.schemas, fun k b hb => ?_, Session.intact_of_run⟩
  have hstep := (hw.builders k b hb).inStep
  refine ⟨fun name arity e b' he => ?_, fun h rule e b' he => ?_,
    Edit.agrees_predicate hstep, Edit.agrees_rule hstep⟩
  · exact (he ▸ Edit.agrees_predicate hstep name arity).eq_of_error
  · exact (he ▸ Edit.agrees_rule hstep h rule).eq_of_error

end Workspace

/-! ### Two builders side by side -/

namespace Siblings

/-- A rule for the predicate that the second builder declares. -/
def rule : Rule := ⟨[.var "x"], .ofAtoms (.ofVars 0 ["x"]) []⟩

/-- A predicate with the same name, place and arity is declared by two builders, of which the
first has the last number and the second begins again with zero. The first one is offered a rule
for the predicate of the second and another predicate of the same name, and then builds. -/
def commands : List Command :=
  [.new, .new, .predicate 0 "person" 1, .predicate 1 "person" 1, .rule 0 ⟨0, 0, 1⟩ rule,
    .predicate 0 "person" 2, .build 0, .splitHeads 0]

/-- A builder that has declared the predicate. -/
def builder (issuer : UInt32) : IndexedBuilder :=
  ⟨issuer, [⟨issuer.toNat, "person", 1, []⟩], .insert ∅ "person" 0, []⟩

/-- The schema of the first builder. -/
def people : IndexedSchema := ⟨[⟨4294967295, "person", 1, []⟩], .insert ∅ "person" 0, []⟩

lemma predicate_builder (issuer : UInt32) : Edit.predicate "person" 2 (builder issuer) =
    .error (.duplicatePredicate "person") (builder issuer) := by
  simp [Edit.predicate_eq, builder]

lemma rule_builder : Edit.rule ⟨0, 0, 1⟩ rule (builder 4294967295) =
    .error (.predicateOutsideSchema 0 1) (builder 4294967295) := by
  rw [Edit.rule_eq, if_neg (by decide)]

/-- Each builder has its predicate. -/
lemma run_declarations : (Workspace.start 4294967295).run (commands.take 4) =
    ⟨1, [some (builder 4294967295), some (builder 0)], []⟩ := by
  simp [commands, Workspace.run, Workspace.perform, Workspace.start, Workspace.addBuilder,
    Workspace.edit, Workspace.builder?, Workspace.setBuilder, Edit.predicate_eq,
    IndexedBuilder.new, Edit.after, builder]

/-- The first builder makes a schema, which is split. -/
lemma run_commands : (Workspace.start 4294967295).run commands =
    ⟨2, [none, some (builder 0)], [people, people]⟩ := by
  have hrest : (Workspace.start 4294967295).run commands =
      ((Workspace.start 4294967295).run (commands.take 4)).run (commands.drop 4) := rfl
  have hbuild : (builder 4294967295).build = .ok people := rfl
  have hsplit : people.splitHeads 1 = .ok people := rfl
  rw [hrest, run_declarations]
  simp [commands, Workspace.run, Workspace.perform, Workspace.edit, Workspace.builder?,
    Workspace.setBuilder, Workspace.addSchema, Edit.after, predicate_builder, rule_builder,
    hbuild, hsplit]

/-- The schema of the first builder is intact and stays so when it is split. The builder refused a
rule for the predicate of the other one and a second predicate of the same name, and neither
changed anything. A session in which the predicate is declared builds an intact schema, too. -/
theorem intact_of_commands_siblings :
    ((Workspace.start 4294967295).run commands).schemas = [people, people] ∧ people.Intact ∧
      ∃ b b' b'', ((Workspace.start 4294967295).run (commands.take 4)).builder? 0 = some b ∧
        Edit.predicate "person" 2 b = .error (.duplicatePredicate "person") b' ∧ b' = b ∧
        Edit.rule ⟨0, 0, 1⟩ rule b = .error (.predicateOutsideSchema 0 1) b'' ∧ b'' = b ∧
        (⟨[⟨0, "person", 1, []⟩], []⟩ : Schema).Intact := by
  obtain ⟨hintact, -, hsession⟩ := Workspace.intact_of_commands 4294967295 commands
  obtain ⟨-, hkept, -⟩ := Workspace.intact_of_commands 4294967295 (commands.take 4)
  have hschemas : ((Workspace.start 4294967295).run commands).schemas = [people, people] := by
    rw [run_commands]
  have hbuilder : ((Workspace.start 4294967295).run (commands.take 4)).builder? 0 =
      some (builder 4294967295) := by
    rw [run_declarations]
    rfl
  obtain ⟨hpredicate, hrule, -⟩ := hkept 0 _ hbuilder
  exact ⟨hschemas, hintact people (by simp [hschemas]), _, _, _, hbuilder, predicate_builder _,
    hpredicate _ _ _ _ (predicate_builder _), rule_builder, hrule _ _ _ _ rule_builder,
    hsession [.openBuilder "left", .declare "left" "person" 1, .build "left" "people"] 0 _ rfl⟩

end Siblings

end DependencyTheory
