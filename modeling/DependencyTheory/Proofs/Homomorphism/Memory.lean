/-
Searches that keep all they change in one memory:

* `Standing`, `Memory`: how a comparison of rules stands, and a memory with the schemas in their
  present places, the standing of all comparisons, and the comparisons that were entered;
* `Inquiry`: steps that change a memory, may run out of fuel, and leave the memory as it is at
  an error;
* `Inquiry.search`, `Inquiry.searchRule`: the search for homomorphisms, in which the schemas
  change places and are put back;
* `Inquiry.agree`: which predicates match, with as many comparisons inside each other as there
  is fuel;
* `Ends`: what a step ends with, and the memory it leaves.

The search that runs hands the schemas down and takes every comparison that is entered out of a
list, which is why it ends. Here nothing is handed down, and a comparison that comes up inside
itself is told by its standing alone.
-/
import DependencyTheory.Homomorphism.Search
import Mathlib.Logic.Function.Basic
import Mathlib.Tactic.Lemma

namespace DependencyTheory.Homomorphism

/-! ### Memories -/

/-- How a comparison of the rules of two predicates stands. -/
inductive Standing where
  | underWay
  | ended (verdict : Bool)
  deriving DecidableEq

/-- What a search changes: the places of the schemas, the standing of the comparisons that were
entered, and the list of these, in order. -/
structure Memory where
  sides : Sides
  standing : Comparand → Option Standing
  entered : List Comparand

namespace Memory

/-- The memory in which a search begins. -/
def start (sides : Sides) : Memory := ⟨sides, fun _ => none, []⟩

/-- Domain and range change places. -/
def turn (μ : Memory) : Memory := { μ with sides := μ.sides.turn }

/-- A comparison is entered, and under way from then on. -/
def enter (pair : Comparand) (μ : Memory) : Memory :=
  { μ with
    standing := Function.update μ.standing pair (some .underWay)
    entered := μ.entered ++ [pair] }

/-- A comparison ends with a verdict, or with none after an error. -/
def leave (pair : Comparand) (standing : Option Standing) (μ : Memory) : Memory :=
  { μ with standing := Function.update μ.standing pair standing }

variable {pair pair' : Comparand} {standing : Option Standing} {μ : Memory}

@[simp] lemma standing_enter_self : (μ.enter pair).standing pair = some .underWay :=
  Function.update_self ..

lemma standing_enter_of_ne (h : pair' ≠ pair) :
    (μ.enter pair).standing pair' = μ.standing pair' :=
  Function.update_of_ne h ..

@[simp] lemma entered_enter : (μ.enter pair).entered = μ.entered ++ [pair] := rfl

@[simp] lemma standing_leave_self : (μ.leave pair standing).standing pair = standing :=
  Function.update_self ..

lemma standing_leave_of_ne (h : pair' ≠ pair) :
    (μ.leave pair standing).standing pair' = μ.standing pair' :=
  Function.update_of_ne h ..

@[simp] lemma entered_leave : (μ.leave pair standing).entered = μ.entered := rfl

end Memory

/-- Steps that change a memory. Without fuel they do not end; an error ends them, and the memory
stays as it is then. -/
abbrev Inquiry (α : Type) := ExceptT AnalysisError (StateT Memory Option) α

namespace Inquiry

variable {α : Type}

/-! ### Searching -/

/-- The step that has no fuel left. -/
def exhausted : Inquiry α := ExceptT.mk fun _ => none

/-- A step made while domain and range have changed places. They are put back when it ends,
with an error or without. -/
def turned (x : Inquiry α) : Inquiry α := ExceptT.mk do
  modify Memory.turn
  let outcome ← x.run
  modify Memory.turn
  return outcome

/-- A question to the schemas in their present places. -/
def ask (question : Sides → Except AnalysisError α) : Inquiry α := do
  question (← get).sides

section Search

variable (agree : Handle → Handle → Inquiry Bool)

/-- The ways to map one literal onto another that extend a substitution. -/
def matchLiterals (s : Substitution) : Literal → Literal → Inquiry (List Substitution)
  | .ordinary p a, .ordinary q b => do
    if p = q then
      if ← agree a.predicate b.predicate then
        return (matchTerms? s a.terms b.terms).toList
    return []
  | .builtIn a, .builtIn b => return matchBuiltIns s a b
  | _, _ => return []

/-- The first extension of a substitution that maps every domain literal onto a range literal. -/
def search (range : List Literal) : List Literal → Substitution → Inquiry (Option Substitution)
  | [], s => return some s
  | first :: rest, s =>
    range.findSomeM? fun candidate => do
      (← matchLiterals agree s first candidate).findSomeM? fun extended =>
        search range rest extended

/-- A homomorphism between rules. -/
def searchRule (domain range : Rule) : Inquiry (Option Substitution) :=
  match matchTerms? .empty domain.head range.head with
  | some seed => search agree range.body.literals domain.body.literals seed
  | none => return none

/-! ### Comparing rules -/

/-- Whether there are homomorphisms both ways between a rule and one of some others. -/
def hasCounterpart (rule : Rule) (others : List Rule) : Inquiry Bool :=
  others.anyM fun other => do
    if (← searchRule agree rule other).isSome then
      return (← turned (searchRule agree other rule)).isSome
    else return false

/-- Whether two derived predicates of one arity define each other. -/
def definitionsAgree (domain range : Handle) : Inquiry Bool := do
  let d ← ask (·.domainRow domain)
  let r ← ask (·.rangeRow range)
  if d.isDerived && r.isDerived && d.arity == r.arity then
    if ← d.rules.allM fun rule => hasCounterpart agree rule r.rules then
      turned (r.rules.allM fun rule => hasCounterpart agree rule d.rules)
    else return false
  else return false

end Search

/-- Whether the rules of two predicates match: as far as the standing of their comparison says
it, and otherwise by making the comparison. One that is under way counts against them. -/
def rulesAgree (compare : Handle → Handle → Inquiry Bool) (domain range : Handle) :
    Inquiry Bool := do
  let pair : Comparand := ⟨domain, range, (← get).sides.turned⟩
  match (← get).standing pair with
  | some (.ended verdict) => return verdict
  | some .underWay => return false
  | none =>
    modify (Memory.enter pair)
    try
      let verdict ← compare domain range
      modify (Memory.leave pair (some (.ended verdict)))
      pure verdict
    catch e =>
      modify (Memory.leave pair none)
      throw e

/-- Which predicates match, given whether the rules of derived ones do. -/
def predicatesAgree (policy : Policy) (rules : Handle → Handle → Inquiry Bool)
    (domain range : Handle) : Inquiry Bool := do
  let d ← ask (·.domainRow domain)
  let r ← ask (·.rangeRow range)
  if d.isDerived || r.isDerived then
    match policy with
    | .forbidden => throw (.derivedLiteral (if d.isDerived then d.name else r.name))
    | .sameName => return namesAgree d r
    | .ruleStructural =>
      if namesAgree d r then return true else rules domain range
  else return namesAgree d r

/-- Which predicates match under a policy. The fuel bounds how many comparisons can be inside
each other. -/
def agree (policy : Policy) : Nat → Handle → Handle → Inquiry Bool
  | 0, _, _ => exhausted
  | fuel + 1, domain, range =>
    predicatesAgree policy (rulesAgree (definitionsAgree (agree policy fuel))) domain range

end Inquiry

/-! ### How steps end -/

section Ends

variable {α β : Type} {x : Inquiry α} {f : α → Inquiry β} {μ μ₁ μ₂ : Memory} {a : α}
  {e : AnalysisError} {outcome : Except AnalysisError α} {outcome' : Except AnalysisError β}

/-- Begun in the memory `μ`, the step ends with an answer or an error, and leaves the memory
`μ'`. -/
def Ends (x : Inquiry α) (μ : Memory) (outcome : Except AnalysisError α) (μ' : Memory) : Prop :=
  x.run.run μ = some (outcome, μ')

lemma ends_pure (a : α) (μ : Memory) : Ends (pure a) μ (.ok a) μ := rfl

lemma ends_throw (e : AnalysisError) (μ : Memory) : Ends (throw e : Inquiry α) μ (.error e) μ := rfl

lemma ends_modify (g : Memory → Memory) (μ : Memory) :
    Ends (modify g : Inquiry PUnit) μ (.ok ⟨⟩) (g μ) := rfl

lemma ends_ask (question : Sides → Except AnalysisError α) (μ : Memory) :
    Ends (Inquiry.ask question) μ (question μ.sides) μ := by
  have hrun : (Inquiry.ask question).run.run μ =
      (liftM (question μ.sides) : Inquiry α).run.run μ := rfl
  rw [Ends, hrun]
  cases question μ.sides <;> rfl

lemma Ends.bind (hx : Ends x μ (.ok a) μ₁) (hf : Ends (f a) μ₁ outcome' μ₂) :
    Ends (x >>= f) μ outcome' μ₂ := by
  rw [Ends, ExceptT.run_bind, StateT.run_bind, hx]
  exact hf

/-- A look at the memory, with a step after it. -/
lemma Ends.get_bind {f : Memory → Inquiry β} (hf : Ends (f μ) μ outcome' μ₂) :
    Ends (get >>= f) μ outcome' μ₂ :=
  Ends.bind (x := get) rfl hf

/-- An error is the end, whatever step would come next. -/
lemma Ends.bind_error (hx : Ends x μ (.error e) μ₁) : Ends (x >>= f) μ (.error e) μ₁ := by
  rw [Ends, ExceptT.run_bind, StateT.run_bind, hx]
  rfl

/-- Whatever a step ends with, the schemas are put back after it. -/
lemma Ends.turned (hx : Ends x μ.turn outcome μ₁) :
    Ends (Inquiry.turned x) μ outcome μ₁.turn := by
  rw [Ends] at hx
  simp only [Ends, Inquiry.turned, ExceptT.run_mk, StateT.run_bind, StateT.run_modify,
    StateT.run_pure, Option.pure_def, Option.bind_eq_bind, Option.bind_some, hx]

/-- A step that does not fail is not caught. -/
lemma Ends.try_ok {handle : AnalysisError → Inquiry α} (hx : Ends x μ (.ok a) μ₁) :
    Ends (tryCatch x handle) μ (.ok a) μ₁ := by
  rw [Ends, ExceptT.run_tryCatch, StateT.run_bind, hx]
  rfl

/-- One that fails is, in the memory that it has left. -/
lemma Ends.try_error {handle : AnalysisError → Inquiry α} (hx : Ends x μ (.error e) μ₁)
    (hhandle : Ends (handle e) μ₁ outcome μ₂) : Ends (tryCatch x handle) μ outcome μ₂ := by
  rw [Ends, ExceptT.run_tryCatch, StateT.run_bind, hx]
  exact hhandle

end Ends

/-! ### How comparisons end -/

section RulesAgree

variable {compare : Handle → Handle → Inquiry Bool} {d r : Handle} {pair : Comparand}
  {μ μ' : Memory} {verdict : Bool}

/-- A comparison that has ended is not made again. -/
lemma ends_rulesAgree_ended
    (hstanding : μ.standing ⟨d, r, μ.sides.turned⟩ = some (.ended verdict)) :
    Ends (Inquiry.rulesAgree compare d r) μ (.ok verdict) μ := by
  refine Ends.get_bind (Ends.get_bind ?_)
  rw [hstanding]
  exact ends_pure verdict μ

/-- Nor is one that is under way. -/
lemma ends_rulesAgree_underWay
    (hstanding : μ.standing ⟨d, r, μ.sides.turned⟩ = some .underWay) :
    Ends (Inquiry.rulesAgree compare d r) μ (.ok false) μ := by
  refine Ends.get_bind (Ends.get_bind ?_)
  rw [hstanding]
  exact ends_pure false μ

/-- One that is made leaves its verdict. -/
lemma Ends.rulesAgree_ok (hpair : pair = ⟨d, r, μ.sides.turned⟩)
    (hstanding : μ.standing pair = none)
    (h : Ends (compare d r) (μ.enter pair) (.ok verdict) μ') :
    Ends (Inquiry.rulesAgree compare d r) μ (.ok verdict)
      (μ'.leave pair (some (.ended verdict))) := by
  subst hpair
  refine Ends.get_bind (Ends.get_bind ?_)
  rw [hstanding]
  refine (ends_modify _ μ).bind (Ends.try_ok ?_)
  exact h.bind ((ends_modify _ μ').bind (ends_pure verdict _))

/-- After an error it is as if it had not been entered. -/
lemma Ends.rulesAgree_error {e : AnalysisError} (hpair : pair = ⟨d, r, μ.sides.turned⟩)
    (hstanding : μ.standing pair = none)
    (h : Ends (compare d r) (μ.enter pair) (.error e) μ') :
    Ends (Inquiry.rulesAgree compare d r) μ (.error e) (μ'.leave pair none) := by
  subst hpair
  refine Ends.get_bind (Ends.get_bind ?_)
  rw [hstanding]
  refine (ends_modify _ μ).bind (Ends.try_error h.bind_error ?_)
  exact (ends_modify _ μ').bind (ends_throw e _)

end RulesAgree

end DependencyTheory.Homomorphism
