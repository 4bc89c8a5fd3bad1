/-
The search for homomorphisms between lists of literals:

* `Policy`: how literals over derived predicates are treated;
* `Sides`: the schemas that domain and range literals are read in;
* `search`: the backtracking search, given which predicates match;
* `rulesAgree`: whether two derived predicates have equivalent rules;
* `startingAgreement`: which predicates match under a policy.

A homomorphism turns every domain literal into some range literal. The search
takes the domain literals in order and tries the range literals in order for
each of them.

Whether the rules of two predicates match is again a question of
homomorphisms, between rule bodies, in which further pairs of predicates may
come up. A pair that comes up while it is being compared itself counts as one
that does not match. Every comparison therefore has fewer pairs to open than
the one around it, which is why the search ends: `unopened` are the pairs that
are not being compared. Verdicts are remembered until the search is over.
-/
import DependencyTheory.Homomorphism.Matching
import DependencyTheory.Schema.Basic

namespace DependencyTheory.Homomorphism

/-! ### Policies and sides -/

/-- How literals over derived predicates are treated. -/
inductive Policy where
  /-- They are an error. -/
  | forbidden
  /-- They match if their predicates have the same name. -/
  | sameName
  /-- They match if their predicates have the same name or equivalent
  rules. -/
  | ruleStructural
  deriving DecidableEq

/-- The schemas of the two sides. They change places when a range literal is
mapped back onto a domain literal; `turned` says whether they have. -/
structure Sides where
  domain : Schema
  range : Schema
  turned : Bool
  deriving DecidableEq

namespace Sides

/-- Domain and range with their places changed. -/
def turn (sides : Sides) : Sides := ⟨sides.range, sides.domain, !sides.turned⟩

@[simp] theorem turn_turn (sides : Sides) : sides.turn.turn = sides := by
  simp [turn]

/-- The predicate of a domain handle. -/
def domainRow (sides : Sides) (h : Handle) : Except AnalysisError Predicate :=
  match sides.domain.get? h with
  | some p => .ok p
  | none => .error (.foreignPredicate h.index)

/-- The predicate of a range handle. -/
def rangeRow (sides : Sides) (h : Handle) : Except AnalysisError Predicate :=
  match sides.range.get? h with
  | some p => .ok p
  | none => .error (.foreignPredicate h.index)

end Sides

/-! ### What a search remembers -/

/-- Two predicates whose rules are compared, and which way round. -/
structure Comparand where
  domain : Handle
  range : Handle
  turned : Bool
  deriving DecidableEq

/-- The pairs of predicates that can come up, both ways round. -/
def Sides.comparands (sides : Sides) : List Comparand :=
  let pairs (d r : Schema) (turned : Bool) : List Comparand :=
    d.predicates.handles.flatMap fun h =>
      r.predicates.handles.map fun k => ⟨h, k, turned⟩
  pairs sides.domain sides.range sides.turned ++
    pairs sides.range sides.domain !sides.turned

/-- The verdicts of the comparisons that have ended, the latest first. -/
abbrev Verdicts := List (Comparand × Bool)

/-- Steps of a search: they remember verdicts, and an error ends them all. -/
abbrev Attempt (α : Type) := StateT Verdicts (Except AnalysisError) α

/-- Which pairs of handles match, as a step of a search. -/
abbrev Agreement := Sides → Handle → Handle → Attempt Bool

/-! ### Searching for homomorphisms -/

/-- The ways to map one literal onto another that extend a substitution. Only
comparisons have two. -/
def matchLiterals (agree : Agreement) (sides : Sides) (s : Substitution) :
    Literal → Literal → Attempt (List Substitution)
  | .ordinary p a, .ordinary q b => do
    if p = q then
      if ← agree sides a.predicate b.predicate then
        return (matchTerms? s a.terms b.terms).toList
    return []
  | .builtIn a, .builtIn b => return matchBuiltIns s a b
  | _, _ => return []

/-- The first extension of a substitution that maps every domain literal onto
a range literal, in the order of the choices for the domain literals. -/
def search (agree : Agreement) (sides : Sides) (range : List Literal) :
    List Literal → Substitution → Attempt (Option Substitution)
  | [], s => return some s
  | first :: rest, s =>
    range.findSomeM? fun candidate => do
      (← matchLiterals agree sides s first candidate).findSomeM? fun extended =>
        search agree sides range rest extended

/-- A homomorphism between rules: the heads are mapped place by place, then
the bodies are searched. -/
def searchRule (agree : Agreement) (sides : Sides) (domain range : Rule) :
    Attempt (Option Substitution) :=
  match matchTerms? .empty domain.head range.head with
  | some seed => search agree sides range.body.literals domain.body.literals seed
  | none => return none

/-! ### Which predicates match -/

/-- Whether there are homomorphisms both ways between a rule and one of some
others. -/
def hasCounterpart (agree : Agreement) (sides : Sides) (rule : Rule)
    (others : List Rule) : Attempt Bool :=
  others.anyM fun other => do
    if (← searchRule agree sides rule other).isSome then
      return (← searchRule agree sides.turn other rule).isSome
    else return false

/-- Whether two derived predicates of one arity define each other: every rule
of either has an equivalent one among the rules of the other. -/
def definitionsAgree (agree : Agreement) (sides : Sides) (domain range : Handle) :
    Attempt Bool := do
  let d ← sides.domainRow domain
  let r ← sides.rangeRow range
  if d.isDerived && r.isDerived && d.arity == r.arity then
    if ← d.rules.allM fun rule => hasCounterpart agree sides rule r.rules then
      r.rules.allM fun rule => hasCounterpart agree sides.turn rule d.rules
    else return false
  else return false

/-- Whether two predicates have the same name and arity. -/
def namesAgree (d r : Predicate) : Bool := d.name == r.name && d.arity == r.arity

/-- Which predicates match, given whether the rules of derived ones do. Base
predicates match by name, and so do derived ones under every policy that
admits them. -/
def predicatesAgree (policy : Policy) (rules : Agreement) : Agreement :=
  fun sides domain range => do
    let d ← sides.domainRow domain
    let r ← sides.rangeRow range
    if d.isDerived || r.isDerived then
      match policy with
      | .forbidden => throw (.derivedLiteral (if d.isDerived then d.name else r.name))
      | .sameName => return namesAgree d r
      | .ruleStructural =>
        if namesAgree d r then return true else rules sides domain range
    else return namesAgree d r

/-- Opening a pair leaves fewer pairs to open. -/
theorem fewer_unopened {unopened : List Comparand} {pair : Comparand}
    (h : pair ∈ unopened) : (unopened.erase pair).length < unopened.length := by
  rw [List.length_erase_of_mem h]
  exact Nat.sub_lt (List.length_pos_of_mem h) Nat.one_pos

/-- Whether the rules of two predicates match. A verdict is looked up if there
is one. Otherwise the rules are compared, unless that is what the search is
just doing. -/
def rulesAgree (policy : Policy) (unopened : List Comparand) : Agreement :=
  fun sides domain range => do
    let pair : Comparand := ⟨domain, range, sides.turned⟩
    match (← get).lookup pair with
    | some verdict => return verdict
    | none =>
      if _ : pair ∈ unopened then
        let inner := predicatesAgree policy (rulesAgree policy (unopened.erase pair))
        let verdict ← definitionsAgree inner sides domain range
        modify ((pair, verdict) :: ·)
        return verdict
      else return false
termination_by unopened.length
decreasing_by exact fewer_unopened ‹_›

/-- Which predicates match under a policy, at the start of a search between
two schemas. -/
@[inline] def startingAgreement (policy : Policy) (sides : Sides) : Agreement :=
  predicatesAgree policy (rulesAgree policy sides.comparands)

end DependencyTheory.Homomorphism
