/-
Sets of facts, and what it means that a dependency is satisfied in one:

* `Fact`: a predicate with the values of its arguments;
* `Vocabulary`: a value for each constant, and a meaning for each built-in operator;
* `Vocabulary.Holds`: whether a literal is true in a set of facts, under an
  assignment of values to the variables;
* `Vocabulary.SatisfiesTgd`, `SatisfiesEgd`: whether a dependency is satisfied, read
  as a first-order implication;
* `Vocabulary.Models`: whether all dependencies of a schema are satisfied, and derived
  predicates are what their rules derive;
* `FunctionalDependency.HoldsIn`: whether tuples that agree on the key agree on the
  determined positions;
* `Vocabulary.exists_value_eq`: values at the places of some variables can be
  prescribed, as long as no such variable stands at two places;
* `Vocabulary.holdsHead_of_atoms`: choices for single head atoms are glued together, as
  long as they agree on what two atoms share.

Predicates are known by their handles here, so that a set of facts serves
dependencies over any number of schemas.
-/
import DependencyTheory.FunctionalDependency
import DependencyTheory.Schema.Basic
import Mathlib.Data.Set.Basic
import Mathlib.Tactic.Lemma

namespace DependencyTheory

universe u

variable {U V : Type u}

/-! ### Facts -/

/-- A predicate with the values of its arguments, of which there are as many as it
takes. -/
@[ext]
structure Fact (U : Type u) where
  predicate : Handle
  args : List U
  fits : args.length = predicate.arity

/-- The same fact about other values. -/
def Fact.map (h : U → V) (f : Fact U) : Fact V :=
  ⟨f.predicate, f.args.map h, by rw [List.length_map, f.fits]⟩

lemma Fact.map_map {W : Type u} (g : U → V) (h : V → W) (f : Fact U) :
    (f.map g).map h = f.map fun u => h (g u) :=
  Fact.ext rfl (List.map_map ..)

/-- The fact that an atom becomes when its terms get values. -/
def Atom.toFact (h : Term → U) (a : Atom) : Fact U :=
  ⟨a.predicate, a.terms.map h, by rw [List.length_map, a.fits]⟩

@[simp] lemma Atom.args_toFact (h : Term → U) (a : Atom) :
    (a.toFact h).args = a.terms.map h := rfl

/-- Giving values to terms and then mapping them is giving the mapped values. -/
lemma Atom.map_toFact {h : Term → U} {g : U → V} (a : Atom) :
    (a.toFact h).map g = a.toFact fun t => g (h t) :=
  Fact.ext rfl (List.map_map ..)

/-- An atom with variables only, over a predicate of a table given by its place. -/
def Atom.ofVars (place : Nat) (xs : List String) : Atom :=
  ⟨⟨0, place, xs.length⟩, xs.map .var, List.length_map Term.var⟩

@[simp] lemma Atom.predicate_ofVars (place : Nat) (xs : List String) :
    (ofVars place xs).predicate = ⟨0, place, xs.length⟩ := rfl

@[simp] lemma Atom.terms_ofVars (place : Nat) (xs : List String) :
    (ofVars place xs).terms = xs.map .var := rfl

/-- The conjunction of one or more affirmed atoms. -/
def Clause.ofAtoms (a : Atom) (as : List Atom) : Clause :=
  ⟨.ordinary true a :: as.map (.ordinary true), List.cons_ne_nil _ _⟩

/-- The dependency that generates one or more atoms from a clause. -/
def Tgd.ofAtoms (body : Clause) (a : Atom) (as : List Atom) : Tgd :=
  ⟨body, a :: as, List.cons_ne_nil a as⟩

/-- An atom becomes the same fact under values that agree on its terms. -/
lemma Atom.toFact_congr {h g : Term → U} {a : Atom} (hterms : ∀ t ∈ a.terms, h t = g t) :
    a.toFact h = a.toFact g :=
  Fact.ext rfl (List.map_congr_left hterms)

/-- Whether a conjunction consists of affirmed atoms. -/
def Clause.IsAtomic (c : Clause) : Prop := ∀ l ∈ c.literals, ∃ a, l = .ordinary true a

/-! ### Truth in a set of facts -/

/-- A meaning for the names that no schema declares. -/
structure Vocabulary (U : Type u) where
  constant : String → U
  comparison : Comparison → U → U → Prop
  custom : String → List U → Prop

namespace Vocabulary

variable (K : Vocabulary U) (D : Set (Fact U))

/-- The value of a term under an assignment. -/
def value (v : String → U) : Term → U
  | .var x => v x
  | .const c => K.constant c

/-- Whether a built-in literal is true. -/
def HoldsBuiltIn (v : String → U) : BuiltIn → Prop
  | .comparison op left right => K.comparison op (K.value v left) (K.value v right)
  | .truth b => b = true
  | .custom name terms => K.custom name (terms.map (K.value v))

/-- Whether a literal is true: an affirmed atom is one of the facts, a denied one is
not. -/
def Holds (v : String → U) : Literal → Prop
  | .ordinary true a => a.toFact (K.value v) ∈ D
  | .ordinary false a => a.toFact (K.value v) ∉ D
  | .builtIn b => K.HoldsBuiltIn v b

/-- Whether all literals of a list are true. -/
def HoldsAll (v : String → U) (literals : List Literal) : Prop :=
  ∀ l ∈ literals, K.Holds D v l

/-! ### Satisfaction -/

/-- Whether some values for the existential variables make all head atoms of a
dependency true. The universal variables keep the values that they have. -/
def HoldsHead (v : String → U) (t : Tgd) : Prop :=
  ∃ w : String → U, (∀ x ∈ t.universal, w x = v x) ∧ ∀ a ∈ t.head, a.toFact (K.value w) ∈ D

/-- Whether the head of a dependency is true wherever its body is. -/
def SatisfiesTgd (t : Tgd) : Prop :=
  ∀ v, K.HoldsAll D v t.body.literals → K.HoldsHead D v t

/-- Whether the two sides of a dependency are equal wherever its body is true. -/
def SatisfiesEgd (e : Egd) : Prop :=
  ∀ v, K.HoldsAll D v e.body.literals → K.value v e.left = K.value v e.right

/-- Whether a dependency of either kind is satisfied. -/
def Satisfies : Dependency → Prop
  | .tgd t => K.SatisfiesTgd D t
  | .egd e => K.SatisfiesEgd D e

/-- Whether a rule derives a tuple: its head has these values under an assignment that
makes its body true. -/
def Derives (r : Rule) (args : List U) : Prop :=
  ∃ v, r.head.map (K.value v) = args ∧ K.HoldsAll D v r.body.literals

/-- Whether a set of facts is a model of a schema: all dependencies are satisfied, and a
derived predicate holds of just the tuples that one of its rules derives. -/
structure Models (s : Schema) : Prop where
  dependencies : ∀ d ∈ s.dependencies, K.Satisfies D d
  rules : ∀ (f : Fact U) p, s.get? f.predicate = some p → p.isDerived = true →
    (f ∈ D ↔ ∃ r ∈ p.rules, K.Derives D r f.args)

end Vocabulary

/-- Whether two lists have the same elements at the positions of a set. -/
def AgreeOn (positions : IndexSet) (as bs : List U) : Prop := ∀ i ∈ positions, as[i]? = bs[i]?

/-- Whether any two facts about the predicate that agree on the key agree on the
determined positions. -/
def FunctionalDependency.HoldsIn (fd : FunctionalDependency) (D : Set (Fact U)) : Prop :=
  ∀ f ∈ D, ∀ g ∈ D, f.predicate = fd.predicate → g.predicate = fd.predicate →
    AgreeOn fd.key f.args g.args → AgreeOn fd.determined f.args g.args

namespace Vocabulary

variable {K : Vocabulary U} {D : Set (Fact U)} {v : String → U}

/-! ### Prescribing values -/

/-- The value of a term does not depend on variables that it does not have. -/
lemma value_congr {w : String → U} {t : Term} (h : ∀ x, t = .var x → w x = v x) :
    K.value w t = K.value v t := by
  cases t with
  | var x => exact h x rfl
  | const c => rfl

/-- **Values can be prescribed** at the places of variables that may change, if none of
these stands at two places. The other terms must have the prescribed values already. -/
lemma exists_value_eq (mayChange : String → Prop) {terms : List Term} {args : List U}
    (hlength : terms.length = args.length)
    (honce : ∀ x, mayChange x → ∀ i j : Nat, terms[i]? = some (.var x) → terms[j]? = some (.var x) →
      i = j)
    (hrest : ∀ (i : Nat) t, terms[i]? = some t → (∀ x, t = .var x → ¬mayChange x) →
      args[i]? = some (K.value v t)) :
    ∃ w : String → U, (∀ x, ¬mayChange x → w x = v x) ∧ terms.map (K.value w) = args := by
  classical
  -- a variable that may change gets the value prescribed at its place
  let w : String → U := fun x =>
    if h : ∃ (i : Nat) (u : U), mayChange x ∧ terms[i]? = some (.var x) ∧ args[i]? = some u
    then h.choose_spec.choose else v x
  refine ⟨w, fun x hx => dif_neg fun ⟨_, _, hchange, _⟩ => hx hchange, ?_⟩
  refine List.ext_getElem? fun i => ?_
  rw [List.getElem?_map]
  cases ht : terms[i]? with
  | none =>
      have hi : args.length ≤ i := hlength ▸ List.getElem?_eq_none_iff.mp ht
      exact (List.getElem?_eq_none hi).symm
  | some t =>
      by_cases hchange : ∃ x, t = .var x ∧ mayChange x
      · obtain ⟨x, rfl, hx⟩ := hchange
        have hi : i < args.length := hlength ▸ (List.getElem?_eq_some_iff.mp ht).1
        have hex : ∃ (i : Nat) (u : U),
            mayChange x ∧ terms[i]? = some (.var x) ∧ args[i]? = some u :=
          ⟨i, args[i], hx, ht, List.getElem?_eq_getElem hi⟩
        have hw : w x = hex.choose_spec.choose := dif_pos hex
        obtain ⟨-, hplace, hvalue⟩ := hex.choose_spec.choose_spec
        rw [honce x hx i _ ht hplace, hvalue, ← hw]
        rfl
      · have hsame : K.value w t = K.value v t := value_congr fun x hx =>
          dif_neg fun ⟨_, _, hmay, _⟩ => hchange ⟨x, hx, hmay⟩
        rw [hrest i t ht fun x hx hmay => hchange ⟨x, hx, hmay⟩, Option.map_some, hsame]

/-! ### Gluing choices -/

/-- **Choices for the head atoms are glued together** to one choice for the whole head,
if two of them agree on the existential variables that their atoms share. -/
lemma holdsHead_of_atoms {t : Tgd} (u : Atom → String → U)
    (huniversal : ∀ a ∈ t.head, ∀ x ∈ t.universal, u a x = v x)
    (hfact : ∀ a ∈ t.head, a.toFact (K.value (u a)) ∈ D)
    (hagree : ∀ a ∈ t.head, ∀ b ∈ t.head, ∀ x ∈ t.existential, x ∈ a.vars → x ∈ b.vars →
      u a x = u b x) : K.HoldsHead D v t := by
  classical
  -- an existential variable gets its value from some atom in which it stands
  let glued : String → U := fun x =>
    if hx : ∃ a ∈ t.head, x ∈ t.existential ∧ x ∈ a.vars then u hx.choose x else v x
  have hkeeps : ∀ x ∈ t.universal, glued x = v x := fun x hx =>
    dif_neg fun ⟨_, _, hex, _⟩ => (Tgd.mem_existential.mp hex).2 hx
  refine ⟨glued, hkeeps, fun a ha => ?_⟩
  have hglued : ∀ x ∈ a.vars, glued x = u a x := by
    intro x hx
    rcases Tgd.mem_universal_or_existential ha hx with huniv | hex
    · rw [hkeeps x huniv, huniversal a ha x huniv]
    · have hsome : ∃ a ∈ t.head, x ∈ t.existential ∧ x ∈ a.vars := ⟨a, ha, hex, hx⟩
      have hdef : glued x = u hsome.choose x := dif_pos hsome
      obtain ⟨hb, -, hxb⟩ := hsome.choose_spec
      rw [hdef, hagree _ hb a ha x hex hxb hx]
  have hsame : a.toFact (K.value glued) = a.toFact (K.value (u a)) := by
    refine Atom.toFact_congr fun term hterm => value_congr fun x hx => hglued x ?_
    exact Term.mem_vars.mpr (hx ▸ hterm)
  rw [hsame]
  exact hfact a ha

end Vocabulary

end DependencyTheory
