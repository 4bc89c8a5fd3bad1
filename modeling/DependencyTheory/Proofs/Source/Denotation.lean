/-
What written parts of a schema stand for:

* `Naming`: how handles are called;
* `Atom.Denotes`, `Literal.Denotes`, `Statement.DenotesRule`, `Statement.DenotesDependency`:
  whether a part of a schema is what a written one stands for, given how handles are called;
* `Statement.isRuleFor`, `Statement.isDependency`: the two kinds of statements.
-/
import DependencyTheory.Proofs.Presentation.Shuffle
import DependencyTheory.Schema.Basic
import DependencyTheory.Source.Statement

namespace DependencyTheory

/-- How handles are called. A handle may have no name. -/
abbrev Naming := Handle → String → Prop

namespace Source

/-! ### What is denoted -/

/-- Whether an atom is what a written one stands for. -/
structure Atom.Denotes (C : Naming) (src : Atom) (a : DependencyTheory.Atom) : Prop where
  predicate : C a.predicate src.predicate
  terms : a.terms = src.terms

/-- Whether a literal is what a written one stands for. -/
inductive Literal.Denotes (C : Naming) : Literal → DependencyTheory.Literal → Prop
  | atom {src : Atom} {a : DependencyTheory.Atom} (positive : Bool) (h : src.Denotes C a) :
      Denotes C (.atom positive src) (.ordinary positive a)
  | comparison (op : Comparison) (left right : Term) :
      Denotes C (.comparison op left right) (.builtIn (.comparison op left right))
  | truth (value : Bool) : Denotes C (.truth value) (.builtIn (.truth value))

/-- Whether the literals of a clause are what written ones stand for, one by one. -/
def BodyDenotes (C : Naming) (body : List Literal) (c : Clause) : Prop :=
  List.Forall₂ (Literal.Denotes C) body c.literals

/-- Whether a rule is what a statement stands for. -/
inductive Statement.DenotesRule (C : Naming) : Statement → Rule → Prop
  | mk {head : Atom} {body : List Literal} {c : Clause} (h : BodyDenotes C body c) :
      DenotesRule C (.rule head body) ⟨head.terms, c⟩

/-- Whether a dependency is what a statement stands for. -/
inductive Statement.DenotesDependency (C : Naming) : Statement → Dependency → Prop
  | tgd {body : List Literal} {as : List Atom} {t : Tgd} (hbody : BodyDenotes C body t.body)
      (hhead : List.Forall₂ (Atom.Denotes C) as t.head) :
      DenotesDependency C (.dependency body (.atoms as)) (.tgd t)
  | egd {body : List Literal} {left right : Term} {c : Clause} (h : BodyDenotes C body c) :
      DenotesDependency C (.dependency body (.equality left right)) (.egd ⟨c, left, right⟩)

/-- Whether a statement is a rule for a predicate. -/
def Statement.isRuleFor (name : String) : Statement → Bool
  | rule head _ => head.predicate == name
  | dependency _ _ => false

/-- Whether a statement is a dependency. -/
def Statement.isDependency : Statement → Bool
  | rule _ _ => false
  | dependency _ _ => true

/-- Whether a statement has a body, and a head if this is a list of atoms. -/
def Statement.HasParts : Statement → Prop
  | rule _ body => body ≠ []
  | dependency body (.atoms as) => body ≠ [] ∧ as ≠ []
  | dependency body (.equality _ _) => body ≠ []

variable {C C' : Naming} {st : Statement} {body : List Literal} {c : Clause}

lemma Atom.Denotes.mono {src : Atom} {a : DependencyTheory.Atom} (h : src.Denotes C a)
    (hC : ∀ h name, C h name → C' h name) : src.Denotes C' a :=
  ⟨hC _ _ h.predicate, h.terms⟩

lemma Literal.Denotes.mono {src : Literal} {l : DependencyTheory.Literal} (h : src.Denotes C l)
    (hC : ∀ h name, C h name → C' h name) : src.Denotes C' l := by
  cases h with
  | atom positive ha => exact .atom positive (ha.mono hC)
  | comparison op left right => exact .comparison op left right
  | truth value => exact .truth value

lemma BodyDenotes.mono (h : BodyDenotes C body c) (hC : ∀ h name, C h name → C' h name) :
    BodyDenotes C' body c :=
  h.imp fun _ _ hl => hl.mono hC

lemma Statement.DenotesRule.mono {r : Rule} (h : st.DenotesRule C r)
    (hC : ∀ h name, C h name → C' h name) : st.DenotesRule C' r := by
  cases h with
  | mk h => exact .mk (h.mono hC)

lemma Statement.DenotesDependency.mono {d : Dependency} (h : st.DenotesDependency C d)
    (hC : ∀ h name, C h name → C' h name) : st.DenotesDependency C' d := by
  cases h with
  | tgd hbody hhead => exact .tgd (hbody.mono hC) (hhead.imp fun _ _ ha => ha.mono hC)
  | egd h => exact .egd (h.mono hC)

/-- The predicates of what is denoted have names. -/
lemma BodyDenotes.exists_name (h : BodyDenotes C body c) {k : Handle} (hk : k ∈ c.predicates) :
    ∃ name, C k name := by
  obtain ⟨l, hl, hlk⟩ := List.mem_filterMap.mp hk
  obtain ⟨src, -, hsrc⟩ := (Shuffled.of_forall₂ h).flip.exists_mem hl
  cases hsrc with
  | atom positive ha => exact Option.some.inj hlk ▸ ⟨_, ha.predicate⟩
  | _ => cases hlk

lemma Statement.DenotesDependency.exists_name {d : Dependency} (h : st.DenotesDependency C d)
    {k : Handle} (hk : k ∈ d.predicates) : ∃ name, C k name := by
  cases h with
  | tgd hbody hhead =>
      rcases List.mem_append.mp hk with hk | hk
      · exact hbody.exists_name hk
      · obtain ⟨a, ha, rfl⟩ := List.mem_map.mp hk
        obtain ⟨src, -, hsrc⟩ := (Shuffled.of_forall₂ hhead).flip.exists_mem ha
        exact ⟨_, Atom.Denotes.predicate hsrc⟩
  | egd h => exact h.exists_name hk

end Source

end DependencyTheory
