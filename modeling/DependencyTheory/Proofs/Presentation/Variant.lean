/-
Dependencies that differ in their presentation:

* `Term.Renames`, `Atom.Renames`, `Literal.Renames`: whether one term, atom or literal is another
  one with corresponding variables and handles;
* `Tgd.Renames`, `Egd.Renames`: the same for dependencies, whose literals and head atoms may
  stand in another order, and whose equality may be the other way round;
* `Tgd.Variant`, `Egd.Variant`, `Dependency.Variant`: whether there is such a correspondence of
  variables;
* `Tgd.Renames.conflictsWith_eq`: variants have the same conflicts.

Variables correspond to each other one to one, and so do handles. Both are relations, so that
they need to be given only for what occurs, and what is said of a variant can be said the other
way round.
-/
import DependencyTheory.Proofs.Conflict.Heads
import DependencyTheory.Proofs.Position.Affected
import DependencyTheory.Proofs.Presentation.Shuffle

namespace DependencyTheory

/-! ### Terms, atoms and literals -/

/-- Whether two terms are the same constant, or variables that correspond to each other. -/
inductive Term.Renames (V : String → String → Prop) : Term → Term → Prop
  | var {x y : String} (h : V x y) : Renames V (.var x) (.var y)
  | const (c : String) : Renames V (.const c) (.const c)

/-- Whether two atoms have corresponding handles and terms. -/
structure Atom.Renames (R : Handle → Handle → Prop) (V : String → String → Prop)
    (a b : Atom) : Prop where
  predicate : R a.predicate b.predicate
  terms : List.Forall₂ (Term.Renames V) a.terms b.terms

/-- Whether two literals are of one kind and have corresponding handles and terms. -/
inductive Literal.Renames (R : Handle → Handle → Prop) (V : String → String → Prop) :
    Literal → Literal → Prop
  | ordinary {a b : Atom} (positive : Bool) (h : a.Renames R V b) :
      Renames R V (.ordinary positive a) (.ordinary positive b)
  | builtIn {b b' : BuiltIn} (operator : b.operator = b'.operator)
      (h : List.Forall₂ (Term.Renames V) b.terms b'.terms) :
      Renames R V (.builtIn b) (.builtIn b')

/-- Whether two clauses have corresponding literals, in whatever order. -/
def Clause.Renames (R : Handle → Handle → Prop) (V : String → String → Prop)
    (c c' : Clause) : Prop :=
  Shuffled (Literal.Renames R V) c.literals c'.literals

/-! ### Dependencies -/

/-- Whether two dependencies have corresponding bodies and head atoms. -/
structure Tgd.Renames (R : Handle → Handle → Prop) (V : String → String → Prop)
    (t t' : Tgd) : Prop where
  body : t.body.Renames R V t'.body
  head : Shuffled (Atom.Renames R V) t.head t'.head

/-- Whether two dependencies have corresponding bodies and equalities, which may be the other
way round. -/
structure Egd.Renames (R : Handle → Handle → Prop) (V : String → String → Prop)
    (e e' : Egd) : Prop where
  body : e.body.Renames R V e'.body
  sides : e.left.Renames V e'.left ∧ e.right.Renames V e'.right ∨
    e.left.Renames V e'.right ∧ e.right.Renames V e'.left

/-- Whether two dependencies correspond to each other, up to a one-to-one correspondence of
their variables. -/
def Tgd.Variant (R : Handle → Handle → Prop) (t t' : Tgd) : Prop :=
  ∃ V, Relator.BiUnique V ∧ t.Renames R V t'

@[inherit_doc Tgd.Variant]
def Egd.Variant (R : Handle → Handle → Prop) (e e' : Egd) : Prop :=
  ∃ V, Relator.BiUnique V ∧ e.Renames R V e'

@[inherit_doc Tgd.Variant]
inductive Dependency.Variant (R : Handle → Handle → Prop) : Dependency → Dependency → Prop
  | tgd {t t' : Tgd} (h : t.Variant R t') : Variant R (.tgd t) (.tgd t')
  | egd {e e' : Egd} (h : e.Variant R e') : Variant R (.egd e) (.egd e')

variable {R : Handle → Handle → Prop} {V : String → String → Prop} {term term' : Term}
  {a b : Atom} {l l' : Literal} {c c' : Clause} {t t' : Tgd} {e e' : Egd} {x y : String}

/-- Whether handles correspond to each other one to one, and to handles of the same arity. -/
structure Handle.OneToOne (R : Handle → Handle → Prop) : Prop where
  biUnique : Relator.BiUnique R
  arity : ∀ h k, R h k → h.arity = k.arity

/-! ### The other way round -/

/-- A renamed term is renamed back by the correspondence read backwards. -/
lemma Term.Renames.flip (h : term.Renames V term') : term'.Renames (flip V) term := by
  cases h with
  | var h => exact .var h
  | const c => exact .const c

lemma Term.forall₂_renames_flip {terms terms' : List Term}
    (h : List.Forall₂ (Term.Renames V) terms terms') :
    List.Forall₂ (Term.Renames (flip V)) terms' terms :=
  List.Forall₂.flip (h.imp fun _ _ h => Term.Renames.flip h)

/-- The same for atoms. -/
lemma Atom.Renames.flip (h : a.Renames R V b) : b.Renames (flip R) (flip V) a :=
  ⟨h.predicate, Term.forall₂_renames_flip h.terms⟩

/-- The same for literals. -/
lemma Literal.Renames.flip (h : l.Renames R V l') : l'.Renames (flip R) (flip V) l := by
  cases h with
  | ordinary positive h => exact .ordinary positive h.flip
  | builtIn operator h => exact .builtIn operator.symm (Term.forall₂_renames_flip h)

/-- The same for clauses, whose order is undone as well. -/
lemma Clause.Renames.flip (h : c.Renames R V c') : c'.Renames (flip R) (flip V) c :=
  (Shuffled.flip h).mono fun _ _ h => Literal.Renames.flip h

/-- A one-to-one correspondence is one to one read backwards. -/
lemma biUnique_flip {α β : Type} {r : α → β → Prop} (h : Relator.BiUnique r) :
    Relator.BiUnique (flip r) :=
  ⟨fun _ _ _ hab hcb => h.2 hab hcb, fun _ _ _ hab hac => h.1 hab hac⟩

lemma biUnique_eq {α : Type} : Relator.BiUnique (@Eq α) :=
  ⟨fun _ _ _ h h' => h.trans h'.symm, fun _ _ _ h h' => h.symm.trans h'⟩

/-- Handles of the same arity are so whichever is named first. -/
lemma Handle.OneToOne.flip (h : Handle.OneToOne R) : Handle.OneToOne (flip R) :=
  ⟨biUnique_flip h.biUnique, fun _ _ hk => (h.arity _ _ hk).symm⟩

lemma Tgd.Renames.flip (h : t.Renames R V t') : t'.Renames (flip R) (flip V) t :=
  ⟨h.body.flip, h.head.flip.mono fun _ _ h => Atom.Renames.flip h⟩

/-- **Variants are variants of each other.** -/
lemma Tgd.Variant.flip (h : t.Variant R t') : t'.Variant (flip R) t := by
  obtain ⟨V, hV, h⟩ := h
  exact ⟨_, biUnique_flip hV, h.flip⟩

/-- The same for equalities: what is said of each of their two readings is said backwards. -/
lemma Egd.Variant.flip (h : e.Variant R e') : e'.Variant (flip R) e := by
  obtain ⟨V, hV, hbody, hsides⟩ := h
  refine ⟨_, biUnique_flip hV, hbody.flip, hsides.imp (fun h => ⟨h.1.flip, h.2.flip⟩) fun h => ?_⟩
  exact ⟨h.2.flip, h.1.flip⟩

/-- The same for dependencies of either kind. -/
lemma Dependency.Variant.flip {d d' : Dependency} (h : d.Variant R d') : d'.Variant (flip R) d := by
  cases h with
  | tgd h => exact .tgd h.flip
  | egd h => exact .egd h.flip

/-! ### Variables -/

/-- Constants are dropped on both sides, so the variables that are left correspond. -/
lemma Term.forall₂_vars {terms terms' : List Term}
    (h : List.Forall₂ (Term.Renames V) terms terms') :
    List.Forall₂ V (Term.vars terms) (Term.vars terms') := by
  refine List.rel_filterMap (fun term term' h => ?_) h
  cases h with
  | var h => exact .some h
  | const c => exact .none

lemma Literal.Renames.vars (h : l.Renames R V l') : List.Forall₂ V l.vars l'.vars := by
  cases h with
  | ordinary positive h => exact Term.forall₂_vars h.terms
  | builtIn operator h => exact Term.forall₂_vars h

/-- Corresponding variables occur in corresponding clauses together. -/
lemma Clause.Renames.mem_vars (hV : Relator.BiUnique V) (h : c.Renames R V c') (hxy : V x y) :
    x ∈ c.vars ↔ y ∈ c'.vars := by
  rw [vars, vars, OrderedSet.mem_ofList, OrderedSet.mem_ofList]
  exact (Shuffled.flatMap h fun _ _ h => Literal.Renames.vars h).mem_iff hV hxy

namespace Tgd.Renames

/-- Corresponding variables are universal together. -/
lemma mem_universal (hV : Relator.BiUnique V) (h : t.Renames R V t') (hxy : V x y) :
    x ∈ t.universal ↔ y ∈ t'.universal :=
  h.body.mem_vars hV hxy

/-- Corresponding variables are existential together. -/
lemma mem_existential (hV : Relator.BiUnique V) (h : t.Renames R V t') (hxy : V x y) :
    x ∈ t.existential ↔ y ∈ t'.existential := by
  have hhead : x ∈ t.headVariables ↔ y ∈ t'.headVariables := by
    rw [headVariables, headVariables, OrderedSet.mem_ofList, OrderedSet.mem_ofList]
    exact (h.head.flatMap fun _ _ h => Term.forall₂_vars h.terms).mem_iff hV hxy
  rw [Tgd.mem_existential, Tgd.mem_existential, hhead, h.mem_universal hV hxy]

end Tgd.Renames

/-! ### Conflicts -/

/-- Corresponding literals both have a positive atom or neither has. -/
lemma Literal.Renames.positiveAtom? (h : l.Renames R V l') :
    Option.Rel (Atom.Renames R V) l.positiveAtom? l'.positiveAtom? := by
  cases h with
  | ordinary positive h =>
      cases positive with
      | true => exact .some h
      | false => exact .none
  | builtIn operator h => exact .none

namespace Tgd.Renames

/-- Existential variables occur as often in one head as in the other. -/
lemma nodup_existentialOccurrences (hV : Relator.BiUnique V) (h : t.Renames R V t')
    {as bs : List Atom} (hab : Shuffled (Atom.Renames R V) as bs) :
    (t.existentialOccurrences as).Nodup ↔ (t'.existentialOccurrences bs).Nodup := by
  have hvars : Shuffled V (as.flatMap Atom.vars) (bs.flatMap Atom.vars) :=
    hab.flatMap fun _ _ h => Term.forall₂_vars h.terms
  refine Shuffled.nodup_iff hV (hvars.filter fun x y hxy => ?_)
  rw [decide_eq_true_iff, decide_eq_true_iff, h.mem_existential hV hxy]

/-- Corresponding atoms conflict with a key together: the constants, the repeated existential
variables and the universal variables of one stand where those of the other do. -/
lemma atomConflicts_eq (hV : Relator.BiUnique V) (h : t.Renames R V t') {key : IndexSet}
    (hab : a.Renames R V b) : t.atomConflicts key a = t'.atomConflicts key b := by
  have hconst : a.terms.any Term.isConst = b.terms.any Term.isConst := by
    refine (Shuffled.of_forall₂ hab.terms).any_eq fun term term' h => ?_
    cases h <;> rfl
  have hnodup := h.nodup_existentialOccurrences hV (.of_forall₂ (.cons hab .nil))
  rw [atomConflicts, atomConflicts, hconst, decide_eq_decide.mpr hnodup]
  refine congrArg (_ || ·) (any_zipIdx_eq_of_forall₂ hab.terms (fun term term' i hterm => ?_) 0)
  cases hterm with
  | var hxy => simp only [h.mem_universal hV hxy]
  | const c => rfl

/-- **Variants have the same conflicts.** -/
lemma conflictsWith_eq (hR : Relator.BiUnique R) (hV : Relator.BiUnique V) (h : t.Renames R V t')
    {fd fd' : FunctionalDependency} (hpredicate : R fd.predicate fd'.predicate)
    (hkey : fd.key = fd'.key) : t.conflictsWith fd = t'.conflictsWith fd' := by
  have haffected : Shuffled (Atom.Renames R V) (t.head.filter (·.predicate = fd.predicate))
      (t'.head.filter (·.predicate = fd'.predicate)) := by
    refine h.head.filter fun a b hab => ?_
    rw [decide_eq_true_iff, decide_eq_true_iff]
    exact Relator.rel_eq hR hab.predicate hpredicate
  have hnodup := h.nodup_existentialOccurrences hV h.head
  have hatom : ∀ a b, a.Renames R V b → t.atomConflicts fd.key a = t'.atomConflicts fd.key b :=
    fun a b hab => h.atomConflicts_eq hV hab
  have hany := haffected.any_eq hatom
  rw [conflictsWith, conflictsWith, haffected.length_eq, decide_eq_decide.mpr hnodup, ← hkey, hany]

end Tgd.Renames

end DependencyTheory
