/-
What is said of a schema does not depend on its presentation:

* `SameVerdict`: whether two answers are the same, or both questions are unsupported;
* `Schema.isNonConflicting_of_shuffled`, `Schema.isAffected_iff_of_shuffled`,
  `Schema.sameVerdict_of_shuffled`: schemas with corresponding dependencies, in whatever order,
  get the same answers;
* `Schema.Rearranged`: whether a schema is another one with its dependencies, body literals and
  head atoms in another order, equalities the other way round and variables renamed;
* `Schema.verdicts_of_rearranged`: **then all analyses answer the same**.
-/
import DependencyTheory.Proofs.HeadSplit.Languages
import DependencyTheory.Proofs.Presentation.Functional
import DependencyTheory.Proofs.Presentation.Positions

namespace DependencyTheory

/-- Whether two checks give the same answer or are both not supported. -/
inductive SameVerdict : Except AnalysisError Bool → Except AnalysisError Bool → Prop
  | answer (v : Bool) : SameVerdict (.ok v) (.ok v)
  | unsupported (reason reason' : Unsupported) :
      SameVerdict (.error (.unsupported reason)) (.error (.unsupported reason'))

variable {R : Handle → Handle → Prop} {V : String → String → Prop} {s s' : Schema}

/-! ### Corresponding dependencies -/

/-- Corresponding clauses are atomic together: kinds of literals are kept. -/
lemma Clause.Renames.isAtomic_iff {c c' : Clause} (h : c.Renames R V c') :
    c.IsAtomic ↔ c'.IsAtomic := by
  refine Shuffled.forall_mem_iff h fun l l' hl => ?_
  cases hl with
  | @ordinary a b positive hab => cases positive <;> simp
  | builtIn _ _ => simp

lemma Dependency.Variant.isAtomic_iff {d d' : Dependency} (h : d.Variant R d') :
    d.body.IsAtomic ↔ d'.body.IsAtomic := by
  cases h with
  | tgd h =>
      obtain ⟨V, -, h⟩ := h
      exact h.body.isAtomic_iff
  | egd h =>
      obtain ⟨V, -, h⟩ := h
      exact h.body.isAtomic_iff

namespace Schema

/-- The tuple-generating dependencies of one schema correspond to those of the other. -/
lemma tgds_shuffled (h : Shuffled (Dependency.Variant R) s.dependencies s'.dependencies) :
    Shuffled (Tgd.Variant R) s.tgds s'.tgds := by
  refine h.filterMap fun d d' hd => ?_
  cases hd with
  | tgd h => exact .some h
  | egd _ => exact .none

/-- So do the equality-generating ones. -/
lemma egds_shuffled (h : Shuffled (Dependency.Variant R) s.dependencies s'.dependencies) :
    Shuffled (Egd.Variant R) s.egds s'.egds := by
  refine h.filterMap fun d d' hd => ?_
  cases hd with
  | tgd _ => exact .none
  | egd h => exact .some h

lemma shuffled_flip (h : Shuffled (Dependency.Variant R) s.dependencies s'.dependencies) :
    Shuffled (Dependency.Variant (flip R)) s'.dependencies s.dependencies :=
  h.flip.mono fun _ _ hd => Dependency.Variant.flip hd

/-- Schemas with corresponding dependencies are supported or not alike. -/
lemma requireAtomicBodies_of_shuffled
    (h : Shuffled (Dependency.Variant R) s.dependencies s'.dependencies) :
    s.requireAtomicBodies = .ok () ↔ s'.requireAtomicBodies = .ok () := by
  rw [requireAtomicBodies_eq_ok, requireAtomicBodies_eq_ok]
  exact h.forall_mem_iff fun _ _ hd => hd.isAtomic_iff

/-- One direction, which is enough since variants can be swapped: every functional dependency and
every dependency that it is asked about come from the other side. -/
lemma isNonConflicting_of_isNonConflicting (hR : Handle.OneToOne R)
    (h : Shuffled (Dependency.Variant R) s.dependencies s'.dependencies)
    (hs : s.isNonConflicting = true) : s'.isNonConflicting = true := by
  obtain ⟨hother, hkey, hconflict⟩ := isNonConflicting_iff.mp hs
  -- every functional dependency comes from one on the other side
  have hfd : ∀ fd' ∈ (Extraction.ofEgds s'.egds).dependencies,
      ∃ fd ∈ (Extraction.ofEgds s.egds).dependencies, R fd.predicate fd'.predicate ∧
        fd.key = fd'.key ∧ fd.determined = fd'.determined := by
    intro fd' hfd'
    obtain ⟨fd, hfd, hpredicate, hkey, hdetermined⟩ := exists_mem_dependencies_of_shuffled
      (biUnique_flip hR.biUnique) (egds_shuffled (shuffled_flip h)) hfd'
    exact ⟨fd, hfd, hpredicate, hkey.symm, hdetermined.symm⟩
  refine isNonConflicting_iff.mpr ⟨?_, fun fd' hfd' => ?_, fun t' ht' fd' hfd' => ?_⟩
  · exact (other_eq_nil_of_shuffled hR.biUnique (egds_shuffled h)).mp hother
  · obtain ⟨fd, hmem, hpredicate, hsame, hdetermined⟩ := hfd fd' hfd'
    have hisKey := hkey fd hmem
    rwa [FunctionalDependency.isKey, hsame, hdetermined, hR.arity _ _ hpredicate] at hisKey
  · obtain ⟨fd, hmem, hpredicate, hsame, -⟩ := hfd fd' hfd'
    obtain ⟨t, ht, V, hV, hrenames⟩ := (tgds_shuffled h).flip.exists_mem ht'
    rw [← hrenames.conflictsWith_eq hR.biUnique hV hpredicate hsame]
    exact hconflict t ht fd hmem

/-- **They are non-conflicting alike.** -/
theorem isNonConflicting_of_shuffled (hR : Handle.OneToOne R)
    (h : Shuffled (Dependency.Variant R) s.dependencies s'.dependencies) :
    s.isNonConflicting = s'.isNonConflicting :=
  Bool.eq_iff_iff.mpr ⟨isNonConflicting_of_isNonConflicting hR h,
    isNonConflicting_of_isNonConflicting hR.flip (shuffled_flip h)⟩

/-- **Their affected positions match.** -/
theorem isAffected_iff_of_shuffled (hR : Handle.OneToOne R)
    (h : Shuffled (Dependency.Variant R) s.dependencies s'.dependencies) {p p' : Position}
    (hp : p.Matches R p') : IsAffected s.tgds p ↔ IsAffected s'.tgds p' :=
  ⟨fun ha => ha.of_shuffled hR.biUnique (tgds_shuffled h) hp,
    fun ha => ha.of_shuffled (biUnique_flip hR.biUnique) (tgds_shuffled (shuffled_flip h))
      ⟨hp.predicate, hp.index.symm⟩⟩

/-! ### Checks -/

/-- Checks give the same answer if they look at properties that agree. -/
lemma sameVerdict_of_properties (hR : Handle.OneToOne R)
    (h : Shuffled (Dependency.Variant R) s.dependencies s'.dependencies)
    {property property' : Except AnalysisError Bool}
    (hproperty : s.requireAtomicBodies = .ok () → s'.requireAtomicBodies = .ok () →
      ∃ v, property = .ok v ∧ property' = .ok v) :
    SameVerdict (s.isNonConflictingAnd property) (s'.isNonConflictingAnd property') := by
  have hbodies := requireAtomicBodies_of_shuffled h
  cases hs : s.requireAtomicBodies with
  | ok =>
      have hs' := hbodies.mp hs
      obtain ⟨v, rfl, rfl⟩ := hproperty hs hs'
      rw [isNonConflictingAnd_of_ok hs, isNonConflictingAnd_of_ok hs',
        isNonConflicting_of_shuffled hR h]
      split
      · exact .answer v
      · exact .answer false
  | error e =>
      cases hs' : s'.requireAtomicBodies with
      | ok => exact absurd (hbodies.mpr hs') (by simp [hs])
      | error e' =>
          rw [isNonConflictingAnd_of_error hs, isNonConflictingAnd_of_error hs']
          obtain ⟨reason, rfl⟩ := exists_unsupported hs
          obtain ⟨reason', rfl⟩ := exists_unsupported hs'
          exact .unsupported reason reason'

/-- The computed sets of affected positions match because what they compute does. -/
lemma mem_affectedPositions_of_shuffled (hR : Handle.OneToOne R)
    (h : Shuffled (Dependency.Variant R) s.dependencies s'.dependencies) {p p' : Position}
    (hp : p.Matches R p') : p ∈ DependencyTheory.affectedPositions s.tgds ↔
      p' ∈ DependencyTheory.affectedPositions s'.tgds := by
  rw [mem_affectedPositions, mem_affectedPositions, isAffected_iff_of_shuffled hR h hp]

/-- **Every check gives the same answer.** -/
theorem sameVerdict_of_shuffled (hR : Handle.OneToOne R)
    (h : Shuffled (Dependency.Variant R) s.dependencies s'.dependencies) :
    ∀ check ∈ languageChecks, SameVerdict (check s) (check s') := by
  have htgds := tgds_shuffled h
  have hflip := shuffled_flip h
  simp only [languageChecks, List.forall_mem_cons, List.not_mem_nil, false_imp_iff, forall_const,
    and_true]
  refine ⟨?_, ?_, ?_, ?_⟩
  · refine sameVerdict_of_properties hR h fun _ _ => ⟨_, rfl, congrArg Except.ok ?_⟩
    refine (htgds.all_eq fun t t' ht => ?_).symm
    obtain ⟨V, -, hrenames⟩ := ht
    rw [Tgd.isLinear, Tgd.isLinear, Clause.size, Clause.size, Shuffled.length_eq hrenames.body]
  · refine sameVerdict_of_properties hR h fun _ _ => ⟨_, rfl, congrArg Except.ok ?_⟩
    refine (htgds.all_eq fun t t' ht => ?_).symm
    obtain ⟨V, hV, hrenames⟩ := ht
    exact hrenames.isSome_coveringLiteral?_eq hV (fun x => hrenames.exists_universal)
      fun y => hrenames.flip.exists_universal
  · refine sameVerdict_of_properties hR h fun hs hs' => ⟨s.tgds.all fun t =>
      (t.coveringLiteral?
        (t.affectedVariables (DependencyTheory.affectedPositions s.tgds))).isSome, ?_, ?_⟩
    · rw [affectedPositions_eq_ok.mpr ⟨hs, rfl⟩]
      rfl
    · rw [affectedPositions_eq_ok.mpr ⟨hs', rfl⟩]
      refine congrArg Except.ok (htgds.all_eq fun t t' ht => ?_).symm
      obtain ⟨V, hV, hrenames⟩ := ht
      exact hrenames.isSome_coveringLiteral?_eq hV
        (fun x => hrenames.exists_affectedVariables hR.biUnique hV fun q q' hq =>
          (mem_affectedPositions_of_shuffled hR h hq).mp)
        fun y => hrenames.flip.exists_affectedVariables (biUnique_flip hR.biUnique)
          (biUnique_flip hV) fun q q' hq => (mem_affectedPositions_of_shuffled hR.flip hflip hq).mp
  · refine sameVerdict_of_properties hR h fun hs hs' => ?_
    obtain ⟨marked, hmarked⟩ := exists_stickyMarking hs
    obtain ⟨marked', hmarked'⟩ := exists_stickyMarking hs'
    rw [hmarked, hmarked']
    refine ⟨_, rfl, congrArg Except.ok (decide_eq_decide.mpr ?_)⟩
    rw [nodup_markedNames_iff hmarked, nodup_markedNames_iff hmarked', marked_once_iff,
      marked_once_iff]
    refine (htgds.forall_mem_iff fun t t' ht => ?_).symm
    exact ⟨MarkedIn.occurs_once_of_shuffled hR.biUnique htgds ht,
      MarkedIn.occurs_once_of_shuffled (biUnique_flip hR.biUnique) (tgds_shuffled hflip) ht.flip⟩

end Schema

/-! ### Other presentations of the same schema -/

/-- A term with its variable renamed. -/
def Term.rename (σ : String → String) : Term → Term
  | var x => var (σ x)
  | const c => const c

/-- Whether a dependency is another one with its variables renamed, different ones to different
ones, its body literals and head atoms in any order, and its equality either way round. -/
inductive Dependency.Rearranged : Dependency → Dependency → Prop
  | tgd {t t' : Tgd} (σ : String → String)
      (hσ : Set.InjOn σ {x | x ∈ t.universal ∨ x ∈ t.headVariables})
      (hbody : (t.body.literals.map (Literal.mapTerms (Term.rename σ))).Perm t'.body.literals)
      (hhead : (t.head.map (Atom.mapTerms (Term.rename σ))).Perm t'.head) :
      Rearranged (.tgd t) (.tgd t')
  | egd {e e' : Egd} (σ : String → String)
      (hσ : Set.InjOn σ {x | x ∈ e.body.vars ∨ x ∈ Term.vars [e.left, e.right]})
      (hbody : (e.body.literals.map (Literal.mapTerms (Term.rename σ))).Perm e'.body.literals)
      (hsides : e'.left = e.left.rename σ ∧ e'.right = e.right.rename σ ∨
        e'.left = e.right.rename σ ∧ e'.right = e.left.rename σ) :
      Rearranged (.egd e) (.egd e')

/-- Whether two schemas have the same predicates, and the dependencies of one are those of the
other in another order, each presented in its own way. -/
structure Schema.Rearranged (s s' : Schema) : Prop where
  predicates : s'.predicates = s.predicates
  dependencies : Shuffled Dependency.Rearranged s.dependencies s'.dependencies

/-- A renaming as a relation between the variables that it is given for. -/
def RenamedTo (σ : String → String) (xs : Set String) (x y : String) : Prop := x ∈ xs ∧ y = σ x

section

variable {σ : String → String} {xs : Set String}

/-- A renaming that keeps the given variables apart is one to one on them. -/
lemma biUnique_renamedTo (hσ : Set.InjOn σ xs) : Relator.BiUnique (RenamedTo σ xs) :=
  ⟨fun _ _ _ hx hy => hσ hx.1 hy.1 (hx.2.symm.trans hy.2), fun _ _ _ hy hz => hy.2.trans hz.2.symm⟩

/-- A term is renamed to what the renaming makes of it if its variables are among the given ones. -/
lemma Term.renames_rename {term : Term} (h : ∀ x, term = .var x → x ∈ xs) :
    term.Renames (RenamedTo σ xs) (term.rename σ) := by
  cases term with
  | var x => exact .var ⟨h x rfl, rfl⟩
  | const c => exact .const c

lemma Term.forall₂_renames_rename {terms : List Term} (h : ∀ x ∈ Term.vars terms, x ∈ xs) :
    List.Forall₂ (Term.Renames (RenamedTo σ xs)) terms (terms.map (Term.rename σ)) := by
  rw [List.forall₂_map_right_iff, List.forall₂_same]
  rintro term hterm
  exact Term.renames_rename fun x hx => h x (Term.mem_vars.mpr (hx ▸ hterm))

lemma Atom.renames_mapTerms {a : Atom} (h : ∀ x ∈ a.vars, x ∈ xs) :
    a.Renames Eq (RenamedTo σ xs) (a.mapTerms (Term.rename σ)) :=
  ⟨rfl, Term.forall₂_renames_rename h⟩

lemma Literal.renames_mapTerms {l : Literal} (h : ∀ x ∈ l.vars, x ∈ xs) :
    l.Renames Eq (RenamedTo σ xs) (l.mapTerms (Term.rename σ)) := by
  cases l with
  | ordinary positive a => exact .ordinary positive (Atom.renames_mapTerms h)
  | builtIn b =>
      refine .builtIn (BuiltIn.operator_mapTerms _ b).symm ?_
      rw [BuiltIn.terms_mapTerms]
      exact Term.forall₂_renames_rename h

/-- A clause that is renamed and put in another order is renamed. -/
lemma Clause.renames_of_perm {c c' : Clause} (h : ∀ x ∈ c.vars, x ∈ xs)
    (hperm : (c.literals.map (Literal.mapTerms (Term.rename σ))).Perm c'.literals) :
    c.Renames Eq (RenamedTo σ xs) c' := by
  refine ⟨_, ?_, hperm⟩
  rw [List.forall₂_map_right_iff, List.forall₂_same]
  exact fun l hl => Literal.renames_mapTerms fun x hx =>
    h x (OrderedSet.mem_ofList.mpr (List.mem_flatMap.mpr ⟨l, hl, hx⟩))

end

/-- A dependency that is rearranged is a variant over the same predicates. -/
lemma Dependency.Rearranged.variant {d d' : Dependency} (h : d.Rearranged d') :
    d.Variant Eq d' := by
  cases h with
  | @tgd t t' σ hσ hbody hhead =>
      refine .tgd ⟨_, biUnique_renamedTo hσ,
        ⟨Clause.renames_of_perm (fun _ hx => Or.inl hx) hbody, _, ?_, hhead⟩⟩
      rw [List.forall₂_map_right_iff, List.forall₂_same]
      exact fun a ha => Atom.renames_mapTerms fun x hx =>
        Or.inr (OrderedSet.mem_ofList.mpr (List.mem_flatMap.mpr ⟨a, ha, hx⟩))
  | @egd e e' σ hσ hbody hsides =>
      refine .egd ⟨_, biUnique_renamedTo hσ,
        ⟨Clause.renames_of_perm (fun _ hx => Or.inl hx) hbody, ?_⟩⟩
      have hside : ∀ term ∈ [e.left, e.right], term.Renames (RenamedTo σ
          {x | x ∈ e.body.vars ∨ x ∈ Term.vars [e.left, e.right]}) (term.rename σ) :=
        fun term hterm => Term.renames_rename fun x hx =>
          Or.inr (Term.mem_vars.mpr (hx ▸ hterm))
      have hleft := hside e.left List.mem_cons_self
      have hright := hside e.right (List.mem_cons_of_mem _ List.mem_cons_self)
      rcases hsides with ⟨hl, hr⟩ | ⟨hl, hr⟩
      · exact Or.inl ⟨hl ▸ hleft, hr ▸ hright⟩
      · exact Or.inr ⟨hr ▸ hleft, hl ▸ hright⟩

namespace Schema

/-- Rearranged schemas have corresponding dependencies, over the same handles. -/
lemma Rearranged.shuffled (h : s.Rearranged s') :
    Shuffled (Dependency.Variant Eq) s.dependencies s'.dependencies :=
  h.dependencies.mono fun _ _ hd => hd.variant

lemma oneToOne_eq : Handle.OneToOne Eq where
  biUnique := biUnique_eq
  arity _ _ h := congrArg Handle.arity h

/-- The functional dependencies of one are those of the other. -/
lemma mem_dependencies_of_shuffled (hR : Handle.OneToOne R) (heq : ∀ h k, R h k → h = k)
    (h : Shuffled (Dependency.Variant R) s.dependencies s'.dependencies)
    {fd : FunctionalDependency} (hfd : fd ∈ (Extraction.ofEgds s.egds).dependencies) :
    fd ∈ (Extraction.ofEgds s'.egds).dependencies := by
  obtain ⟨fd', hfd', hpredicate, hkey, hdetermined⟩ :=
    exists_mem_dependencies_of_shuffled hR.biUnique (egds_shuffled h) hfd
  cases fd
  cases fd'
  simp only at hpredicate hkey hdetermined
  rwa [heq _ _ hpredicate, hkey, hdetermined]

/-- **What is said of a schema does not depend on its presentation.** Two schemas with the same
dependencies, presented differently, are non-conflicting alike, get the same answer to every
check or are both not supported, have the same affected positions or none are defined for
either, and have the same functional dependencies. -/
theorem verdicts_of_rearranged (h : s.Rearranged s') :
    s.isNonConflicting = s'.isNonConflicting ∧
      (∀ check ∈ languageChecks, SameVerdict (check s) (check s')) ∧
      ((∃ affected affected', s.affectedPositions = .ok affected ∧
          s'.affectedPositions = .ok affected' ∧ ∀ p, p ∈ affected ↔ p ∈ affected') ∨
        ∃ e e', s.affectedPositions = .error e ∧ s'.affectedPositions = .error e') ∧
      ∀ fd, fd ∈ (Extraction.ofEgds s.egds).dependencies ↔
        fd ∈ (Extraction.ofEgds s'.egds).dependencies := by
  have hshuffled := h.shuffled
  refine ⟨isNonConflicting_of_shuffled oneToOne_eq hshuffled,
    sameVerdict_of_shuffled oneToOne_eq hshuffled, ?_,
    fun fd => ⟨mem_dependencies_of_shuffled oneToOne_eq (fun _ _ => id) hshuffled,
      mem_dependencies_of_shuffled oneToOne_eq.flip (fun _ _ => Eq.symm)
        (shuffled_flip hshuffled)⟩⟩
  have hbodies := requireAtomicBodies_of_shuffled hshuffled
  cases hs : s.requireAtomicBodies with
  | ok =>
      refine Or.inl ⟨_, _, affectedPositions_eq_ok.mpr ⟨hs, rfl⟩,
        affectedPositions_eq_ok.mpr ⟨hbodies.mp hs, rfl⟩, fun p => ?_⟩
      exact mem_affectedPositions_of_shuffled oneToOne_eq hshuffled ⟨rfl, rfl⟩
  | error e =>
      cases hs' : s'.requireAtomicBodies with
      | ok => exact absurd (hbodies.mpr hs') (by simp [hs])
      | error e' =>
          exact Or.inr
            ⟨e, e', affectedPositions_eq_error.mpr hs, affectedPositions_eq_error.mpr hs'⟩

end Schema

/-! ### A schema presented twice -/

namespace Presented

/-- A dependency that joins two literals, and a key. -/
def first : Schema :=
  let r (x y : String) : Atom := .ofVars 0 [x, y]
  let p (x y : String) : Atom := .ofVars 1 [x, y]
  let q (x : String) : Atom := .ofVars 2 [x]
  ⟨[⟨0, "R", 2, []⟩, ⟨0, "P", 2, []⟩, ⟨0, "Q", 1, []⟩],
    [.tgd (.ofAtoms (.ofAtoms (r "x" "y") [p "y" "x"]) (r "y" "z") [q "x"]),
      .egd ⟨.ofAtoms (p "x" "y") [p "x" "z"], .var "y", .var "z"⟩]⟩

/-- The key comes first and has its sides swapped; the other dependency has its body and head the
other way round, and two variables exchanged. -/
def second : Schema :=
  let r (x y : String) : Atom := .ofVars 0 [x, y]
  let p (x y : String) : Atom := .ofVars 1 [x, y]
  let q (x : String) : Atom := .ofVars 2 [x]
  ⟨first.predicates,
    [.egd ⟨.ofAtoms (p "x" "y") [p "x" "z"], .var "z", .var "y"⟩,
      .tgd (.ofAtoms (.ofAtoms (p "x" "y") [r "y" "x"]) (q "y") [r "x" "z"])]⟩

lemma rearranged : first.Rearranged second := by
  refine ⟨rfl, second.dependencies.reverse, .cons ?_ (.cons ?_ .nil), .swap _ _ _⟩
  · exact .tgd (Equiv.swap "x" "y") (Equiv.injective _).injOn (.swap _ _ _) (.swap _ _ _)
  · exact .egd id Function.injective_id.injOn (.refl _) (Or.inr ⟨rfl, rfl⟩)

/-- The second schema is non-conflicting and not sticky because the first one is so. -/
theorem verdicts_of_rearranged_presented :
    first.isNonConflicting = true ∧ second.isNonConflicting = true ∧
      first.isSticky = .ok false ∧ second.isSticky = .ok false := by
  have hfirst : first.isNonConflicting = true := by decide +kernel
  have hsticky : first.isSticky = .ok false := by decide +kernel
  obtain ⟨hconflict, hchecks, -⟩ := Schema.verdicts_of_rearranged rearranged
  have hsame := hchecks Schema.isSticky (by simp [Schema.languageChecks])
  rw [hsticky] at hsame
  refine ⟨hfirst, hconflict ▸ hfirst, hsticky, ?_⟩
  cases hsecond : second.isSticky with
  | ok v =>
      rw [hsecond] at hsame
      cases hsame
      rfl
  | error e =>
      rw [hsecond] at hsame
      cases hsame

end Presented

end DependencyTheory
