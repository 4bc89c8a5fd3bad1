/-
Schemas that are the same up to the numbers of their predicates:

* `Atom.Copies`, `Literal.Copies`, `Rule.Copies`, `Dependency.Copies`: whether something is a copy
  of another thing over corresponding handles;
* `Schema.Namesakes`: whether handles of two schemas refer to predicates of the same name;
* `Schema.SameByName`: whether two schemas have the same predicates, rules and dependencies, if
  predicates are told by their names;
* `Report.findings`: what the report on a schema says behind its text;
* `Report.findings_eq_of_sameByName`: **schemas that are the same by name get the same findings**.

A copy is a variant with the same variables and in the same order, so that the answers of the
analyses agree as those for variants do. Since the order is kept, so is the order of what is
found, and the first reason why a schema is not supported.
-/
import DependencyTheory.Proofs.Presentation.Verdicts
import DependencyTheory.Proofs.Schema.Table
import DependencyTheory.Report

namespace DependencyTheory

/-! ### Copies -/

/-- Whether two atoms have corresponding handles and the same terms. -/
structure Atom.Copies (R : Handle → Handle → Prop) (a b : Atom) : Prop where
  predicate : R a.predicate b.predicate
  terms : a.terms = b.terms

/-- Whether two literals are copies of each other. -/
inductive Literal.Copies (R : Handle → Handle → Prop) : Literal → Literal → Prop
  | ordinary {a b : Atom} (positive : Bool) (h : a.Copies R b) :
      Copies R (.ordinary positive a) (.ordinary positive b)
  | builtIn (b : BuiltIn) : Copies R (.builtIn b) (.builtIn b)

/-- Whether two clauses have copies as literals, in the same order. -/
def Clause.Copies (R : Handle → Handle → Prop) (c c' : Clause) : Prop :=
  List.Forall₂ (Literal.Copies R) c.literals c'.literals

/-- Whether two rules have the same head terms and copies as bodies. -/
structure Rule.Copies (R : Handle → Handle → Prop) (r r' : Rule) : Prop where
  head : r.head = r'.head
  body : r.body.Copies R r'.body

/-- Whether two dependencies have copies as bodies and as head atoms. -/
structure Tgd.Copies (R : Handle → Handle → Prop) (t t' : Tgd) : Prop where
  body : t.body.Copies R t'.body
  head : List.Forall₂ (Atom.Copies R) t.head t'.head

/-- Whether two dependencies have copies as bodies and the same equality. -/
structure Egd.Copies (R : Handle → Handle → Prop) (e e' : Egd) : Prop where
  body : e.body.Copies R e'.body
  left : e.left = e'.left
  right : e.right = e'.right

/-- Whether two dependencies of either kind are copies of each other. -/
inductive Dependency.Copies (R : Handle → Handle → Prop) : Dependency → Dependency → Prop
  | tgd {t t' : Tgd} (h : t.Copies R t') : Copies R (.tgd t) (.tgd t')
  | egd {e e' : Egd} (h : e.Copies R e') : Copies R (.egd e) (.egd e')

variable {R : Handle → Handle → Prop} {s s' : Schema} {k k' : Handle}

/-! ### Copies are variants -/

lemma Term.forall₂_renames_eq (terms : List Term) :
    List.Forall₂ (Term.Renames Eq) terms terms := by
  refine List.forall₂_same.mpr fun term _ => ?_
  cases term with
  | var x => exact .var rfl
  | const c => exact .const c

lemma Atom.Copies.renames {a b : Atom} (h : a.Copies R b) : a.Renames R Eq b :=
  ⟨h.predicate, h.terms ▸ Term.forall₂_renames_eq _⟩

/-- A copied clause is a renamed one, in its old order and with its old variables. -/
lemma Clause.Copies.renames {c c' : Clause} (h : c.Copies R c') : c.Renames R Eq c' := by
  refine .of_forall₂ (h.imp fun l l' hl => ?_)
  cases hl with
  | ordinary positive h => exact .ordinary positive h.renames
  | builtIn b => exact .builtIn rfl (Term.forall₂_renames_eq _)

lemma Egd.Copies.variant {e e' : Egd} (h : e.Copies R e') : e.Variant R e' := by
  refine ⟨Eq, biUnique_eq, h.body.renames, Or.inl ?_⟩
  have hsides := Term.forall₂_renames_eq [e.left, e.right]
  simp only [List.forall₂_cons, List.forall₂_nil_left_iff, and_true] at hsides
  rw [← h.left, ← h.right]
  exact hsides

/-- So a copied dependency is a variant. -/
lemma Dependency.Copies.variant {d d' : Dependency} (h : d.Copies R d') : d.Variant R d' := by
  cases h with
  | tgd h =>
      exact .tgd ⟨Eq, biUnique_eq, h.body.renames,
        .of_forall₂ (h.head.imp fun _ _ ha => Atom.Copies.renames ha)⟩
  | egd h => exact .egd h.variant

/-! ### Copies are written alike -/

section

variable {call call' : Handle → String}

lemma Atom.Copies.render_eq {a b : Atom} (h : a.Copies R b)
    (hcall : ∀ k k', R k k' → call k = call' k') : a.render call = b.render call' := by
  rw [Atom.render, Atom.render, hcall _ _ h.predicate, h.terms]

/-- A copied clause is printed alike if its predicates are called alike. -/
lemma Clause.Copies.render_eq {c c' : Clause} (h : c.Copies R c')
    (hcall : ∀ k k', R k k' → call k = call' k') : c.render call = c'.render call' := by
  refine congrArg Text.commaSeparated (map_eq_of_forall₂ h fun l l' hl => ?_)
  cases hl with
  | ordinary positive h =>
      cases positive with
      | true => exact h.render_eq hcall
      | false => exact congrArg ("not " ++ ·) (h.render_eq hcall)
  | builtIn b => rfl

lemma Egd.Copies.render_eq {e e' : Egd} (h : e.Copies R e')
    (hcall : ∀ k k', R k k' → call k = call' k') : e.render call = e'.render call' := by
  rw [Egd.render, Egd.render, h.body.render_eq hcall, Egd.head, Egd.head, h.left, h.right]

end

/-! ### Functional dependencies -/

/-- Whether two functional dependencies have corresponding predicates, the same positions, and
copies as sources. -/
structure SourcedDependency.Copies (R : Handle → Handle → Prop) (f f' : SourcedDependency) :
    Prop where
  predicate : R f.fd.predicate f'.fd.predicate
  key : f.fd.key = f'.fd.key
  determined : f.fd.determined = f'.fd.determined
  sources : List.Forall₂ (Egd.Copies R) f.sources f'.sources

/-- Whether two extractions have copies as entries and as what is left over. -/
structure Extraction.Copies (R : Handle → Handle → Prop) (x x' : Extraction) : Prop where
  functional : List.Forall₂ (SourcedDependency.Copies R) x.functional x'.functional
  other : List.Forall₂ (Egd.Copies R) x.other x'.other

namespace Extraction

/-- Recording what copies state, among copies, makes copies: the same entry is found in both. -/
lemma forall₂_record {key : IndexSet} {place : Nat} {e e' : Egd} (hR : Relator.BiUnique R)
    (hk : R k k') (he : e.Copies R e') {fs fs' : List SourcedDependency}
    (h : List.Forall₂ (SourcedDependency.Copies R) fs fs') :
    List.Forall₂ (SourcedDependency.Copies R) (record k key place e fs)
      (record k' key place e' fs') := by
  induction h with
  | nil => exact .cons ⟨hk, rfl, rfl, .cons he .nil⟩ .nil
  | @cons f f' fs fs' hf hfs ih =>
      have hsame : f.fd.predicate = k ∧ f.fd.key = key ↔
          f'.fd.predicate = k' ∧ f'.fd.key = key := by
        have hpredicate : f.fd.predicate = k ↔ f'.fd.predicate = k' :=
          Relator.rel_eq hR hf.predicate hk
        rw [hpredicate, hf.key]
      rw [Extraction.record, Extraction.record]
      by_cases hentry : f.fd.predicate = k ∧ f.fd.key = key
      · rw [if_pos hentry, if_pos (hsame.mp hentry)]
        refine .cons ⟨hf.predicate, hf.key, ?_, List.rel_append hf.sources (.cons he .nil)⟩ hfs
        exact congrArg (·.insert place) hf.determined
      · rw [if_neg hentry, if_neg (mt hsame.mpr hentry)]
        exact .cons hf ih

lemma Copies.add {x x' : Extraction} {e e' : Egd} (hR : Relator.BiUnique R)
    (h : x.Copies R x') (he : e.Copies R e') : (x.add e).Copies R (x'.add e') := by
  rw [Extraction.add, Extraction.add]
  cases hstates : e.functional? with
  | some stated =>
      obtain ⟨k, key, place⟩ := stated
      obtain ⟨k', hk, hstates'⟩ := he.variant.functional?_eq hR hstates
      rw [hstates']
      exact ⟨forall₂_record hR hk he h.functional, h.other⟩
  | none =>
      cases hstates' : e'.functional? with
      | some stated =>
          obtain ⟨k', key, place⟩ := stated
          obtain ⟨k, -, hsome⟩ :=
            he.variant.flip.functional?_eq (biUnique_flip hR) hstates'
          cases hsome.symm.trans hstates
      | none => exact ⟨h.functional, List.rel_append h.other (.cons he .nil)⟩

/-- **The extractions of copies are copies.** -/
lemma copies_ofEgds (hR : Relator.BiUnique R) {es es' : List Egd}
    (h : List.Forall₂ (Egd.Copies R) es es') : (ofEgds es).Copies R (ofEgds es') := by
  have hall : ∀ {x x' : Extraction}, x.Copies R x' →
      (es.foldl Extraction.add x).Copies R (es'.foldl Extraction.add x') := by
    induction h with
    | nil => exact fun hx => hx
    | cons he _ ih => exact fun hx => ih (hx.add hR he)
  exact hall ⟨.nil, .nil⟩

end Extraction

/-! ### Checks -/

/-- Two verdicts are the same if they are the same errors. -/
lemma SameVerdict.eq {answer answer' : Except AnalysisError Bool} (h : SameVerdict answer answer')
    (herror : ∀ e, answer = .error e ↔ answer' = .error e) : answer = answer' := by
  cases h with
  | answer v => rfl
  | unsupported reason reason' => exact ((herror _).mp rfl).symm

/-! ### Namesakes -/

namespace Schema

/-- Whether handles of two schemas refer to predicates of the same name. -/
def Namesakes (s s' : Schema) (k k' : Handle) : Prop :=
  ∃ name, s.predicates.RefersTo k name ∧ s'.predicates.RefersTo k' name

/-- Whether two schemas are the same if predicates are told by their names: they have the same
names, each for one predicate, and under each name the same arity and the same rules in the same
order, and they have the same dependencies in the same order. -/
structure SameByName (s s' : Schema) : Prop where
  distinct : s.predicates.DistinctNames ∧ s'.predicates.DistinctNames
  names : (s.predicates.map Predicate.name).Perm (s'.predicates.map Predicate.name)
  predicates : ∀ p ∈ s.predicates, ∀ p' ∈ s'.predicates, p.name = p'.name →
    p.arity = p'.arity ∧ List.Forall₂ (Rule.Copies (s.Namesakes s')) p.rules p'.rules
  dependencies : List.Forall₂ (Dependency.Copies (s.Namesakes s')) s.dependencies s'.dependencies

/-- Namesakes are printed with one name. -/
lemma Namesakes.nameOf_eq (h : s.Namesakes s' k k') : s.nameOf k = s'.nameOf k' := by
  obtain ⟨name, ⟨p, hp, hname⟩, p', hp', hname'⟩ := h
  rw [nameOf, get?, hp, nameOf, get?, hp']
  exact hname.trans hname'.symm

namespace SameByName

variable (h : s.SameByName s')

include h

/-- Each name belongs to one handle on either side, so namesakes correspond one to one. -/
lemma oneToOne : Handle.OneToOne (s.Namesakes s') where
  biUnique := by
    refine ⟨fun k k' l ⟨name, hk, hl⟩ ⟨name', hk', hl'⟩ => ?_,
      fun k l l' ⟨name, hk, hl⟩ ⟨name', hk', hl'⟩ => ?_⟩
    · obtain rfl := hl.name_unique hl'
      exact hk.handle_unique h.distinct.1 hk'
    · obtain rfl := hk.name_unique hk'
      exact hl.handle_unique h.distinct.2 hl'
  arity := by
    rintro k l ⟨name, ⟨p, hp, hname⟩, p', hp', hname'⟩
    have harity := (h.predicates p (mem_predicates_of_get? hp) p' (mem_predicates_of_get? hp')
      (hname.trans hname'.symm)).1
    rwa [arity_of_get? hp, arity_of_get? hp'] at harity

lemma shuffled :
    Shuffled (Dependency.Variant (s.Namesakes s')) s.dependencies s'.dependencies :=
  .of_forall₂ (h.dependencies.imp fun _ _ hd => hd.variant)

lemma egds : List.Forall₂ (Egd.Copies (s.Namesakes s')) s.egds s'.egds := by
  refine List.rel_filterMap (fun d d' hd => ?_) h.dependencies
  cases hd with
  | tgd _ => exact .none
  | egd h => exact .some h

/-- The first reason not to support a schema is the same. -/
lemma requireAtomicBodies_eq : s.requireAtomicBodies = s'.requireAtomicBodies := by
  have hliterals : List.Forall₂ (Literal.Copies (s.Namesakes s'))
      (s.dependencies.flatMap fun d => d.body.literals)
      (s'.dependencies.flatMap fun d => d.body.literals) := by
    refine List.rel_flatMap h.dependencies fun d d' hd => ?_
    cases hd with
    | tgd h => exact h.body
    | egd h => exact h.body
  have hreasons := map_eq_of_forall₂ hliterals (f := Literal.unsupported?)
    (g := Literal.unsupported?) fun l l' hl => by
      cases hl with
      | ordinary positive h => cases positive <;> rfl
      | builtIn b => rfl
  have hfirst := congrArg (List.findSome? id) hreasons
  rw [List.findSome?_map, List.findSome?_map, Function.id_comp] at hfirst
  rw [requireAtomicBodies, requireAtomicBodies, hfirst]

/-- **Every check answers the same**, or is not defined for the same reason. -/
lemma check_eq : ∀ check ∈ languageChecks, check s = check s' := by
  intro check hcheck
  refine (sameVerdict_of_shuffled h.oneToOne h.shuffled check hcheck).eq fun e => ?_
  rw [check_eq_error check hcheck, check_eq_error check hcheck, h.requireAtomicBodies_eq]

end SameByName

end Schema

/-! ### Findings -/

namespace Report

/-- What the report on a schema says behind its text and before the time: its functional
dependencies, its other equality-generating dependencies, and all verdicts. -/
def findings (s : Schema) : String :=
  String.join ((Extraction.ofEgds s.egds).functional.map (functionalLine s)) ++
    String.join ((Extraction.ofEgds s.egds).other.map (otherLine s)) ++
    "non-conflicting: " ++ truthName s.isNonConflicting ++ "\n" ++ languages s

/-- The report is the text of the schema, what is found, and the time. -/
lemma ofText_eq {text : String} (hs : Schema.ofText 0 text = .ok s) (nanoseconds : Nat) :
    ofText text nanoseconds =
      "SCHEMA:\n" ++ s.pretty ++ "\n" ++ findings s ++ timeLine nanoseconds := by
  have hoverview : overview s ++ languages s = "SCHEMA:\n" ++ s.pretty ++ "\n" ++ findings s := by
    -- `delta`, since equations for long texts are slow to derive
    delta overview findings
    simp only [String.append_assoc]
  rw [ofText, hs, ← hoverview]

/-- **Schemas that are the same by name get the same findings.** -/
theorem findings_eq_of_sameByName (h : s.SameByName s') : findings s = findings s' := by
  have hextraction := Extraction.copies_ofEgds h.oneToOne.biUnique h.egds
  have hfunctional := map_eq_of_forall₂ hextraction.functional
    (f := functionalLine s) (g := functionalLine s') fun f f' hf => by
      delta functionalLine FunctionalDependency.isKey
      rw [hf.predicate.nameOf_eq, hf.key, hf.determined, hf.sources.length_eq,
        h.oneToOne.arity _ _ hf.predicate]
  have hother := map_eq_of_forall₂ hextraction.other (f := otherLine s) (g := otherLine s')
    fun e e' he => by
      rw [otherLine, otherLine, he.render_eq fun k k' hk => Schema.Namesakes.nameOf_eq hk]
  have hconflict := Schema.isNonConflicting_of_shuffled h.oneToOne h.shuffled
  have hchecks := h.check_eq
  simp only [Schema.languageChecks, List.forall_mem_cons, List.not_mem_nil, false_imp_iff,
    forall_const, and_true] at hchecks
  obtain ⟨hlinear, hguarded, hweakly, hsticky⟩ := hchecks
  rw [findings, findings, hfunctional, hother, hconflict, languages, languages, hlinear, hguarded,
    hweakly, hsticky]

end Report

end DependencyTheory
