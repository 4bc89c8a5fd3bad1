/-
Schemas that are printed and read again:

* `Schema.pretty_eq`: a schema that statements describe is printed as these statements, the rules
  grouped by their predicates (`grouped`);
* `Schema.sameByName_of_describedBy`: schemas that are described by the same rules for each
  predicate and the same dependencies are the same by name;
* `Schema.ofText_pretty`: **a schema that is printed and read again is the same by name**, and the
  report finds the same.
-/
import DependencyTheory.Proofs.Presentation.Copies
import DependencyTheory.Proofs.Source.Resolution
import DependencyTheory.Proofs.Source.Writing

namespace DependencyTheory

namespace Source

/-! ### What is denoted is written alike -/

section

variable {C : Naming} {call : Handle → String} {st : Statement}

lemma Atom.Denotes.render_eq {src : Atom} {a : DependencyTheory.Atom} (h : src.Denotes C a)
    (hC : ∀ k name, C k name → call k = name) : a.render call = src.render := by
  rw [DependencyTheory.Atom.render, Atom.render, hC _ _ h.predicate, h.terms]

lemma BodyDenotes.render_eq {body : List Literal} {c : Clause} (h : BodyDenotes C body c)
    (hC : ∀ k name, C k name → call k = name) :
    c.render call = Text.commaSeparated (body.map Literal.render) := by
  refine congrArg Text.commaSeparated (map_eq_of_forall₂ h fun src l hl => ?_).symm
  cases hl with
  | atom positive h =>
      cases positive with
      | true => exact (h.render_eq hC).symm
      | false => exact congrArg ("not " ++ ·) (h.render_eq hC).symm
  | comparison op left right => rfl
  | truth value => rfl

lemma Statement.DenotesRule.render_eq {r : Rule} {name : String} (h : st.DenotesRule C r)
    (hname : st.isRuleFor name = true) (hC : ∀ k name, C k name → call k = name) :
    r.render call name = st.render := by
  cases h with
  | mk hbody =>
      rw [Rule.render, render, hbody.render_eq hC, Atom.render, beq_iff_eq.mp hname]
      simp only [String.append_assoc]
      rfl

lemma Statement.DenotesDependency.render_eq {d : Dependency} (h : st.DenotesDependency C d)
    (hC : ∀ k name, C k name → call k = name) : d.render call = st.render := by
  cases h with
  | tgd hbody hhead =>
      have hatoms := map_eq_of_forall₂ hhead fun src a ha => (Atom.Denotes.render_eq ha hC).symm
      rw [Dependency.render, Tgd.render, render, hbody.render_eq hC, Head.render, hatoms]
  | egd h => rw [Dependency.render, Egd.render, render, h.render_eq hC, Head.render, Egd.head]

end

lemma IsStatement.hasParts {st : Statement} (h : IsStatement st) : st.HasParts := by
  cases st with
  | rule head body => exact h.2.1
  | dependency body head =>
      cases head with
      | atoms as => exact ⟨h.1.1, h.2.1⟩
      | equality left right => exact h.1.1

/-! ### Statements in groups -/

/-- Statements as they are printed: the rules for each of some names, then the dependencies. -/
def grouped (names : List String) (sts : List Statement) : List Statement :=
  names.flatMap (fun name => sts.filter (Statement.isRuleFor name)) ++
    sts.filter Statement.isDependency

variable {names : List String} {sts : List Statement} {name : String}

/-- No statement is a rule for two names. -/
lemma filter_isRuleFor_filter_isRuleFor (name other : String) :
    (sts.filter (Statement.isRuleFor other)).filter (Statement.isRuleFor name) =
      if other = name then sts.filter (Statement.isRuleFor name) else [] := by
  rw [List.filter_filter]
  split
  · next he =>
      rw [he]
      simp only [Bool.and_self]
  · next hne =>
      refine List.filter_eq_nil_iff.mpr fun st _ hst => ?_
      obtain ⟨hname, hother⟩ := Bool.and_eq_true_iff.mp hst
      cases st with
      | rule head body => exact hne ((beq_iff_eq.mp hother).symm.trans (beq_iff_eq.mp hname))
      | dependency body head => cases hname

/-- No statement is both a rule and a dependency. -/
lemma filter_and_eq_nil (sts : List Statement) (name : String) :
    sts.filter (fun st => st.isRuleFor name && st.isDependency) = [] := by
  refine List.filter_eq_nil_iff.mpr fun st _ hst => ?_
  obtain ⟨hrule, hdependency⟩ := Bool.and_eq_true_iff.mp hst
  cases st with
  | rule head body => cases hdependency
  | dependency body head => cases hrule

lemma flatMap_ite_eq {α : Type} {L : List α} (hnodup : names.Nodup) (hname : name ∈ names) :
    names.flatMap (fun other => if other = name then L else []) = L := by
  induction names with
  | nil => cases hname
  | cons other names ih =>
      obtain ⟨hother, hnodup⟩ := List.nodup_cons.mp hnodup
      rw [List.flatMap_cons]
      by_cases he : other = name
      · have hnil : names.flatMap (fun other => if other = name then L else []) = [] := by
          refine List.flatMap_eq_nil_iff.mpr fun other' hother' => if_neg ?_
          rintro rfl
          exact hother (he ▸ hother')
        rw [if_pos he, hnil, List.append_nil]
      · rw [if_neg he, List.nil_append]
        exact ih hnodup ((List.mem_cons.mp hname).resolve_left (Ne.symm he))

/-- Grouping keeps the rules for each of the names, in order. -/
lemma filter_isRuleFor_grouped (hnodup : names.Nodup) (hname : name ∈ names) :
    (grouped names sts).filter (Statement.isRuleFor name) =
      sts.filter (Statement.isRuleFor name) := by
  rw [grouped, List.filter_append, List.filter_filter, filter_and_eq_nil, List.append_nil,
    List.filter_flatMap]
  simp only [filter_isRuleFor_filter_isRuleFor]
  exact flatMap_ite_eq hnodup hname

/-- Grouping keeps the dependencies, in order. -/
lemma filter_isDependency_grouped :
    (grouped names sts).filter Statement.isDependency = sts.filter Statement.isDependency := by
  have hnone : ∀ name, (sts.filter (Statement.isRuleFor name)).filter Statement.isDependency =
      [] := by
    intro name
    rw [List.filter_filter, ← filter_and_eq_nil sts name]
    simp only [Bool.and_comm]
  rw [grouped, List.filter_append, List.filter_filter, List.filter_flatMap]
  simp [hnone]

/-- Grouping keeps all statements, if the names are those of all rules. -/
lemma mem_grouped {st : Statement}
    (hnames : ∀ head body, .rule head body ∈ sts → head.predicate ∈ names) :
    st ∈ grouped names sts ↔ st ∈ sts := by
  rw [grouped, List.mem_append, List.mem_flatMap]
  constructor
  · rintro (⟨name, -, hst⟩ | hst)
    · exact (List.mem_filter.mp hst).1
    · exact (List.mem_filter.mp hst).1
  · intro hst
    cases st with
    | rule head body =>
        exact Or.inl ⟨_, hnames head body hst, List.mem_filter.mpr ⟨hst, beq_self_eq_true _⟩⟩
    | dependency body head => exact Or.inr (List.mem_filter.mpr ⟨hst, rfl⟩)

end Source

/-! ### What is described -/

namespace Schema

open Source

variable {s s' : Schema} {sts sts' : List Statement}

/-- The names of a schema. -/
def names (s : Schema) : List String := s.predicates.map Predicate.name

lemma names_eq (s : Schema) : s.names = s.predicates.signature.map Prod.fst := by
  rw [names, Table.signature, List.map_map]
  rfl

/-- The name of a handle is that of the predicate that it refers to. -/
lemma nameOf_of_refersTo {k : Handle} {name : String} (h : s.predicates.RefersTo k name) :
    s.nameOf k = name := by
  obtain ⟨p, hp, rfl⟩ := h
  rw [nameOf, get?, hp]

namespace DescribedBy

/-- **A schema is printed** as the statements that describe it, in groups. -/
lemma pretty_eq (h : s.DescribedBy sts) : s.pretty = programText (grouped s.names sts) := by
  have hcall : ∀ k name, s.predicates.RefersTo k name → s.nameOf k = name :=
    fun _ _ => nameOf_of_refersTo
  have hrules : ∀ p ∈ s.predicates, p.rules.map (Rule.render s.nameOf p.name) =
      (sts.filter (Statement.isRuleFor p.name)).map Statement.render := by
    intro p hp
    have hfor : ∀ st ∈ sts.filter (Statement.isRuleFor p.name), st.isRuleFor p.name = true :=
      fun st hst => (List.mem_filter.mp hst).2
    have hboth := (List.forall₂_and_left _ _).mpr ⟨hfor, h.rules p hp⟩
    exact (map_eq_of_forall₂ hboth fun st r ⟨hst, hr⟩ => (hr.render_eq hst hcall).symm).symm
  have hdependencies : s.dependencies.map (Dependency.render s.nameOf) =
      (sts.filter Statement.isDependency).map Statement.render :=
    (map_eq_of_forall₂ h.dependencies fun st d hd =>
      (Statement.DenotesDependency.render_eq hd hcall).symm).symm
  have hlines : s.predicates.flatMap (fun p => p.rules.map (Rule.render s.nameOf p.name)) ++
      s.dependencies.map (Dependency.render s.nameOf) =
        (grouped s.names sts).map Statement.render := by
    rw [grouped, Schema.names, List.map_append, List.map_flatMap, List.flatMap_map, hdependencies]
    exact congrArg (· ++ _) (List.flatMap_congr hrules)
  rw [pretty, hlines, List.map_map]
  rfl

/-- Only the rules for names of the schema are statements that describe it. -/
lemma mem_names (h : s.DescribedBy sts) {head : Source.Atom} {body : List Source.Literal}
    (hst : .rule head body ∈ sts) : head.predicate ∈ s.names := by
  obtain ⟨p, hp, hpu⟩ := List.mem_map.mp (h.use_mem_signature hst)
  exact List.mem_map.mpr ⟨p, hp, congrArg Prod.fst hpu⟩

/-- A name with its arity is known iff it is used. -/
lemma mem_signature_iff (h : s.DescribedBy sts) (u : String × Nat) :
    u ∈ s.predicates.signature ↔ u ∈ sts.flatMap Statement.uses := by
  rw [mem_declareUses h.signature, or_iff_right List.not_mem_nil]

end DescribedBy

/-! ### Two descriptions -/

section

/-- Whether handles have a name in common, each in its own naming. -/
def Agree (C C' : Naming) (k k' : Handle) : Prop := ∃ name, C k name ∧ C' k' name

variable {C C' : Naming}

lemma atom_copies_of_denotes {src : Source.Atom} {a a' : Atom} (h : src.Denotes C a)
    (h' : src.Denotes C' a') : a.Copies (Agree C C') a' :=
  ⟨⟨_, h.predicate, h'.predicate⟩, h.terms.trans h'.terms.symm⟩

lemma clause_copies_of_denotes {body : List Source.Literal} {c c' : Clause}
    (h : BodyDenotes C body c) (h' : BodyDenotes C' body c') :
    c.Copies (Agree C C') c' := by
  refine forall₂_of_common h h' fun src l l' hl hl' => ?_
  cases hl with
  | atom positive ha =>
      cases hl' with
      | atom _ ha' => exact .ordinary positive (atom_copies_of_denotes ha ha')
  | comparison op left right =>
      cases hl'
      exact .builtIn _
  | truth value =>
      cases hl'
      exact .builtIn _

lemma rule_copies_of_denotes {st : Statement} {r r' : Rule} (h : st.DenotesRule C r)
    (h' : st.DenotesRule C' r') : r.Copies (Agree C C') r' := by
  cases h with
  | mk hbody =>
      cases h' with
      | mk hbody' => exact ⟨rfl, clause_copies_of_denotes hbody hbody'⟩

lemma dependency_copies_of_denotes {st : Statement} {d d' : Dependency}
    (h : st.DenotesDependency C d) (h' : st.DenotesDependency C' d') :
    d.Copies (Agree C C') d' := by
  cases h with
  | tgd hbody hhead =>
      cases h' with
      | tgd hbody' hhead' =>
          exact .tgd ⟨clause_copies_of_denotes hbody hbody',
            forall₂_of_common hhead hhead' fun _ _ _ => atom_copies_of_denotes⟩
  | egd hbody =>
      cases h' with
      | egd hbody' => exact .egd ⟨clause_copies_of_denotes hbody hbody', rfl, rfl⟩

end

/-- **Schemas that are described alike** are the same by name. -/
theorem sameByName_of_describedBy (h : s.DescribedBy sts) (h' : s'.DescribedBy sts')
    (huses : ∀ u, u ∈ sts.flatMap Statement.uses ↔ u ∈ sts'.flatMap Statement.uses)
    (hrules : ∀ name ∈ s.names, sts.filter (Statement.isRuleFor name) =
      sts'.filter (Statement.isRuleFor name))
    (hdependencies : sts.filter Statement.isDependency = sts'.filter Statement.isDependency) :
    s.SameByName s' := by
  have hsignature : ∀ u, u ∈ s.predicates.signature ↔ u ∈ s'.predicates.signature := fun u => by
    rw [h.mem_signature_iff, h'.mem_signature_iff, huses]
  refine ⟨⟨h.names, h'.names⟩, (List.perm_ext_iff_of_nodup h.names h'.names).mpr fun name => ?_,
    fun p hp p' hp' hname => ⟨?_, ?_⟩, ?_⟩
  · show name ∈ s.names ↔ name ∈ s'.names
    simp only [names_eq, List.mem_map, hsignature]
  · have hmem : (p.name, p.arity) ∈ s'.predicates.signature :=
      (hsignature _).mp (List.mem_map_of_mem hp)
    obtain ⟨q, hq, hqu⟩ := List.mem_map.mp hmem
    obtain ⟨hqn, hqa⟩ := Prod.mk.inj hqu
    rw [← hqa, List.inj_on_of_nodup_map h'.names hq hp' (hqn.trans hname)]
  · have hp'' := h'.rules p' hp'
    rw [← hname, ← hrules _ (List.mem_map_of_mem hp)] at hp''
    exact forall₂_of_common (h.rules p hp) hp'' fun _ _ _ => rule_copies_of_denotes
  · have hd := h'.dependencies
    rw [← hdependencies] at hd
    exact forall₂_of_common h.dependencies hd fun _ _ _ => dependency_copies_of_denotes

/-! ### Texts -/

variable {issuer : Nat} {text : String}

/-- A text is resolved as the statements that are read from it. -/
lemma ofText_of_readAll (h : readAll program (withoutComments text.toList) = .ok sts)
    (issuer : Nat) : ofText issuer text = ofStatements issuer sts := by
  rw [ofText, h]
  rfl

/-- What a text describes is described by the statements that are read from it. -/
lemma describedBy_of_ofText (h : ofText issuer text = .ok s) :
    ∃ sts, (∀ st ∈ sts, IsStatement st) ∧ s.DescribedBy sts ∧
      readAll program (withoutComments text.toList) = .ok sts := by
  cases hread : readAll program (withoutComments text.toList) with
  | error e =>
      rw [ofText, hread] at h
      cases h
  | ok sts =>
      rw [ofText_of_readAll hread] at h
      have hsts := isStatement_of_readAll hread
      exact ⟨sts, hsts, describedBy_of_ofStatements (fun st hst => (hsts st hst).hasParts) h, rfl⟩

/-- Statements that describe a schema use each name with one number of terms. -/
lemma DescribedBy.consistentUses (h : s.DescribedBy sts) :
    ConsistentUses (sts.flatMap Statement.uses) := by
  refine consistentUses_of_nodup h.signature ?_
  rw [Table.signature, List.map_map]
  exact h.names

/-- A text describes a schema if its statements use each name with one number of terms. -/
lemma exists_ofText (hread : readAll program (withoutComments text.toList) = .ok sts)
    (huses : ConsistentUses (sts.flatMap Statement.uses)) (issuer : Nat) :
    ∃ s, ofText issuer text = .ok s ∧ s.DescribedBy sts := by
  have hknown : ∃ known, declareUses [] (sts.flatMap Statement.uses) = .ok known :=
    exists_declareUses huses
  obtain ⟨known, hknown⟩ := hknown
  rw [ofText_of_readAll hread]
  exact exists_ofStatements
    (fun st hst => (isStatement_of_readAll hread st hst).hasParts) hknown

/-- Who declares the predicates does not matter: the schema is the same by name, and printed in
the same way. -/
lemma exists_ofText_issuer (h : ofText issuer text = .ok s) (issuer' : Nat) :
    ∃ s', ofText issuer' text = .ok s' ∧ s.SameByName s' ∧ s'.pretty = s.pretty := by
  obtain ⟨sts, hsts, hs, hread⟩ := describedBy_of_ofText h
  obtain ⟨s', hs', hdescribed⟩ := exists_ofText hread hs.consistentUses issuer'
  refine ⟨s', hs', sameByName_of_describedBy hs hdescribed (fun _ => Iff.rfl) (fun _ _ => rfl) rfl,
    ?_⟩
  have hsignature := Except.ok.inj (hdescribed.signature.symm.trans hs.signature)
  rw [hdescribed.pretty_eq, hs.pretty_eq, names_eq, names_eq, hsignature]

/-- A schema that is printed and read again is the same by name. -/
lemma exists_ofText_pretty (h : ofText issuer text = .ok s) (issuer' : Nat) :
    ∃ s', ofText issuer' s.pretty = .ok s' ∧ s.SameByName s' := by
  obtain ⟨sts, hsts, hs, -⟩ := describedBy_of_ofText h
  have hmem : ∀ st, st ∈ grouped s.names sts ↔ st ∈ sts := fun st =>
    mem_grouped fun head body hst => hs.mem_names hst
  have huses : ∀ u, u ∈ sts.flatMap Statement.uses ↔
      u ∈ (grouped s.names sts).flatMap Statement.uses := by
    intro u
    simp only [List.mem_flatMap, hmem]
  have hread : readAll program (withoutComments s.pretty.toList) = .ok (grouped s.names sts) := by
    rw [hs.pretty_eq]
    exact readAll_programText fun st hst => hsts st ((hmem st).mp hst)
  have hconsistent : ConsistentUses ((grouped s.names sts).flatMap Statement.uses) :=
    fun u hu u' hu' => hs.consistentUses u ((huses u).mpr hu) u' ((huses u').mpr hu')
  obtain ⟨s', hs', hdescribed⟩ := exists_ofText hread hconsistent issuer'
  exact ⟨s', hs', sameByName_of_describedBy hs hdescribed huses
    (fun name hname => (filter_isRuleFor_grouped hs.names hname).symm)
    filter_isDependency_grouped.symm⟩

/-- **Printing loses nothing.** A schema that is read from a text can be printed and read again,
and is then the same by name; and the report on the text, whatever its time, says the same behind
the schema as the report on what is printed. -/
theorem ofText_pretty (h : ofText issuer text = .ok s) (issuer' : Nat) :
    ∃ s', ofText issuer' s.pretty = .ok s' ∧ s.SameByName s' ∧ ∀ nanoseconds,
      Report.ofText text nanoseconds =
        "SCHEMA:\n" ++ s.pretty ++ "\n" ++ Report.findings s ++ Report.timeLine nanoseconds ∧
      Report.ofText s.pretty nanoseconds =
        "SCHEMA:\n" ++ s'.pretty ++ "\n" ++ Report.findings s ++
          Report.timeLine nanoseconds := by
  obtain ⟨s', hs', hsame⟩ := exists_ofText_pretty h issuer'
  -- the report reads both texts for itself
  obtain ⟨r, hr, hsr, hrpretty⟩ := exists_ofText_issuer h 0
  obtain ⟨r', hr', hsr', hrpretty'⟩ := exists_ofText_issuer hs' 0
  refine ⟨s', hs', hsame, fun nanoseconds => ⟨?_, ?_⟩⟩
  · rw [Report.ofText_eq hr, hrpretty, Report.findings_eq_of_sameByName hsr]
  · rw [Report.ofText_eq hr', hrpretty', Report.findings_eq_of_sameByName hsame,
      Report.findings_eq_of_sameByName hsr']

end Schema

/-! ### A schema printed and read again -/

namespace Reprinted

/-- A text with a denied atom, a number, an inequality, and a constant with a number sign. -/
def text : String :=
  "S(x), x != 1 -> P(x). # rules\nQ(x) :- !R(x, '#'). P(x) :- Q(x), true."

/-- The rules are printed first, so that predicates have other numbers when they are read again,
and yet the schema is the same by name. -/
theorem ofText_pretty_reprinted : ∃ s s', Schema.ofText 0 text = .ok s ∧
    s.pretty = "P(x) :- Q(x), true.\nQ(x) :- not R(x, '#').\nS(x), x <> '1' -> P(x).\n" ∧
    Schema.ofText 1 s.pretty = .ok s' ∧ s.SameByName s' ∧
      s.names = ["S", "P", "Q", "R"] ∧ s'.names = ["P", "Q", "R", "S"] := by
  have htext : (Schema.ofText 0 text).map (fun s => (s.pretty, s.names)) =
      .ok ("P(x) :- Q(x), true.\nQ(x) :- not R(x, '#').\nS(x), x <> '1' -> P(x).\n",
        ["S", "P", "Q", "R"]) := by decide +kernel
  cases hs : Schema.ofText 0 text with
  | error e =>
      rw [hs] at htext
      cases htext
  | ok s =>
      rw [hs] at htext
      obtain ⟨hpretty, hnames⟩ := Prod.mk.inj (Except.ok.inj htext)
      obtain ⟨s', hs', hsame, -⟩ := Schema.ofText_pretty hs 1
      have hnames' : (Schema.ofText 1
          "P(x) :- Q(x), true.\nQ(x) :- not R(x, '#').\nS(x), x <> '1' -> P(x).\n").map
            Schema.names = .ok ["P", "Q", "R", "S"] := by decide +kernel
      rw [← hpretty, hs'] at hnames'
      exact ⟨s, s', rfl, hpretty, hs', hsame, hnames, Except.ok.inj hnames'⟩

end Reprinted

end DependencyTheory
