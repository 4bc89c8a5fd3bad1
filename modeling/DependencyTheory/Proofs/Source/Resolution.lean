/-
Statements that are put into a schema:

* `Schema.DescribedBy`: whether statements describe a schema, with
  `Schema.DescribedBy.addDependency` and `Schema.DescribedBy.addRule` for one more statement;
* `Statement.resolve_of_ok`, `Statement.resolve_of_error`: a statement is put into a schema if its
  names may be used like this;
* `Schema.exists_ofStatements`, `Schema.ofStatements_of_error`: **statements describe a schema**
  iff every name is used with one number of terms.
-/
import DependencyTheory.Proofs.Source.Lookup

namespace DependencyTheory

/-! ### Descriptions -/

namespace Schema

/-- Whether statements describe a schema: its names are those used, in order of first use, its
dependencies are denoted by those among the statements, and the rules of each predicate by those
for its name. -/
structure DescribedBy (s : Schema) (sts : List Source.Statement) : Prop where
  names : s.predicates.DistinctNames
  signature : declareUses [] (sts.flatMap Source.Statement.uses) = .ok s.predicates.signature
  rules : ∀ p ∈ s.predicates,
    List.Forall₂ (Source.Statement.DenotesRule s.predicates.RefersTo)
      (sts.filter (Source.Statement.isRuleFor p.name)) p.rules
  dependencies : List.Forall₂ (Source.Statement.DenotesDependency s.predicates.RefersTo)
    (sts.filter Source.Statement.isDependency) s.dependencies

namespace DescribedBy

open Source

variable {b b' : Builder} {sts : List Statement}

/-- The heads of rules are over names of the schema. -/
lemma use_mem_signature {s : Schema} (h : s.DescribedBy sts) {head : Source.Atom}
    {body : List Source.Literal} (hst : .rule head body ∈ sts) :
    head.use ∈ s.predicates.signature :=
  (mem_declareUses h.signature _).mpr
    (Or.inr (List.mem_flatMap.mpr ⟨_, hst, List.mem_cons_self⟩))

/-- Names that are declared later have no rules so far. -/
lemma rules_of_declares (h : DescribedBy ⟨b.predicates, b.dependencies⟩ sts)
    (hd : b.Declares b') : ∀ p ∈ b'.predicates,
      List.Forall₂ (Statement.DenotesRule b'.predicates.RefersTo)
        (sts.filter (Statement.isRuleFor p.name)) p.rules := by
  intro p hp
  obtain ⟨new, hnew, hrules⟩ := hd.rows
  rw [hnew] at hp
  rcases List.mem_append.mp hp with hold | hp
  · exact (h.rules p hold).imp fun _ _ hr => hr.mono fun _ _ => hd.refersTo
  · have hnone : sts.filter (Statement.isRuleFor p.name) = [] := by
      refine List.filter_eq_nil_iff.mpr fun st hst hrule => ?_
      cases st with
      | dependency _ _ => cases hrule
      | rule head body =>
          -- its name is known already, so it is not declared later
          have huse := h.use_mem_signature hst
          obtain ⟨q, hq, hqu⟩ := List.mem_map.mp huse
          have hdistinct := hd.names h.names
          rw [Table.DistinctNames, hnew, List.map_append, List.nodup_append] at hdistinct
          refine hdistinct.2.2 _ (List.mem_map_of_mem hq) _ (List.mem_map_of_mem hp) ?_
          exact (congrArg Prod.fst hqu).trans (beq_iff_eq.mp hrule)
    rw [hrules p hp, hnone]
    exact .nil

variable {body : List Source.Literal} {c : Clause}

/-- **A dependency is put into the schema.** -/
lemma addDependency (h : DescribedBy ⟨b.predicates, b.dependencies⟩ sts) (hd : b.Declares b')
    {head : Head} {d : Dependency}
    (hsignature : declareUses []
      ((sts ++ [Statement.dependency body head]).flatMap Statement.uses) =
        .ok b'.predicates.signature)
    (hdenotes : (Statement.dependency body head).DenotesDependency b'.predicates.RefersTo d) :
    DescribedBy ⟨b'.predicates, b'.dependencies ++ [d]⟩ (sts ++ [.dependency body head]) where
  names := hd.names h.names
  signature := hsignature
  rules p hp := by
    rw [List.filter_append, List.filter_singleton, Statement.isRuleFor, cond_false,
      List.append_nil]
    exact h.rules_of_declares hd p hp
  dependencies := by
    rw [List.filter_append, List.filter_singleton, Statement.isDependency, cond_true,
      hd.dependencies]
    refine List.rel_append (h.dependencies.imp fun _ _ hr => hr.mono fun _ _ => hd.refersTo) ?_
    exact .cons hdenotes .nil

/-- **A rule is put into the schema**, where its predicate is. -/
lemma addRule (h : DescribedBy ⟨b.predicates, b.dependencies⟩ sts) (hd : b.Declares b')
    {head : Source.Atom} {k : Handle}
    (hsignature : declareUses [] ((sts ++ [Statement.rule head body]).flatMap Statement.uses) =
      .ok b'.predicates.signature)
    (hk : b'.predicates.RefersTo k head.predicate)
    (hbody : BodyDenotes b'.predicates.RefersTo body c) :
    DescribedBy ⟨b'.predicates.modify k.index fun p => { p with rules := p.rules ++
      [⟨head.terms, c⟩] }, b'.dependencies⟩ (sts ++ [.rule head body]) := by
  have hcalls : ∀ i name, b'.predicates.RefersTo i name → Table.RefersTo
      (b'.predicates.modify k.index fun p => { p with rules := p.rules ++ [⟨head.terms, c⟩] })
      i name :=
    fun i name hi => (Table.refersTo_modify
      (f := fun p => { p with rules := p.rules ++ [⟨head.terms, c⟩] })
      (fun _ => ⟨rfl, rfl⟩) fun _ => rfl).mpr hi
  obtain ⟨p₀, hp₀, hname⟩ := hk
  have hrow := (Table.get?_eq_some.mp hp₀).1
  constructor
  · exact (hd.names h.names).modify fun _ => rfl
  · refine hsignature.trans (congrArg Except.ok (Eq.symm ?_))
    exact Table.map_modify fun _ => rfl
  · intro p hp
    obtain ⟨i, hi⟩ := List.mem_iff_getElem?.mp hp
    rw [List.getElem?_modify] at hi
    obtain ⟨q, hq, rfl⟩ := Option.map_eq_some_iff.mp hi
    have hrules := (h.rules_of_declares hd q (List.mem_of_getElem? hq)).imp
      fun _ _ hr => hr.mono hcalls
    split
    · next hindex =>
        obtain rfl : p₀ = q := Option.some.inj (hrow.symm.trans (hindex ▸ hq))
        rw [List.filter_append, List.filter_singleton, Statement.isRuleFor, hname, beq_self_eq_true,
          cond_true, ← hname]
        exact List.rel_append hrules (.cons (.mk (hbody.mono hcalls)) .nil)
    · next hindex =>
        -- another row has another name
        have hne : (head.predicate == q.name) = false := by
          refine beq_eq_false_iff_ne.mpr fun he => hindex ?_
          have hk : b'.predicates.RefersTo k q.name := ⟨p₀, hp₀, hname.trans he⟩
          have hi' : b'.predicates.RefersTo (Table.handleOf q i) q.name :=
            ⟨q, Table.get?_handleOf hq, rfl⟩
          exact congrArg Handle.index (hk.handle_unique (hd.names h.names) hi')
        rw [List.filter_append, List.filter_singleton, Statement.isRuleFor, hne, cond_false,
          List.append_nil]
        exact hrules
  · rw [List.filter_append, List.filter_singleton, Statement.isDependency, cond_false,
      List.append_nil, hd.dependencies]
    exact h.dependencies.imp fun _ _ hr => hr.mono fun i name hi => hcalls i name (hd.refersTo hi)

end DescribedBy

end Schema

/-! ### Statements -/

namespace Source

variable {b : Builder} {sts sts' : List Statement} {st : Statement} {known : List (String × Nat)}
  {e : SchemaError}

/-- A head and a body, as they are looked up for a rule. -/
lemma resolves_headAndBody (head : Atom) {body : List Literal} (hbody : body ≠ []) :
    declaringRegime.Resolves
      (do
        let h ← declaring head.predicate head.terms.length
        let c ← resolveBody declaring body
        return (h, c))
      (Statement.rule head body).uses
      fun C hc => (C hc.1 head.predicate ∧ hc.1.arity = head.terms.length) ∧
        BodyDenotes C body hc.2 := by
  have hc : ∀ h : Handle, declaringRegime.Resolves
      (do let c ← resolveBody declaring body; return (h, c)) (body.flatMap Literal.uses)
      fun C hc => hc.1 = h ∧ BodyDenotes C body hc.2 :=
    fun h => (resolves_resolveBody answers_declaring hbody).map fun hc => ⟨rfl, hc⟩
  refine (answers_declaring head.predicate head.terms.length).bind hc
    (fun hC hh => ⟨hC _ _ hh.1, hh.2⟩) ?_
  rintro C h ⟨_, c⟩ hh ⟨rfl, hc⟩
  exact ⟨hh, hc⟩

/-- A dependency with head atoms, as its names are looked up. -/
lemma resolves_tgd {body : List Literal} {as : List Atom} (hbody : body ≠ []) (has : as ≠ []) :
    declaringRegime.Resolves
      (do
        let c ← resolveBody declaring body
        let head ← as.mapM (Atom.resolve declaring)
        Tgd.ofHead c head)
      (Statement.dependency body (.atoms as)).uses
      fun C t => (Statement.dependency body (.atoms as)).DenotesDependency C (.tgd t) := by
  have huses : (Head.atoms as).uses = as.flatMap fun a => [a.use] := by
    rw [Head.uses, List.map_eq_flatMap]
  have hhead : ∀ c, declaringRegime.Resolves
      (do let head ← as.mapM (Atom.resolve declaring); Tgd.ofHead c head) (Head.atoms as).uses
      fun C t => t.body = c ∧ List.Forall₂ (Atom.Denotes C) as t.head := by
    intro c
    rw [huses]
    refine (Regime.Resolves.mapM (fun a => Atom.resolves answers_declaring a)
      (fun hC ha => Atom.Denotes.mono ha hC) as).check fun {C head} hhead => ?_
    have hne : head ≠ [] := by
      rintro rfl
      exact has (List.forall₂_nil_right_iff.mp hhead)
    exact ⟨⟨c, head, hne⟩, dif_pos hne, rfl, hhead⟩
  refine (resolves_resolveBody answers_declaring hbody).bind hhead (fun hC hc => hc.mono hC) ?_
  rintro C c t hc ⟨rfl, hhead⟩
  exact .tgd hc hhead

lemma Statement.resolve_rule (head : Atom) (body : List Literal) :
    (Statement.rule head body).resolve =
      (do
        let h ← declaring head.predicate head.terms.length
        let c ← resolveBody declaring body
        return (h, c)) >>= (fun hc => do set (← (← get).addRule hc.1 ⟨head.terms, hc.2⟩)) := by
  simp only [Statement.resolve, bind_assoc, pure_bind]

lemma Statement.resolve_tgd (body : List Literal) (as : List Atom) :
    (Statement.dependency body (.atoms as)).resolve =
      (do
        let c ← resolveBody declaring body
        let head ← as.mapM (Atom.resolve declaring)
        Tgd.ofHead c head) >>= fun t => modify (·.addDependencies [.tgd t]) := by
  simp only [Statement.resolve, bind_assoc]

/-- What is known after some statements is what they leave. -/
lemma declareUses_of_describedBy {s : Schema} (hs : s.DescribedBy sts)
    (uses : List (String × Nat)) :
    declareUses [] (sts.flatMap Statement.uses ++ uses) =
      declareUses s.predicates.signature uses := by
  rw [declareUses_append, hs.signature]
  rfl

/-- **A statement is put into a schema** if its names may be used like this. -/
lemma Statement.resolve_of_ok (hb : Schema.DescribedBy ⟨b.predicates, b.dependencies⟩ sts)
    (hst : st.HasParts) (h : declareUses b.predicates.signature st.uses = .ok known) :
    ∃ b', st.resolve b = .ok ((), b') ∧
      Schema.DescribedBy ⟨b'.predicates, b'.dependencies⟩ (sts ++ [st]) := by
  have hsignature : declareUses [] ((sts ++ [st]).flatMap Statement.uses) = .ok known := by
    rw [List.flatMap_append, List.flatMap_singleton, declareUses_of_describedBy hb]
    exact h
  cases st with
  | rule head body =>
      obtain ⟨⟨k, c⟩, b', hstep, hd, rfl, ⟨hk, hlength⟩, hc⟩ := (resolves_headAndBody head hst).ok h
      refine ⟨{ b' with predicates := b'.predicates.modify k.index fun p =>
        { p with rules := p.rules ++ [⟨head.terms, c⟩] } }, ?_, hb.addRule hd hsignature hk hc⟩
      have hlength' : (Rule.mk head.terms c).head.length = k.arity := hlength.symm
      have hadd := Builder.addRule_eq_ok.mpr ⟨Table.owns_iff.mpr ⟨_, hk⟩, hlength', rfl⟩
      rw [resolve_rule, Regime.run_bind_of_ok hstep]
      show ((b'.addRule k ⟨head.terms, c⟩).bind fun b => .ok (b, b')).bind _ = _
      rw [hadd]
      rfl
  | dependency body head =>
      cases head with
      | atoms as =>
          obtain ⟨t, b', hstep, hd, rfl, ht⟩ := (resolves_tgd hst.1 hst.2).ok h
          refine ⟨b'.addDependencies [.tgd t], ?_, hb.addDependency hd hsignature ht⟩
          rw [resolve_tgd, Regime.run_bind_of_ok hstep]
          rfl
      | equality left right =>
          rw [uses, Head.uses, List.append_nil] at h
          obtain ⟨c, b', hstep, hd, rfl, hc⟩ := (resolves_resolveBody answers_declaring hst).ok h
          refine ⟨b'.addDependencies [.egd ⟨c, left, right⟩], ?_,
            hb.addDependency hd hsignature (.egd hc)⟩
          rw [resolve, Regime.run_bind_of_ok hstep]
          rfl

/-- It is refused otherwise, for the same reason. -/
lemma Statement.resolve_of_error (hst : st.HasParts)
    (h : declareUses b.predicates.signature st.uses = .error e) : st.resolve b = .error e := by
  cases st with
  | rule head body =>
      rw [resolve_rule]
      exact Regime.run_bind_of_error ((resolves_headAndBody head hst).error h)
  | dependency body head =>
      cases head with
      | atoms as =>
          rw [resolve_tgd]
          exact Regime.run_bind_of_error ((resolves_tgd hst.1 hst.2).error h)
      | equality left right =>
          rw [uses, Head.uses, List.append_nil] at h
          exact Regime.run_bind_of_error ((resolves_resolveBody answers_declaring hst).error h)

/-- What is known after one more statement. -/
lemma declareUses_signature {s s' : Schema} (hs : s.DescribedBy sts)
    (hs' : s'.DescribedBy (sts ++ [st])) :
    declareUses s.predicates.signature st.uses = .ok s'.predicates.signature := by
  have hsignature := hs'.signature
  rwa [List.flatMap_append, List.flatMap_singleton, declareUses_of_describedBy hs] at hsignature

/-- **Statements are put into a schema** one after the other, as long as their names may be used
like this. -/
lemma forM_resolve_of_ok (hb : Schema.DescribedBy ⟨b.predicates, b.dependencies⟩ sts)
    (hparts : ∀ st ∈ sts', st.HasParts)
    (h : declareUses b.predicates.signature (sts'.flatMap Statement.uses) = .ok known) :
    ∃ b', sts'.forM Statement.resolve b = .ok ((), b') ∧
      Schema.DescribedBy ⟨b'.predicates, b'.dependencies⟩ (sts ++ sts') := by
  induction sts' generalizing b sts with
  | nil => exact ⟨b, rfl, by rwa [List.append_nil]⟩
  | cons st rest ih =>
      obtain ⟨hst, hrest⟩ := List.forall_mem_cons.mp hparts
      rw [List.flatMap_cons, declareUses_append] at h
      cases hk : declareUses b.predicates.signature st.uses with
      | error e =>
          rw [hk] at h
          cases h
      | ok k =>
          obtain ⟨b', hstep, hb'⟩ := Statement.resolve_of_ok hb hst hk
          obtain rfl := Except.ok.inj (hk.symm.trans (declareUses_signature hb hb'))
          rw [hk] at h
          obtain ⟨b'', hsteps, hb''⟩ := ih hb' hrest h
          refine ⟨b'', ?_, by rwa [List.append_assoc] at hb''⟩
          exact (Regime.run_bind_of_ok hstep).trans hsteps

lemma forM_resolve_of_error (hb : Schema.DescribedBy ⟨b.predicates, b.dependencies⟩ sts)
    (hparts : ∀ st ∈ sts', st.HasParts)
    (h : declareUses b.predicates.signature (sts'.flatMap Statement.uses) = .error e) :
    sts'.forM Statement.resolve b = .error e := by
  induction sts' generalizing b sts with
  | nil => cases h
  | cons st rest ih =>
      obtain ⟨hst, hrest⟩ := List.forall_mem_cons.mp hparts
      rw [List.flatMap_cons, declareUses_append] at h
      cases hk : declareUses b.predicates.signature st.uses with
      | error e' =>
          rw [hk] at h
          obtain rfl := Except.error.inj h
          exact Regime.run_bind_of_error (Statement.resolve_of_error hst hk)
      | ok k =>
          obtain ⟨b', hstep, hb'⟩ := Statement.resolve_of_ok hb hst hk
          obtain rfl := Except.ok.inj (hk.symm.trans (declareUses_signature hb hb'))
          rw [hk] at h
          exact (Regime.run_bind_of_ok hstep).trans (ih hb' hrest h)

end Source

/-! ### Schemas -/

namespace Schema

open Source

variable {s : Schema} {sts : List Statement} {issuer : Nat}

lemma describedBy_new (issuer : Nat) :
    DescribedBy ⟨(Builder.new issuer).predicates, (Builder.new issuer).dependencies⟩ [] :=
  ⟨List.nodup_nil, rfl, fun _ hp => absurd hp List.not_mem_nil, .nil⟩

/-- A schema that is described owns all predicates that it refers to. -/
lemma DescribedBy.owns {b : Builder} (h : DescribedBy ⟨b.predicates, b.dependencies⟩ sts) :
    ∀ k ∈ b.references, b.predicates.owns k = true := by
  intro k hk
  refine Table.owns_iff.mpr ?_
  rcases List.mem_append.mp hk with hk | hk
  · obtain ⟨p, hp, hk⟩ := List.mem_flatMap.mp hk
    obtain ⟨r, hr, hk⟩ := List.mem_flatMap.mp hk
    obtain ⟨st, -, hst⟩ := (Shuffled.of_forall₂ (h.rules p hp)).flip.exists_mem hr
    cases hst with
    | mk hbody => exact hbody.exists_name hk
  · obtain ⟨d, hd, hk⟩ := List.mem_flatMap.mp hk
    obtain ⟨st, -, hst⟩ := (Shuffled.of_forall₂ h.dependencies).flip.exists_mem hd
    exact Statement.DenotesDependency.exists_name hst hk

/-- **Statements describe a schema** if their names may be used like this. -/
theorem exists_ofStatements {known : List (String × Nat)} (hparts : ∀ st ∈ sts, st.HasParts)
    (h : declareUses [] (sts.flatMap Statement.uses) = .ok known) :
    ∃ s, ofStatements issuer sts = .ok s ∧ s.DescribedBy sts := by
  obtain ⟨b, hsteps, hb⟩ := forM_resolve_of_ok (describedBy_new issuer) hparts h
  refine ⟨⟨b.predicates, b.dependencies⟩, ?_, hb⟩
  rw [ofStatements, StateT.run, hsteps]
  exact Builder.build_eq_ok.mpr ⟨hb.owns, rfl⟩

/-- They are refused otherwise, for the first use that does not fit. -/
theorem ofStatements_of_error {e : SchemaError} (hparts : ∀ st ∈ sts, st.HasParts)
    (h : declareUses [] (sts.flatMap Statement.uses) = .error e) :
    ofStatements issuer sts = .error e := by
  have hsteps := forM_resolve_of_error (describedBy_new issuer) hparts h
  rw [ofStatements, StateT.run, hsteps]
  rfl

/-- **The schema of some statements is described by them.** -/
theorem describedBy_of_ofStatements (hparts : ∀ st ∈ sts, st.HasParts)
    (hs : ofStatements issuer sts = .ok s) : s.DescribedBy sts := by
  cases h : declareUses [] (sts.flatMap Statement.uses) with
  | error e => cases (ofStatements_of_error hparts h).symm.trans hs
  | ok known =>
      have hexists : ∃ s', ofStatements issuer sts = .ok s' ∧ s'.DescribedBy sts :=
        exists_ofStatements hparts h
      obtain ⟨s', hs', hdescribed⟩ := hexists
      rwa [Except.ok.inj (hs.symm.trans hs')]

end Schema

end DependencyTheory
