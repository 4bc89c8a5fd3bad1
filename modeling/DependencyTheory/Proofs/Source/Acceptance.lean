/-
Which statements and lists of literals are accepted:

* `declareUses_eq_ok`: what is known after consistent uses are the uses without repetitions, in
  order of first use;
* `FirstDisagreement`: the first use of a name with another number of terms than before;
* `declareUses_eq_error`: this is what other uses are refused for;
* `resolution_decided`: **statements describe a schema iff every name is used with one number of
  terms**, and are refused for the first disagreement; a list of literals is refused for the first
  use that the schema does not know.
-/
import DependencyTheory.Proofs.OrderedSet
import DependencyTheory.Proofs.Source.Knowing
import DependencyTheory.Proofs.Source.Resolution

namespace DependencyTheory

/-! ### First uses -/

variable {uses known : List (String × Nat)} {use : String × Nat} {e : SchemaError}

/-- What is looked up first stays when repetitions are dropped. -/
lemma lookup_eraseDups (uses : List (String × Nat)) (name : String) :
    uses.eraseDups.lookup name = uses.lookup name := by
  induction uses using List.reverseRecOn with
  | nil => rfl
  | append_singleton uses use ih =>
      rw [eraseDups_concat, List.lookup_append]
      split
      · next hmem =>
          rw [ih]
          cases hlookup : uses.lookup name with
          | some arity => rfl
          | none =>
              have hne := List.lookup_eq_none_iff.mp hlookup use hmem
              rw [Option.none_or, List.lookup_eq_none_iff.mpr]
              exact fun u hu => List.mem_singleton.mp hu ▸ hne
      · rw [List.lookup_append, ih]

/-- What is known of names has each name once. -/
lemma eq_eraseDups_of_declareUses (h : declareUses [] uses = .ok known) :
    known = uses.eraseDups ∧ (known.map Prod.fst).Nodup := by
  induction uses using List.reverseRecOn generalizing known with
  | nil =>
      obtain rfl := Except.ok.inj h
      exact ⟨rfl, List.nodup_nil⟩
  | append_singleton uses use ih =>
      rw [declareUses_append] at h
      cases hbefore : declareUses [] uses with
      | error e =>
          rw [hbefore] at h
          cases h
      | ok before =>
          rw [hbefore] at h
          obtain ⟨k, huse, h⟩ := declareUses_cons.mp h
          obtain rfl := Except.ok.inj h
          obtain ⟨hdups, hnodup⟩ := ih hbefore
          have hmem := mem_declareUses hbefore
          simp only [List.not_mem_nil, false_or] at hmem
          rw [eraseDups_concat, ← hdups]
          rcases declareUse_eq_ok.mp huse with ⟨hlookup, rfl⟩ | ⟨hlookup, rfl⟩
          · rw [if_pos ((hmem use).mp (mem_of_lookup hlookup))]
            exact ⟨rfl, hnodup⟩
          · have hnew : ∀ u ∈ before, u.1 ≠ use.1 := fun u hu he => by
              simpa [he] using List.lookup_eq_none_iff.mp hlookup u hu
            rw [if_neg fun hold => hnew use ((hmem use).mpr hold) rfl]
            refine ⟨rfl, ?_⟩
            rw [List.map_append, List.map_singleton, ← List.concat_eq_append]
            refine List.Nodup.concat (fun hold => ?_) hnodup
            obtain ⟨u, hu, he⟩ := List.mem_map.mp hold
            exact hnew u hu he

/-- **Uses are fine** iff every name is used with one number of terms. What is known are then the
uses in order of first use. -/
lemma declareUses_eq_ok :
    declareUses [] uses = .ok known ↔ ConsistentUses uses ∧ known = uses.eraseDups := by
  constructor
  · intro h
    obtain ⟨hdups, hnodup⟩ := eq_eraseDups_of_declareUses h
    exact ⟨consistentUses_of_nodup h hnodup, hdups⟩
  · rintro ⟨hconsistent, rfl⟩
    have hexists : ∃ known, declareUses [] uses = .ok known := exists_declareUses hconsistent
    obtain ⟨known, h⟩ := hexists
    rw [h, (eq_eraseDups_of_declareUses h).1]

/-! ### The first disagreement -/

/-- Whether the first use of a name with another number of terms than before has `found` terms,
where the first use of this name has `expected` ones. -/
def FirstDisagreement (uses : List (String × Nat)) (expected found : Nat) : Prop :=
  ∃ before name after, uses = before ++ (name, found) :: after ∧ ConsistentUses before ∧
    before.lookup name = some expected ∧ expected ≠ found

lemma declareUse_eq_error : declareUse known use = .error e ↔
    ∃ arity, known.lookup use.1 = some arity ∧ arity ≠ use.2 ∧ e = .arityMismatch arity use.2 := by
  rw [declareUse]
  cases known.lookup use.1 with
  | none => simp
  | some arity => by_cases harity : arity = use.2 <;> simp [harity, eq_comm]

/-- **Other uses are refused** for the first disagreement. -/
lemma declareUses_eq_error : declareUses [] uses = .error e ↔
    ∃ expected found,
      FirstDisagreement uses expected found ∧ e = .arityMismatch expected found := by
  rw [declareUses, foldlM_eq_error]
  constructor
  · rintro ⟨before, ⟨name, found⟩, after, known, rfl, hbefore, hlast⟩
    obtain ⟨hconsistent, rfl⟩ := declareUses_eq_ok.mp hbefore
    obtain ⟨expected, hlookup, hne, rfl⟩ := declareUse_eq_error.mp hlast
    rw [lookup_eraseDups] at hlookup
    exact ⟨expected, found, ⟨before, name, after, rfl, hconsistent, hlookup, hne⟩, rfl⟩
  · rintro ⟨expected, found, ⟨before, name, after, rfl, hconsistent, hlookup, hne⟩, rfl⟩
    refine ⟨before, (name, found), after, _, rfl, declareUses_eq_ok.mpr ⟨hconsistent, rfl⟩, ?_⟩
    exact declareUse_eq_error.mpr ⟨expected, (lookup_eraseDups _ _).trans hlookup, hne, rfl⟩

/-! ### Statements -/

namespace Schema

open Source

variable {s : Schema} {sts : List Statement} {issuer : Nat}

/-- **Statements describe a schema** iff every name is used with one number of terms. -/
lemma exists_ofStatements_iff (hparts : ∀ st ∈ sts, st.HasParts) :
    (∃ s, ofStatements issuer sts = .ok s) ↔ ConsistentUses (sts.flatMap Statement.uses) := by
  constructor
  · rintro ⟨s, hs⟩
    exact (declareUses_eq_ok.mp (describedBy_of_ofStatements hparts hs).signature).1
  · intro h
    have hdescribes : ∃ s, ofStatements issuer sts = .ok s ∧ s.DescribedBy sts :=
      exists_ofStatements hparts (declareUses_eq_ok.mpr ⟨h, rfl⟩)
    obtain ⟨s, hs, -⟩ := hdescribes
    exact ⟨s, hs⟩

/-- **They are refused otherwise**, for the first disagreement. -/
lemma ofStatements_eq_error (hparts : ∀ st ∈ sts, st.HasParts) :
    ofStatements issuer sts = .error e ↔ ∃ expected found,
      FirstDisagreement (sts.flatMap Statement.uses) expected found ∧
        e = .arityMismatch expected found := by
  rw [← declareUses_eq_error]
  refine ⟨fun h => ?_, ofStatements_of_error hparts⟩
  cases huses : declareUses [] (sts.flatMap Statement.uses) with
  | error e' =>
      obtain rfl := Except.error.inj ((ofStatements_of_error hparts huses).symm.trans h)
      rfl
  | ok known =>
      have hdescribes : ∃ s, ofStatements issuer sts = .ok s :=
        (exists_ofStatements_iff hparts).mpr (declareUses_eq_ok.mp huses).1
      obtain ⟨s, hs⟩ := hdescribes
      cases h.symm.trans hs

end Schema

/-! ### Acceptance -/

namespace Source

/-- **Resolution accepts just what is consistent.** Statements with bodies and heads, as all have
that are read, describe a schema iff every name is used with one number of terms. Otherwise they
are refused for the first disagreement and for nothing else. The predicates of the schema are the
names in order of first use, its dependencies are what those among the statements denote, and the
rules of each predicate what the rules for its name denote, all in order. A list of literals becomes
a clause over a schema iff this knows all uses, and is otherwise refused for the first one that it
does not know. -/
theorem resolution_decided :
    (∀ (issuer : Nat) (sts : List Statement), (∀ st ∈ sts, st.HasParts) →
      ((∃ s, Schema.ofStatements issuer sts = .ok s) ↔
        ConsistentUses (sts.flatMap Statement.uses)) ∧
      (∀ e, Schema.ofStatements issuer sts = .error e ↔ ∃ expected found,
        FirstDisagreement (sts.flatMap Statement.uses) expected found ∧
          e = .arityMismatch expected found) ∧
      ∀ s, Schema.ofStatements issuer sts = .ok s →
        s.predicates.signature = (sts.flatMap Statement.uses).eraseDups ∧
        List.Forall₂ (Statement.DenotesDependency s.predicates.RefersTo)
          (sts.filter Statement.isDependency) s.dependencies ∧
        ∀ p ∈ s.predicates, List.Forall₂ (Statement.DenotesRule s.predicates.RefersTo)
          (sts.filter (Statement.isRuleFor p.name)) p.rules) ∧
    ∀ (schema : Schema) (text : String) (body : List Literal),
      readAll literalList (withoutComments text.toList) = .ok body →
      ((∃ c, Clause.ofText schema text = .ok c) ↔
        ∀ use ∈ body.flatMap Literal.uses, schema.Knows use) ∧
      (∀ e, Clause.ofText schema text = .error e ↔ ∃ before use after,
        body.flatMap Literal.uses = before ++ use :: after ∧ (∀ u ∈ before, schema.Knows u) ∧
          schema.Refuses use e) ∧
      ∀ c, Clause.ofText schema text = .ok c → BodyDenotes schema.predicates.RefersTo body c := by
  constructor
  · intro issuer sts hparts
    refine ⟨Schema.exists_ofStatements_iff hparts, fun e => Schema.ofStatements_eq_error hparts,
      fun s hs => ?_⟩
    have hdescribed := Schema.describedBy_of_ofStatements hparts hs
    exact ⟨(declareUses_eq_ok.mp hdescribed.signature).2, hdescribed.dependencies,
      hdescribed.rules⟩
  · intro schema text body hread
    exact ⟨Clause.exists_ofText_iff hread, fun e => Clause.ofText_eq_error hread,
      fun c => Clause.bodyDenotes_of_ofText hread⟩

end Source

/-! ### Orders that are late -/

namespace Lateness

/-- A dependency and a rule, with four names. -/
def statements : List Source.Statement :=
  [.dependency [.atom true ⟨"Order", [.var "c", .var "i"]⟩] (.atoms [⟨"Item", [.var "i"]⟩]),
    .rule ⟨"Late", [.var "c"]⟩
      [.atom true ⟨"Order", [.var "c", .var "i"]⟩, .atom false ⟨"Paid", [.var "c", .var "i"]⟩]]

/-- A dependency with another number of terms in its head than the rule has in its own. -/
def disagreeing : Source.Statement :=
  .dependency [.atom true ⟨"Paid", [.var "c", .const "7"]⟩]
    (.atoms [⟨"Item", [.const "7"]⟩, ⟨"Late", [.var "c", .const "7"]⟩, ⟨"Item", []⟩])

/-- The statements describe a schema, over which a clause is refused for its second literal. With
the dependency behind them they are refused for its second head atom, though the third disagrees
as well. -/
theorem resolution_decided_lateness :
    (∀ st ∈ statements ++ [disagreeing], st.HasParts) ∧
      (∃ s, Schema.ofStatements 0 statements = .ok s ∧
        s.predicates.signature = [("Order", 2), ("Item", 1), ("Late", 1), ("Paid", 2)] ∧
        Clause.ofText s "Late(x), # a comment\nnot Order(x), Parcel(x)." =
          .error (.arityMismatch 2 1)) ∧
      Schema.ofStatements 0 (statements ++ [disagreeing]) = .error (.arityMismatch 1 2) := by
  have hparts : ∀ st ∈ statements ++ [disagreeing], st.HasParts := by
    simp [statements, disagreeing, Source.Statement.HasParts]
  have hfirst : ∀ st ∈ statements, st.HasParts := fun st hst =>
    hparts st (List.mem_append_left _ hst)
  have hconsistent : ConsistentUses (statements.flatMap Source.Statement.uses) := by
    unfold ConsistentUses
    decide
  refine ⟨hparts, ?_, ?_⟩
  · obtain ⟨s, hs⟩ := (Source.resolution_decided.1 0 statements hfirst).1.mpr hconsistent
    have hsignature := ((Source.resolution_decided.1 0 statements hfirst).2.2 s hs).1
    have hnames : s.predicates.signature =
        [("Order", 2), ("Item", 1), ("Late", 1), ("Paid", 2)] := by
      rw [hsignature]
      decide
    refine ⟨s, hs, hnames, ?_⟩
    have hread : Source.readAll Source.literalList (Source.withoutComments
        "Late(x), # a comment\nnot Order(x), Parcel(x).".toList) =
        .ok [.atom true ⟨"Late", [.var "x"]⟩, .atom false ⟨"Order", [.var "x"]⟩,
          .atom true ⟨"Parcel", [.var "x"]⟩] := by decide +kernel
    have hknows : ∀ use, s.Knows use ↔
        [("Order", 2), ("Item", 1), ("Late", 1), ("Paid", 2)].lookup use.1 = some use.2 := by
      intro use
      rw [Schema.Knows, hnames]
    refine ((Source.resolution_decided.2 s _ _ hread).2.1 _).mpr
      ⟨[("Late", 1)], ("Order", 1), [("Parcel", 1)], rfl, ?_, .arity ((hknows _).mpr rfl) ?_⟩
    · exact fun u hu => List.mem_singleton.mp hu ▸ (hknows _).mpr rfl
    · decide
  · refine ((Source.resolution_decided.1 0 _ hparts).2.1 _).mpr ⟨1, 2, ⟨?_, rfl⟩⟩
    refine ⟨statements.flatMap Source.Statement.uses ++ [("Paid", 2), ("Item", 1)], "Late",
      [("Item", 0)], rfl, ?_, rfl, by decide⟩
    unfold ConsistentUses
    decide

end Lateness

end DependencyTheory
