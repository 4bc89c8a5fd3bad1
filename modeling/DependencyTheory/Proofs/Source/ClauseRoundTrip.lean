/-
Clauses that are printed and read again:

* `Clause.Writable`: whether a clause can be written over a schema, so that its names are names and
  its constants stand between quotes;
* `Clause.Writable.exists_body`: literals that denote such a clause;
* `Source.BodyDenotes.unique`: literals denote one clause at most, if names are distinct;
* `Clause.ofText_render`: **a clause that is printed and read again is the same clause**;
* `Clause.writable_of_ofText`: and all clauses that are read can be written.

Where a schema is printed and read again, its predicates get new handles. A clause is read over the
schema that it is printed with, so it comes back as it was.
-/
import DependencyTheory.Proofs.Source.Knowing
import DependencyTheory.Proofs.Source.RoundTrip

namespace DependencyTheory

open Source

variable {s : Schema} {c c' : Clause} {l l' : DependencyTheory.Literal} {text : String}
  {body : List Source.Literal} {src : Source.Literal}

/-! ### What is denoted -/

namespace Source

/-- A written literal denotes one literal at most. -/
lemma Literal.Denotes.unique (hs : s.predicates.DistinctNames)
    (h : src.Denotes s.predicates.RefersTo l) (h' : src.Denotes s.predicates.RefersTo l') :
    l = l' := by
  cases h with
  | @atom _ a positive ha =>
      cases h' with
      | @atom _ a' _ ha' =>
          have hpredicate := ha.predicate.handle_unique hs ha'.predicate
          have hterms := ha.terms.trans ha'.terms.symm
          cases a
          cases a'
          cases hpredicate
          cases hterms
          rfl
  | comparison op left right =>
      cases h'
      rfl
  | truth value =>
      cases h'
      rfl

/-- **Literals denote one clause at most.** -/
lemma BodyDenotes.unique (hs : s.predicates.DistinctNames)
    (h : BodyDenotes s.predicates.RefersTo body c)
    (h' : BodyDenotes s.predicates.RefersTo body c') : c = c' := by
  have hall := forall₂_of_common h h' fun _ _ _ hl hl' => Literal.Denotes.unique hs hl hl'
  have hliterals : c.literals = c'.literals := by rwa [List.forall₂_eq_eq_eq] at hall
  cases c
  cases c'
  cases hliterals
  rfl

/-- A schema knows all uses in literals that denote something over it. -/
lemma BodyDenotes.knows (hs : s.predicates.DistinctNames)
    (h : BodyDenotes s.predicates.RefersTo body c) :
    ∀ use ∈ body.flatMap Literal.uses, s.Knows use := by
  intro use huse
  obtain ⟨src, hsrc, huse⟩ := List.mem_flatMap.mp huse
  obtain ⟨l, -, hl⟩ := (Shuffled.of_forall₂ h).exists_mem hsrc
  cases hl with
  | @atom src a positive ha =>
      obtain rfl := List.mem_singleton.mp huse
      have hfound := (Table.handleNamed?_eq_some hs).mpr ha.predicate
      rw [Schema.Knows, Table.lookup_signature]
      exact Option.map_eq_some_iff.mpr ⟨_, hfound, a.fits.symm.trans (congrArg _ ha.terms)⟩
  | _ => cases huse

/-- A list of literals is read from what prints it, comments removed or not. -/
lemma readAll_literalList {ks : List Token} {cs : List Char} (hspells : SpellsLiteralList body ks)
    (hks : Prints cs ks) : readAll literalList (withoutComments cs) = .ok body := by
  have hlayout : Layout (ks ++ []) (cs ++ []) [] := hks .done
  rw [List.append_nil, List.append_nil] at hlayout
  have hrest : ∀ c ∈ ([] : List Char), Text.isBlank c = true := fun _ hc =>
    absurd hc List.not_mem_nil
  rw [withoutComments_of_layout hlayout hrest]
  exact reads_literalList.readAll_eq_ok.mpr ⟨ks, [], hspells, hlayout, hrest⟩

end Source

/-! ### Clauses that can be written -/

namespace Clause

/-- Whether a clause can be written over a schema: its predicates are predicates of the schema and
have names that are names in the language, its variables are names as well, its constants can
stand between quotes, and its built-in literals are comparisons and truth values. -/
structure Writable (s : Schema) (c : Clause) : Prop where
  owned : ∀ k ∈ c.predicates, s.owns k = true
  names : ∀ k ∈ c.predicates, IsName (s.nameOf k).toList
  terms : ∀ l ∈ c.literals, ∀ t ∈ l.terms, IsTerm t
  builtIns : ∀ name terms, .builtIn (.custom name terms) ∉ c.literals

lemma Writable.exists_literal (h : c.Writable s) (hl : l ∈ c.literals) :
    ∃ src, IsLiteral src ∧ src.Denotes s.predicates.RefersTo l := by
  cases l with
  | ordinary positive a =>
      have hk : a.predicate ∈ c.predicates := List.mem_filterMap.mpr ⟨_, hl, rfl⟩
      obtain ⟨name, hname⟩ := Table.owns_iff.mp (h.owned _ hk)
      have hisName := h.names _ hk
      rw [Schema.nameOf_of_refersTo hname] at hisName
      exact ⟨.atom positive ⟨name, a.terms⟩, ⟨hisName, h.terms _ hl⟩, .atom positive ⟨hname, rfl⟩⟩
  | builtIn b =>
      cases b with
      | comparison op left right =>
          have hterms := h.terms _ hl
          exact ⟨.comparison op left right, ⟨hterms left (by simp [Literal.terms, BuiltIn.terms]),
            hterms right (by simp [Literal.terms, BuiltIn.terms])⟩, .comparison op left right⟩
      | truth value => exact ⟨.truth value, trivial, .truth value⟩
      | custom name terms => exact absurd hl (h.builtIns name terms)

/-- **What can be written is denoted** by literals that are in order. -/
lemma Writable.exists_body (h : c.Writable s) :
    ∃ body, IsListOf IsLiteral body ∧ BodyDenotes s.predicates.RefersTo body c := by
  obtain ⟨body, hbody, hdenotes⟩ := exists_forall₂_of_forall fun _ => h.exists_literal
  refine ⟨body, ⟨?_, hbody⟩, hdenotes⟩
  rintro rfl
  exact c.nonempty (List.forall₂_nil_left_iff.mp hdenotes)

/-- A clause is read where literals are read that denote it. -/
lemma ofText_of_denotes (hs : s.predicates.DistinctNames)
    (hread : readAll literalList (withoutComments text.toList) = .ok body)
    (hc : BodyDenotes s.predicates.RefersTo body c) : ofText s text = .ok c := by
  obtain ⟨c', hc', hdenotes⟩ := exists_ofText hread (hc.knows hs)
  rw [hc', hdenotes.unique hs hc]

/-- **A clause that is printed and read again is the same clause**, over a schema that has each of
its names once, as all have that are built. A full stop may be put behind it. -/
theorem ofText_render (hs : s.predicates.DistinctNames) (h : c.Writable s) :
    ofText s (c.render s.nameOf) = .ok c ∧ ofText s (c.render s.nameOf ++ ".") = .ok c := by
  obtain ⟨body, hbody, hdenotes⟩ := h.exists_body
  have hrender : c.render s.nameOf = Text.commaSeparated (body.map Source.Literal.render) :=
    hdenotes.render_eq fun _ _ => Schema.nameOf_of_refersTo
  obtain ⟨k, ks, hlisted, hks⟩ := writes_literal.listed body hbody
  have hprints : Prints (c.render s.nameOf).toList (k :: ks) := by
    rw [hrender]
    exact hks
  have hstop : Prints ".".toList [.word "."] :=
    .token (Token.plain_word (by decide) (by decide))
  constructor
  · exact ofText_of_denotes hs (readAll_literalList ⟨_, hlisted, Or.inl rfl⟩ hprints) hdenotes
  · refine ofText_of_denotes hs (readAll_literalList ⟨_, hlisted, Or.inr rfl⟩ ?_) hdenotes
    rw [String.toList_append]
    exact hprints.append hstop

/-- **What is read can be written.** -/
theorem writable_of_ofText (h : ofText s text = .ok c) : c.Writable s := by
  cases hread : readAll literalList (withoutComments text.toList) with
  | error e =>
      rw [ofText, hread] at h
      cases h
  | ok body =>
      have hdenotes := bodyDenotes_of_ofText hread h
      have hsources : ∀ l ∈ c.literals, ∃ src, IsLiteral src ∧
          src.Denotes s.predicates.RefersTo l := by
        intro l hl
        obtain ⟨src, hsrc, hl⟩ := (Shuffled.of_forall₂ hdenotes).flip.exists_mem hl
        exact ⟨src, (isListOf_of_readAll hread).2 src hsrc, hl⟩
      refine ⟨fun k hk => Table.owns_iff.mpr (hdenotes.exists_name hk), fun k hk => ?_,
        fun l hl t ht => ?_, fun name terms hl => ?_⟩
      · obtain ⟨l, hl, hlk⟩ := List.mem_filterMap.mp hk
        obtain ⟨src, hsrc, hdenoted⟩ := hsources l hl
        cases hdenoted with
        | atom positive ha =>
            obtain rfl := Option.some.inj hlk
            rw [Schema.nameOf_of_refersTo ha.predicate]
            exact hsrc.predicate
        | _ => cases hlk
      · obtain ⟨src, hsrc, hdenoted⟩ := hsources l hl
        cases hdenoted with
        | atom positive ha => exact hsrc.terms t (ha.terms ▸ ht)
        | comparison op left right =>
            rcases List.mem_pair.mp ht with rfl | rfl
            · exact hsrc.1
            · exact hsrc.2
        | truth value => cases ht
      · obtain ⟨src, -, hdenoted⟩ := hsources _ hl
        cases hdenoted

end Clause

/-! ### Words of the language as names -/

namespace Reserved

/-- A schema whose predicates are called like words of the language. -/
def schema : Schema := ⟨[⟨0, "not", 2, []⟩, ⟨0, "true", 1, []⟩], []⟩

/-- A clause over it, with such words as variables, and with what could be taken for a comment, for
the end of a literal and for a number in constants. -/
def line : String :=
  "not(true, '# none,\n12'), !not(not, '-1.'), true(false), not != 3, false # the end"

/-- The clause is the same when it is printed and read again, with a full stop or without. -/
theorem ofText_render_reserved : ∃ c, Clause.ofText schema line = .ok c ∧ c.Writable schema ∧
    c.render schema.nameOf =
      "not(true, '# none,\n12'), not not(not, '-1.'), true(false), not <> '3', false" ∧
    Clause.ofText schema (c.render schema.nameOf) = .ok c ∧
    Clause.ofText schema (c.render schema.nameOf ++ ".") = .ok c := by
  have hnames : schema.predicates.DistinctNames := by
    unfold Table.DistinctNames
    decide
  have hline : (Clause.ofText schema line).map (Clause.render schema.nameOf) =
      .ok "not(true, '# none,\n12'), not not(not, '-1.'), true(false), not <> '3', false" := by
    decide +kernel
  obtain ⟨c, hc, hrender⟩ := exists_of_map_eq_ok hline
  have hwritable := Clause.writable_of_ofText hc
  obtain ⟨hagain, hstopped⟩ := Clause.ofText_render hnames hwritable
  exact ⟨c, hc, hwritable, hrender, hagain, hstopped⟩

end Reserved

end DependencyTheory
