/-
Lists of literals over the predicates of a schema:

* `reads_literalList`: a list of literals is read where it is laid out, with a full stop or without;
* `Schema.Knows`, `Schema.Refuses`: whether a name may be used with a number of terms over a
  schema, and why not;
* `answers_knowing`: schemas, which know their names and no others;
* `Clause.exists_ofText_iff`, `Clause.ofText_eq_error`: **a list of literals becomes a clause** iff
  the schema knows all its uses, and is otherwise refused for the first one that it does not know.
-/
import DependencyTheory.Proofs.Source.Lookup
import DependencyTheory.Proofs.Source.Program

namespace DependencyTheory

namespace Source

open Reader

/-! ### Reading -/

/-- Whether tokens spell a list of literals, with a full stop or without. -/
def SpellsLiteralList (body : List Literal) (ks : List Token) : Prop :=
  ∃ ks', Listed SpellsLiteral body ks' ∧ (ks = ks' ∨ ks = ks' ++ [.word "."])

/-- Only a full stop is read as one. -/
lemma next?_of_fullStop {s r : List Char} {w : String} (h : fullStop s = .ok (w, r)) :
    next? s = some '.' := by
  obtain ⟨_, ⟨-, rfl⟩, hks⟩ := reads_fullStop.sound h
  exact hks.next?_eq

/-- **A list of literals is read** at the end of a text. -/
lemma reads_literalList : Reads literalList SpellsLiteralList (· = none) := by
  constructor
  · intro s r body h
    simp only [literalList, bind_eq_ok, pure_eq_ok, optional_eq_ok] at h
    obtain ⟨_, s', hbody, _, _, ⟨w, rfl, hstop⟩ | ⟨rfl, rfl, -⟩, rfl, rfl⟩ := h
    · obtain ⟨ks, hlisted, hks⟩ := reads_body.sound hbody
      obtain ⟨_, ⟨-, rfl⟩, hks'⟩ := reads_fullStop.sound hstop
      exact ⟨_, ⟨ks, hlisted, Or.inr rfl⟩, Layout.append_iff.mpr ⟨s', hks, hks'⟩⟩
    · obtain ⟨ks, hlisted, hks⟩ := reads_body.sound hbody
      exact ⟨ks, ⟨ks, hlisted, Or.inl rfl⟩, hks⟩
  · rintro s r body _ ⟨ks, hlisted, rfl | rfl⟩ hks hr
    · have hnone : ∀ out, fullStop r ≠ .ok out := by
        rintro ⟨w, r'⟩ hstop
        cases hr.symm.trans (next?_of_fullStop hstop)
      have hbody := reads_body.complete hlisted hks (by rw [hr]; exact ⟨Or.inl rfl, by decide⟩)
      simp only [literalList, bind_eq_ok, pure_eq_ok, optional_eq_ok]
      exact ⟨body, r, hbody, none, r, Or.inr ⟨rfl, rfl, hnone⟩, rfl, rfl⟩
    · obtain ⟨s', hks', hstop⟩ := Layout.append_iff.mp hks
      have hnext : next? s' = some '.' := hstop.next?_eq
      have hbody := reads_body.complete hlisted hks'
        (by rw [hnext]; exact ⟨Or.inr (Or.inr (Or.inr rfl)), by decide⟩)
      have hread := reads_fullStop.complete ⟨rfl, rfl⟩ hstop trivial
      simp only [literalList, bind_eq_ok, pure_eq_ok, optional_eq_ok]
      exact ⟨body, s', hbody, some ".", r, Or.inl ⟨".", rfl, hread⟩, rfl, rfl⟩

/-- A list of literals that is read has one, and all are well-formed. -/
lemma isListOf_of_readAll {cs : List Char} {body : List Literal}
    (h : readAll literalList cs = .ok body) : IsListOf IsLiteral body := by
  obtain ⟨_, rest, ⟨ks, hlisted, rfl | rfl⟩, hks, -⟩ := reads_literalList.readAll_eq_ok.mp h
  · exact spellable_literal.listed.holds hlisted hks.valid
  · exact spellable_literal.listed.holds hlisted (List.forall_mem_append.mp hks.valid).1

end Source

/-! ### What a schema knows -/

namespace Schema

/-- Whether a name may be used with a number of terms: a predicate of this name is declared, with
as many places. -/
def Knows (s : Schema) (use : String × Nat) : Prop :=
  s.predicates.signature.lookup use.1 = some use.2

/-- Why a name may not be used with a number of terms: no predicate of this name is declared, or
one with another number of places. -/
inductive Refuses (s : Schema) : String × Nat → SchemaError → Prop
  | unknown {name : String} {found : Nat} (h : ∀ p ∈ s.predicates, p.name ≠ name) :
      Refuses s (name, found) (.unknownPredicate name)
  | arity {name : String} {arity found : Nat} (h : s.Knows (name, arity)) (hne : arity ≠ found) :
      Refuses s (name, found) (.arityMismatch arity found)

end Schema

/-- A use in a table whose names are all there are. -/
def recallUse (known : List (String × Nat)) (use : String × Nat) : Except SchemaError Unit :=
  match known.lookup use.1 with
  | some arity => if arity = use.2 then .ok () else .error (.arityMismatch arity use.2)
  | none => .error (.unknownPredicate use.1)

section

variable {schema : Schema} {use : String × Nat} {uses : List (String × Nat)} {e : SchemaError}

lemma recallUse_eq_ok {u : Unit} :
    recallUse schema.predicates.signature use = .ok u ↔ schema.Knows use := by
  rw [recallUse, Schema.Knows]
  cases schema.predicates.signature.lookup use.1 with
  | none => simp
  | some arity => by_cases harity : arity = use.2 <;> simp [harity]

lemma recallUse_eq_error :
    recallUse schema.predicates.signature use = .error e ↔ schema.Refuses use e := by
  obtain ⟨name, found⟩ := use
  rw [recallUse]
  cases hlookup : schema.predicates.signature.lookup name with
  | none =>
      have hnone : ∀ p ∈ schema.predicates, p.name ≠ name := by
        rwa [Table.lookup_signature, Option.map_eq_none_iff, Table.handleNamed?_eq_none] at hlookup
      constructor
      · rintro ⟨⟩
        exact .unknown hnone
      · rintro (hn | ⟨hknows, -⟩)
        · rfl
        · cases hlookup.symm.trans hknows
  | some arity =>
      have hknows : schema.Knows (name, arity) := hlookup
      constructor
      · intro h
        dsimp only at h
        split at h
        · cases h
        · next hne =>
            obtain rfl := Except.error.inj h
            exact .arity hknows hne
      · rintro (hnone | ⟨hknows', hne⟩)
        · have hlookup' : schema.predicates.signature.lookup name = none := by
            rwa [Table.lookup_signature, Option.map_eq_none_iff, Table.handleNamed?_eq_none]
          cases hlookup.symm.trans hlookup'
        · obtain rfl := Option.some.inj (hlookup.symm.trans hknows')
          exact if_neg hne

/-- Uses in turn are fine iff each is. -/
lemma foldlM_recallUse_eq_ok {u : Unit} :
    uses.foldlM (fun _ use => recallUse schema.predicates.signature use) () = .ok u ↔
      ∀ use ∈ uses, schema.Knows use := by
  induction uses with
  | nil => simp [pure, Except.pure]
  | cons use uses ih =>
      rw [List.foldlM_cons, List.forall_mem_cons, ← ih, ← recallUse_eq_ok (u := ())]
      cases recallUse schema.predicates.signature use with
      | error e => exact ⟨fun h => (nomatch h), fun h => (nomatch h.1)⟩
      | ok u => exact ⟨fun h => ⟨rfl, h⟩, fun h => h.2⟩

/-- Otherwise the first one that is not counts. -/
lemma foldlM_recallUse_eq_error :
    uses.foldlM (fun _ use => recallUse schema.predicates.signature use) () = .error e ↔
      ∃ before use after, uses = before ++ use :: after ∧ (∀ u ∈ before, schema.Knows u) ∧
        schema.Refuses use e := by
  simp only [foldlM_eq_error, foldlM_recallUse_eq_ok, recallUse_eq_error, exists_const]

end

namespace Source

/-- A schema knows its predicates and no others. -/
def knowingRegime (schema : Schema) : Regime Unit where
  Known := Unit
  known _ := ()
  use _ use := recallUse schema.predicates.signature use
  Leads _ _ := True
  calls _ := schema.predicates.RefersTo
  refl _ := trivial
  trans _ _ := trivial
  keeps _ _ _ h := h

lemma answers_knowing (schema : Schema) : (knowingRegime schema).Answers (knowing schema) := by
  intro name arity
  constructor
  · intro s k hk
    have hknows : schema.Knows (name, arity) := by
      rw [← recallUse_eq_ok (u := k)]
      simpa [knowingRegime] using hk
    rw [Schema.Knows, Table.lookup_signature] at hknows
    obtain ⟨h, hfound, harity⟩ := Option.map_eq_some_iff.mp hknows
    refine ⟨h, (), ?_, trivial, rfl, Table.refersTo_of_handleNamed? hfound, harity⟩
    rw [knowing, Schema.handleNamed?, hfound]
    simp only [usedWith, if_pos harity]
    rfl
  · intro s e he
    have herror : recallUse schema.predicates.signature (name, arity) = .error e := by
      simpa [knowingRegime] using he
    rw [recallUse, Table.lookup_signature] at herror
    rw [knowing, Schema.handleNamed?]
    cases hfound : schema.predicates.handleNamed? name with
    | none =>
        rw [hfound] at herror
        obtain rfl := Except.error.inj herror
        rfl
    | some h =>
        rw [hfound] at herror
        simp only [Option.map_some] at herror
        split at herror
        · cases herror
        · next hne =>
            obtain rfl := Except.error.inj herror
            simp only [usedWith, if_neg hne]
            rfl

end Source

/-! ### Clauses -/

namespace Clause

open Source

variable {schema : Schema} {text : String} {body : List Source.Literal} {e : SchemaError}

/-- A list of literals becomes a clause if the schema knows all uses in it. -/
lemma exists_ofText (hread : readAll literalList (withoutComments text.toList) = .ok body)
    (h : ∀ use ∈ body.flatMap Literal.uses, schema.Knows use) :
    ∃ c, ofText schema text = .ok c ∧ BodyDenotes schema.predicates.RefersTo body c := by
  obtain ⟨c, u, hstep, -, -, hc⟩ := (resolves_resolveBody (answers_knowing schema)
    (isListOf_of_readAll hread).1).ok (s := ()) (k := ()) (foldlM_recallUse_eq_ok.mpr h)
  refine ⟨c, ?_, hc⟩
  rw [ofText, hread]
  show (resolveBody (knowing schema) body ()).bind _ = _
  rw [hstep]
  rfl

/-- It is refused otherwise, for the first use that is not fine. -/
lemma ofText_of_refuses (hread : readAll literalList (withoutComments text.toList) = .ok body)
    (h : ∃ before use after, body.flatMap Literal.uses = before ++ use :: after ∧
      (∀ u ∈ before, schema.Knows u) ∧ schema.Refuses use e) :
    ofText schema text = .error e := by
  have hstep := (resolves_resolveBody (answers_knowing schema)
    (isListOf_of_readAll hread).1).error (s := ()) (foldlM_recallUse_eq_error.mpr h)
  rw [ofText, hread]
  show (resolveBody (knowing schema) body ()).bind _ = _
  rw [hstep]
  rfl

/-- Either all uses are fine, or one is the first that is not. -/
lemma knows_or_refuses (schema : Schema) (uses : List (String × Nat)) :
    (∀ use ∈ uses, schema.Knows use) ∨ ∃ e before use after, uses = before ++ use :: after ∧
      (∀ u ∈ before, schema.Knows u) ∧ schema.Refuses use e := by
  cases h : uses.foldlM (fun _ use => recallUse schema.predicates.signature use) () with
  | ok u => exact Or.inl (foldlM_recallUse_eq_ok.mp h)
  | error e => exact Or.inr ⟨e, foldlM_recallUse_eq_error.mp h⟩

variable (hread : readAll literalList (withoutComments text.toList) = .ok body)

include hread

/-- **A list of literals becomes a clause** iff the schema knows all uses in it. -/
theorem exists_ofText_iff : (∃ c, ofText schema text = .ok c) ↔
    ∀ use ∈ body.flatMap Literal.uses, schema.Knows use := by
  constructor
  · rintro ⟨c, hc⟩
    refine (knows_or_refuses schema _).resolve_right fun ⟨e, he⟩ => ?_
    cases hc.symm.trans (ofText_of_refuses hread he)
  · intro h
    obtain ⟨c, hc, -⟩ := exists_ofText hread h
    exact ⟨c, hc⟩

/-- **It is refused otherwise**, for the first use that is not fine. -/
theorem ofText_eq_error : ofText schema text = .error e ↔ ∃ before use after,
    body.flatMap Literal.uses = before ++ use :: after ∧ (∀ u ∈ before, schema.Knows u) ∧
      schema.Refuses use e := by
  refine ⟨fun h => ?_, ofText_of_refuses hread⟩
  rcases knows_or_refuses schema (body.flatMap Literal.uses) with hknows | ⟨e', he'⟩
  · obtain ⟨c, hc, -⟩ := exists_ofText hread hknows
    cases h.symm.trans hc
  · obtain rfl := Except.error.inj (h.symm.trans (ofText_of_refuses hread he'))
    exact he'

/-- The clause is what the literals denote. -/
theorem bodyDenotes_of_ofText {c : Clause} (h : ofText schema text = .ok c) :
    BodyDenotes schema.predicates.RefersTo body c := by
  obtain ⟨c', hc', hdenotes⟩ := exists_ofText hread ((exists_ofText_iff hread).mp ⟨c, h⟩)
  rwa [Except.ok.inj (h.symm.trans hc')]

end Clause

end DependencyTheory
