/-
The predicate names of statements, and what is known of them:

* `Atom.use`, `Literal.uses`, `Statement.uses`: the names with the numbers of terms they are used
  with, in the order in which they are read;
* `Table.signature`: the names of a table with their arities;
* `declareUse`, `declareUses`: what is known of names after a use, and after several;
* `ConsistentUses`: whether every name is used with one number of terms, which is just when all
  uses are fine (`exists_declareUses`, `consistentUses_of_nodup`);
* `declaring_of_ok`, `declaring_of_error`: looking a name up, and declaring it if need be, does
  this to the table, and nothing else.
-/
import DependencyTheory.Proofs.Schema.Integrity
import DependencyTheory.Source.Resolution

namespace DependencyTheory

/-! ### Uses -/

namespace Source

/-- The use of a predicate name in an atom, with a number of terms. -/
def Atom.use (a : Atom) : String × Nat := (a.predicate, a.terms.length)

/-- The uses in a literal, of which there is one at most. -/
def Literal.uses : Literal → List (String × Nat)
  | atom _ a => [a.use]
  | comparison _ _ _ => []
  | truth _ => []

/-- The uses in the head of a dependency. -/
def Head.uses : Head → List (String × Nat)
  | atoms as => as.map Atom.use
  | equality _ _ => []

/-- The uses in a statement, in the order in which names are looked up. -/
def Statement.uses : Statement → List (String × Nat)
  | rule head body => head.use :: body.flatMap Literal.uses
  | dependency body head => body.flatMap Literal.uses ++ head.uses

end Source

/-! ### Signatures -/

namespace Table

/-- The names of a table, with their arities. -/
def signature (table : Table) : List (String × Nat) := table.map fun p => (p.name, p.arity)

variable {table : Table} {h : Handle} {p : Predicate} {name : String}

/-- A name is looked up in a table as in its signature. -/
lemma lookup_signature :
    table.signature.lookup name = (table.handleNamed? name).map Handle.arity := by
  have hall : ∀ (table : Table) n, table.signature.lookup name =
      ((table.zipIdx n).find? fun q => q.1.name == name).map fun q => q.1.arity := by
    intro table
    induction table with
    | nil => exact fun _ => rfl
    | cons p rest ih =>
        intro n
        rw [signature, List.map_cons, List.lookup_cons, List.zipIdx_cons, List.find?_cons,
          BEq.comm (a := name)]
        cases p.name == name with
        | true => rfl
        | false => exact ih (n + 1)
  rw [hall table 0, handleNamed?, Option.map_map]
  rfl

end Table

/-! ### Steps that may be refused -/

/-- What is found of an answer shows that there is one. -/
lemma exists_of_map_eq_ok {ε α β : Type} {x : Except ε α} {f : α → β} {b : β}
    (h : x.map f = .ok b) : ∃ a, x = .ok a ∧ f a = b := by
  cases x with
  | error e => cases h
  | ok a => exact ⟨a, rfl, Except.ok.inj h⟩

/-- Steps that may be refused are refused at one of them, behind others that are not. -/
lemma foldlM_eq_error {α β ε : Type} {f : β → α → Except ε β} {as : List α} {b : β} {e : ε} :
    as.foldlM f b = .error e ↔ ∃ before a after b', as = before ++ a :: after ∧
      before.foldlM f b = .ok b' ∧ f b' a = .error e := by
  induction as generalizing b with
  | nil =>
      refine ⟨fun h => (nomatch h), fun ⟨before, a, after, _, hsplit, _⟩ => ?_⟩
      exact absurd hsplit.symm (List.append_ne_nil_of_right_ne_nil _ (List.cons_ne_nil _ _))
  | cons a as ih =>
      constructor
      · intro h
        rw [List.foldlM_cons] at h
        cases ha : f b a with
        | error e' =>
            rw [ha] at h
            exact ⟨[], a, as, b, rfl, rfl, ha.trans h⟩
        | ok c =>
            rw [ha] at h
            obtain ⟨before, a', after, b', rfl, hbefore, ha'⟩ := ih.mp h
            refine ⟨a :: before, a', after, b', rfl, ?_, ha'⟩
            rw [List.foldlM_cons, ha]
            exact hbefore
      · rintro ⟨before, a', after, b', hsplit, hbefore, ha'⟩
        rw [hsplit, List.foldlM_append, hbefore]
        show (a' :: after).foldlM f b' = _
        rw [List.foldlM_cons, ha']
        rfl

/-! ### Declaring -/

/-- What is known of names after one more use: a new name is put at the end with the number of
its terms, and an old one must have the number that is known. -/
def declareUse (known : List (String × Nat)) (use : String × Nat) :
    Except SchemaError (List (String × Nat)) :=
  match known.lookup use.1 with
  | some arity => if arity = use.2 then .ok known else .error (.arityMismatch arity use.2)
  | none => .ok (known ++ [use])

/-- What is known of names after several uses. -/
def declareUses (known uses : List (String × Nat)) : Except SchemaError (List (String × Nat)) :=
  uses.foldlM declareUse known

/-- Whether every name is used with one number of terms throughout. -/
def ConsistentUses (uses : List (String × Nat)) : Prop :=
  ∀ u ∈ uses, ∀ u' ∈ uses, u.1 = u'.1 → u.2 = u'.2

section

variable {known known' uses : List (String × Nat)} {use : String × Nat}

/-- A use is fine iff its name is known with this number of terms, or is new. -/
lemma declareUse_eq_ok : declareUse known use = .ok known' ↔
    known.lookup use.1 = some use.2 ∧ known' = known ∨
      known.lookup use.1 = none ∧ known' = known ++ [use] := by
  rw [declareUse]
  cases known.lookup use.1 with
  | none => simp [eq_comm]
  | some arity =>
      by_cases harity : arity = use.2
      · simp [harity, eq_comm]
      · simp [harity]

lemma declareUses_append (known uses uses' : List (String × Nat)) :
    declareUses known (uses ++ uses') =
      (declareUses known uses).bind fun k => declareUses k uses' :=
  List.foldlM_append

lemma declareUses_cons : declareUses known (use :: uses) = .ok known' ↔
    ∃ k, declareUse known use = .ok k ∧ declareUses k uses = .ok known' := by
  rw [declareUses, List.foldlM_cons]
  cases declareUse known use with
  | error e => exact ⟨fun h => (nomatch h), fun ⟨_, h, _⟩ => (nomatch h)⟩
  | ok k => exact ⟨fun h => ⟨k, rfl, h⟩, fun ⟨_, hk, h⟩ => Except.ok.inj hk ▸ h⟩

lemma mem_of_lookup {name : String} {arity : Nat} (h : known.lookup name = some arity) :
    (name, arity) ∈ known := by
  obtain ⟨_, _, rfl, -⟩ := List.lookup_eq_some_iff.mp h
  simp

/-- **What is known** are the uses. -/
lemma mem_declareUses (h : declareUses known uses = .ok known') (u : String × Nat) :
    u ∈ known' ↔ u ∈ known ∨ u ∈ uses := by
  induction uses generalizing known with
  | nil =>
      obtain rfl := Except.ok.inj h
      simp
  | cons use uses ih =>
      obtain ⟨k, hk, h⟩ := declareUses_cons.mp h
      rw [ih h, List.mem_cons]
      rcases declareUse_eq_ok.mp hk with ⟨hlookup, rfl⟩ | ⟨-, rfl⟩
      · have hmem := mem_of_lookup hlookup
        exact ⟨fun hu => hu.imp_right Or.inr, by rintro (hu | rfl | hu) <;> tauto⟩
      · rw [List.mem_append, List.mem_singleton, or_assoc]

/-- **Consistent uses are fine.** -/
lemma exists_declareUses (h : ConsistentUses (known ++ uses)) :
    ∃ known', declareUses known uses = .ok known' := by
  induction uses generalizing known with
  | nil => exact ⟨known, rfl⟩
  | cons use uses ih =>
      have huse : use ∈ known ++ use :: uses := by simp
      cases hlookup : known.lookup use.1 with
      | some arity =>
          obtain rfl : arity = use.2 :=
            h _ (List.mem_append_left _ (mem_of_lookup hlookup)) _ huse rfl
          have hrest : ConsistentUses (known ++ uses) := fun u hu u' hu' =>
            h u (by simp_all [or_left_comm]) u' (by simp_all [or_left_comm])
          obtain ⟨known', hknown'⟩ := ih hrest
          exact ⟨known', declareUses_cons.mpr
            ⟨known, declareUse_eq_ok.mpr (Or.inl ⟨hlookup, rfl⟩), hknown'⟩⟩
      | none =>
          have hrest : ConsistentUses (known ++ [use] ++ uses) := by
            rwa [List.append_assoc, List.singleton_append]
          obtain ⟨known', hknown'⟩ := ih hrest
          exact ⟨known', declareUses_cons.mpr
            ⟨_, declareUse_eq_ok.mpr (Or.inr ⟨hlookup, rfl⟩), hknown'⟩⟩

/-- Uses that leave one number of terms for each name are consistent. -/
lemma consistentUses_of_nodup (h : declareUses [] uses = .ok known)
    (hnodup : (known.map Prod.fst).Nodup) : ConsistentUses uses := by
  have hmem : ∀ u ∈ uses, u ∈ known := fun u hu => (mem_declareUses h u).mpr (Or.inr hu)
  intro u hu u' hu' hname
  rw [List.inj_on_of_nodup_map hnodup (hmem u hu) (hmem u' hu') hname]

end

namespace Builder

/-- Whether predicates are declared by a builder, without rules, and nothing else is changed. -/
structure Declares (b b' : Builder) : Prop where
  names : b.predicates.DistinctNames → b'.predicates.DistinctNames
  rows : ∃ new : Table, b'.predicates = b.predicates ++ new ∧ ∀ p ∈ new, p.rules = []
  dependencies : b'.dependencies = b.dependencies

variable {b b' b'' : Builder} {h : Handle} {name : String} {arity : Nat}

lemma Declares.refl (b : Builder) : b.Declares b :=
  ⟨id, ⟨[], (List.append_nil _).symm, fun _ hp => absurd hp List.not_mem_nil⟩, rfl⟩

lemma Declares.trans (h : b.Declares b') (h' : b'.Declares b'') : b.Declares b'' := by
  obtain ⟨new, hnew, hrules⟩ := h.rows
  obtain ⟨new', hnew', hrules'⟩ := h'.rows
  refine ⟨h'.names ∘ h.names, ⟨new ++ new', ?_, List.forall_mem_append.mpr ⟨hrules, hrules'⟩⟩, ?_⟩
  · rw [hnew', hnew, List.append_assoc]
  · exact h'.dependencies.trans h.dependencies

/-- Handles keep what they refer to. -/
lemma Declares.refersTo (hd : b.Declares b') (hh : b.predicates.RefersTo h name) :
    b'.predicates.RefersTo h name := by
  obtain ⟨new, hnew, -⟩ := hd.rows
  obtain ⟨p, hp, hname⟩ := hh
  obtain ⟨hrow, hrest⟩ := Table.get?_eq_some.mp hp
  refine ⟨p, Table.get?_eq_some.mpr ⟨?_, hrest⟩, hname⟩
  rw [hnew, List.getElem?_append_left (List.getElem?_eq_some_iff.mp hrow).1, hrow]

end Builder

namespace Source

variable {b : Builder} {known : List (String × Nat)} {name : String} {arity : Nat}

/-- **A name is looked up or declared** if it may be used like this. -/
lemma declaring_of_ok (h : declareUse b.predicates.signature (name, arity) = .ok known) :
    ∃ k b', declaring name arity b = .ok (k, b') ∧ b.Declares b' ∧
      b'.predicates.signature = known ∧ b'.predicates.RefersTo k name ∧ k.arity = arity := by
  rw [declareUse, Table.lookup_signature] at h
  cases hfound : b.predicates.handleNamed? name with
  | some k =>
      rw [hfound] at h
      simp only [Option.map_some] at h
      split at h
      · next harity =>
          refine ⟨k, b, ?_, .refl b, Except.ok.inj h, Table.refersTo_of_handleNamed? hfound, harity⟩
          rw [declaring, hfound]
          simp only [usedWith, if_pos harity]
          rfl
      · cases h
  | none =>
      rw [hfound] at h
      obtain rfl := Except.ok.inj h
      refine ⟨⟨b.issuer, b.predicates.length, arity⟩,
        { b with predicates := b.predicates ++ [⟨b.issuer, name, arity, []⟩] }, ?_,
        ⟨fun hb => hb.concat hfound, ⟨[⟨b.issuer, name, arity, []⟩], rfl, by simp⟩, rfl⟩, ?_,
        Table.refersTo_concat.mpr (Or.inr ⟨rfl, rfl⟩), rfl⟩
      · rw [declaring, hfound]
        exact Builder.declare_eq_ok.mpr ⟨hfound, rfl, rfl⟩
      · rw [Table.signature, List.map_append]
        rfl

/-- It is refused otherwise, for this reason. -/
lemma declaring_of_error {e : SchemaError}
    (h : declareUse b.predicates.signature (name, arity) = .error e) :
    declaring name arity b = .error e := by
  rw [declareUse, Table.lookup_signature] at h
  cases hfound : b.predicates.handleNamed? name with
  | some k =>
      rw [hfound] at h
      simp only [Option.map_some] at h
      split at h
      · cases h
      · next harity =>
          obtain rfl := Except.error.inj h
          rw [declaring, hfound]
          simp only [usedWith, if_neg harity]
          rfl
  | none =>
      rw [hfound] at h
      cases h

end Source

end DependencyTheory
