/-
Schemas all of whose references are in order:

* `Builder.declare_eq_ok`, `Builder.addRule_eq_ok`: when a step of a builder succeeds, and what
  it does;
* `Builder.Sound`: whether a builder has distinct names and rules with heads of the right
  length, which every step keeps;
* `Schema.Intact`: whether names are distinct and looked up right, and every atom is over a
  declared predicate with as many places as it has terms;
* `Builder.Sound.intact`: what a sound builder builds is intact.

References are checked when a schema is built and names when they are declared, so the two
halves of an intact schema come from different steps.
-/
import DependencyTheory.Proofs.Schema.Build
import DependencyTheory.Proofs.Schema.Table

namespace DependencyTheory

/-! ### Steps of a builder -/

namespace Builder

variable {b b' : Builder} {name : String} {arity : Nat} {h : Handle} {rule : Rule}

/-- A predicate is declared iff its name is not taken. -/
lemma declare_eq_ok : b.declare name arity = .ok (h, b') ↔
    b.predicates.handleNamed? name = none ∧ h = ⟨b.issuer, b.predicates.length, arity⟩ ∧
      b' = { b with predicates := b.predicates ++ [⟨b.issuer, name, arity, []⟩] } := by
  rw [declare]
  split
  · next k hk => simp [hk]
  · next hnone => simp [hnone, eq_comm]

/-- A rule is added iff its predicate is declared and its head has the right length. -/
lemma addRule_eq_ok : b.addRule h rule = .ok b' ↔
    b.predicates.owns h = true ∧ rule.head.length = h.arity ∧
      b' = { b with predicates := b.predicates.modify h.index fun p =>
        { p with rules := p.rules ++ [rule] } } := by
  rw [addRule, requireOwned]
  by_cases howns : b.predicates.owns h = true
  · rw [if_pos howns, and_iff_right howns]
    show (if rule.head.length = h.arity then Except.ok _ else Except.error _) = _ ↔ _
    split
    · next hlength => rw [and_iff_right hlength, Except.ok.injEq, eq_comm]
    · next hlength => exact ⟨fun he => (nomatch he), fun he => absurd he.1 hlength⟩
  · rw [if_neg howns]
    exact ⟨fun he => (nomatch he), fun he => absurd he.1 howns⟩

/-- Whether names are distinct, and the heads of rules fit their predicates. -/
structure Sound (b : Builder) : Prop where
  names : b.predicates.DistinctNames
  heads : ∀ p ∈ b.predicates, ∀ r ∈ p.rules, r.head.length = p.arity

lemma sound_new (issuer : Nat) : (new issuer).Sound :=
  ⟨List.nodup_nil, fun _ hp => absurd hp List.not_mem_nil⟩

/-- **Declaring a predicate keeps a builder sound.** -/
lemma Sound.declare (hb : b.Sound) (hd : b.declare name arity = .ok (h, b')) : b'.Sound := by
  obtain ⟨hnew, -, rfl⟩ := declare_eq_ok.mp hd
  refine ⟨hb.names.concat hnew, fun p hp r hr => ?_⟩
  rcases List.mem_append.mp hp with hp | hp
  · exact hb.heads p hp r hr
  · rw [List.mem_singleton.mp hp] at hr
    exact absurd hr List.not_mem_nil

/-- **Adding a rule keeps a builder sound.** -/
lemma Sound.addRule (hb : b.Sound) (ha : b.addRule h rule = .ok b') : b'.Sound := by
  obtain ⟨howns, hlength, rfl⟩ := addRule_eq_ok.mp ha
  refine ⟨hb.names.modify fun _ => rfl, fun p hp r hr => ?_⟩
  obtain ⟨i, hi⟩ := List.mem_iff_getElem?.mp hp
  rw [List.getElem?_modify] at hi
  obtain ⟨q, hq, rfl⟩ := Option.map_eq_some_iff.mp hi
  have hmem : q ∈ b.predicates := List.mem_of_getElem? hq
  split at hr
  · next hindex =>
      obtain ⟨p, hp⟩ := Option.isSome_iff_exists.mp howns
      obtain ⟨hrow, -, harity⟩ := Table.get?_eq_some.mp hp
      obtain rfl : p = q := Option.some.inj (hrow.symm.trans (hindex ▸ hq))
      rw [if_pos hindex]
      rcases List.mem_append.mp hr with hr | hr
      · exact hb.heads p hmem r hr
      · rw [List.mem_singleton.mp hr, hlength]
        exact harity.symm
  · next hindex =>
      rw [if_neg hindex]
      exact hb.heads q hmem r hr

/-- Adding dependencies keeps a builder sound, since they are checked later. -/
lemma Sound.addDependencies (hb : b.Sound) (ds : List Dependency) : (b.addDependencies ds).Sound :=
  ⟨hb.names, hb.heads⟩

end Builder

/-! ### Intact schemas -/

namespace Schema

/-- Whether an atom is over a declared predicate, with as many terms as this has places. -/
def Resolves (s : Schema) (a : Atom) : Prop :=
  s.owns a.predicate = true ∧ ∃ p, s.get? a.predicate = some p ∧ a.terms.length = p.arity

/-- Whether a body has a literal, and all its atoms resolve. -/
def ResolvesBody (s : Schema) (c : Clause) : Prop :=
  c.literals ≠ [] ∧ ∀ positive a, .ordinary positive a ∈ c.literals → s.Resolves a

/-- Whether a schema is in order as regards its references: names are distinct and looked up
right, the atoms of all bodies and heads resolve, and the heads of rules have as many terms
as their predicates have places. -/
structure Intact (s : Schema) : Prop where
  names : (s.predicates.map Predicate.name).Nodup
  named : ∀ name h, s.handleNamed? name = some h ↔ ∃ p, s.get? h = some p ∧ p.name = name
  declared : ∀ p ∈ s.predicates, ∃ h, s.handleNamed? p.name = some h ∧ s.get? h = some p
  rules : ∀ p ∈ s.predicates, ∀ r ∈ p.rules, r.head.length = p.arity ∧ s.ResolvesBody r.body
  bodies : ∀ d ∈ s.dependencies, s.ResolvesBody d.body
  heads : ∀ t ∈ s.tgds, t.head ≠ [] ∧ ∀ a ∈ t.head, s.Resolves a

variable {s : Schema}

/-- An atom over a predicate of the schema resolves, since it fits its handle. -/
lemma resolves_of_owns {a : Atom} (h : s.owns a.predicate = true) : s.Resolves a := by
  obtain ⟨p, hp⟩ := Option.isSome_iff_exists.mp h
  exact ⟨h, p, hp, a.fits.trans (arity_of_get? hp).symm⟩

lemma resolvesBody_of_owns {c : Clause} (h : ∀ k ∈ c.predicates, s.owns k = true) :
    s.ResolvesBody c := by
  refine ⟨c.nonempty, fun positive a ha => resolves_of_owns (h _ ?_)⟩
  exact List.mem_filterMap.mpr ⟨_, ha, rfl⟩

end Schema

/-- **What a sound builder builds is intact.** -/
theorem Builder.Sound.intact {b : Builder} {s : Schema} (hb : b.Sound) (hs : b.build = .ok s) :
    s.Intact := by
  obtain ⟨hreferences, rfl⟩ := Builder.build_eq_ok.mp hs
  have hdependency : ∀ d ∈ b.dependencies, ∀ h ∈ d.predicates, b.predicates.owns h = true :=
    fun d hd h hh =>
      hreferences h (List.mem_append_right _ (List.mem_flatMap.mpr ⟨d, hd, hh⟩))
  refine
    { names := hb.names
      named := fun name h => Table.handleNamed?_eq_some hb.names
      declared := fun p hp => Table.exists_handleNamed? hb.names hp
      rules := fun p hp r hr =>
        ⟨hb.heads p hp r hr, Schema.resolvesBody_of_owns fun h hh => hreferences h ?_⟩
      bodies := fun d hd => Schema.resolvesBody_of_owns fun h hh => hdependency d hd h ?_
      heads := fun t ht => ⟨t.nonempty, fun a ha => Schema.resolves_of_owns ?_⟩ }
  · exact List.mem_append_left _
      (List.mem_flatMap.mpr ⟨p, hp, List.mem_flatMap.mpr ⟨r, hr, hh⟩⟩)
  · cases d with
    | tgd t => exact List.mem_append_left _ hh
    | egd e => exact hh
  · refine hdependency (.tgd t) (Schema.mem_tgds.mp ht) a.predicate ?_
    exact List.mem_append_right _ (List.mem_map_of_mem ha)

/-- A builder over the table of an intact schema is sound. -/
lemma Schema.Intact.sound_reopen {s : Schema} (hs : s.Intact) (issuer : Nat) :
    (s.reopen issuer).Sound :=
  ⟨hs.names, fun p hp r hr => (hs.rules p hp r hr).1⟩

/-- An intact schema stays so with other dependencies. -/
lemma Schema.Intact.withDependencies {s s' : Schema} {ds : List Dependency} (hs : s.Intact)
    (h : s.withDependencies ds = .ok s') : s'.Intact :=
  Builder.Sound.intact (b := (s.reopen 0).addDependencies ds)
    ⟨hs.names, fun p hp r hr => (hs.rules p hp r hr).1⟩ h

end DependencyTheory
