/-
When the steps of a reader succeed, and what they leave:

* `Reader.bind_eq_ok`, `Reader.map_eq_ok`: sequences;
* `Reader.word_eq_ok`, `Reader.oneOf_eq_ok`, `Reader.takeWhile_eq_ok`, …: basic steps;
* `Reader.firstOf_cons`, `Reader.optional_eq_ok`, `Reader.sepBy_eq_ok`: choices and lists;
* `Reader.ended_eq_ok`: a whole text.
-/
import DependencyTheory.Proofs.Source.Layout

namespace DependencyTheory.Source

variable {α β : Type} {a a' : α} {b : β} {s r : List Char} {p q : Reader α}

namespace Reader

/-- A sequence succeeds iff its second step does where the first one stopped. -/
lemma bind_eq_ok {f : α → Reader β} : (p >>= f) s = .ok (b, r) ↔
    ∃ a s', p s = .ok (a, s') ∧ f a s' = .ok (b, r) := by
  show ((p s).bind fun out => f out.1 out.2) = .ok (b, r) ↔ _
  cases p s with
  | error trace => exact ⟨fun h => (nomatch h), fun ⟨_, _, h, _⟩ => (nomatch h)⟩
  | ok out =>
      refine ⟨fun h => ⟨out.1, out.2, rfl, h⟩, fun ⟨a, s', hout, h⟩ => ?_⟩
      obtain rfl := Except.ok.inj hout
      exact h

/-- A value that is given at once leaves the text as it is. -/
lemma pure_eq_ok : (pure a : Reader α) s = .ok (a', r) ↔ a' = a ∧ r = s := by
  show Except.ok (a, s) = .ok (a', r) ↔ _
  rw [Except.ok.injEq, Prod.mk.injEq, eq_comm, @eq_comm _ s]

/-- What is made of a value is read wherever the value is. -/
lemma map_eq_ok {f : α → β} : (f <$> p) s = .ok (b, r) ↔ ∃ a, p s = .ok (a, r) ∧ b = f a := by
  show (p >>= fun a => pure (f a)) s = .ok (b, r) ↔ _
  simp only [bind_eq_ok, pure_eq_ok]
  constructor
  · rintro ⟨a, s', h, rfl, rfl⟩
    exact ⟨a, h, rfl⟩
  · rintro ⟨a, h, rfl⟩
    exact ⟨a, r, h, rfl, rfl⟩

/-- A token is read behind the blanks in front of it. -/
lemma token_eq : token p s = p (s.dropWhile Text.isBlank) := rfl

/-- A fixed word is read iff the text starts with it. -/
lemma word_eq_ok {w w' : String} :
    word w s = .ok (w', r) ↔ w' = w ∧ s = w.toList ++ r := by
  rw [word]
  split
  · next h =>
      obtain ⟨rest, rfl⟩ := List.isPrefixOf_iff_prefix.mp h
      simp [eq_comm]
  · next h =>
      refine ⟨fun he => (nomatch he), fun ⟨_, hs⟩ => absurd ?_ h⟩
      exact List.isPrefixOf_iff_prefix.mpr ⟨r, hs.symm⟩

variable {sought : Expectation} {test : Char → Bool} {c : Char} {cs : List Char}

/-- One character is read iff it is there and passes the test. -/
lemma oneOf_eq_ok : oneOf sought test s = .ok (c, r) ↔ s = c :: r ∧ test c = true := by
  cases s with
  | nil => exact ⟨fun h => (nomatch h), fun h => (nomatch h.1)⟩
  | cons d s =>
      rw [oneOf]
      split
      · next h =>
          rw [Except.ok.injEq, Prod.mk.injEq, List.cons.injEq, iff_self_and]
          rintro ⟨rfl, -⟩
          exact h
      · next h =>
          refine ⟨fun he => (nomatch he), fun ⟨hs, hc⟩ => absurd ?_ h⟩
          obtain ⟨rfl, -⟩ := List.cons.inj hs
          exact hc

/-- The first characters that pass a test are as many as do in a row. -/
lemma takeWhile_dropWhile_iff : s.takeWhile test = cs ∧ s.dropWhile test = r ↔
    s = cs ++ r ∧ (∀ c ∈ cs, test c = true) ∧ ∀ c ∈ r.head?, test c = false := by
  constructor
  · rintro ⟨rfl, rfl⟩
    refine ⟨List.takeWhile_append_dropWhile.symm, fun c hc => List.mem_takeWhile_imp hc, ?_⟩
    intro c hc
    have hnot := List.head?_dropWhile_not test s
    rw [Option.mem_def.mp hc] at hnot
    simpa using hnot
  · rintro ⟨rfl, hcs, hr⟩
    rw [List.takeWhile_append_of_pos hcs, List.dropWhile_append_of_pos hcs]
    cases r with
    | nil => simp
    | cons d r => simp [hr d rfl]

/-- As many characters as pass a test are read, even if there are none. -/
lemma takeWhile_eq_ok : takeWhile test s = .ok (cs, r) ↔
    s = cs ++ r ∧ (∀ c ∈ cs, test c = true) ∧ ∀ c ∈ r.head?, test c = false := by
  rw [takeWhile, Except.ok.injEq, Prod.mk.injEq, takeWhile_dropWhile_iff]

/-- As many characters as pass a test are read if there is one. -/
lemma span1_eq_ok : span1 sought test s = .ok (cs, r) ↔
    s = cs ++ r ∧ cs ≠ [] ∧ (∀ c ∈ cs, test c = true) ∧ ∀ c ∈ r.head?, test c = false := by
  have hspan : span1 sought test s = .ok (cs, r) ↔
      cs ≠ [] ∧ s.takeWhile test = cs ∧ s.dropWhile test = r := by
    rw [span1]
    split
    · next h =>
        rw [h]
        exact ⟨fun he => (nomatch he), fun ⟨hne, he, _⟩ => absurd he.symm hne⟩
    · next d ds h =>
        rw [h, Except.ok.injEq, Prod.mk.injEq, iff_and_self]
        rintro ⟨rfl, -⟩
        exact List.cons_ne_nil d ds
  rw [hspan, takeWhile_dropWhile_iff]
  tauto

/-- What may be missing is read, or it cannot be read and the text stays as it is. -/
lemma optional_eq_ok {o : Option α} : optional p s = .ok (o, r) ↔
    (∃ a, o = some a ∧ p s = .ok (a, r)) ∨ o = none ∧ r = s ∧ ∀ out, p s ≠ .ok out := by
  rw [optional]
  cases p s with
  | error trace => simp [eq_comm]
  | ok out =>
      obtain ⟨a, r'⟩ := out
      simp [eq_comm]

/-- A step that looks ahead succeeds iff the other one fails, and never moves on. -/
lemma notFollowedBy_eq_ok : notFollowedBy p s = .ok ((), r) ↔ r = s ∧ ∀ out, p s ≠ .ok out := by
  rw [notFollowedBy]
  cases p s with
  | error trace => simp [eq_comm]
  | ok out => simp [miss]

/-- A later alternative is read only if the first one fails. -/
lemma firstOf_cons {ps : List (Reader α)} : firstOf (p :: q :: ps) s = .ok (a, r) ↔
    p s = .ok (a, r) ∨ (∀ out, p s ≠ .ok out) ∧ firstOf (q :: ps) s = .ok (a, r) := by
  simp only [firstOf]
  cases p s with
  | error trace => simp
  | ok out => simp

lemma firstOf_singleton : firstOf [p] s = .ok (a, r) ↔ p s = .ok (a, r) := by
  simp only [firstOf]
  cases p s with
  | error trace => simp
  | ok out => simp

/-- A list that is not empty is one member and as many more as can be read. -/
lemma sepBy1_eq_ok {sep : Reader β} {as : List α} : sepBy1 sep p s = .ok (as, r) ↔
    ∃ a as' s', p s = .ok (a, s') ∧ as = a :: as' ∧ moreItems sep p s' = (as', r) := by
  simp only [sepBy1, bind_eq_ok, pure_eq_ok, Except.ok.injEq]
  constructor
  · rintro ⟨a, s', ha, as', s'', hmore, rfl, rfl⟩
    exact ⟨a, as', s', ha, rfl, hmore⟩
  · rintro ⟨a, as', s', ha, rfl, hmore⟩
    exact ⟨a, s', ha, as', r, hmore, rfl, rfl⟩

/-- A list that may be empty is read as one that is not, if there is one. -/
lemma sepBy_eq_ok {sep : Reader β} {as : List α} : sepBy sep p s = .ok (as, r) ↔
    sepBy1 sep p s = .ok (as, r) ∨
      as = [] ∧ r = s ∧ ∀ out, sepBy1 sep p s ≠ .ok out := by
  simp only [sepBy, bind_eq_ok, pure_eq_ok, optional_eq_ok]
  constructor
  · rintro ⟨_, _, ⟨as, rfl, h⟩ | ⟨rfl, rfl, h⟩, rfl, rfl⟩
    · exact Or.inl h
    · exact Or.inr ⟨rfl, rfl, h⟩
  · rintro (h | ⟨rfl, rfl, h⟩)
    · exact ⟨_, _, Or.inl ⟨as, rfl, h⟩, rfl, rfl⟩
    · exact ⟨_, _, Or.inr ⟨rfl, rfl, h⟩, rfl, rfl⟩

/-- Nothing is next iff there is nothing but blanks. -/
lemma next?_eq_none : next? s = none ↔ ∀ c ∈ s, Text.isBlank c = true := by
  rw [next?, List.head?_eq_none_iff, List.dropWhile_eq_nil_iff]

/-- **A whole text is read** iff nothing but blanks is left behind what is read. -/
lemma ended_eq_ok :
    ended p s = .ok (a, r) ↔ r = [] ∧ ∃ s', p s = .ok (a, s') ∧ next? s' = none := by
  have heof : ∀ {s' s'' : List Char} {u : Unit}, eof s' = .ok (u, s'') ↔
      s'' = [] ∧ s' = [] := by
    intro s' s'' u
    cases s' with
    | nil => simp [eof, eq_comm]
    | cons c s' => simp [eof, miss]
  have hblanks : ∀ {s' s'' : List Char} {u : Unit}, blanks s' = .ok (u, s'') ↔
      s'' = s'.dropWhile Text.isBlank := by simp [blanks, eq_comm]
  simp only [ended, bind_eq_ok, pure_eq_ok, hblanks, heof, next?, List.head?_eq_none_iff]
  constructor
  · rintro ⟨a, s₁, hp, _, s₂, rfl, _, s₃, ⟨rfl, hnil⟩, rfl, rfl⟩
    exact ⟨rfl, s₁, hp, hnil⟩
  · rintro ⟨rfl, s', hp, hnil⟩
    exact ⟨a, s', hp, (), _, rfl, (), [], ⟨rfl, hnil⟩, rfl, rfl⟩

end Reader

end DependencyTheory.Source
