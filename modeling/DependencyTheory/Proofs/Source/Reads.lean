/-
Readers that read just the layouts of some token lists:

* `Reads`: a reader reads a value iff the text starts with a layout of tokens that spell the
  value, as long as what comes next is not mistaken for a part of it;
* `Reads.bind`, `Reads.orElse`, `Reads.sepBy1`, `Reads.many`, …: sequences, choices and
  repetitions of such readers are such readers.

An ordered choice is complete if an earlier reading does not succeed where a later one is
meant; since the earlier reader only reads layouts, this is a question about tokens.
-/
import DependencyTheory.Proofs.Source.Steps

namespace DependencyTheory.Source

variable {α β : Type} {a : α} {s r : List Char} {p q : Reader α}

/-! ### Readers of layouts -/

/-- Whether a reader reads a value just where the text starts with a layout of tokens that
spell it. Only before certain characters is it sure to end at the last token. -/
structure Reads (p : Reader α) (Spells : α → List Token → Prop) (Before : Option Char → Prop) :
    Prop where
  sound {s r : List Char} {a : α} : p s = .ok (a, r) → ∃ ks, Spells a ks ∧ Layout ks s r
  complete {s r : List Char} {a : α} {ks : List Token} :
    Spells a ks → Layout ks s r → Before (next? r) → p s = .ok (a, r)

namespace Reads

variable {G G' : α → List Token → Prop} {H : β → List Token → Prop} {F F' : Option Char → Prop}
  {ks : List Token} {ps : List (Reader α)}

lemma congr (h : Reads p G F) (hG : ∀ a ks, G' a ks ↔ G a ks) : Reads p G' F := by
  have he : G' = G := funext fun a => funext fun ks => propext (hG a ks)
  rwa [he]

lemma mono (h : Reads p G F) (hF : ∀ o, F' o → F o) : Reads p G F' :=
  ⟨h.sound, fun ha hks hr => h.complete ha hks (hF _ hr)⟩

/-! ### Single tokens -/

/-- A reader reads single tokens if it reads their texts, behind any blanks. -/
lemma of_tokens {T : α → Token → Prop}
    (hsound : ∀ {s r a}, p s = .ok (a, r) → ∃ k : Token, T a k ∧ k.Valid ∧
      s.dropWhile Text.isBlank = k.text ++ r ∧ k.KeepsOff r)
    (hcomplete : ∀ {k : Token} {s r a}, T a k → k.Valid → k.KeepsOff r → F (next? r) →
      s.dropWhile Text.isBlank = k.text ++ r → p s = .ok (a, r)) :
    Reads p (fun a ks => ∃ k, T a k ∧ ks = [k]) F := by
  constructor
  · intro s r a h
    obtain ⟨k, hT, hk, hs, hoff⟩ := hsound h
    exact ⟨[k], ⟨k, hT, rfl⟩, Layout.cons_iff.mpr ⟨hk, r, hs, hoff, .done⟩⟩
  · rintro s r a _ ⟨k, hT, rfl⟩ h hr
    obtain ⟨hk, s', hs, hoff, hrest⟩ := Layout.cons_iff.mp h
    obtain rfl := Layout.nil_iff.mp hrest
    exact hcomplete hT hk hoff hr hs

/-- The same where only one token spells a value. -/
lemma of_token {T : α → Token}
    (hsound : ∀ {s r a}, p s = .ok (a, r) → (T a).Valid ∧
      s.dropWhile Text.isBlank = (T a).text ++ r ∧ (T a).KeepsOff r)
    (hcomplete : ∀ {s r a}, (T a).Valid → (T a).KeepsOff r → F (next? r) →
      s.dropWhile Text.isBlank = (T a).text ++ r → p s = .ok (a, r)) :
    Reads p (fun a ks => ks = [T a]) F := by
  refine (of_tokens (T := fun a k => k = T a) (fun h => ⟨_, rfl, hsound h⟩) ?_).congr fun a ks => ?_
  · rintro _ s r a rfl
    exact hcomplete
  · rw [exists_eq_left]

/-- A step that reads a word other than `not` does so whatever comes next. -/
lemma mark {w : String} (hp : ∀ {s r a'}, p s = .ok (a', r) ↔ a' = a ∧ s = w.toList ++ r)
    (hw : w ∈ Token.words) (hnot : w ≠ "not") :
    Reads (Reader.token p) (fun a' ks => a' = a ∧ ks = [.word w]) fun _ => True := by
  refine (of_tokens (T := fun a' k => a' = a ∧ k = .word w) (fun h => ?_) ?_).congr fun a' ks => ?_
  · obtain ⟨rfl, hs⟩ := hp.mp h
    exact ⟨_, ⟨rfl, rfl⟩, hw, hs, fun he => absurd he hnot⟩
  · rintro k s r a' ⟨rfl, rfl⟩ - - - hs
    exact hp.mpr ⟨rfl, hs⟩
  · exact ⟨fun ⟨ha, hks⟩ => ⟨_, ⟨ha, rfl⟩, hks⟩, fun ⟨_, ⟨ha, hk⟩, hks⟩ => ⟨ha, hk ▸ hks⟩⟩

lemma word {w : String} (hw : w ∈ Token.words) (hnot : w ≠ "not") :
    Reads (Reader.token (Reader.word w)) (fun w' ks => w' = w ∧ ks = [.word w])
      fun _ => True :=
  mark Reader.word_eq_ok hw hnot

/-! ### Sequences and choices -/

lemma pure (a : α) : Reads (Pure.pure a) (fun a' ks => a' = a ∧ ks = []) F := by
  constructor
  · intro s r a' h
    obtain ⟨rfl, rfl⟩ := Reader.pure_eq_ok.mp h
    exact ⟨[], ⟨rfl, rfl⟩, .done⟩
  · rintro s r a' _ ⟨rfl, rfl⟩ h -
    exact Reader.pure_eq_ok.mpr ⟨rfl, (Layout.nil_iff.mp h).symm⟩

lemma map (h : Reads p G F) (f : α → β) :
    Reads (f <$> p) (fun b ks => ∃ a, G a ks ∧ b = f a) F := by
  constructor
  · intro s r b hb
    obtain ⟨a, ha, rfl⟩ := Reader.map_eq_ok.mp hb
    obtain ⟨ks, hG, hks⟩ := h.sound ha
    exact ⟨ks, ⟨a, hG, rfl⟩, hks⟩
  · rintro s r _ ks ⟨a, hG, rfl⟩ hks hr
    exact Reader.map_eq_ok.mpr ⟨a, h.complete hG hks hr, rfl⟩

/-- **One reader after the other.** The tokens of the second must not be mistaken for a part
of the first. -/
lemma bind {f : α → Reader β} {H : α → β → List Token → Prop} (hp : Reads p G F)
    (hf : ∀ a, Reads (f a) (H a) F')
    (hnext : ∀ {a b ks s r}, H a b ks → Layout ks s r → F' (next? r) → F (next? s)) :
    Reads (p >>= f) (fun b ks => ∃ a ks₁ ks₂, G a ks₁ ∧ H a b ks₂ ∧ ks = ks₁ ++ ks₂) F' := by
  constructor
  · intro s r b h
    obtain ⟨a, s', ha, hb⟩ := Reader.bind_eq_ok.mp h
    obtain ⟨ks₁, hG, h₁⟩ := hp.sound ha
    obtain ⟨ks₂, hH, h₂⟩ := (hf a).sound hb
    exact ⟨_, ⟨a, ks₁, ks₂, hG, hH, rfl⟩, Layout.append_iff.mpr ⟨s', h₁, h₂⟩⟩
  · rintro s r b _ ⟨a, ks₁, ks₂, hG, hH, rfl⟩ h hr
    obtain ⟨s', h₁, h₂⟩ := Layout.append_iff.mp h
    exact Reader.bind_eq_ok.mpr
      ⟨a, s', hp.complete hG h₁ (hnext hH h₂ hr), (hf a).complete hH h₂ hr⟩

/-- A mark, and then another reader. -/
lemma mark_bind {w : String} {f : α → Reader β}
    (hp : Reads p (fun a' ks => a' = a ∧ ks = [.word w]) fun _ => True)
    (hf : Reads (f a) H F') :
    Reads (p >>= f) (fun b ks => ∃ ks', H b ks' ∧ ks = .word w :: ks') F' := by
  constructor
  · intro s r b h
    obtain ⟨_, s', ha, hb⟩ := Reader.bind_eq_ok.mp h
    obtain ⟨_, ⟨rfl, rfl⟩, h₁⟩ := hp.sound ha
    obtain ⟨ks, hH, h₂⟩ := hf.sound hb
    exact ⟨_, ⟨ks, hH, rfl⟩, Layout.append_iff.mpr ⟨s', h₁, h₂⟩⟩
  · rintro s r b _ ⟨ks, hH, rfl⟩ h hr
    obtain ⟨s', h₁, h₂⟩ := Layout.append_iff.mp (show Layout ([.word w] ++ ks) s r from h)
    exact Reader.bind_eq_ok.mpr
      ⟨a, s', hp.complete ⟨rfl, rfl⟩ h₁ trivial, hf.complete hH h₂ hr⟩

/-- A reader and then a mark, with the value of the reader. -/
lemma bind_mark {w : String} {γ : Type} {q : Reader γ} {c : γ} (hp : Reads p G F)
    (hq : Reads q (fun c' ks => c' = c ∧ ks = [.word w]) fun _ => True) (hF : F w.toList.head?)
    (f : α → β) : Reads (do let a ← p; let _ ← q; return f a)
      (fun b ks => ∃ a ks', G a ks' ∧ b = f a ∧ ks = ks' ++ [.word w]) fun _ => True := by
  refine (hp.bind (fun a => hq.mark_bind (pure (f a))) ?_).congr fun b ks => ?_
  · rintro a b _ s r ⟨_, ⟨-, rfl⟩, rfl⟩ h -
    rwa [h.next?_eq]
  · constructor
    · rintro ⟨a, ks', hG, rfl, rfl⟩
      exact ⟨a, ks', _, hG, ⟨[], ⟨rfl, rfl⟩, rfl⟩, rfl⟩
    · rintro ⟨a, ks', _, hG, ⟨_, ⟨rfl, rfl⟩, rfl⟩, rfl⟩
      exact ⟨a, ks', hG, rfl, rfl⟩

/-- Two readers with a mark in between. -/
lemma bind_mark_bind {w : String} {γ δ : Type} {m : Reader γ} {c : γ} {q : Reader β}
    (hp : Reads p G F) (hm : Reads m (fun c' ks => c' = c ∧ ks = [.word w]) fun _ => True)
    (hq : Reads q H F') (hF : F w.toList.head?) (f : α → β → δ) :
    Reads (do let a ← p; let _ ← m; let b ← q; return f a b)
      (fun d ks => ∃ a b ks₁ ks₂, G a ks₁ ∧ H b ks₂ ∧ d = f a b ∧ ks = ks₁ ++ .word w :: ks₂)
      F' := by
  have hright : ∀ a, Reads (do let b ← q; return f a b) (fun d ks => ∃ b, H b ks ∧ d = f a b) F' :=
    fun a => hq.map (f a)
  refine (hp.bind (fun a => hm.mark_bind (hright a)) ?_).congr fun d ks => ?_
  · rintro a b _ s r ⟨_, -, rfl⟩ h -
    rwa [h.next?_eq]
  · constructor
    · rintro ⟨a, b, ks₁, ks₂, hG, hH, rfl, rfl⟩
      exact ⟨a, ks₁, _, hG, ⟨ks₂, ⟨b, hH, rfl⟩, rfl⟩, rfl⟩
    · rintro ⟨a, ks₁, _, hG, ⟨ks₂, ⟨b, hH, rfl⟩, rfl⟩, rfl⟩
      exact ⟨a, b, ks₁, ks₂, hG, hH, rfl, rfl⟩

lemma single (h : Reads p G F) : Reads (Reader.firstOf [p]) G F :=
  ⟨fun hs => h.sound (Reader.firstOf_singleton.mp hs),
    fun hG hks hr => Reader.firstOf_singleton.mpr (h.complete hG hks hr)⟩

/-- **One reader or another.** The first one must fail where the second is meant. -/
lemma orElse (hp : Reads p G F) (hq : Reads (Reader.firstOf (q :: ps)) G' F)
    (hfail : ∀ {s r r' a a' ks}, p s = .ok (a, r) → G' a' ks → Layout ks s r' →
      F (next? r') → False) :
    Reads (Reader.firstOf (p :: q :: ps)) (fun a ks => G a ks ∨ G' a ks) F := by
  constructor
  · intro s r a h
    rcases Reader.firstOf_cons.mp h with h | ⟨-, h⟩
    · obtain ⟨ks, hG, hks⟩ := hp.sound h
      exact ⟨ks, Or.inl hG, hks⟩
    · obtain ⟨ks, hG, hks⟩ := hq.sound h
      exact ⟨ks, Or.inr hG, hks⟩
  · rintro s r a ks (hG | hG) hks hr
    · exact Reader.firstOf_cons.mpr (Or.inl (hp.complete hG hks hr))
    · refine Reader.firstOf_cons.mpr (Or.inr ⟨fun out hout => ?_, hq.complete hG hks hr⟩)
      exact hfail hout hG hks hr

end Reads

/-! ### Lists with commas -/

/-- Whether tokens spell the items of a list that is not empty, with commas in between. -/
inductive Listed (G : α → List Token → Prop) : List α → List Token → Prop
  | one {a : α} {ks : List Token} (h : G a ks) : Listed G [a] ks
  | more {a : α} {as : List α} {ks ks' : List Token} (h : G a ks) (hmore : Listed G as ks') :
      Listed G (a :: as) (ks ++ .word "," :: ks')

/-- Whether tokens spell the items of a list, one after the other. -/
inductive InTurn (G : α → List Token → Prop) : List α → List Token → Prop
  | nil : InTurn G [] []
  | cons {a : α} {as : List α} {ks ks' : List Token} (h : G a ks) (hrest : InTurn G as ks') :
      InTurn G (a :: as) (ks ++ ks')

lemma InTurn.append {G : α → List Token → Prop} {as as' : List α} {ks ks' : List Token}
    (h : InTurn G as ks) (h' : InTurn G as' ks') : InTurn G (as ++ as') (ks ++ ks') := by
  induction h with
  | nil => exact h'
  | cons h _ ih =>
      rw [List.append_assoc]
      exact .cons h ih

namespace Reads

variable {G : α → List Token → Prop} {F F' : Option Char → Prop} {as : List α} {ks : List Token}

/-- The comma between two items. -/
lemma comma : Reads (Reader.token (Reader.word ",")) (fun w ks => w = "," ∧ ks = [.word ","])
    fun _ => True :=
  word (by decide) (by decide)

/-- Without a comma, there is no further item. -/
lemma moreItems_of_next? (hs : next? s ≠ some ',') :
    Reader.moreItems (Reader.token (Reader.word ",")) p s = ([], s) := by
  rw [Reader.moreItems]
  split
  · rfl
  · next w s' h =>
      obtain ⟨_, ⟨-, rfl⟩, h⟩ := comma.sound h
      exact absurd h.next?_eq hs

/-- A comma and an item are read from a layout of both. -/
lemma layout_of_comma (h : Reads p G F) {w : String} {s' : List Char}
    (hcomma : Reader.token (Reader.word ",") s = .ok (w, s')) (hitem : p s' = .ok (a, r)) :
    ∃ ks, G a ks ∧ Layout (.word "," :: ks) s r := by
  obtain ⟨_, ⟨-, rfl⟩, hs⟩ := comma.sound hcomma
  obtain ⟨ks, hG, hks⟩ := h.sound hitem
  exact ⟨ks, hG, Layout.append_iff.mpr ⟨s', hs, hks⟩⟩

lemma layout_of_moreItems (h : Reads p G F) :
    Reader.moreItems (Reader.token (Reader.word ",")) p s = (as, r) →
      as = [] ∧ s = r ∨ ∃ ks, Listed G as ks ∧ Layout (.word "," :: ks) s r := by
  fun_induction Reader.moreItems (Reader.token (Reader.word ",")) p s generalizing as r with
  | case1 s trace hcomma =>
      rintro ⟨⟩
      exact Or.inl ⟨rfl, rfl⟩
  | case2 s w s₁ hcomma trace hitem =>
      rintro ⟨⟩
      exact Or.inl ⟨rfl, rfl⟩
  | case3 s w s₁ hcomma a s₂ hitem hshorter as' left hmore ih =>
      rintro ⟨⟩
      obtain ⟨ks, hG, hks⟩ := h.layout_of_comma hcomma hitem
      rcases ih hmore with ⟨rfl, rfl⟩ | ⟨ks', hlisted, hks'⟩
      · exact Or.inr ⟨ks, .one hG, hks⟩
      · exact Or.inr ⟨_, .more hG hlisted, Layout.append_iff.mpr ⟨s₂, hks, hks'⟩⟩
  | case4 s w s₁ hcomma a s₂ hitem hshorter =>
      rintro ⟨⟩
      obtain ⟨ks, hG, hks⟩ := h.layout_of_comma hcomma hitem
      exact Or.inr ⟨ks, .one hG, hks⟩

/-- Where an item is laid out behind a comma, it is read, and so are those behind it. -/
lemma moreItems_cons (h : Reads p G F) {s' : List Char} (hG : G a ks)
    (hks : Layout (.word "," :: ks) s s') (hnext : F (next? s')) :
    Reader.moreItems (Reader.token (Reader.word ",")) p s =
      (a :: (Reader.moreItems (Reader.token (Reader.word ",")) p s').1,
        (Reader.moreItems (Reader.token (Reader.word ",")) p s').2) := by
  obtain ⟨s₁, hcomma, hitem⟩ := Layout.append_iff.mp (show Layout ([.word ","] ++ ks) s s' from hks)
  conv_lhs => rw [Reader.moreItems]
  rw [comma.complete ⟨rfl, rfl⟩ hcomma trivial]
  simp only [h.complete hG hitem hnext, if_pos hks.length_lt]

lemma moreItems_of_layout (h : Reads p G F) (hcomma : F (some ',')) (hlisted : Listed G as ks) :
    ∀ {s}, Layout (.word "," :: ks) s r → F (next? r) → next? r ≠ some ',' →
      Reader.moreItems (Reader.token (Reader.word ",")) p s = (as, r) := by
  induction hlisted with
  | one hG =>
      intro s hs hnext hend
      rw [h.moreItems_cons hG hs hnext, moreItems_of_next? hend]
  | @more a as ks₁ ks₂ hG hmore ih =>
      intro s hs hnext hend
      obtain ⟨s', hs', hrest⟩ := Layout.append_iff.mp
        (show Layout ((.word "," :: ks₁) ++ .word "," :: ks₂) s r from hs)
      have hnext' : F (next? s') := by
        rw [hrest.next?_eq]
        exact hcomma
      rw [h.moreItems_cons hG hs' hnext', ih hrest hnext hend]

/-- **Items with commas in between.** They go on as long as there is a comma. -/
lemma sepBy1 (h : Reads p G F) (hcomma : F (some ',')) :
    Reads (Reader.sepBy1 (Reader.token (Reader.word ",")) p) (Listed G)
      fun c => F c ∧ c ≠ some ',' := by
  constructor
  · intro s r as hs
    obtain ⟨a, as', s', ha, rfl, hmore⟩ := Reader.sepBy1_eq_ok.mp hs
    obtain ⟨ks, hG, hks⟩ := h.sound ha
    rcases h.layout_of_moreItems hmore with ⟨rfl, rfl⟩ | ⟨ks', hlisted, hks'⟩
    · exact ⟨ks, .one hG, hks⟩
    · exact ⟨_, .more hG hlisted, Layout.append_iff.mpr ⟨s', hks, hks'⟩⟩
  · rintro s r as ks hlisted hks ⟨hnext, hend⟩
    cases hlisted with
    | one hG =>
        exact Reader.sepBy1_eq_ok.mpr
          ⟨_, [], r, h.complete hG hks hnext, rfl, moreItems_of_next? hend⟩
    | @more a as ks₁ ks₂ hG hmore =>
        obtain ⟨s', hs', hrest⟩ := Layout.append_iff.mp hks
        have hnext' : F (next? s') := by
          rw [hrest.next?_eq]
          exact hcomma
        exact Reader.sepBy1_eq_ok.mpr ⟨a, as, s', h.complete hG hs' hnext', rfl,
          h.moreItems_of_layout hcomma hmore hrest hnext hend⟩

/-- **Items with commas in between, or none at all.** -/
lemma sepBy (h : Reads p G F) (hcomma : F (some ',')) (hF : ∀ {c}, F' c → F c ∧ c ≠ some ',')
    (hnone : ∀ {s a r}, p s = .ok (a, r) → ¬F' (next? s)) :
    Reads (Reader.sepBy (Reader.token (Reader.word ",")) p)
      (fun as ks => as = [] ∧ ks = [] ∨ Listed G as ks) F' := by
  constructor
  · intro s r as hs
    rcases Reader.sepBy_eq_ok.mp hs with hs | ⟨rfl, rfl, -⟩
    · obtain ⟨ks, hlisted, hks⟩ := (h.sepBy1 hcomma).sound hs
      exact ⟨ks, Or.inr hlisted, hks⟩
    · exact ⟨[], Or.inl ⟨rfl, rfl⟩, .done⟩
  · rintro s r as ks (⟨rfl, rfl⟩ | hlisted) hks hr
    · obtain rfl := Layout.nil_iff.mp hks
      refine Reader.sepBy_eq_ok.mpr (Or.inr ⟨rfl, rfl, fun ⟨as, r⟩ hout => ?_⟩)
      obtain ⟨a, -, s', ha, -, -⟩ := Reader.sepBy1_eq_ok.mp hout
      exact hnone ha hr
    · exact Reader.sepBy_eq_ok.mpr (Or.inl ((h.sepBy1 hcomma).complete hlisted hks (hF hr)))

/-! ### Repetitions -/

lemma layout_of_manyFrom (h : Reads p G F) :
    Reader.manyFrom p s = (as, r) → ∃ ks, InTurn G as ks ∧ Layout ks s r := by
  fun_induction Reader.manyFrom p s generalizing as r with
  | case1 s trace hitem =>
      rintro ⟨⟩
      exact ⟨[], .nil, .done⟩
  | case2 s a s' hitem hshorter as' left hmore ih =>
      rintro ⟨⟩
      obtain ⟨ks, hG, hks⟩ := h.sound hitem
      obtain ⟨ks', hinturn, hks'⟩ := ih hmore
      exact ⟨ks ++ ks', .cons hG hinturn, Layout.append_iff.mpr ⟨s', hks, hks'⟩⟩
  | case3 s a s' hitem hshorter =>
      rintro ⟨⟩
      obtain ⟨ks, hG, hks⟩ := h.sound hitem
      exact ⟨ks ++ [], .cons hG .nil, Layout.append_iff.mpr ⟨s', hks, .done⟩⟩

/-- **Items one after the other**, up to the end of the text. -/
lemma many (h : Reads p G fun _ => True) (hne : ∀ {a ks}, G a ks → ks ≠ []) :
    Reads (Reader.many p) (InTurn G) fun c => c = none := by
  constructor
  · intro s r as hs
    exact h.layout_of_manyFrom (Except.ok.inj hs)
  · intro s r as ks hinturn hks hr
    refine congrArg Except.ok ?_
    induction hinturn generalizing s with
    | nil =>
        obtain rfl := Layout.nil_iff.mp hks
        rw [Reader.manyFrom]
        split
        · rfl
        · next a s' hitem =>
            obtain ⟨ks, hG, hks⟩ := h.sound hitem
            obtain ⟨k, ks, rfl⟩ := List.exists_cons_of_ne_nil (hne hG)
            obtain ⟨c, rest, htext, -⟩ := (Layout.cons_iff.mp hks).1.exists_first
            rw [hks.next?_eq, htext] at hr
            cases hr
    | @cons a as ks₁ ks₂ hG hrest ih =>
        obtain ⟨s', hs', hks'⟩ := Layout.append_iff.mp hks
        obtain ⟨k, ks, rfl⟩ := List.exists_cons_of_ne_nil (hne hG)
        rw [Reader.manyFrom, h.complete hG hs' trivial]
        simp only [if_pos hs'.length_lt, ih hks']

/-- **A whole text is read** iff it is a layout with nothing but blanks behind. -/
lemma ended (h : Reads p G (· = none)) : Reader.ended p s = .ok (a, []) ↔
    ∃ ks rest, G a ks ∧ Layout ks s rest ∧ ∀ c ∈ rest, Text.isBlank c = true := by
  rw [Reader.ended_eq_ok, and_iff_right rfl]
  simp only [← Reader.next?_eq_none]
  constructor
  · rintro ⟨rest, hread, hrest⟩
    obtain ⟨ks, hG, hks⟩ := h.sound hread
    exact ⟨ks, rest, hG, hks, hrest⟩
  · rintro ⟨ks, rest, hG, hks, hrest⟩
    exact ⟨rest, h.complete hG hks hrest, hrest⟩

end Reads

end DependencyTheory.Source
