/-
Looking names up in turn:

* `Regime`: ways to look names up, which differ in what is known and what a use adds to that;
* `Regime.Resolves`: the steps that look up some uses in turn and find what is denoted, with
  `Regime.Resolves.bind`, `Regime.Resolves.check` and `Regime.Resolves.mapM` for steps made of
  others;
* `answers_declaring`: builders, which declare new names;
* `Atom.resolves`, `Literal.resolves`, `resolves_resolveBody`: atoms, literals and bodies are
  resolved in any regime.
-/
import DependencyTheory.Proofs.Source.Denotation
import DependencyTheory.Proofs.Source.Uses

namespace DependencyTheory.Source

variable {body : List Literal}

/-! ### Regimes -/

/-- A way to look names up: what is known of them in a state, what one more use makes of that,
which states a state may lead to, and how handles are called in each. -/
structure Regime (σ : Type) where
  Known : Type
  known : σ → Known
  use : Known → String × Nat → Except SchemaError Known
  Leads : σ → σ → Prop
  calls : σ → Naming
  refl (s : σ) : Leads s s
  trans {s s' s'' : σ} : Leads s s' → Leads s' s'' → Leads s s''
  keeps {s s' : σ} : Leads s s' → ∀ h name, calls s h name → calls s' h name

/-- A builder declares names that are not known yet. -/
def declaringRegime : Regime Builder where
  Known := List (String × Nat)
  known b := b.predicates.signature
  use := declareUse
  Leads := Builder.Declares
  calls b := b.predicates.RefersTo
  refl := .refl
  trans := .trans
  keeps h _ _ := h.refersTo

namespace Regime

variable {σ α β : Type} {D : Regime σ} {s s' : σ} {e : SchemaError}

/-- Whether a step succeeds just when some uses in turn are fine, and then finds something that
is denoted by how handles are called in the end. -/
structure Resolves (D : Regime σ) (step : Resolving σ α) (uses : List (String × Nat))
    (Denoted : Naming → α → Prop) : Prop where
  ok {s : σ} {k : D.Known} : uses.foldlM D.use (D.known s) = .ok k →
    ∃ a s', step s = .ok (a, s') ∧ D.Leads s s' ∧ D.known s' = k ∧ Denoted (D.calls s') a
  error {s : σ} {e : SchemaError} : uses.foldlM D.use (D.known s) = .error e →
    step s = .error e

lemma run_bind_of_ok {x : Resolving σ α} {f : α → Resolving σ β} {a : α}
    (h : x s = .ok (a, s')) : (x >>= f) s = f a s' := by
  show (x s).bind _ = _
  rw [h]
  rfl

lemma run_bind_of_error {x : Resolving σ α} {f : α → Resolving σ β} (h : x s = .error e) :
    (x >>= f) s = .error e := by
  show (x s).bind _ = _
  rw [h]
  rfl

namespace Resolves

variable {step : Resolving σ α} {f : α → Resolving σ β} {uses uses' : List (String × Nat)}
  {P : Naming → α → Prop} {Q : Naming → β → Prop} {P' : α → Naming → β → Prop}

/-- A step that looks nothing up. -/
lemma pure {a : α} (h : ∀ C, P C a) : D.Resolves (pure a) [] P :=
  ⟨fun hk => ⟨a, _, rfl, D.refl _, Except.ok.inj hk, h _⟩, fun hk => (nomatch hk)⟩

/-- **One step after the other.** -/
lemma bind (h : D.Resolves step uses P) (hf : ∀ a, D.Resolves (f a) uses' (P' a))
    (hmono : ∀ {C C' a}, (∀ h name, C h name → C' h name) → P C a → P C' a)
    (hQ : ∀ {C a b}, P C a → P' a C b → Q C b) : D.Resolves (step >>= f) (uses ++ uses') Q := by
  constructor
  · intro s k hk
    rw [List.foldlM_append] at hk
    cases hmid : uses.foldlM D.use (D.known s) with
    | error e =>
        rw [hmid] at hk
        cases hk
    | ok k' =>
        obtain ⟨a, s', hstep, hleads, rfl, ha⟩ := h.ok hmid
        rw [hmid] at hk
        obtain ⟨b, s'', hstep', hleads', hknown, hb⟩ := (hf a).ok hk
        exact ⟨b, s'', (run_bind_of_ok hstep).trans hstep', D.trans hleads hleads', hknown,
          hQ (hmono (D.keeps hleads') ha) hb⟩
  · intro s e he
    rw [List.foldlM_append] at he
    cases hmid : uses.foldlM D.use (D.known s) with
    | error e' =>
        rw [hmid] at he
        obtain rfl := Except.error.inj he
        exact run_bind_of_error (h.error hmid)
    | ok k' =>
        obtain ⟨a, s', hstep, -, rfl, -⟩ := h.ok hmid
        rw [hmid] at he
        exact (run_bind_of_ok hstep).trans ((hf a).error he)

/-- A step, and a check that what it finds always passes. -/
lemma check {g : α → Except SchemaError β} (h : D.Resolves step uses P)
    (hg : ∀ {C a}, P C a → ∃ b, g a = .ok b ∧ Q C b) :
    D.Resolves (do let a ← step; g a) uses Q := by
  constructor
  · intro s k hk
    obtain ⟨a, s', hstep, hleads, hknown, ha⟩ := h.ok hk
    obtain ⟨b, hb, hQ⟩ := hg ha
    refine ⟨b, s', (run_bind_of_ok hstep).trans ?_, hleads, hknown, hQ⟩
    rw [hb]
    rfl
  · exact fun he => run_bind_of_error (h.error he)

lemma map (h : D.Resolves step uses P) {g : α → β} (hg : ∀ {C a}, P C a → Q C (g a)) :
    D.Resolves (do return g (← step)) uses Q :=
  ⟨fun hk => by
    obtain ⟨a, s', hstep, hleads, hknown, ha⟩ := h.ok hk
    exact ⟨g a, s', run_bind_of_ok hstep, hleads, hknown, hg ha⟩,
    fun he => run_bind_of_error (h.error he)⟩

/-- **Steps for all members of a list**, one after the other. -/
lemma mapM {usesOf : α → List (String × Nat)} {R : Naming → α → β → Prop}
    (hf : ∀ a, D.Resolves (f a) (usesOf a) fun C => R C a)
    (hmono : ∀ {C C' a b}, (∀ h name, C h name → C' h name) → R C a b → R C' a b) (as : List α) :
    D.Resolves (as.mapM f) (as.flatMap usesOf) fun C => List.Forall₂ (R C) as := by
  induction as with
  | nil => exact .pure fun _ => .nil
  | cons a as ih =>
      rw [List.mapM_cons, List.flatMap_cons]
      refine (hf a).bind (fun b => ih.map (Q := fun C bs => ∃ rest, bs = b :: rest ∧
        List.Forall₂ (R C) as rest) fun hrest => ⟨_, rfl, hrest⟩) hmono ?_
      rintro C b _ hb ⟨rest, rfl, hrest⟩
      exact .cons hb hrest

end Resolves

/-- Whether a resolver finds a handle that is called by the name and has the arity of its use. -/
def Answers (D : Regime σ) (resolver : Resolver σ) : Prop :=
  ∀ name arity, D.Resolves (resolver name arity) [(name, arity)]
    fun C h => C h name ∧ h.arity = arity

end Regime

/-! ### Builders -/

lemma answers_declaring : declaringRegime.Answers declaring := by
  intro name arity
  constructor
  · intro s k hk
    simp only [List.foldlM_cons, List.foldlM_nil, bind_pure] at hk
    obtain ⟨h, s', hstep, hdeclares, hknown, hname, harity⟩ := declaring_of_ok hk
    exact ⟨h, s', hstep, hdeclares, hknown, hname, harity⟩
  · intro s e he
    simp only [List.foldlM_cons, List.foldlM_nil, bind_pure] at he
    exact declaring_of_error he

/-! ### Atoms, literals and bodies -/

section

variable {σ : Type} {D : Regime σ} {resolver : Resolver σ}

lemma Atom.resolves (hD : D.Answers resolver) (a : Atom) :
    D.Resolves (a.resolve resolver) [a.use] fun C => a.Denotes C := by
  refine (hD _ _).check fun {C h} hh => ?_
  obtain ⟨hname, harity⟩ := hh
  exact ⟨⟨h, a.terms, harity.symm⟩, dif_pos harity.symm, hname, rfl⟩

lemma Literal.resolves (hD : D.Answers resolver) (l : Literal) :
    D.Resolves (l.resolve resolver) l.uses fun C => l.Denotes C := by
  cases l with
  | atom positive a => exact (a.resolves hD).map fun h => .atom positive h
  | comparison op left right => exact .pure fun _ => .comparison op left right
  | truth value => exact .pure fun _ => .truth value

/-- **A body is resolved** if it has a literal. -/
lemma resolves_resolveBody (hD : D.Answers resolver) (hbody : body ≠ []) :
    D.Resolves (resolveBody resolver body) (body.flatMap Literal.uses)
      fun C => BodyDenotes C body := by
  have hmapM := Regime.Resolves.mapM (fun l => Literal.resolves hD l)
    (fun hC hl => Literal.Denotes.mono hl hC) body
  refine hmapM.check fun {C ls} hls => ?_
  have hne : ls ≠ [] := by
    rintro rfl
    exact hbody (List.forall₂_nil_right_iff.mp hls)
  exact ⟨⟨ls, hne⟩, dif_pos hne, hls⟩

end

end DependencyTheory.Source
