/-
The provenance of handles:

* `Origin`: a builder or a schema, each with a table;
* `GoesBack`: whether a table goes back to a builder, by reopening, building and splitting;
* `Session.Numbered`: builders and schemas never share a number, and a builder that has built
  is gone;
* `Session.Traced`: a handle refers to a row of a table iff it was issued by a builder that the
  table goes back to, and then it stands for what was declared;
* `Session.provenance`: **both hold after every history**, and no handle is issued twice.

Rows are found by issuer, place and arity. That a place is not taken twice by one issuer is due
to a builder being gone once its table has been copied: only the builder itself goes back to it
while it can still declare predicates.
-/
import DependencyTheory.Proofs.Session.History
import Mathlib.Logic.Relation

namespace DependencyTheory

/-! ### What goes back to a builder -/

/-- A builder or a schema, known by its number. -/
inductive Origin where
  | builder (b : Nat)
  | schema (k : Nat)
  deriving DecidableEq

namespace Event

/-- The builder or schema that an event brings about. -/
def product? : Event → Option Origin
  | opened b => some (.builder b)
  | reopened _ b => some (.builder b)
  | built _ k => some (.schema k)
  | split _ j => some (.schema j)
  | _ => none

/-- The builder or schema whose table is taken over by what an event brings about. -/
def source? : Event → Option Origin
  | reopened k _ => some (.schema k)
  | built b _ => some (.builder b)
  | split k _ => some (.schema k)
  | _ => none

/-- The handle that is issued. -/
def handle? : Event → Option Handle
  | declared _ _ _ h => some h
  | _ => none

lemma handle?_eq_some {e : Event} {h : Handle} :
    e.handle? = some h ↔ ∃ b name arity, e = declared b name arity h := by
  cases e <;> simp [handle?]

end Event

/-- Whether a table has been taken over from one builder or schema to another. -/
def Copied (es : List Event) (o o' : Origin) : Prop :=
  ∃ e ∈ es, e.source? = some o ∧ e.product? = some o'

/-- Whether a builder or schema is a certain builder itself, or has its table from something
that goes back to this builder. -/
def GoesBack (es : List Event) (o : Origin) (b : Nat) : Prop :=
  Relation.ReflTransGen (Copied es) (.builder b) o

variable {es : List Event} {e : Event} {o o' : Origin} {b : Nat}

lemma copied_concat : Copied (es ++ [e]) o o' ↔
    Copied es o o' ∨ e.source? = some o ∧ e.product? = some o' := by
  simp only [Copied, List.mem_append, List.mem_singleton]
  constructor
  · rintro ⟨e', he | rfl, h⟩
    · exact Or.inl ⟨e', he, h⟩
    · exact Or.inr h
  · rintro (⟨e', he, h⟩ | h)
    · exact ⟨e', Or.inl he, h⟩
    · exact ⟨e, Or.inr rfl, h⟩

/-- **One more event** lets what it brings about go back to where its source goes back to. -/
lemma goesBack_concat (hfresh : ∀ o', e.product? = some o' → ∀ x, ¬Copied es o' x)
    (hsource : ∀ o', e.product? = some o' → e.source? ≠ some o') :
    GoesBack (es ++ [e]) o b ↔ GoesBack es o b ∨
      ∃ source, e.source? = some source ∧ e.product? = some o ∧ GoesBack es source b := by
  constructor
  · intro h
    induction h with
    | refl => exact Or.inl .refl
    | tail _ hstep ih =>
        rcases copied_concat.mp hstep with hstep | ⟨hs, hp⟩
        · rcases ih with ih | ⟨_, _, hp, _⟩
          · exact Or.inl (ih.tail hstep)
          · exact absurd hstep (hfresh _ hp _)
        · rcases ih with ih | ⟨_, _, hp', _⟩
          · exact Or.inr ⟨_, hs, hp, ih⟩
          · exact absurd hs (hsource _ hp')
  · have hmono : ∀ {x}, GoesBack es x b → GoesBack (es ++ [e]) x b :=
      Relation.ReflTransGen.mono (fun _ _ hc => copied_concat.mpr (Or.inl hc)) _ _
    rintro (h | ⟨source, hs, hp, h⟩)
    · exact hmono h
    · exact (hmono h).tail (copied_concat.mpr (Or.inr ⟨hs, hp⟩))

/-- What is brought about for the first time has not been brought about before. -/
lemma nodup_filterMap_concat {α : Type} {f : Event → Option α} (h : (es.filterMap f).Nodup)
    (hnew : ∀ a, f e = some a → ∀ e' ∈ es, f e' ≠ some a) :
    ((es ++ [e]).filterMap f).Nodup := by
  rw [List.filterMap_append]
  cases hf : f e with
  | none => simpa [hf] using h
  | some a =>
      refine h.append (by simp [hf]) fun a' ha' hmem => ?_
      obtain ⟨e', he', hf'⟩ := List.mem_filterMap.mp ha'
      obtain rfl : a' = a := by simpa [hf] using hmem
      exact hnew a' hf e' he' hf'

namespace Session

variable {s s' : Session} {T : Table}

/-! ### Numbers -/

/-- Whether a number has been given to a builder or a schema. -/
def Knows (s : Session) : Origin → Prop
  | .builder b => b < s.issued
  | .schema k => k < s.schemas.length

/-- Whether numbers are given once, to builders and schemas that are brought about, and no table
has been taken over from a builder that is still there. -/
structure Numbered (es : List Event) (s : Session) : Prop where
  products : (es.filterMap Event.product?).Nodup
  product : ∀ e ∈ es, ∀ o, e.product? = some o → s.Knows o
  source : ∀ e ∈ es, ∀ o, e.source? = some o → s.Knows o
  issuer : ∀ name b, s.builder? name = some b → s.Knows (.builder b.issuer)
  names : ∀ name name' b b', s.builder? name = some b → s.builder? name' = some b' →
    b.issuer = b'.issuer → name = name'
  present : ∀ name b, s.builder? name = some b → ∀ o, ¬Copied es (.builder b.issuer) o

/-- What has a number keeps it. -/
lemma Step.knows (h : s.Step e s') (ho : s.Knows o) : s'.Knows o := by
  cases h <;> cases o <;> simp_all [Knows, openBuilder, reopen, freshIssuer, putBuilder, putSchema,
    closeBuilder] <;> omega

/-- What an event brings about gets a number that had not been given. -/
lemma Step.product (h : s.Step e s') (ho : e.product? = some o) : ¬s.Knows o ∧ s'.Knows o := by
  cases h <;> cases ho <;> simp [Knows, openBuilder, reopen, freshIssuer, putBuilder, putSchema,
    closeBuilder]

/-- What a table is taken over from has a number. -/
lemma Step.source (hs : Numbered es s) (h : s.Step e s') (ho : e.source? = some o) :
    s.Knows o := by
  cases h with
  | reopened name hk => cases ho; exact lt_of_made? hk
  | built _ hb _ => cases ho; exact hs.issuer _ _ hb
  | split name hk _ => cases ho; exact lt_of_made? hk
  | _ => cases ho

/-- A builder that is there after a step was there under its name before, if the step has not
opened it. -/
lemma Step.builder? (h : s.Step e s') : ∃ opened, ∀ name b, s'.builder? name = some b →
    (∃ b₀, s.builder? name = some b₀ ∧ b₀.issuer = b.issuer) ∨
      name = opened ∧ e.product? = some (.builder b.issuer) := by
  cases h with
  | opened n =>
      refine ⟨n, fun name b hb => ?_⟩
      rcases builder?_of_putBuilder hb with ⟨rfl, rfl⟩ | ⟨-, hb⟩
      · exact Or.inr ⟨rfl, rfl⟩
      · exact Or.inl ⟨b, hb, rfl⟩
  | reopened n hk =>
      refine ⟨n, fun name b hb => ?_⟩
      rcases builder?_of_putBuilder hb with ⟨rfl, rfl⟩ | ⟨-, hb⟩
      · exact Or.inr ⟨rfl, rfl⟩
      · exact Or.inl ⟨b, hb, rfl⟩
  | declared hn hd =>
      obtain ⟨-, -, rfl⟩ := Builder.declare_eq_ok.mp hd
      refine ⟨"", fun name b hb => Or.inl ?_⟩
      rcases builder?_of_putBuilder hb with ⟨rfl, rfl⟩ | ⟨-, hb⟩
      · exact ⟨_, hn, rfl⟩
      · exact ⟨b, hb, rfl⟩
  | changed hn hc =>
      refine ⟨"", fun name b hb => Or.inl ?_⟩
      rcases builder?_of_putBuilder hb with ⟨rfl, rfl⟩ | ⟨-, hb⟩
      · exact ⟨_, hn, hc.issuer⟩
      · exact ⟨b, hb, rfl⟩
  | built _ _ _ => exact ⟨"", fun name b hb => Or.inl ⟨b, (builder?_of_closeBuilder hb).2, rfl⟩⟩
  | wasted _ _ => exact ⟨"", fun name b hb => Or.inl ⟨b, (builder?_of_closeBuilder hb).2, rfl⟩⟩
  | split _ _ _ => exact ⟨"", fun name b hb => Or.inl ⟨b, hb, rfl⟩⟩
  | refused e => exact ⟨"", fun name b hb => Or.inl ⟨b, hb, rfl⟩⟩
  | missing => exact ⟨"", fun name b hb => Or.inl ⟨b, hb, rfl⟩⟩

/-- A builder is gone when its table is taken over. -/
lemma Step.source_ne (hs : Numbered es s) (h : s.Step e s') {name : String} {b : Builder}
    (hb : s'.builder? name = some b) : e.source? ≠ some (.builder b.issuer) := by
  cases h with
  | built _ hb' _ =>
      intro hsource
      obtain ⟨hne, hb⟩ := builder?_of_closeBuilder hb
      exact hne (hs.names _ _ _ _ hb hb' (Origin.builder.inj (Option.some.inj hsource)).symm)
  | _ => exact fun hsource => nomatch hsource

/-- **A step keeps numbers in order.** -/
lemma Step.numbered (hs : Numbered es s) (h : s.Step e s') : Numbered (es ++ [e]) s' where
  products := nodup_filterMap_concat hs.products fun o ho e' he' hp =>
    (h.product ho).1 (hs.product e' he' o hp)
  product e' he' o ho := by
    rcases List.mem_append.mp he' with he' | he'
    · exact h.knows (hs.product e' he' o ho)
    · obtain rfl := List.mem_singleton.mp he'
      exact (h.product ho).2
  source e' he' o ho := by
    rcases List.mem_append.mp he' with he' | he'
    · exact h.knows (hs.source e' he' o ho)
    · obtain rfl := List.mem_singleton.mp he'
      exact h.knows (h.source hs ho)
  issuer name b hb := by
    obtain ⟨opened, hcases⟩ := h.builder?
    rcases hcases name b hb with ⟨b₀, hb₀, hissuer⟩ | ⟨-, hp⟩
    · exact hissuer ▸ h.knows (hs.issuer name b₀ hb₀)
    · exact (h.product hp).2
  names name name' b b' hb hb' hsame := by
    obtain ⟨opened, hcases⟩ := h.builder?
    rcases hcases name b hb with ⟨b₀, hb₀, hissuer⟩ | ⟨hname, hp⟩
    · rcases hcases name' b' hb' with ⟨b₁, hb₁, hissuer'⟩ | ⟨-, hp⟩
      · exact hs.names _ _ _ _ hb₀ hb₁ (hissuer.trans (hsame.trans hissuer'.symm))
      · exact absurd (hs.issuer _ _ hb₀) (hissuer ▸ hsame ▸ (h.product hp).1)
    · rcases hcases name' b' hb' with ⟨b₁, hb₁, hissuer'⟩ | ⟨hname', -⟩
      · exact absurd (hs.issuer _ _ hb₁) (hissuer' ▸ hsame ▸ (h.product hp).1)
      · exact hname.trans hname'.symm
  present name b hb o ho := by
    rcases copied_concat.mp ho with ⟨e', he', hsource, hproduct⟩ | ⟨hsource, -⟩
    · obtain ⟨opened, hcases⟩ := h.builder?
      rcases hcases name b hb with ⟨b₀, hb₀, hissuer⟩ | ⟨-, hp⟩
      · exact hs.present name b₀ hb₀ o ⟨e', he', hissuer ▸ hsource, hproduct⟩
      · exact (h.product hp).1 (hs.source e' he' _ hsource)
    · exact h.source_ne hs hb hsource

/-! ### Tables -/

/-- The tables of the builders and schemas in a session. -/
inductive HasTable (s : Session) : Origin → Table → Prop
  | builder {name : String} {b : Builder} (hb : s.builder? name = some b) :
      HasTable s (.builder b.issuer) b.predicates
  | schema {k : Nat} {schema : Schema} (hk : s.made? k = some schema) :
      HasTable s (.schema k) schema.predicates

/-- Whether a handle has been issued for a name by a builder that a builder or schema goes back
to. -/
def Issued (es : List Event) (o : Origin) (h : Handle) (name : String) : Prop :=
  ∃ b arity, .declared b name arity h ∈ es ∧ GoesBack es o b

/-- Whether handles carry the number of their builder and the arity they have been issued for,
none has been issued twice, and those that refer to rows of a table are those that have been
issued for it. -/
structure Traced (es : List Event) (s : Session) : Prop where
  declared : ∀ b name arity h, .declared b name arity h ∈ es →
    s.Knows (.builder b) ∧ h.issuer = b ∧ h.arity = arity
  handles : (es.filterMap Event.handle?).Nodup
  tables : ∀ o T, s.HasTable o T → ∀ h name, T.RefersTo h name ↔ Issued es o h name

/-- What a step does to the tables of builders and schemas: a table is kept, as far as handles
are concerned, or gets one more row, or is new, and then empty or taken over. -/
inductive Makes (s : Session) (e : Event) : Origin → Table → Prop
  | kept {o : Origin} {T T' : Table} (ho : s.HasTable o T)
      (hne : ∀ b name arity h, e = .declared b name arity h → o ≠ .builder b)
      (hT : ∀ h name, T'.RefersTo h name ↔ T.RefersTo h name) : Makes s e o T'
  | extended {b arity : Nat} {name : String} {T : Table} (ho : s.HasTable (.builder b) T)
      (he : e = .declared b name arity ⟨b, T.length, arity⟩) :
      Makes s e (.builder b) (T ++ [⟨b, name, arity, []⟩])
  | empty {o : Origin} (hp : e.product? = some o) (hs : e.source? = none) : Makes s e o []
  | copied {o source : Origin} {T : Table} (hp : e.product? = some o)
      (hs : e.source? = some source) (ho : s.HasTable source T) : Makes s e o T

/-- **What a step makes of tables** is one of these. -/
lemma Step.makes (hs : Numbered es s) (h : s.Step e s') (ho : s'.HasTable o T) :
    s.Makes e o T := by
  have hkept : ∀ {o T}, s.HasTable o T →
      (∀ b name arity h, e = .declared b name arity h → o ≠ .builder b) → s.Makes e o T :=
    fun ho hne => .kept ho hne fun _ _ => Iff.rfl
  cases h with
  | opened n =>
      cases ho with
      | builder hb =>
          rcases builder?_of_putBuilder hb with ⟨-, rfl⟩ | ⟨-, hb⟩
          · exact .empty rfl rfl
          · exact hkept (.builder hb) nofun
      | schema hk => exact hkept (.schema hk) nofun
  | reopened n hold =>
      cases ho with
      | builder hb =>
          rcases builder?_of_putBuilder hb with ⟨-, rfl⟩ | ⟨-, hb⟩
          · exact .copied rfl rfl (.schema hold)
          · exact hkept (.builder hb) nofun
      | schema hk => exact hkept (.schema hk) nofun
  | declared hold hd =>
      obtain ⟨-, rfl, rfl⟩ := Builder.declare_eq_ok.mp hd
      cases ho with
      | builder hb =>
          rcases builder?_of_putBuilder hb with ⟨-, rfl⟩ | ⟨hne, hb⟩
          · exact .extended (.builder hold) rfl
          · refine hkept (.builder hb) ?_
            rintro _ _ _ _ ⟨⟩ hissuer
            exact hne (hs.names _ _ _ _ hb hold (Origin.builder.inj hissuer))
      | schema hk => exact hkept (.schema hk) nofun
  | changed hold hc =>
      cases ho with
      | builder hb =>
          rcases builder?_of_putBuilder hb with ⟨-, rfl⟩ | ⟨-, hb⟩
          · exact hc.issuer ▸ .kept (.builder hold) nofun fun _ _ => hc.refersTo
          · exact hkept (.builder hb) nofun
      | schema hk => exact hkept (.schema hk) nofun
  | built n hold hbuild =>
      cases ho with
      | builder hb => exact hkept (.builder (builder?_of_closeBuilder hb).2) nofun
      | schema hk =>
          rcases made?_putSchema.mp hk with hk | ⟨rfl, rfl⟩
          · exact hkept (.schema hk) nofun
          · obtain ⟨-, rfl⟩ := Builder.build_eq_ok.mp hbuild
            exact .copied rfl rfl (.builder hold)
  | wasted _ _ =>
      cases ho with
      | builder hb => exact hkept (.builder (builder?_of_closeBuilder hb).2) nofun
      | schema hk => exact hkept (.schema hk) nofun
  | split n hold hsplit =>
      cases ho with
      | builder hb => exact hkept (.builder hb) nofun
      | schema hk =>
          rcases made?_putSchema.mp hk with hk | ⟨rfl, rfl⟩
          · exact hkept (.schema hk) nofun
          · have htable := HasTable.schema hold
            obtain ⟨-, rfl⟩ := Builder.build_eq_ok.mp hsplit
            exact .copied rfl rfl htable
  | refused e => exact hkept ho nofun
  | missing => exact hkept ho nofun

/-- A predicate is declared by a builder that is there, and its handle has the next place. -/
lemma Step.of_declared {name : String} {arity : Nat} {k : Handle}
    (h : s.Step (.declared b name arity k) s') :
    (∃ T, s.HasTable (.builder b) T ∧ k = ⟨b, T.length, arity⟩) ∧
      ∃ n builder, s.builder? n = some builder ∧ builder.issuer = b := by
  cases h with
  | declared hb hd =>
      obtain ⟨-, rfl, -⟩ := Builder.declare_eq_ok.mp hd
      exact ⟨⟨_, .builder hb, rfl⟩, _, _, hb, rfl⟩

lemma Numbered.knows_of_goesBack (hs : Numbered es s) (hb : s.Knows (.builder b))
    (h : GoesBack es o b) : s.Knows o := by
  rcases h.cases_tail with rfl | ⟨_, -, e', he', -, hp⟩
  · exact hb
  · exact hs.product e' he' o hp

lemma Numbered.knows_of_hasTable (hs : Numbered es s) (ho : s.HasTable o T) : s.Knows o := by
  cases ho with
  | builder hb => exact hs.issuer _ _ hb
  | schema hk => exact lt_of_made? hk

/-- Nothing but a builder that is there goes back to it. -/
lemma Numbered.eq_of_goesBack (hs : Numbered es s) {n : String} {builder : Builder}
    (hb : s.builder? n = some builder) (h : GoesBack es o builder.issuer) :
    o = .builder builder.issuer := by
  rcases h.cases_head with rfl | ⟨x, hcopied, -⟩
  · rfl
  · exact absurd hcopied (hs.present _ _ hb x)

/-- What a builder or schema goes back to after a step. -/
lemma Step.goesBack (hs : Numbered es s) (h : s.Step e s') :
    GoesBack (es ++ [e]) o b ↔ GoesBack es o b ∨
      ∃ source, e.source? = some source ∧ e.product? = some o ∧ GoesBack es source b :=
  goesBack_concat
    (fun o' hp _ ⟨e', he', hsource, _⟩ => (h.product hp).1 (hs.source e' he' o' hsource))
    fun _ hp hsource => (h.product hp).1 (h.source hs hsource)

lemma declared_mem_concat {name : String} {arity : Nat} {k : Handle} :
    .declared b name arity k ∈ es ++ [e] ↔
      .declared b name arity k ∈ es ∨ e = .declared b name arity k := by
  rw [List.mem_append, List.mem_singleton, eq_comm (a := e)]

variable {k : Handle} {name : String}

/-- For what is brought about, those handles are issued that are issued for its source. -/
lemma Step.issued_product (hs : Numbered es s) (ht : Traced es s) (h : s.Step e s')
    (hp : e.product? = some o) : Issued (es ++ [e]) o k name ↔
      ∃ source, e.source? = some source ∧ Issued es source k name := by
  simp only [Issued, declared_mem_concat, h.goesBack hs]
  constructor
  · rintro ⟨b, arity, hk | rfl, hback⟩
    · rcases hback with hback | ⟨source, hsource, -, hback⟩
      · have hknown := hs.knows_of_goesBack (ht.declared _ _ _ _ hk).1 hback
        exact absurd hknown (h.product hp).1
      · exact ⟨source, hsource, b, arity, hk, hback⟩
    · cases hp
  · rintro ⟨source, hsource, b, arity, hk, hback⟩
    exact ⟨b, arity, Or.inl hk, Or.inr ⟨source, hsource, hp, hback⟩⟩

/-- For what has been there, the handles are issued that were before, and one that its own
builder issues. -/
lemma Step.issued_old (hs : Numbered es s) (h : s.Step e s') (ho : s.Knows o) :
    Issued (es ++ [e]) o k name ↔
      Issued es o k name ∨ ∃ b arity, e = .declared b name arity k ∧ o = .builder b := by
  have hback : ∀ b, GoesBack (es ++ [e]) o b ↔ GoesBack es o b := by
    intro b
    rw [h.goesBack hs]
    exact or_iff_left fun ⟨_, _, hp, _⟩ => (h.product hp).1 ho
  simp only [Issued, declared_mem_concat, hback]
  constructor
  · rintro ⟨b, arity, hk | rfl, hgoes⟩
    · exact Or.inl ⟨b, arity, hk, hgoes⟩
    · obtain ⟨-, n, builder, hb, rfl⟩ := h.of_declared
      exact Or.inr ⟨_, arity, rfl, hs.eq_of_goesBack hb hgoes⟩
  · rintro (⟨b, arity, hk, hgoes⟩ | ⟨b, arity, rfl, rfl⟩)
    · exact ⟨b, arity, Or.inl hk, hgoes⟩
    · exact ⟨b, arity, Or.inr rfl, .refl⟩

/-- **A step keeps tables traced.** -/
lemma Step.traced (hs : Numbered es s) (ht : Traced es s) (h : s.Step e s') :
    Traced (es ++ [e]) s' := by
  refine ⟨fun b name arity k hk => ?_, nodup_filterMap_concat ht.handles ?_,
    fun o T ho k name => ?_⟩
  · rcases declared_mem_concat.mp hk with hk | rfl
    · exact (ht.declared b name arity k hk).imp_left h.knows
    · obtain ⟨⟨T, hT, rfl⟩, -⟩ := h.of_declared
      exact ⟨h.knows (hs.knows_of_hasTable hT), rfl, rfl⟩
  · intro k hk e' he' hk'
    obtain ⟨b, name, arity, rfl⟩ := Event.handle?_eq_some.mp hk
    obtain ⟨b', name', arity', rfl⟩ := Event.handle?_eq_some.mp hk'
    obtain ⟨⟨T, hT, rfl⟩, -⟩ := h.of_declared
    obtain ⟨-, rfl, -⟩ := ht.declared _ _ _ _ he'
    have hrow : T.RefersTo ⟨b, T.length, arity⟩ name' :=
      (ht.tables _ T hT _ _).mpr ⟨_, _, he', .refl⟩
    exact Nat.lt_irrefl _ hrow.index_lt
  · cases h.makes hs ho with
    | kept ho hne hT =>
        rw [hT, ht.tables _ _ ho, h.issued_old hs (hs.knows_of_hasTable ho)]
        exact (or_iff_left fun ⟨b, arity, he, ho⟩ => hne _ _ _ _ he ho).symm
    | @extended b arity declared T hT he =>
        rw [h.issued_old hs (hs.knows_of_hasTable hT), ← ht.tables _ _ hT, Table.refersTo_concat]
        refine or_congr_right ?_
        subst he
        constructor
        · rintro ⟨rfl, rfl⟩
          exact ⟨b, arity, rfl, rfl⟩
        · rintro ⟨_, _, ⟨⟩, -⟩
          exact ⟨rfl, rfl⟩
    | empty hp hsource =>
        rw [h.issued_product hs ht hp]
        constructor
        · exact fun hrow => absurd hrow.index_lt (Nat.not_lt_zero _)
        · rintro ⟨source, hsome, -⟩
          cases hsource.symm.trans hsome
    | copied hp hsource hT =>
        rw [h.issued_product hs ht hp, ht.tables _ _ hT]
        constructor
        · exact fun hissued => ⟨_, hsource, hissued⟩
        · rintro ⟨source, hsome, hissued⟩
          obtain rfl := Option.some.inj (hsource.symm.trans hsome)
          exact hissued

/-! ### All histories -/

lemma numbered_empty : Numbered [] empty :=
  ⟨List.nodup_nil, nofun, nofun, nofun, nofun, nofun⟩

lemma traced_empty : Traced [] empty := by
  refine ⟨nofun, List.nodup_nil, fun o T ho => ?_⟩
  cases ho with
  | builder hb => cases hb
  | schema hk => cases hk

/-- **Handles have provenance.** Builders, schemas and handles that a history brings about are
all different. A handle that a builder has issued belongs to just those schemas that go back to
this builder, and stands for the name and arity of its declaration in all of them. -/
theorem provenance (ops : List Operation) :
    ((empty.run ops).2.filterMap Event.product?).Nodup ∧
      ((empty.run ops).2.filterMap Event.handle?).Nodup ∧
      ∀ b name arity h, .declared b name arity h ∈ (empty.run ops).2 →
        ∀ k schema, (empty.run ops).1.made? k = some schema →
          (schema.owns h = true ↔ GoesBack (empty.run ops).2 (.schema k) b) ∧
          (GoesBack (empty.run ops).2 (.schema k) b → ∃ p, schema.get? h = some p ∧
            p.name = name ∧ p.arity = arity ∧ schema.handleNamed? name = some h) := by
  have hall := run_keeps (P := fun es s => Numbered es s ∧ Traced es s ∧ s.InOrder)
    (fun hstep ⟨hs, ht, ho⟩ => ⟨hstep.numbered hs, hstep.traced hs ht, hstep.inOrder ho⟩)
    [] ⟨numbered_empty, traced_empty, inOrder_empty⟩ ops
  rw [List.nil_append] at hall
  obtain ⟨hs, ht, ho⟩ := hall
  refine ⟨hs.products, ht.handles, fun b name arity h hdeclared k schema hk => ?_⟩
  have hrow : ∀ other, schema.predicates.RefersTo h other ↔
      Issued (empty.run ops).2 (.schema k) h other := ht.tables _ _ (.schema hk) h
  obtain ⟨-, hissuer, harity⟩ := ht.declared _ _ _ _ hdeclared
  have hback : GoesBack (empty.run ops).2 (.schema k) b → schema.predicates.RefersTo h name :=
    fun hback => (hrow name).mpr ⟨b, arity, hdeclared, hback⟩
  refine ⟨⟨fun howns => ?_, fun hgoes => Table.owns_iff.mpr ⟨name, hback hgoes⟩⟩, fun hgoes => ?_⟩
  · obtain ⟨other, hother⟩ := Table.owns_iff.mp howns
    obtain ⟨b', arity', hdeclared', hgoes⟩ := (hrow other).mp hother
    obtain ⟨-, hissuer', -⟩ := ht.declared _ _ _ _ hdeclared'
    rwa [← hissuer, hissuer']
  · obtain ⟨p, hp, hname⟩ := hback hgoes
    refine ⟨p, hp, hname, (Schema.arity_of_get? hp).trans harity, ?_⟩
    exact ((ho.schemas k schema hk).named name h).mpr ⟨p, hp, hname⟩

end Session

/-! ### Two copies of a table that grow apart -/

namespace Cousins

/-- A schema is reopened twice, and either builder declares another predicate at the same place,
with the same arity. -/
def operations : List Operation :=
  [.openBuilder "b", .declare "b" "person" 1, .build "b" "base", .reopen 0 "left",
    .reopen 0 "right", .declare "left" "parent" 2, .declare "right" "friend" 2,
    .build "left" "parents", .build "right" "friends"]

def parents : Schema := ⟨[⟨0, "person", 1, []⟩, ⟨1, "parent", 2, []⟩], []⟩

def friends : Schema := ⟨[⟨0, "person", 1, []⟩, ⟨2, "friend", 2, []⟩], []⟩

/-- The handle that the left builder issues means its predicate in the left schema and nothing
in the right one, which does not go back to the left builder. -/
theorem provenance_cousins :
    (∃ p, parents.get? ⟨1, 1, 2⟩ = some p ∧ p.name = "parent" ∧ p.arity = 2 ∧
      parents.handleNamed? "parent" = some ⟨1, 1, 2⟩) ∧
      ¬GoesBack (Session.empty.run operations).2 (.schema 2) 1 := by
  have hdeclared : .declared 1 "parent" 2 ⟨1, 1, 2⟩ ∈ (Session.empty.run operations).2 :=
    List.mem_of_getElem? (show (Session.empty.run operations).2[5]? = _ from rfl)
  have hbuilt : .built 1 1 ∈ (Session.empty.run operations).2 :=
    List.mem_of_getElem? (show (Session.empty.run operations).2[7]? = _ from rfl)
  have hback : GoesBack (Session.empty.run operations).2 (.schema 1) 1 :=
    .single ⟨.built 1 1, hbuilt, rfl, rfl⟩
  obtain ⟨-, -, hhandles⟩ := Session.provenance operations
  refine ⟨(hhandles _ _ _ _ hdeclared 1 parents rfl).2 hback, fun hback => ?_⟩
  have howns := (hhandles _ _ _ _ hdeclared 2 friends rfl).1.mpr hback
  exact absurd howns (by decide)

end Cousins

end DependencyTheory
