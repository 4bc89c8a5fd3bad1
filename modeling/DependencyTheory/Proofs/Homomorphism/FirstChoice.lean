/-
What a search finds, given what is known of the answers on predicates:

* `Warrant`: what the verdicts of a search vouch for when it has been asked
  whether two predicates match;
* `Warrant.certain`, `Warrant.possible`: the pairs of predicates for which a
  match is vouched for, and those for which it is not ruled out;
* `Warrant.ways_of_matchLiterals`: one literal against another;
* `Warrant.settled_of_search`: a search that ends without a homomorphism has ruled
  out every sequence of choices, and one that ends with a homomorphism has made the
  first choices, in lexicographic order, that are not ruled out.

The answers on predicates may depend on the verdicts of earlier comparisons, and
comparing adds verdicts. What is vouched for stays so, which is all that the
search relies on: what it has tried in vain at an early stage need not be tried
again at a later one.
-/
import DependencyTheory.Proofs.Homomorphism.Attempt
import DependencyTheory.Proofs.Homomorphism.Choice
import DependencyTheory.Proofs.Homomorphism.Matching

namespace DependencyTheory.Homomorphism

/-- What verdicts vouch for. Asking whether two predicates match, of those that
come up, leaves valid verdicts valid, takes nothing back, and vouches for the
answer. -/
structure Warrant (agree : Agreement) (sides : Sides) where
  ComesUp : Handle → Handle → Prop
  Valid : Verdicts → Prop
  Vouches : Verdicts → Handle → Handle → Bool → Prop
  valid : ∀ {d r w b w'}, ComesUp d r → Valid w → Yields (agree sides d r) w b w' → Valid w'
  keeps : ∀ {d r w b w'}, ComesUp d r → Valid w → Yields (agree sides d r) w b w' →
    ∀ d' r' b', Vouches w d' r' b' → Vouches w' d' r' b'
  vouches : ∀ {d r w b w'}, ComesUp d r → Valid w → Yields (agree sides d r) w b w' →
    Vouches w' d r b

namespace Warrant

variable {agree : Agreement} {sides : Sides} (W : Warrant agree sides)

/-- Whether all questions on predicates come up that a search between two lists
can ask. -/
def Covers (domain range : List Literal) : Prop :=
  ∀ a ∈ domain, ∀ b ∈ range, ∀ d ∈ a.predicate?, ∀ r ∈ b.predicate?, W.ComesUp d r

/-- Whether a match is vouched for. -/
def certain (w : Verdicts) (d r : Handle) : Prop := W.Vouches w d r true

/-- Whether a match is not ruled out. -/
def possible (w : Verdicts) (d r : Handle) : Prop := ¬W.Vouches w d r false

/-- Later verdicts are valid and vouch for no less. -/
def Leads (w w' : Verdicts) : Prop :=
  W.Valid w' ∧ ∀ d r b, W.Vouches w d r b → W.Vouches w' d r b

variable {W} {w w' w'' : Verdicts}

lemma Leads.refl (h : W.Valid w) : W.Leads w w := ⟨h, fun _ _ _ hs => hs⟩

lemma Leads.trans (h : W.Leads w w') (h' : W.Leads w' w'') : W.Leads w w'' :=
  ⟨h'.1, fun d r b hs => h'.2 d r b (h.2 d r b hs)⟩

/-- What is ruled out stays ruled out. -/
lemma Leads.possible (h : W.Leads w w') {d r : Handle} (hp : W.possible w' d r) :
    W.possible w d r := fun hs => hp (h.2 d r false hs)

lemma leads_of_agree {d r : Handle} {b : Bool} (hask : W.ComesUp d r) (hw : W.Valid w)
    (h : Yields (agree sides d r) w b w') : W.Leads w w' :=
  ⟨W.valid hask hw h, W.keeps hask hw h⟩

/-! ### One literal against another -/

/-- What the ways to match one literal with another say: each way that is not
ruled out is among them, each of them is a way that is vouched for, and what
comes before it are the ways with an earlier reading. -/
structure Ways (W : Warrant agree sides) (w : Verdicts) (s : Substitution)
    (a b : Literal) (ways : List Substitution) : Prop where
  complete : ∀ turned b', b.reading turned = some b' → Alike (W.possible w) a b' →
    ∀ u, matchTerms? s a.terms b'.terms = some u → u ∈ ways
  sound : ∀ before u after, ways = before ++ u :: after →
    ∃ turned b', b.reading turned = some b' ∧ Alike (W.certain w) a b' ∧
      matchTerms? s a.terms b'.terms = some u ∧
      ∀ earlier < turned, ∀ b'', b.reading earlier = some b'' →
        Alike (W.possible w) a b'' →
        ∀ u', matchTerms? s a.terms b''.terms = some u' → u' ∈ before

/-- No way is found where none is possible. -/
lemma ways_nil {s : Substitution} {a b : Literal}
    (h : ∀ turned b', b.reading turned = some b' → Alike (W.possible w) a b' →
      matchTerms? s a.terms b'.terms = none) : Ways W w s a b [] where
  complete turned b' hread halike u hu := by
    rw [h turned b' hread halike] at hu
    exact absurd hu (by simp)
  sound before u after hways := absurd hways (by simp)

/-- A literal with one reading is matched in at most one way. -/
lemma ways_asWritten {s : Substitution} {a b : Literal}
    (honly : ∀ turned b', b.reading turned = some b' → b' = b ∧ turned = false)
    (halike : Alike (W.certain w) a b) :
    Ways W w s a b (matchTerms? s a.terms b.terms).toList where
  complete turned b' hread _ u hu := by
    obtain ⟨rfl, -⟩ := honly turned b' hread
    exact Option.mem_toList.mpr hu
  sound before u after hways := by
    have hu : matchTerms? s a.terms b.terms = some u := by
      rw [← Option.mem_toList, hways]
      simp
    refine ⟨false, b, rfl, halike, hu, fun earlier hlt => ?_⟩
    exact absurd hlt (by simp)

/-- The way to match a built-in literal with one reading of another, if their
operators are the same. -/
def way? (s : Substitution) (a b : BuiltIn) : Option Substitution :=
  if a.operator = b.operator then matchTerms? s a.terms b.terms else none

lemma toList_way? (s : Substitution) (a b : BuiltIn) :
    (if a.operator = b.operator then (matchTerms? s a.terms b.terms).toList else []) =
      (way? s a b).toList := by
  rw [way?]
  split <;> rfl

/-- Built-in literals are matched as they are written and then the other way
round, unless that comes to the same. -/
lemma matchBuiltIns_eq (s : Substitution) (a b : BuiltIn) :
    matchBuiltIns s a b = (way? s a b).toList ++
      (b.converse.bind (way? s a)).toList.filter (· ∉ (way? s a b).toList) := by
  rw [matchBuiltIns, toList_way?]
  cases h : b.converse with
  | none => rfl
  | some c => simp only [toList_way?, Option.bind_some]

/-- What stands at a place of at most two ways is the first of them, with
nothing before it, or the second, with the first before it if there is one. -/
lemma split_two_ways {x y : Option Substitution} {p : Substitution → Bool}
    {before after : List Substitution} {u : Substitution}
    (h : x.toList ++ y.toList.filter p = before ++ u :: after) :
    x = some u ∧ before = [] ∨ y = some u ∧ ∀ v, x = some v → v ∈ before := by
  have hy : ∀ before, y.toList.filter p = before ++ u :: after → y = some u := by
    intro before h
    have hu : u ∈ y.toList.filter p := by
      rw [h]
      simp
    exact Option.mem_toList.mp (List.mem_filter.mp hu).1
  cases x with
  | none => exact Or.inr ⟨hy before h, fun v hv => absurd hv (by simp)⟩
  | some v =>
      cases before with
      | nil =>
          rw [Option.toList_some, List.nil_append, List.singleton_append] at h
          exact Or.inl ⟨congrArg some (List.cons.inj h).1, rfl⟩
      | cons v' before =>
          rw [Option.toList_some, List.cons_append, List.nil_append, List.cons_append] at h
          obtain ⟨rfl, hrest⟩ := List.cons.inj h
          refine Or.inr ⟨hy before hrest, fun v'' hv => ?_⟩
          cases hv
          exact List.mem_cons_self

/-- A reading of a built-in literal is a way to match it iff the operators are
the same and the terms match. -/
lemma way?_reading (same : Handle → Handle → Prop) (turned : Bool) {s u : Substitution}
    {a b : BuiltIn} :
    (if turned then b.converse else some b).bind (way? s a) = some u ↔
      ∃ b', (Literal.builtIn b).reading turned = some b' ∧ Alike same (.builtIn a) b' ∧
        matchTerms? s a.terms b'.terms = some u := by
  constructor
  · intro hu
    obtain ⟨c, hc, hu⟩ := Option.bind_eq_some_iff.mp hu
    rw [way?] at hu
    split at hu
    · rename_i hop
      refine ⟨.builtIn c, ?_, hop, hu⟩
      cases turned with
      | false => exact congrArg (fun b => some (Literal.builtIn b)) (Option.some.inj hc)
      | true => exact Option.map_eq_some_iff.mpr ⟨c, hc, rfl⟩
    · exact absurd hu (by simp)
  · rintro ⟨b', hread, halike, hu⟩
    obtain ⟨c, rfl, hc⟩ := Literal.reading_builtIn hread
    have hop : a.operator = c.operator := halike
    rw [hc, Option.bind_some, way?, if_pos hop]
    exact hu

lemma ways_builtIn {s : Substitution} {a b : BuiltIn} :
    Ways W w s (.builtIn a) (.builtIn b) (matchBuiltIns s a b) := by
  rw [matchBuiltIns_eq]
  refine ⟨fun turned b' hread halike u hu => ?_, fun before u after hways => ?_⟩
  · have hway := (way?_reading _ turned).mpr ⟨b', hread, halike, hu⟩
    cases turned with
    | false => exact List.mem_append_left _ (Option.mem_toList.mpr hway)
    | true =>
        by_cases hmem : u ∈ (way? s a b).toList
        · exact List.mem_append_left _ hmem
        · exact List.mem_append_right _
            (List.mem_filter.mpr ⟨Option.mem_toList.mpr hway, by simpa using hmem⟩)
  · rcases split_two_ways hways with ⟨hway, rfl⟩ | ⟨hway, hbefore⟩
    · obtain ⟨b', hread, halike, hu⟩ := (way?_reading (W.certain w) false).mp hway
      exact ⟨false, b', hread, halike, hu, fun earlier hlt => absurd hlt (by simp)⟩
    · obtain ⟨b', hread, halike, hu⟩ := (way?_reading (W.certain w) true).mp hway
      refine ⟨true, b', hread, halike, hu, fun earlier hlt b'' hread' halike' u' hu' => ?_⟩
      -- the only earlier reading is the literal as it is written
      have hearlier : earlier = false := Bool.eq_false_of_not_eq_true fun h =>
        absurd (h ▸ hlt) (lt_irrefl true)
      subst hearlier
      exact hbefore u' ((way?_reading _ false).mpr ⟨b'', hread', halike', hu'⟩)

/-- Matching one literal with another asks at most one question on predicates,
and finds the ways that its answer leaves. -/
theorem ways_of_matchLiterals {s : Substitution} {a b : Literal} {ways : List Substitution}
    (hask : ∀ d ∈ a.predicate?, ∀ r ∈ b.predicate?, W.ComesUp d r)
    (hw : W.Valid w) (h : Yields (matchLiterals agree sides s a b) w ways w') :
    W.Leads w w' ∧ Ways W w' s a b ways := by
  cases a with
  | builtIn a =>
      cases b with
      | ordinary q b =>
          obtain ⟨rfl, rfl⟩ := yields_pure.mp h
          refine ⟨Leads.refl hw, ways_nil fun turned b' hread halike => ?_⟩
          obtain ⟨rfl, -⟩ := Literal.reading_ordinary hread
          exact absurd halike id
      | builtIn b =>
          obtain ⟨rfl, rfl⟩ := yields_pure.mp h
          exact ⟨Leads.refl hw, ways_builtIn⟩
  | ordinary p a =>
      cases b with
      | builtIn b =>
          obtain ⟨rfl, rfl⟩ := yields_pure.mp h
          refine ⟨Leads.refl hw, ways_nil fun turned b' hread halike => ?_⟩
          obtain ⟨c, rfl, -⟩ := Literal.reading_builtIn hread
          exact absurd halike id
      | ordinary q b =>
          rw [matchLiterals] at h
          split at h
          · rename_i hpq
            obtain ⟨answer, v, hagree, h⟩ := yields_bind.mp h
            have hpair : W.ComesUp a.predicate b.predicate := hask _ rfl _ rfl
            have hleads := leads_of_agree hpair hw hagree
            have hvouch := W.vouches hpair hw hagree
            cases answer with
            | true =>
                obtain ⟨rfl, rfl⟩ := yields_pure.mp h
                exact ⟨hleads, ways_asWritten
                  (fun turned b' hread => Literal.reading_ordinary hread) ⟨hpq, hvouch⟩⟩
            | false =>
                obtain ⟨rfl, rfl⟩ := yields_pure.mp h
                refine ⟨hleads, ways_nil fun turned b' hread halike => ?_⟩
                obtain ⟨rfl, -⟩ := Literal.reading_ordinary hread
                exact absurd hvouch halike.2
          · rename_i hpq
            obtain ⟨rfl, rfl⟩ := yields_pure.mp h
            refine ⟨Leads.refl hw, ways_nil fun turned b' hread halike => ?_⟩
            obtain ⟨rfl, -⟩ := Literal.reading_ordinary hread
            exact absurd halike.1 hpq

/-! ### One list against another -/

/-- Whether a sequence of choices is ruled out: no images that fit the
substitution realise it. -/
def RuledOut (W : Warrant agree sides) (w : Verdicts) (range domain : List Literal)
    (s : Substitution) (cs : List Choice) : Prop :=
  ∀ σ, s.Fits σ → ¬Realises (W.possible w) σ range domain cs

lemma RuledOut.leads {range domain : List Literal} {s : Substitution} {cs : List Choice}
    (h : RuledOut W w range domain s cs) (hl : W.Leads w w') :
    RuledOut W w' range domain s cs := fun σ hσ hreal =>
  h σ hσ (hreal.imp fun _ _ hp => hl.possible hp)

/-- What a homomorphism that a search finds is: the least extension of the
substitution at the start that makes certain choices, and these come before all
others that are not ruled out. -/
structure First (W : Warrant agree sides) (w : Verdicts) (range domain : List Literal)
    (s h : Substitution) : Prop where
  le : s ≤ h
  binds : ∀ x, (h.get? x).isSome ↔ (s.get? x).isSome ∨ ∃ a ∈ domain, x ∈ a.vars
  first : ∃ cs, Realises (W.certain w) h.image range domain cs ∧
    ∀ cs', ¬RuledOut W w range domain s cs' → cs ≤ cs'

/-- A first choice is ruled out if what each way to make it leaves to be done
is ruled out. -/
lemma ruledOut_cons {range rest : List Literal} {first b : Literal} {s : Substitution}
    (ways : List Substitution) {place : ℕ} {turned : Bool} {cs : List Choice}
    (hb : range[place]? = some b)
    (hway : ∀ b', b.reading turned = some b' → Alike (W.possible w') first b' →
      ∀ u, matchTerms? s first.terms b'.terms = some u → u ∈ ways)
    (hrest : ∀ u ∈ ways, RuledOut W w' range rest u cs) :
    RuledOut W w' range (first :: rest) s (Choice.at place turned :: cs) := by
  intro σ hσ hreal
  obtain ⟨⟨b', hb', halike, hterms⟩, hreal⟩ := List.forall₂_cons.mp hreal
  have hread : b.reading turned = some b' := by
    obtain ⟨b'', hb'', hread⟩ := Option.bind_eq_some_iff.mp hb'
    exact Option.some.inj (hb.symm.trans hb'') ▸ hread
  obtain ⟨u, hu, hfits⟩ := exists_matchTerms? hσ hterms
  exact hrest u (hway b' hread halike u hu) σ hfits hreal

/-- What a search says when it is over. -/
def Settled (W : Warrant agree sides) (w : Verdicts) (range domain : List Literal)
    (s : Substitution) (found : Option Substitution) : Prop :=
  (found = none → ∀ cs, RuledOut W w range domain s cs) ∧
    ∀ t, found = some t → First W w range domain s t

/-- The first homomorphism for the rest of a list is the first one for the
whole list, if all choices before the one that was made for the first literal
are ruled out. -/
lemma First.cons {range rest : List Literal} {first b b' : Literal} {s u t : Substitution}
    {place : ℕ} {turned : Bool} (h : First W w range rest u t)
    (hb : range[place]? = some b) (hread : b.reading turned = some b')
    (halike : Alike (W.certain w) first b')
    (hu : matchTerms? s first.terms b'.terms = some u)
    (hearlier : ∀ c < Choice.at place turned, ∀ cs,
      RuledOut W w range (first :: rest) s (c :: cs)) :
    First W w range (first :: rest) s t := by
  obtain ⟨hle, hbinds, cs, hcs, hfirst⟩ := h
  have hlit : (Choice.at place turned).literal? range = some b' :=
    Option.bind_eq_some_iff.mpr ⟨b, hb, hread⟩
  refine ⟨(le_of_matchTerms? hu).trans hle, fun x => ?_, Choice.at place turned :: cs,
    List.Forall₂.cons ⟨b', hlit, halike, ?_⟩ hcs, fun cs' hcs' => ?_⟩
  · rw [hbinds x, isSome_get?_of_matchTerms? hu x, or_assoc]
    simp [Literal.vars]
  · exact map_under_of_matchTerms? hu (Substitution.fits_image_of_le hle)
  · cases cs' with
    | nil => exact absurd (fun σ _ hreal => nomatch hreal) hcs'
    | cons c cs' =>
        rcases lt_trichotomy c (Choice.at place turned) with hc | rfl | hc
        · exact absurd (hearlier c hc cs') hcs'
        · -- what realises the choices fits the match of the first literal
          have hrest : cs ≤ cs' := hfirst cs' fun hruled => hcs' (ruledOut_cons [u] hb
            (fun b'' hread' _ u' hu' => by
              rw [hread] at hread'
              cases hread'
              exact List.mem_singleton.mpr (Option.some.inj (hu'.symm.trans hu)))
            (fun u' hu' => by
              rw [List.mem_singleton.mp hu']
              exact hruled))
          exact Choice.cons_le_cons.mpr (Or.inr ⟨rfl, hrest⟩)
        · exact Choice.cons_le_cons.mpr (Or.inl hc)

/-- One candidate for the first literal, with the search for the rest behind
each way to match it. -/
lemma first_of_candidate {range rest : List Literal} {first b : Literal} {s : Substitution}
    {found : Option Substitution} {place : ℕ}
    (hask : ∀ d ∈ first.predicate?, ∀ r ∈ b.predicate?, W.ComesUp d r) (hw : W.Valid w)
    (ih : ∀ {u w found w'}, W.Valid w →
      Yields (search agree sides range rest u) w found w' →
      W.Leads w w' ∧ Settled W w' range rest u found)
    (hb : range[place]? = some b)
    (hearlier : ∀ i < place, ∀ turned cs,
      RuledOut W w range (first :: rest) s (Choice.at i turned :: cs))
    (h : Yields (do
      (← matchLiterals agree sides s first b).findSomeM? fun u =>
        search agree sides range rest u) w found w') :
    W.Leads w w' ∧
      (found = none → ∀ turned cs,
        RuledOut W w' range (first :: rest) s (Choice.at place turned :: cs)) ∧
      ∀ t, found = some t → First W w' range (first :: rest) s t := by
  obtain ⟨ways, v, hways, h⟩ := yields_bind.mp h
  obtain ⟨hleads, hways⟩ := ways_of_matchLiterals hask hw hways
  obtain ⟨hnone, hsome⟩ := yields_findSomeM?
    (fun before v' => W.Leads v v' ∧ ∀ u ∈ before, ∀ cs, RuledOut W v' range rest u cs)
    ⟨Leads.refl hleads.1, fun u hu => absurd hu (by simp)⟩
    (fun before u after v₁ v₂ _ hinv hu => by
      obtain ⟨hl, hsettled⟩ := ih hinv.1.1 hu
      refine ⟨hinv.1.trans hl, fun u' hu' cs => ?_⟩
      rcases List.mem_append.mp hu' with hu' | hu'
      · exact (hinv.2 u' hu' cs).leads hl
      · rw [List.mem_singleton.mp hu']
        exact hsettled.1 rfl cs) h
  cases found with
  | none =>
      obtain ⟨hl, hruled⟩ := hnone rfl
      refine ⟨hleads.trans hl, fun _ turned cs => ?_, fun t ht => absurd ht (by simp)⟩
      exact ruledOut_cons ways hb (fun b' hread halike => hways.complete turned b' hread
        (halike.imp fun _ _ hp => hl.possible hp)) fun u hu => hruled u hu cs
  | some t =>
      obtain ⟨before, u, after, v', hsplit, ⟨hl, hruled⟩, hu⟩ := hsome t rfl
      obtain ⟨hl', hsettled⟩ := ih hl.1 hu
      obtain ⟨turned, b', hread, halike, hmatch, hbefore⟩ := hways.sound before u after hsplit
      refine ⟨(hleads.trans hl).trans hl', fun hnone => absurd hnone (by simp), fun t' ht' => ?_⟩
      cases ht'
      refine (hsettled.2 t rfl).cons hb hread
        (halike.imp fun d r hc => hl'.2 d r true (hl.2 d r true hc)) hmatch ?_
      -- choices before this one name an earlier candidate, or an earlier reading
      intro c hc cs
      obtain ⟨i, earlier, rfl⟩ : ∃ i earlier, c = Choice.at i earlier := ⟨_, _, rfl⟩
      rcases Choice.at_lt_at.mp hc with hlt | ⟨rfl, hlt⟩
      · exact (hearlier i hlt earlier cs).leads ((hleads.trans hl).trans hl')
      · exact (ruledOut_cons before hb (fun b'' hread' halike' => hbefore earlier hlt b'' hread'
          (halike'.imp fun _ _ hp => hl.possible hp))
          fun u' hu' => hruled u' hu' cs).leads hl'

/-- **What a search finds.** It ends with valid verdicts that keep what was
vouched for. If it ends without a homomorphism, every sequence of choices is
ruled out; and if it ends with one, that is the first that is not. -/
theorem settled_of_search {range domain : List Literal} {s : Substitution}
    {found : Option Substitution} (hcovers : W.Covers domain range) (hw : W.Valid w)
    (h : Yields (search agree sides range domain s) w found w') :
    W.Leads w w' ∧ Settled W w' range domain s found := by
  induction domain generalizing s w found w' with
  | nil =>
      obtain ⟨rfl, rfl⟩ := yields_pure.mp h
      refine ⟨Leads.refl hw, fun hnone => absurd hnone (by simp), fun t ht => ?_⟩
      cases ht
      exact ⟨le_refl s, by simp, [], List.Forall₂.nil,
        fun cs' _ => not_lt.mp (List.not_lt_nil cs')⟩
  | cons first rest ih =>
      have hrest := fun {u w found w'} => @ih u w found w' fun a ha => hcovers a (by simp [ha])
      rw [search] at h
      -- the candidates that have been tried in vain are ruled out as choices for
      -- the first literal, in either reading
      obtain ⟨hnone, hsome⟩ := yields_findSomeM?
        (fun before v => W.Leads w v ∧ ∀ i < before.length, ∀ turned cs,
          RuledOut W v range (first :: rest) s (Choice.at i turned :: cs))
        ⟨Leads.refl hw, fun i hlt => absurd hlt (by simp)⟩
        (fun before b after v v' hrange hinv hb => by
          obtain ⟨hl, hruled, -⟩ := first_of_candidate
            (hcovers first (by simp) b (by simp [hrange])) hinv.1.1 hrest
            (by simp [hrange] : range[before.length]? = some b) hinv.2 hb
          refine ⟨hinv.1.trans hl, fun i hlt turned cs => ?_⟩
          rw [List.length_append, List.length_singleton] at hlt
          rcases Nat.lt_succ_iff_lt_or_eq.mp hlt with hlt | rfl
          · exact (hinv.2 i hlt turned cs).leads hl
          · exact hruled rfl turned cs) h
      cases found with
      | none =>
          obtain ⟨hl, hruled⟩ := hnone rfl
          refine ⟨hl, fun _ cs => ?_, fun t ht => absurd ht (by simp)⟩
          cases cs with
          | nil =>
              intro σ _ hreal
              cases hreal
          | cons c cs =>
              obtain ⟨i, turned, rfl⟩ : ∃ i turned, c = Choice.at i turned := ⟨_, _, rfl⟩
              by_cases hi : i < range.length
              · exact hruled i hi turned cs
              · intro σ _ hreal
                obtain ⟨⟨b', hb', -⟩, -⟩ := List.forall₂_cons.mp hreal
                obtain ⟨b, hb, -⟩ := Option.bind_eq_some_iff.mp hb'
                exact hi (List.getElem?_eq_some_iff.mp hb).1
      | some t =>
          obtain ⟨before, b, after, v, hrange, ⟨hl, hruled⟩, hb⟩ := hsome t rfl
          obtain ⟨hl', -, hfirst⟩ := first_of_candidate
            (hcovers first (by simp) b (by simp [hrange])) hl.1 hrest
            (by simp [hrange] : range[before.length]? = some b) hruled hb
          exact ⟨hl.trans hl', fun hnone => absurd hnone (by simp), hfirst⟩

/-- The same for rules: the heads are mapped first, and then the bodies are
searched. -/
theorem mapsRule_of_searchRule {d r : Rule} {found : Option Substitution}
    (hcovers : W.Covers d.body.literals r.body.literals) (hw : W.Valid w)
    (h : Yields (searchRule agree sides d r) w found w') :
    W.Leads w w' ∧ (found = none → ¬MapsRule (W.possible w') d r) ∧
      ∀ t, found = some t → MapsRule (W.certain w') d r := by
  rw [searchRule] at h
  split at h
  · rename_i seed hseed
    obtain ⟨hl, hnone, hsome⟩ := settled_of_search hcovers hw h
    refine ⟨hl, fun hfound hmapsRule => ?_, fun t ht => ?_⟩
    · obtain ⟨σ, hhead, hmaps⟩ := hmapsRule
      obtain ⟨u, hu, hfits⟩ := exists_matchTerms? (Substitution.fits_empty σ) hhead
      obtain ⟨cs, hcs⟩ := maps_iff_exists_realises.mp hmaps
      cases hseed.symm.trans hu
      exact hnone hfound cs σ hfits hcs
    · obtain ⟨hle, -, cs, hcs, -⟩ := hsome t ht
      exact ⟨t.image, map_under_of_matchTerms? hseed (Substitution.fits_image_of_le hle),
        maps_iff_exists_realises.mpr ⟨cs, hcs⟩⟩
  · rename_i hseed
    obtain ⟨rfl, rfl⟩ := yields_pure.mp h
    refine ⟨Leads.refl hw, fun _ hmapsRule => ?_, fun t ht => absurd ht (by simp)⟩
    obtain ⟨σ, hhead, -⟩ := hmapsRule
    obtain ⟨u, hu, -⟩ := exists_matchTerms? (Substitution.fits_empty σ) hhead
    exact absurd (hseed.symm.trans hu) (by simp)

end Warrant

end DependencyTheory.Homomorphism
