/-
Searches in which names decide which predicates match:

* `OverBase`: whether no literal of a list is over a derived predicate;
* `NamesDecide`: whether the policy goes by the names of derived predicates, or
  none come up;
* `homomorphismFrom?_byName`: such a search has an answer, and finds the first
  homomorphism in the order of choices if there is one;
* `homomorphism?_byName`, `ruleHomomorphism?_byName`: it finds one iff there is
  one.

No verdicts are made in such a search, so that the pairs of predicates that are
vouched for and those that are not ruled out are the same from start to end.
-/
import DependencyTheory.Proofs.Homomorphism.FirstChoice
import DependencyTheory.Proofs.Homomorphism.Setting
import DependencyTheory.Proofs.Homomorphism.Totality

namespace DependencyTheory.Homomorphism

variable {m : Setting} {domain range : List Literal} {w w' : Verdicts} {b : Bool}

/-! ### Literals of a schema -/

/-- Whether no literal of a list is over a derived predicate. -/
def OverBase (s : Schema) (literals : List Literal) : Prop :=
  ∀ l ∈ literals, ∀ h ∈ l.predicate?, ∀ p, s.get? h = some p → p.isDerived = false

lemma firstDerived?_eq_none {s : Schema} {literals : List Literal} :
    firstDerived? s literals = none ↔ OverBase s literals := by
  rw [firstDerived?, List.findSome?_eq_none_iff]
  refine forall₂_congr fun l _ => ?_
  simp only [Option.bind_eq_none_iff, Option.bind_eq_some_iff, Option.mem_def, ite_eq_right_iff,
    reduceCtorEq, imp_false, Bool.not_eq_true]
  exact ⟨fun h k hk p hp => h p ⟨k, hk, hp⟩, fun h p ⟨k, hk, hp⟩ => h k hk p hp⟩

/-- Whether all predicates that can come up are declared, and their names decide
which of them match. -/
structure NamesDecide (m : Setting) (domain range : List Literal) : Prop where
  domain_declared : Declares m.domain domain
  range_declared : Declares m.range range
  byName : m.policy = .sameName ∨ OverBase m.domain domain ∧ OverBase m.range range

/-- A search that names decide is not refused. -/
lemma NamesDecide.refuseDerived (h : NamesDecide m domain range) :
    m.refuseDerived domain range = .ok () := by
  rw [Setting.refuseDerived]
  cases hpolicy : m.policy with
  | sameName => rfl
  | ruleStructural => rfl
  | forbidden =>
      obtain hname | ⟨hd, hr⟩ := h.byName
      · exact absurd (hpolicy.symm.trans hname) (by simp)
      · rw [firstDerived?_eq_none.mpr hd, firstDerived?_eq_none.mpr hr]
        rfl

/-! ### Answers by name -/

/-- Whether the names of two declared predicates decide if they match. -/
def ByName (m : Setting) (d r : Handle) : Prop :=
  ∃ p q, m.domain.get? d = some p ∧ m.range.get? r = some q ∧
    (m.policy = .sameName ∨ p.isDerived = false ∧ q.isDerived = false)

/-- Whatever predicates such a search asks about are compared by name. -/
lemma NamesDecide.comesUp (h : NamesDecide m domain range) {a b : Literal}
    (ha : a ∈ domain) (hb : b ∈ range) {d r : Handle} (hd : d ∈ a.predicate?)
    (hr : r ∈ b.predicate?) : ByName m d r := by
  obtain ⟨p, hp⟩ := h.domain_declared a ha d hd
  obtain ⟨q, hq⟩ := h.range_declared b hb r hr
  exact ⟨p, q, hp, hq, h.byName.imp_right fun hbase =>
    ⟨hbase.1 a ha d hd p hp, hbase.2 b hb r hr q hq⟩⟩

/-- An answer by name makes no verdicts. -/
lemma ByName.answer {d r : Handle} (h : ByName m d r) (hy : Yields (m.agree m.sides d r) w b w') :
    w' = w ∧ (b = true ↔ SamePredicate m.sides d r) := by
  obtain ⟨p, q, hp, hq, hnames⟩ := h
  obtain ⟨p', q', hp', hq', hcases⟩ := yields_predicatesAgree hy
  cases hp.symm.trans hp'
  cases hq.symm.trans hq'
  rcases hcases with ⟨rfl, hw, -⟩ | ⟨hpolicy, hderived, -, -⟩
  · exact ⟨hw, (samePredicate_iff hp' hq').symm⟩
  · rcases hnames with hname | ⟨hdp, hdq⟩
    · exact absurd (hname.symm.trans hpolicy) (by simp)
    · exact absurd hderived (by simp [hdp, hdq])

lemma ByName.answers {d r : Handle} (h : ByName m d r) : Answers (m.agree m.sides d r) := by
  obtain ⟨p, q, hp, hq, hnames⟩ := h
  exact answers_predicatesAgree hp hq (hnames.imp_right Or.inl)

/-- Answers by name vouch for what they say about the names. -/
def byName (m : Setting) : Warrant m.agree m.sides where
  ComesUp := ByName m
  Valid _ := True
  Vouches _ d r b := b = true ↔ SamePredicate m.sides d r
  valid _ _ _ := trivial
  keeps _ _ _ _ _ _ hs := hs
  vouches hup _ hy := (hup.answer hy).2

lemma certain_byName : (byName m).certain w = SamePredicate m.sides := by
  funext d r
  exact propext ⟨fun h => h.mp rfl, fun h => iff_of_true rfl h⟩

lemma possible_byName : (byName m).possible w = SamePredicate m.sides := by
  funext d r
  refine propext ⟨fun h => ?_, fun h hs => absurd (hs.mpr h) (by simp)⟩
  exact by_contra fun hne => h (iff_of_false (by simp) hne)

/-! ### Searching by name -/

/-- Where names decide, a search has an answer. It finds nothing if no images map
the domain into the range; otherwise it finds the least extension that makes the
first choices that can be realised. -/
theorem homomorphismFrom?_byName (h : NamesDecide m domain range) (start : Substitution) :
    ∃ found, m.homomorphismFrom? start domain range = .ok found ∧
      (found = none → ∀ σ, start.Fits σ → ¬Maps (SamePredicate m.sides) σ domain range) ∧
      ∀ t, found = some t → start ≤ t ∧
        (∀ x, (t.get? x).isSome ↔ (start.get? x).isSome ∨ ∃ a ∈ domain, x ∈ a.vars) ∧
        ∃ cs, Realises (SamePredicate m.sides) t.image range domain cs ∧
          ∀ σ cs', start.Fits σ → Realises (SamePredicate m.sides) σ range domain cs' →
            cs ≤ cs' := by
  have hanswers : Answers (search m.agree m.sides range domain start) :=
    answers_search start fun a ha b hb d hd r hr => (h.comesUp ha hb hd hr).answers
  obtain ⟨found, w, hw⟩ := hanswers []
  refine ⟨found, Setting.homomorphismFrom?_eq_ok.mpr ⟨h.refuseDerived, w, hw⟩, ?_⟩
  obtain ⟨-, hnone, hsome⟩ := Warrant.settled_of_search (W := byName m)
    (fun a ha b hb d hd r hr => h.comesUp ha hb hd hr) trivial hw
  have hruled : ∀ cs', Warrant.RuledOut (byName m) w range domain start cs' ↔
      ∀ σ, start.Fits σ → ¬Realises (SamePredicate m.sides) σ range domain cs' := by
    intro cs'
    rw [Warrant.RuledOut, possible_byName]
  refine ⟨fun hfound σ hσ hmaps => ?_, fun t ht => ?_⟩
  · obtain ⟨cs, hcs⟩ := maps_iff_exists_realises.mp hmaps
    exact (hruled cs).mp (hnone hfound cs) σ hσ hcs
  · obtain ⟨hle, hbinds, cs, hcs, hfirst⟩ := hsome t ht
    rw [certain_byName] at hcs
    refine ⟨hle, hbinds, cs, hcs, fun σ cs' hσ hcs' => hfirst cs' fun hout => ?_⟩
    exact (hruled cs').mp hout σ hσ hcs'

/-- Whether a search has an answer, and finds something iff there is something to
be found. -/
def Finds (search : Except AnalysisError (Option Substitution)) (P : Prop) : Prop :=
  ∃ found, search = .ok found ∧ (found.isSome = true ↔ P)

/-- The search without a start finds a homomorphism iff there is one. -/
lemma homomorphism?_byName (h : NamesDecide m domain range) :
    Finds (m.homomorphism? domain range) (∃ σ, Maps (SamePredicate m.sides) σ domain range) := by
  obtain ⟨found, hfound, hnone, hsome⟩ := homomorphismFrom?_byName h Substitution.empty
  refine ⟨found, hfound, ?_⟩
  cases found with
  | none =>
      refine iff_of_false (by simp) ?_
      rintro ⟨σ, hmaps⟩
      exact hnone rfl σ (Substitution.fits_empty σ) hmaps
  | some t =>
      obtain ⟨-, -, cs, hcs, -⟩ := hsome t rfl
      exact iff_of_true rfl ⟨t.image, maps_iff_exists_realises.mpr ⟨cs, hcs⟩⟩

/-- Where names decide, a search between rules has an answer, and finds a
homomorphism iff some images map the first onto the second. -/
theorem ruleHomomorphism?_byName {d r : Rule}
    (h : NamesDecide m d.body.literals r.body.literals) :
    Finds (m.ruleHomomorphism? d r) (MapsRule (SamePredicate m.sides) d r) := by
  have hanswers : Answers (searchRule m.agree m.sides d r) :=
    answers_searchRule fun a ha b hb d hd r hr => (h.comesUp ha hb hd hr).answers
  obtain ⟨found, w, hw⟩ := hanswers []
  refine ⟨found, Setting.ruleHomomorphism?_eq_ok.mpr ⟨h.refuseDerived, w, hw⟩, ?_⟩
  obtain ⟨-, hnone, hsome⟩ := Warrant.mapsRule_of_searchRule (W := byName m)
    (fun a ha b hb d hd r hr => h.comesUp ha hb hd hr) trivial hw
  rw [possible_byName] at hnone
  rw [certain_byName] at hsome
  cases found with
  | none => exact iff_of_false (by simp) (hnone rfl)
  | some t => exact iff_of_true rfl (hsome t rfl)

end DependencyTheory.Homomorphism
