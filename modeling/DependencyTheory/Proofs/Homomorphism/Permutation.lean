/-
When the order of literals matters to a search that compares definitions:

* `Found`, `EndsWith`: what a search finds, and the verdicts that it ends with;
* `WronglyDenies`: whether there is a map up to predicates of the same definition,
  but every one of them rests on a pair that the search has denied;
* `found_iff`: a homomorphism is found iff there is such a map and the search does
  not wrongly deny;
* `found_perm_iff`: the order matters just where one order wrongly denies and
  another does not, which cannot be if one of the schemas has no recursive
  definitions.

Whether there is a map does not depend on the order of the literals, so it is only
through its verdicts that a search can depend on it. A verdict against a pair may
rest on a pair that came up inside its own comparison, and it is kept when that
comparison ends, even if it ends in favour of the pair.
-/
import DependencyTheory.Proofs.Homomorphism.Nonrecursive
import DependencyTheory.Proofs.Homomorphism.Setting
import DependencyTheory.Proofs.Homomorphism.Totality

namespace DependencyTheory.Homomorphism

variable {m : Setting} {domain range : List Literal} {w w' : Verdicts}

/-! ### The verdicts of a search -/

/-- Whether a search finds a homomorphism. -/
def Found (m : Setting) (domain range : List Literal) : Prop :=
  ∃ h, m.homomorphism? domain range = .ok (some h)

/-- Whether a search ends with certain verdicts. -/
def EndsWith (m : Setting) (domain range : List Literal) (w : Verdicts) : Prop :=
  ∃ found, Yields (search m.agree m.sides range domain .empty) [] found w

/-- Whether predicates have the same definition, and there is no verdict against
it. -/
def Undenied (m : Setting) (w : Verdicts) (d r : Handle) : Prop :=
  SameDefinition m.sides d r ∧ w.lookup ⟨d, r, false⟩ ≠ some false

/-- Whether there is a map up to predicates of the same definition, but each such
map needs a pair with a verdict against it. -/
def WronglyDenies (m : Setting) (domain range : List Literal) : Prop :=
  (∃ σ, Maps (SameDefinition m.sides) σ domain range) ∧
    ∀ w, EndsWith m domain range w → ¬∃ σ, Maps (Undenied m w) σ domain range

/-! ### Verdicts as warrants -/

/-- What verdicts say of two predicates: they match if the names agree or there is
a verdict in favour, and they do not if the names differ and there is a verdict
against them or nothing to be compared. -/
def Entails (m : Setting) (w : Verdicts) (d r : Handle) : Bool → Prop
  | true => SamePredicate m.sides d r ∨ w.lookup ⟨d, r, false⟩ = some true
  | false => ¬SamePredicate m.sides d r ∧
      ((∀ R, ¬Defines R m.sides d r) ∨ w.lookup ⟨d, r, false⟩ = some false)

lemma Entails.mono {d r : Handle} {b : Bool} (h : Entails m w d r b) (hw : Extends w w') :
    Entails m w' d r b := by
  cases b with
  | true => exact h.imp_right (hw _ _)
  | false => exact ⟨h.1, h.2.imp_right (hw _ _)⟩

/-- Whether verdicts are right when they are in favour. -/
abbrev Proven (m : Setting) : Verdicts → Prop :=
  Recorded m.sides fun b sides d r => b = true → SameDefinition sides d r

/-- An answer makes verdicts that entail it, and changes none. -/
lemma entails_of_agree (hpolicy : m.policy = .ruleStructural) {d r : Handle} {b : Bool}
    (hp : ∃ p, m.domain.get? d = some p) (hq : ∃ q, m.range.get? r = some q)
    (hw : Proven m w) (hy : Yields (m.agree m.sides d r) w b w') :
    Proven m w' ∧ Extends w w' ∧ Entails m w' d r b := by
  obtain ⟨⟨hproven, hextends⟩, -⟩ := tells_provable m.policy m.sides.comparands w m.sides
    (Or.inl rfl) d r w b w' trivial ⟨hw, Extends.refl w⟩ hy
  refine ⟨hproven, hextends, ?_⟩
  cases answered_of_yields hy with
  | named hnames => exact Or.inl hnames
  | unlike hunlike hrules => exact ⟨hunlike, Or.inl (hrules hpolicy)⟩
  | refused _ hclosed =>
      obtain ⟨p, hp⟩ := hp
      obtain ⟨q, hq⟩ := hq
      exact absurd (mem_comparands (Or.inl rfl) hp hq) hclosed
  | remembered hunlike hlookup =>
      cases b with
      | true => exact Or.inr hlookup
      | false => exact ⟨hunlike, Or.inr hlookup⟩
  | @compared b v hunlike _ _ _ =>
      have hlookup : List.lookup ⟨d, r, false⟩ ((⟨d, r, m.sides.turned⟩, b) :: v) = some b :=
        List.lookup_cons_self
      cases b with
      | true => exact Or.inr hlookup
      | false => exact ⟨hunlike, Or.inr hlookup⟩

/-- Verdicts vouch for what they entail. -/
def verdicts (m : Setting) (hpolicy : m.policy = .ruleStructural) :
    Warrant m.agree m.sides where
  ComesUp d r := (∃ p, m.domain.get? d = some p) ∧ ∃ q, m.range.get? r = some q
  Valid := Proven m
  Vouches := Entails m
  valid hup hw hy := (entails_of_agree hpolicy hup.1 hup.2 hw hy).1
  keeps hup hw hy _ _ _ h := h.mono (entails_of_agree hpolicy hup.1 hup.2 hw hy).2.1
  vouches hup hw hy := (entails_of_agree hpolicy hup.1 hup.2 hw hy).2.2

/-- A match that is vouched for is one of predicates of the same definition, and is
not denied. -/
lemma Entails.undenied {d r : Handle} (hw : Proven m w) (h : Entails m w d r true) :
    Undenied m w d r := by
  rcases h with hnames | hlookup
  · refine ⟨sameDefinition_iff.mpr (Or.inl hnames), fun hdenied => ?_⟩
    exact (hw m.sides (Or.inl rfl) d r false hdenied).1 hnames
  · refine ⟨(hw m.sides (Or.inl rfl) d r true hlookup).2 rfl, ?_⟩
    rw [hlookup]
    simp

/-- Nothing is said against predicates of the same definition that are not
denied. -/
lemma Undenied.not_entails {d r : Handle} (h : Undenied m w d r) :
    ¬Entails m w d r false := by
  rintro ⟨hunlike, hrules | hdenied⟩
  · exact (sameDefinition_iff.mp h.1).elim hunlike (hrules _)
  · exact h.2 hdenied

/-! ### What is found -/

section RuleStructural

variable (hpolicy : m.policy = .ruleStructural)

include hpolicy

/-- A homomorphism is found iff there is a map that the verdicts at the end do not
deny. -/
lemma found_iff_exists_undenied (hd : Declares m.domain domain) (hr : Declares m.range range) :
    Found m domain range ↔
      ∃ w, EndsWith m domain range w ∧ ∃ σ, Maps (Undenied m w) σ domain range := by
  have hcovers : (verdicts m hpolicy).Covers domain range := fun a ha b hb d hda r hrb =>
    ⟨hd a ha d hda, hr b hb r hrb⟩
  constructor
  · rintro ⟨h, hfound⟩
    obtain ⟨-, w, hw⟩ := Setting.homomorphismFrom?_eq_ok.mp hfound
    obtain ⟨hleads, -, hsome⟩ := Warrant.settled_of_search hcovers recorded_nil hw
    obtain ⟨-, -, cs, hcs, -⟩ := hsome h rfl
    refine ⟨w, ⟨_, hw⟩, h.image, ?_⟩
    exact (maps_iff_exists_realises.mpr ⟨cs, hcs⟩).imp fun d r hvouch =>
      Entails.undenied hleads.1 hvouch
  · rintro ⟨w, ⟨found, hw⟩, σ, hmaps⟩
    have hallowed : m.refuseDerived domain range = .ok () := by
      rw [Setting.refuseDerived, hpolicy]
    cases found with
    | some h => exact ⟨h, Setting.homomorphismFrom?_eq_ok.mpr ⟨hallowed, w, hw⟩⟩
    | none =>
        -- a search in vain has ruled out all maps that the verdicts do not deny
        obtain ⟨-, hnone, -⟩ := Warrant.settled_of_search hcovers recorded_nil hw
        obtain ⟨cs, hcs⟩ := maps_iff_exists_realises.mp (hmaps.imp fun _ _ => Undenied.not_entails)
        exact absurd hcs (hnone rfl cs σ (Substitution.fits_empty σ))

/-- **What is found**: a homomorphism iff there is a map up to predicates of the
same definition, and the search does not wrongly deny it. -/
theorem found_iff (hd : Declares m.domain domain) (hr : Declares m.range range) :
    Found m domain range ↔
      (∃ σ, Maps (SameDefinition m.sides) σ domain range) ∧ ¬WronglyDenies m domain range := by
  rw [found_iff_exists_undenied hpolicy hd hr]
  constructor
  · rintro ⟨w, hw, σ, hmaps⟩
    exact ⟨⟨σ, hmaps.imp fun _ _ h => h.1⟩, fun hdenies => hdenies.2 w hw ⟨σ, hmaps⟩⟩
  · rintro ⟨hmaps, hdenies⟩
    by_contra hno
    exact hdenies ⟨hmaps, fun w hw hundenied => hno ⟨w, hw, hundenied⟩⟩

/-- A search between declared literals ends. -/
lemma exists_endsWith (hdeclared : RulesDeclared m.domain) (hdeclared' : RulesDeclared m.range)
    (hd : Declares m.domain domain) (hr : Declares m.range range) :
    ∃ found w, Yields (search m.agree m.sides range domain .empty) [] found w := by
  have hanswers : AnswersDeclared m.agree m.sides := by
    rw [Setting.agree, hpolicy]
    exact answers_rulesAgree m.sides.comparands hdeclared hdeclared'
  exact answers_search .empty (hanswers.allAnswered hd hr) []

/-- Where one of the schemas has no recursive definitions, no search wrongly
denies. -/
theorem not_wronglyDenies (hdeclared : RulesDeclared m.domain)
    (hdeclared' : RulesDeclared m.range)
    (hrec : Nonrecursive m.domain ∨ Nonrecursive m.range)
    (hd : Declares m.domain domain) (hr : Declares m.range range) :
    ¬WronglyDenies m domain range := by
  rintro ⟨⟨σ, hmaps⟩, hdenied⟩
  obtain ⟨μ, hμ⟩ : ∃ μ, Shrinks m.sides μ := shrinks_of_nonrecursive hrec
  obtain ⟨found, w, hw⟩ := exists_endsWith hpolicy hdeclared hdeclared' hd hr
  have htells := tells_sameDefinition hμ
  rw [← hpolicy] at htells
  obtain ⟨hleads, -, -⟩ := Warrant.settled_of_search (W := htells.warrant (Or.inl rfl))
    (fun _ _ _ _ _ _ _ _ => trivial) recorded_nil hw
  refine hdenied w ⟨found, hw⟩ ⟨σ, hmaps.imp fun d r hsame => ⟨hsame, fun hlookup => ?_⟩⟩
  exact absurd ((hleads.1 m.sides (Or.inl rfl) d r false hlookup).2.mpr hsame) (by simp)

end RuleStructural

/-! ### The order of literals -/

/-- The order of the literals of a list does not matter to what declares them. -/
lemma Declares.perm {s : Schema} {literals literals' : List Literal} (h : Declares s literals)
    (hperm : literals'.Perm literals) : Declares s literals' :=
  fun l hl => h l (hperm.mem_iff.mp hl)

/-- The order does not matter to whether there is a map. -/
lemma exists_maps_perm {same : Handle → Handle → Prop} {domain' range' : List Literal}
    (hd : domain'.Perm domain) (hr : range'.Perm range) :
    (∃ σ, Maps same σ domain' range') ↔ ∃ σ, Maps same σ domain range :=
  ⟨fun ⟨σ, h⟩ => ⟨σ, h.perm hd hr⟩, fun ⟨σ, h⟩ => ⟨σ, h.perm hd.symm hr.symm⟩⟩

/-- **When the order matters.** Between built schemas and declared literals, where
derived predicates are compared by their rules, a search ends with an answer. In
every order of the literals it finds a homomorphism iff there is a map that it does
not wrongly deny. So its success does not depend on the order iff it does not depend
on the order whether the search wrongly denies; and this is so where one of the
schemas has no recursive definitions. -/
theorem found_perm_iff (m : Setting) (hpolicy : m.policy = .ruleStructural) {b c : Builder}
    (hb : b.build = .ok m.domain) (hc : c.build = .ok m.range) (domain range : List Literal)
    (hd : Declares m.domain domain) (hr : Declares m.range range) :
    (∃ found, m.homomorphism? domain range = .ok found) ∧
      (∀ domain' range', domain'.Perm domain → range'.Perm range →
        (Found m domain' range' ↔
          (∃ σ, Maps (SameDefinition m.sides) σ domain range) ∧
            ¬WronglyDenies m domain' range')) ∧
      ((∀ domain' range', domain'.Perm domain → range'.Perm range →
          (Found m domain' range' ↔ Found m domain range)) ↔
        ∀ domain' range', domain'.Perm domain → range'.Perm range →
          (WronglyDenies m domain' range' ↔ WronglyDenies m domain range)) ∧
      (Nonrecursive m.domain ∨ Nonrecursive m.range →
        ∀ domain' range', domain'.Perm domain → range'.Perm range →
          (Found m domain' range' ↔ Found m domain range)) := by
  have hdeclared := rulesDeclared_of_build hb
  have hdeclared' := rulesDeclared_of_build hc
  have hfound : ∀ domain' range', domain'.Perm domain → range'.Perm range →
      (Found m domain' range' ↔
        (∃ σ, Maps (SameDefinition m.sides) σ domain range) ∧
          ¬WronglyDenies m domain' range') := fun domain' range' hpd hpr => by
    rw [found_iff hpolicy (hd.perm hpd) (hr.perm hpr), exists_maps_perm hpd hpr]
  have hstart := hfound domain range (List.Perm.refl _) (List.Perm.refl _)
  refine ⟨?_, hfound, ⟨fun hsame => ?_, fun hsame => ?_⟩, fun hrec => ?_⟩
  · obtain ⟨found, w, hw⟩ := exists_endsWith hpolicy hdeclared hdeclared' hd hr
    refine ⟨found, Setting.homomorphismFrom?_eq_ok.mpr ⟨?_, w, hw⟩⟩
    rw [Setting.refuseDerived, hpolicy]
  · intro domain' range' hpd hpr
    have hsame' := hsame domain' range' hpd hpr
    rw [hfound domain' range' hpd hpr, hstart] at hsame'
    by_cases hmaps : ∃ σ, Maps (SameDefinition m.sides) σ domain range
    · rw [and_iff_right hmaps, and_iff_right hmaps] at hsame'
      exact not_iff_not.mp hsame'
    · -- without a map there is nothing to be denied
      refine iff_of_false (fun hdenies => ?_) (fun hdenies => hmaps hdenies.1)
      exact hmaps ((exists_maps_perm hpd hpr).mp hdenies.1)
  · intro domain' range' hpd hpr
    rw [hfound domain' range' hpd hpr, hstart, hsame domain' range' hpd hpr]
  · intro domain' range' hpd hpr
    have hnot : ∀ domain' range', domain'.Perm domain → range'.Perm range →
        ¬WronglyDenies m domain' range' := fun domain' range' hpd hpr =>
      not_wronglyDenies hpolicy hdeclared hdeclared' hrec (hd.perm hpd) (hr.perm hpr)
    rw [hfound domain' range' hpd hpr, hstart, and_iff_left (hnot domain' range' hpd hpr),
      and_iff_left (hnot domain range (List.Perm.refl _) (List.Perm.refl _))]

/-- An affirmed literal over the predicate at a place of a table, of one
variable. -/
def unary (index : Nat) (x : String) : Literal := .ordinary true ⟨⟨0, index, 1⟩, [.var x], rfl⟩

/-- Two derived predicates that join two base predicates, in either order. -/
def joins : Schema :=
  ⟨[⟨0, "P", 1, []⟩, ⟨0, "Q", 1, []⟩,
    ⟨0, "D", 1, [⟨[.var "x"], ⟨[unary 0 "x", unary 1 "x"], by simp⟩⟩]⟩,
    ⟨0, "E", 1, [⟨[.var "u"], ⟨[unary 1 "u", unary 0 "u"], by simp⟩⟩]⟩], []⟩

lemma declares_unary {s : Schema} {literals : List Literal}
    (h : ∀ l ∈ literals, ∃ index x p, l = unary index x ∧ s.get? ⟨0, index, 1⟩ = some p) :
    Declares s literals := by
  intro l hl k hk
  obtain ⟨index, x, p, rfl, hp⟩ := h l hl
  cases hk
  exact ⟨p, hp⟩

/-- The rules of the joins refer to what is declared before them. -/
lemma ranked_joins : Ranked joins Handle.index := by
  intro h p hp rule hrule l hl k hk
  have hrow := (Table.get?_eq_some.mp hp).1
  have hplace : h.index = 0 ∨ h.index = 1 ∨ h.index = 2 ∨ h.index = 3 := by
    have hlt : h.index < joins.predicates.length := (List.getElem?_eq_some_iff.mp hrow).1
    simp only [joins, List.length_cons, List.length_nil] at hlt
    omega
  rcases hplace with hi | hi | hi | hi <;> rw [hi] at hrow ⊢ <;> cases hrow
  · exact absurd hrule (by simp)
  · exact absurd hrule (by simp)
  all_goals
    rw [List.mem_singleton] at hrule
    subst hrule
    simp only [List.mem_cons, List.not_mem_nil, or_false] at hl
    rcases hl with rfl | rfl <;> cases hk <;> simp

/-- A search between joins finds a homomorphism in every order. -/
theorem found_perm_iff_joins :
    let m : Setting := ⟨joins, joins, .ruleStructural⟩
    let d : List Literal := [unary 2 "x", unary 0 "y"]
    let r : List Literal := [unary 0 "u", unary 3 "u"]
    Declares m.domain d ∧ Declares m.range r ∧
      ∀ d' r', d'.Perm d → r'.Perm r → Found m d' r' := by
  intro m d r
  have hbuild : (⟨0, joins.predicates, []⟩ : Builder).build = .ok joins := by decide +kernel
  have hd : Declares joins d := declares_unary fun l hl => by
    simp only [d, List.mem_cons, List.not_mem_nil, or_false] at hl
    rcases hl with rfl | rfl <;> exact ⟨_, _, _, rfl, rfl⟩
  have hr : Declares joins r := declares_unary fun l hl => by
    simp only [r, List.mem_cons, List.not_mem_nil, or_false] at hl
    rcases hl with rfl | rfl <;> exact ⟨_, _, _, rfl, rfl⟩
  have hfound : m.homomorphism? d r =
      .ok (some ⟨[("x", .var "u"), ("y", .var "u")], by simp⟩) := by decide +kernel
  obtain ⟨-, -, -, hperm⟩ := found_perm_iff m rfl hbuild hbuild d r hd hr
  refine ⟨hd, hr, fun d' r' hd' hr' => ?_⟩
  exact (hperm (Or.inl ⟨_, ranked_joins⟩) d' r' hd' hr').mpr ⟨_, hfound⟩

/-- Three predicates that are defined through themselves and each other. -/
def loops : Schema :=
  ⟨[⟨0, "A", 1, [⟨[.var "x"], ⟨[unary 0 "x", unary 1 "x"], by simp⟩⟩]⟩,
    ⟨0, "B", 1, [⟨[.var "x"], ⟨[unary 0 "x", unary 2 "x"], by simp⟩⟩]⟩,
    ⟨0, "C", 1, [⟨[.var "x"], ⟨[unary 0 "x", unary 2 "x"], by simp⟩⟩]⟩], []⟩

/-- A schema that can be built, and two literals over it that are mapped onto a third
in one order but not in the other. The second order compares `B` with `C` first, and
`A` with `C` inside; that one fails as it comes to `B` and `C` again, and is then
taken to have failed for good. -/
theorem not_found_perm_loops :
    let m : Setting := ⟨loops, loops, .ruleStructural⟩
    let forth : List Literal := [unary 0 "x", unary 1 "x"]
    let back : List Literal := [unary 1 "x", unary 0 "x"]
    let target : List Literal := [unary 2 "u"]
    (∃ b : Builder, b.build = .ok loops) ∧ Declares loops forth ∧ Declares loops target ∧
      back.Perm forth ∧ Found m forth target ∧ ¬Found m back target := by
  intro m forth back target
  have hbuild : (⟨0, loops.predicates, []⟩ : Builder).build = .ok loops := by decide +kernel
  -- the comparisons are nested deeply
  have hforth : m.homomorphism? forth target = .ok (some ⟨[("x", .var "u")], by simp⟩) := by
    decide +kernel
  have hback : m.homomorphism? back target = .ok none := by
    decide +kernel
  refine ⟨⟨_, hbuild⟩, declares_unary fun l hl => ?_, declares_unary fun l hl => ?_,
    List.Perm.swap _ _ _, ⟨_, hforth⟩, ?_⟩
  · simp only [forth, List.mem_cons, List.not_mem_nil, or_false] at hl
    rcases hl with rfl | rfl <;> exact ⟨_, _, _, rfl, rfl⟩
  · simp only [target, List.mem_singleton] at hl
    exact ⟨_, _, _, hl, rfl⟩
  · rintro ⟨h, hfound⟩
    exact absurd (hback.symm.trans hfound) (by simp)

end DependencyTheory.Homomorphism
