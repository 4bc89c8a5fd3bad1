/-
More permissive policies find no fewer homomorphisms:

* `search_congr`: searches that get the same answers on predicates are the same;
* `agree_of_base`: on base predicates the answers do not depend on the policy, so that a search
  which is not refused where derived predicates are forbidden is the same under every policy;
* `names`: what answers on predicates vouch for when nothing is known of the verdicts;
* `exists_yields_of_maps`: whatever verdicts there are, and whatever is being compared, a search
  finds a homomorphism if there is a map by names;
* `homomorphismFrom?_permissive`: both put together.

Where rules are compared, the homomorphism that is found may be another one than where only names
count: a comparison may lead to an earlier choice. It may also be wrong against two predicates, or
rest on wrong verdicts, but it is never asked about predicates of one name.
-/
import DependencyTheory.Proofs.Homomorphism.ByName
import DependencyTheory.Proofs.Homomorphism.Errors

namespace DependencyTheory.Homomorphism

variable {agree agree' : Agreement} {sides : Sides} {domain range : List Literal}

/-! ### The same answers -/

lemma matchLiterals_congr {a b : Literal} (s : Substitution)
    (h : ∀ d ∈ a.predicate?, ∀ r ∈ b.predicate?, agree sides d r = agree' sides d r) :
    matchLiterals agree sides s a b = matchLiterals agree' sides s a b := by
  cases a with
  | builtIn a => cases b <;> rfl
  | ordinary p a =>
      cases b with
      | builtIn b => rfl
      | ordinary q b => rw [matchLiterals, matchLiterals, h _ rfl _ rfl]

/-- Searches that get the same answers on the predicates of their literals are the same. -/
lemma search_congr (s : Substitution)
    (h : ∀ a ∈ domain, ∀ b ∈ range, ∀ d ∈ a.predicate?, ∀ r ∈ b.predicate?,
      agree sides d r = agree' sides d r) :
    search agree sides range domain s = search agree' sides range domain s := by
  induction domain generalizing s with
  | nil => rfl
  | cons first rest ih =>
      rw [search, search]
      refine findSomeM?_congr fun b hb => ?_
      rw [matchLiterals_congr s (h first (by simp) b hb)]
      refine bind_congr fun ways => findSomeM?_congr fun u _ => ?_
      exact ih u fun a ha => h a (by simp [ha])

/-- On base predicates the answers do not depend on the policy, nor on what is known of rules. -/
lemma agree_of_base {policy policy' : Policy} {rules rules' : Agreement} {d r : Handle}
    (hd : ∀ p, sides.domain.get? d = some p → p.isDerived = false)
    (hr : ∀ q, sides.range.get? r = some q → q.isDerived = false) :
    predicatesAgree policy rules sides d r = predicatesAgree policy' rules' sides d r := by
  rw [predicatesAgree, predicatesAgree]
  cases hp : sides.domainRow d with
  | error e => rfl
  | ok p =>
      cases hq : sides.rangeRow r with
      | error e => rfl
      | ok q =>
          have hbase : ¬(p.isDerived || q.isDerived) = true := by
            rw [hd p (domainRow_eq_ok.mp hp), hr q (rangeRow_eq_ok.mp hq)]
            simp
          simp only [lift_ok_bind, if_neg hbase]

/-- A search that is not refused where derived predicates are forbidden is the same under every
policy. -/
lemma homomorphismFrom?_of_forbidden {s t : Schema} {start : Substitution}
    {found : Option Substitution} (policy : Policy)
    (h : (⟨s, t, .forbidden⟩ : Setting).homomorphismFrom? start domain range = .ok found) :
    (⟨s, t, policy⟩ : Setting).homomorphismFrom? start domain range = .ok found := by
  obtain ⟨hallowed, w, hw⟩ := Setting.homomorphismFrom?_eq_ok.mp h
  obtain ⟨hd, hr⟩ := Setting.overBase_of_allowed rfl hallowed
  have hsame : search (⟨s, t, .forbidden⟩ : Setting).agree ⟨s, t, false⟩ range domain start =
      search (⟨s, t, policy⟩ : Setting).agree ⟨s, t, false⟩ range domain start := by
    refine search_congr start fun a ha b hb d hda r hrb => ?_
    rw [Setting.agree, Setting.agree, startingAgreement, startingAgreement]
    exact agree_of_base (hd a ha d hda) (hr b hb r hrb)
  refine Setting.homomorphismFrom?_eq_ok.mpr ⟨?_, w, hsame ▸ hw⟩
  cases policy with
  | forbidden => exact hallowed
  | sameName => rfl
  | ruleStructural => rfl

/-! ### Whatever the verdicts are -/

/-- Answers against two predicates vouch for different names, whatever the verdicts are. -/
def names (policy : Policy) (unopened : List Comparand) (sides : Sides) :
    Warrant (predicatesAgree policy (rulesAgree policy unopened)) sides where
  ComesUp _ _ := True
  Valid _ := True
  Vouches _ d r b := b = false → ¬SamePredicate sides d r
  valid _ _ _ := trivial
  keeps _ _ _ _ _ _ hs := hs
  vouches _ _ hy := by
    cases answered_of_yields hy with
    | named _ => exact fun hb => absurd hb (by simp)
    | unlike hunlike _ => exact fun _ => hunlike
    | remembered hunlike _ => exact fun _ => hunlike
    | compared hunlike _ _ _ => exact fun _ => hunlike
    | refused hunlike _ => exact fun _ => hunlike

/-- **No verdict hides a map by names.** Whatever the verdicts are, right or wrong, and whatever
is being compared, a search that has answers finds a homomorphism if some images that fit its
start map the domain into the range by names. -/
theorem exists_yields_of_maps {policy : Policy} {unopened : List Comparand} {start : Substitution}
    {σ : String → Term} (hfits : start.Fits σ)
    (hmaps : Maps (SamePredicate sides) σ domain range)
    (hanswers : Answers (search (predicatesAgree policy (rulesAgree policy unopened)) sides range
      domain start)) (w : Verdicts) :
    ∃ h w', Yields (search (predicatesAgree policy (rulesAgree policy unopened)) sides range
      domain start) w (some h) w' := by
  obtain ⟨found, w', hw⟩ := hanswers w
  cases found with
  | some h => exact ⟨h, w', hw⟩
  | none =>
      -- what is ruled out by a search in vain is not by names
      obtain ⟨-, hnone, -⟩ := Warrant.settled_of_search (W := names policy unopened sides)
        (fun _ _ _ _ _ _ _ _ => trivial) trivial hw
      have hpossible : ∀ d r, SamePredicate sides d r →
          (names policy unopened sides).possible w' d r := fun d r hsame hs => hs rfl hsame
      obtain ⟨cs, hcs⟩ := maps_iff_exists_realises.mp (hmaps.imp hpossible)
      exact absurd hcs (hnone rfl cs σ hfits)

/-- **More permissive policies only add homomorphisms.** A search with an answer where derived
predicates are forbidden has the same answer where they are admitted by name, and where their
rules are compared. A search between declared lists that finds a homomorphism where only names
count finds one where rules are compared, too; and so it does with whatever verdicts and
whichever comparisons left to open it is taken up, at any literal. -/
theorem homomorphismFrom?_permissive (s t : Schema) {b c : Builder} (hb : b.build = .ok s)
    (hc : c.build = .ok t) (domain range : List Literal) (hd : Declares s domain)
    (hr : Declares t range) (start : Substitution) :
    (∀ found, (⟨s, t, .forbidden⟩ : Setting).homomorphismFrom? start domain range = .ok found →
      (⟨s, t, .sameName⟩ : Setting).homomorphismFrom? start domain range = .ok found ∧
        (⟨s, t, .ruleStructural⟩ : Setting).homomorphismFrom? start domain range = .ok found) ∧
    ∀ h, (⟨s, t, .sameName⟩ : Setting).homomorphismFrom? start domain range = .ok (some h) →
      (∃ h', (⟨s, t, .ruleStructural⟩ : Setting).homomorphismFrom? start domain range =
          .ok (some h')) ∧
        ∀ unopened w, ∃ h' w', Yields
          (search (predicatesAgree .ruleStructural (rulesAgree .ruleStructural unopened))
            ⟨s, t, false⟩ range domain start) w (some h') w' := by
  refine ⟨fun found hfound => ⟨homomorphismFrom?_of_forbidden _ hfound,
    homomorphismFrom?_of_forbidden _ hfound⟩, fun h hfound => ?_⟩
  have hnames : NamesDecide ⟨s, t, .sameName⟩ domain range := ⟨hd, hr, Or.inl rfl⟩
  obtain ⟨found, hfound', -, hsome⟩ := homomorphismFrom?_byName hnames start
  obtain ⟨hle, -, cs, hcs, -⟩ := hsome h (Except.ok.inj (hfound'.symm.trans hfound))
  have hmaps : Maps (SamePredicate ⟨s, t, false⟩) h.image domain range :=
    maps_iff_exists_realises.mpr ⟨cs, hcs⟩
  have hkey : ∀ unopened w, ∃ h' w', Yields
      (search (predicatesAgree .ruleStructural (rulesAgree .ruleStructural unopened))
        ⟨s, t, false⟩ range domain start) w (some h') w' := by
    intro unopened
    have hanswers : AnswersDeclared
        (predicatesAgree .ruleStructural (rulesAgree .ruleStructural unopened)) ⟨s, t, false⟩ :=
      answers_rulesAgree unopened (rulesDeclared_of_build hb) (rulesDeclared_of_build hc)
    exact exists_yields_of_maps (Substitution.fits_image_of_le hle) hmaps
      (answers_search start (hanswers.allAnswered hd hr))
  obtain ⟨h', w', hw⟩ := hkey (Setting.sides ⟨s, t, .ruleStructural⟩).comparands []
  exact ⟨⟨h', Setting.homomorphismFrom?_eq_ok.mpr ⟨rfl, w', hw⟩⟩, hkey⟩

/-- From a start that binds `y`, two base literals have the same homomorphism under every policy.
Where only names count, `D` is mapped onto `D`; where rules are compared, `E` comes first, and
there is a homomorphism whatever is remembered of `D` and `E`. -/
theorem homomorphismFrom?_permissive_joins :
    let m (policy : Policy) : Setting := ⟨joins, joins, policy⟩
    let start : Substitution := ⟨[("y", .var "u")], by simp⟩
    let base : List Literal := [unary 0 "x", unary 1 "y"]
    let below : List Literal := [unary 1 "v", unary 1 "u", unary 0 "v"]
    let range : List Literal := [unary 3 "u", unary 2 "v"]
    ((m .sameName).homomorphismFrom? start base below =
          .ok (some ⟨[("y", .var "u"), ("x", .var "v")], by simp⟩) ∧
        (m .ruleStructural).homomorphismFrom? start base below =
          .ok (some ⟨[("y", .var "u"), ("x", .var "v")], by simp⟩)) ∧
      (m .sameName).homomorphismFrom? start [unary 2 "x"] range =
          .ok (some ⟨[("y", .var "u"), ("x", .var "v")], by simp⟩) ∧
        (m .ruleStructural).homomorphismFrom? start [unary 2 "x"] range =
          .ok (some ⟨[("y", .var "u"), ("x", .var "u")], by simp⟩) ∧
        ∀ verdict : Bool, ∃ h w', Yields
          (search (predicatesAgree .ruleStructural (rulesAgree .ruleStructural []))
            ⟨joins, joins, false⟩ range [unary 2 "x"] start)
          [(⟨⟨0, 2, 1⟩, ⟨0, 3, 1⟩, false⟩, verdict)] (some h) w' := by
  intro m start base below range
  have hbuild : (⟨0, joins.predicates, []⟩ : Builder).build = .ok joins := by decide +kernel
  have hforbidden : (m .forbidden).homomorphismFrom? start base below =
      .ok (some ⟨[("y", .var "u"), ("x", .var "v")], by simp⟩) := by decide +kernel
  have hname : (m .sameName).homomorphismFrom? start [unary 2 "x"] range =
      .ok (some ⟨[("y", .var "u"), ("x", .var "v")], by simp⟩) := by decide +kernel
  have hrules : (m .ruleStructural).homomorphismFrom? start [unary 2 "x"] range =
      .ok (some ⟨[("y", .var "u"), ("x", .var "u")], by simp⟩) := by decide +kernel
  obtain ⟨hsame, -⟩ := homomorphismFrom?_permissive joins joins hbuild hbuild base below
    (declares_iff.mpr rfl) (declares_iff.mpr rfl) start
  obtain ⟨-, hmore⟩ := homomorphismFrom?_permissive joins joins hbuild hbuild [unary 2 "x"] range
    (declares_iff.mpr rfl) (declares_iff.mpr rfl) start
  exact ⟨hsame _ hforbidden, hname, hrules, fun verdict => (hmore _ hname).2 [] _⟩

end DependencyTheory.Homomorphism
