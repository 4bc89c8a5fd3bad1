/-
A homomorphism that a search finds carries truth from its range to its domain:

* `sameRelation_of_sameDefinition`: predicates of the same definition hold of the
  same tuples wherever both schemas are supported;
* `maps_of_homomorphismFrom?`: a homomorphism that is found maps the domain into
  the range up to predicates of the same definition;
* `holdsAll_of_homomorphism`: what a homomorphism between two lists of literals
  says about their truth, and what equivalence says.

The definitions may be recursive, and the interpretation need not be the least
that supports the schemas: that two predicates have the same definition is shown
in finitely many steps, and each of them is sound.
-/
import DependencyTheory.Proofs.Homomorphism.Comparison
import DependencyTheory.Proofs.Homomorphism.Setting
import DependencyTheory.Proofs.Semantics.Interpretation

namespace DependencyTheory.Homomorphism

universe u

variable {U : Type u} {I : Interpretation U} {base sides : Sides}

/-! ### The same definition -/

variable (I) in
/-- Whether two handles refer to predicates that hold of the same tuples. -/
def SameMeaning (base : Sides) : Likeness := fun sides d r =>
  base.Orients sides → I.SameRelation sides.domain sides.range d r

/-- A rule with a counterpart derives the same tuples. -/
lemma answers_eq_of_counterparts (hI : I.RespectsConverse) (ho : base.Orients sides)
    {rule other : Rule} (h : Counterparts (SameMeaning I base) sides rule other) :
    I.answers sides.domain rule = I.answers sides.range other := by
  obtain ⟨hforth, hback⟩ := h
  refine Set.Subset.antisymm ?_ ?_
  · refine Interpretation.answers_subset_of_mapsRule
      (Interpretation.reversible_of_respectsConverse hI _) ?_
    exact hback.imp fun _ _ hs => hs ho.turn
  · refine Interpretation.answers_subset_of_mapsRule
      (Interpretation.reversible_of_respectsConverse hI _) ?_
    exact hforth.imp fun _ _ hs => hs ho

/-- Predicates of the same definition hold of the same tuples, wherever both
schemas are supported. -/
theorem sameRelation_of_sameDefinition (base : Sides) (hI : I.RespectsConverse)
    (hd : I.Supports base.domain) (hr : I.Supports base.range) {d r : Handle}
    (h : SameDefinition sides d r) : SameMeaning I base sides d r := by
  refine sameDefinition_induction (R := SameMeaning I base) ?_ ?_ h
  · intro sides d r hnames _
    exact Interpretation.sameRelation_of_samePredicate hnames
  · rintro sides d r ⟨p, q, hp, hq, ⟨hderivedp, hderivedq, harity⟩, hforth, hback⟩ ho
    have hsupports : I.Supports sides.domain ∧ I.Supports sides.range := by
      rcases ho with rfl | rfl
      · exact ⟨hd, hr⟩
      · exact ⟨hr, hd⟩
    refine ⟨p, q, hp, hq, harity, fun args hargs => ?_⟩
    rw [hsupports.1 p (Schema.mem_predicates_of_get? hp) hderivedp args hargs,
      hsupports.2 q (Schema.mem_predicates_of_get? hq) hderivedq args (hargs.trans harity)]
    constructor
    · rintro ⟨rule, hrule, hargs⟩
      obtain ⟨other, hother, hc⟩ := hforth rule hrule
      exact ⟨other, hother, answers_eq_of_counterparts hI ho hc ▸ hargs⟩
    · rintro ⟨rule, hrule, hargs⟩
      obtain ⟨other, hother, hc⟩ := hback rule hrule
      have heq : I.answers sides.range rule = I.answers sides.domain other :=
        answers_eq_of_counterparts hI ho.turn hc
      exact ⟨other, hother, heq ▸ hargs⟩

/-! ### The answers of a search -/

/-- A homomorphism that is found maps the domain into the range, up to predicates
of the same definition. -/
theorem maps_of_homomorphismFrom? {m : Setting} {start h : Substitution}
    {domain range : List Literal}
    (hfound : m.homomorphismFrom? start domain range = .ok (some h)) :
    Maps (SameDefinition m.sides) h.image domain range := by
  obtain ⟨-, w, hw⟩ := Setting.homomorphismFrom?_eq_ok.mp hfound
  have htells : Tells m.sides (provable m.sides []) m.agree := tells_provable m.policy _ []
  obtain ⟨-, -, hsome⟩ := Warrant.settled_of_search (W := htells.warrant (Or.inl rfl))
    (fun _ _ _ _ _ _ _ _ => trivial) ⟨recorded_nil, Extends.refl []⟩ hw
  obtain ⟨-, -, cs, hcs, -⟩ := hsome h rfl
  exact (maps_iff_exists_realises.mpr ⟨cs, hcs⟩).imp fun _ _ hs => hs rfl

/-- A homomorphism makes each assignment under which the range is true into one
under which the domain is. -/
lemma holdsAll_of_homomorphismFrom? {m : Setting} (hI : I.RespectsConverse)
    (hd : I.Supports m.domain) (hr : I.Supports m.range) {start h : Substitution}
    {domain range : List Literal} (hfound : m.homomorphismFrom? start domain range = .ok (some h))
    {v : String → U} (hv : I.HoldsAll m.range v range) :
    I.HoldsAll m.domain (fun x => I.value v (h.image x)) domain := by
  have hmaps : Maps (I.SameRelation m.domain m.range) h.image domain range :=
    (maps_of_homomorphismFrom? hfound).imp fun _ _ hs =>
      sameRelation_of_sameDefinition m.sides hI hd hr hs (Or.inl rfl)
  exact Interpretation.holds_of_maps
    (Interpretation.reversible_of_respectsConverse hI range) hmaps hv

lemma isTrue_of_homomorphism? {m : Setting} (hI : I.RespectsConverse)
    (hd : I.Supports m.domain) (hr : I.Supports m.range) {h : Substitution}
    {domain range : List Literal} (hfound : m.homomorphism? domain range = .ok (some h)) :
    I.IsTrue m.range range → I.IsTrue m.domain domain := by
  rintro ⟨v, hv⟩
  exact ⟨_, holdsAll_of_homomorphismFrom? hI hd hr hfound hv⟩

/-- **Homomorphisms carry truth back**, under every policy and for definitions
of any shape, in every interpretation that supports both schemas. Lists that are
found to be equivalent are therefore true in the same ones. -/
theorem holdsAll_of_homomorphism (m : Setting) (I : Interpretation U)
    (hI : I.RespectsConverse) (hd : I.Supports m.domain) (hr : I.Supports m.range)
    (domain range : List Literal) :
    (∀ start h, m.homomorphismFrom? start domain range = .ok (some h) →
      ∀ v, I.HoldsAll m.range v range →
        I.HoldsAll m.domain (fun x => I.value v (h.image x)) domain) ∧
      (m.equivalence domain range = .ok .equivalent →
        (I.IsTrue m.domain domain ↔ I.IsTrue m.range range)) := by
  refine ⟨fun start h hfound v hv => holdsAll_of_homomorphismFrom? hI hd hr hfound hv,
    fun hequivalent => ?_⟩
  rcases Setting.equivalence_eq_ok.mp hequivalent with
    ⟨-, hverdict⟩ | ⟨h, way, hforth, hback, hverdict⟩
  · exact absurd (Setting.verdict_eq_equivalent.mp hverdict) (by simp)
  · obtain ⟨h', rfl⟩ := Option.isSome_iff_exists.mp (Setting.verdict_eq_equivalent.mp hverdict)
    exact ⟨isTrue_of_homomorphism? hI hr hd hback, isTrue_of_homomorphism? hI hd hr hforth⟩

/-- Two derived predicates whose rules say the same in another order, over a
predicate that is defined through itself. -/
def twins : Schema :=
  let edge (s t : Term) : Literal := .ordinary true ⟨⟨0, 0, 2⟩, [s, t], rfl⟩
  let trail (t : Term) : Literal := .ordinary true ⟨⟨0, 1, 1⟩, [t], rfl⟩
  let row (name : String) (r : Rule) : Predicate := ⟨0, name, 1, [r]⟩
  ⟨[⟨0, "P", 2, []⟩,
    row "T" ⟨[.var "x"], ⟨[edge (.var "x") (.var "y"), trail (.var "y")], by simp⟩⟩,
    row "D" ⟨[.var "x"], ⟨[trail (.var "x"), edge (.var "x") (.var "y")], by simp⟩⟩,
    row "E" ⟨[.var "u"], ⟨[edge (.var "u") (.var "w"), trail (.var "u")], by simp⟩⟩], []⟩

/-- Numbers in their order. Every predicate holds of the tuples that consist of
ones. -/
def ones : Interpretation Nat where
  relation _ args := ∀ n ∈ args, n = 1
  constant c := c.length
  comparison
    | .eq, a, b => a = b
    | .lt, a, b => a < b
    | .le, a, b => a ≤ b
    | .gt, a, b => a > b
    | .ge, a, b => a ≥ b
    | .ne, a, b => a ≠ b
  custom _ _ := False

lemma respectsConverse_ones : ones.RespectsConverse := by
  intro op a b
  cases op <;> simp [ones, Comparison.converse, eq_comm]

lemma supports_twins : ones.Supports twins := by
  intro p hp hderived args hargs
  simp only [twins, List.mem_cons, List.not_mem_nil, or_false] at hp
  rcases hp with rfl | rfl | rfl | rfl
  · simp [Predicate.isDerived] at hderived
  all_goals
    obtain ⟨n, rfl⟩ := List.length_eq_one_iff.mp hargs
    simp only [List.mem_singleton, exists_eq_left]
    constructor
    · intro hn
      obtain rfl : n = 1 := hn n (by simp)
      exact ⟨fun _ => 1, rfl, by simp [Interpretation.HoldsAll, Interpretation.Holds,
        Interpretation.HoldsAtom, Interpretation.value, ones, twins, Schema.get?, Table.get?]⟩
    · rintro ⟨v, hhead, hv⟩
      simp [Interpretation.HoldsAll, Interpretation.Holds, Interpretation.HoldsAtom,
        Interpretation.value, ones, twins, Schema.get?, Table.get?] at hhead hv
      simp [ones, ← hhead, hv]

/-- A denial and a comparison, of which one predicate is renamed and the other
literal is turned. -/
theorem holdsAll_of_homomorphism_twins :
    let m : Setting := ⟨twins, twins, .ruleStructural⟩
    let d : List Literal := [.ordinary false ⟨⟨0, 2, 1⟩, [.var "x"], rfl⟩,
      .builtIn (.comparison .lt (.var "x") (.const "333"))]
    let r : List Literal := [.builtIn (.comparison .gt (.const "333") (.var "u")),
      .ordinary false ⟨⟨0, 3, 1⟩, [.var "u"], rfl⟩]
    (∃ h, m.homomorphismFrom? .empty d r = .ok (some h) ∧
      ∀ v, ones.HoldsAll twins v r →
        ones.HoldsAll twins (fun x => ones.value v (h.image x)) d) ∧
      m.equivalence d r = .ok .equivalent ∧ (ones.IsTrue twins d ↔ ones.IsTrue twins r) := by
  intro m d r
  obtain ⟨hforth, hequivalent⟩ := holdsAll_of_homomorphism m ones respectsConverse_ones
    supports_twins supports_twins d r
  have hfound : m.homomorphismFrom? .empty d r = .ok (some ⟨[("x", .var "u")], by simp⟩) := by
    decide +kernel
  have hverdict : m.equivalence d r = .ok .equivalent := by decide +kernel
  exact ⟨⟨_, hfound, hforth .empty _ hfound⟩, hverdict, hequivalent hverdict⟩

end DependencyTheory.Homomorphism
