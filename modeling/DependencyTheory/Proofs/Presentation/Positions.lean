/-
Affected positions and marked variables under another presentation:

* `IsAffected.of_shuffled`: variants have the same affected positions;
* `Tgd.Renames.covers`: a literal that covers certain variables covers those that correspond to
  them;
* `MarkedIn`: marked variables, without the places of their dependencies;
* `MarkedIn.of_shuffled`: corresponding variables are marked in variants;
* `marked_once_iff`: no marked variable stands at two positions of its body iff none occurs in
  it more than once.

The places of dependencies in a list and of literals in a body change with the presentation, so
both the marking and the number of occurrences are put without them.
-/
import DependencyTheory.Proofs.Language.Verdicts
import DependencyTheory.Proofs.Presentation.Variant
import Mathlib.Data.Finset.Card

namespace DependencyTheory

variable {R : Handle → Handle → Prop} {V : String → String → Prop} {a b : Atom} {t t' : Tgd}
  {ts ts' : List Tgd} {p p' : Position} {x y : String}

/-! ### Positions -/

/-- Whether two positions have corresponding handles and the same place. -/
structure Position.Matches (R : Handle → Handle → Prop) (p p' : Position) : Prop where
  predicate : R p.predicate p'.predicate
  index : p.index = p'.index

/-- What stands in an atom corresponds to what stands at the same place of the other. -/
lemma Atom.Renames.exists_standsAt (hR : Relator.BiUnique R) (h : a.Renames R V b)
    (hp : p.Matches R p') (hx : a.StandsAt x p) : ∃ y, V x y ∧ b.StandsAt y p' := by
  obtain ⟨term, hterm, hrenames⟩ := exists_getElem?_of_forall₂ h.terms hx.2
  cases hrenames with
  | var hxy =>
      refine ⟨_, hxy, hR.2 h.predicate (hx.1 ▸ hp.predicate), ?_⟩
      rw [← hp.index, hterm]

/-- Every position of an atom has one that matches it. -/
lemma Atom.Renames.matches (h : a.Renames R V b) (hx : a.StandsAt x p) :
    p.Matches R ⟨b.predicate, p.index⟩ :=
  ⟨hx.1 ▸ h.predicate, rfl⟩

lemma Clause.Renames.positiveAtoms {c c' : Clause} (h : c.Renames R V c') :
    Shuffled (Atom.Renames R V) c.positiveAtoms c'.positiveAtoms :=
  Shuffled.filterMap h fun _ _ hl => Literal.Renames.positiveAtom? hl

/-- If a universal variable stands at positions of one kind only, so does a corresponding one. -/
lemma Tgd.Renames.forall_standsAt (hR : Relator.BiUnique R) (hV : Relator.BiUnique V)
    (h : t.Renames R V t') (hxy : V x y) {P P' : Position → Prop}
    (hP : ∀ q q', q.Matches R q' → P q → P' q')
    (hall : ∀ b ∈ t.body.positiveAtoms, ∀ q, b.StandsAt x q → P q) :
    ∀ b ∈ t'.body.positiveAtoms, ∀ q, b.StandsAt y q → P' q := by
  intro b' hb' q' hq'
  obtain ⟨b, hb, hrenames⟩ := h.body.positiveAtoms.flip.exists_mem hb'
  have hmatches := (Atom.Renames.flip hrenames).matches hq'
  obtain ⟨z, hz, hbz⟩ :=
    (Atom.Renames.flip hrenames).exists_standsAt (biUnique_flip hR) hmatches hq'
  obtain rfl : z = x := hV.1 hz hxy
  exact hP _ q' ⟨hmatches.predicate, hmatches.index.symm⟩ (hall b hb _ hbz)

/-- **Variants have the same affected positions**, up to the correspondence of handles. -/
theorem IsAffected.of_shuffled (hR : Relator.BiUnique R) (h : IsAffected ts p)
    (hts : Shuffled (Tgd.Variant R) ts ts') (hp : p.Matches R p') : IsAffected ts' p' := by
  induction h generalizing p' with
  | invented ht ha hx huniversal =>
      obtain ⟨t', ht', V, hV, hrenames⟩ := hts.exists_mem ht
      obtain ⟨a', ha', haa⟩ := hrenames.head.exists_mem ha
      obtain ⟨y, hxy, hy⟩ := haa.exists_standsAt hR hp hx
      exact .invented ht' ha' hy fun hmem =>
        huniversal ((hrenames.mem_universal hV hxy).mpr hmem)
  | carried ht ha hx huniversal _ ih =>
      obtain ⟨t', ht', V, hV, hrenames⟩ := hts.exists_mem ht
      obtain ⟨a', ha', haa⟩ := hrenames.head.exists_mem ha
      obtain ⟨y, hxy, hy⟩ := haa.exists_standsAt hR hp hx
      refine .carried ht' ha' hy ((hrenames.mem_universal hV hxy).mp huniversal) ?_
      exact hrenames.forall_standsAt hR hV hxy (P := fun q => ∀ q', q.Matches R q' →
        IsAffected ts' q') (fun q q' hq hall => hall q' hq) fun b hb q hq q' hmatches =>
          ih b hb q hq hmatches

/-! ### Covering literals -/

lemma Tgd.Renames.exists_universal (h : t.Renames R V t') (hx : x ∈ t.universal) :
    ∃ y ∈ t'.universal, V x y := by
  obtain ⟨y, hy, hxy⟩ := (Shuffled.flatMap h.body fun _ _ h => Literal.Renames.vars h).exists_mem
    (OrderedSet.mem_ofList.mp hx)
  exact ⟨y, OrderedSet.mem_ofList.mpr hy, hxy⟩

/-- **A literal that covers variables covers those that correspond to them.** -/
lemma Tgd.Renames.covers (hV : Relator.BiUnique V) (h : t.Renames R V t')
    {xs xs' : OrderedSet String} (hxs : ∀ y ∈ xs', ∃ x ∈ xs, V x y)
    (hcovers : (t.coveringLiteral? xs).isSome = true) :
    (t'.coveringLiteral? xs').isSome = true := by
  obtain ⟨l, hl, hcovers⟩ := Tgd.isSome_coveringLiteral?.mp hcovers
  obtain ⟨l', hl', hrenames⟩ := Shuffled.exists_mem h.body hl
  refine Tgd.isSome_coveringLiteral?.mpr ⟨l', hl', fun y hy => ?_⟩
  obtain ⟨x, hx, hxy⟩ := hxs y hy
  exact (List.rel_mem hV hxy hrenames.vars).mp (hcovers x hx)

lemma Tgd.Renames.isSome_coveringLiteral?_eq (hV : Relator.BiUnique V) (h : t.Renames R V t')
    {xs xs' : OrderedSet String} (hxs : ∀ x ∈ xs, ∃ y ∈ xs', V x y)
    (hxs' : ∀ y ∈ xs', ∃ x ∈ xs, V x y) :
    (t.coveringLiteral? xs).isSome = (t'.coveringLiteral? xs').isSome :=
  Bool.eq_iff_iff.mpr ⟨h.covers hV hxs', h.flip.covers (biUnique_flip hV) hxs⟩

/-- The variables that stand at affected positions only correspond to each other. -/
lemma Tgd.Renames.exists_affectedVariables (hR : Relator.BiUnique R) (hV : Relator.BiUnique V)
    (h : t.Renames R V t') {affected affected' : OrderedSet Position}
    (haffected : ∀ q q', q.Matches R q' → q ∈ affected → q' ∈ affected')
    (hx : x ∈ t.affectedVariables affected) :
    ∃ y ∈ t'.affectedVariables affected', V x y := by
  obtain ⟨huniversal, hall⟩ := Tgd.mem_affectedVariables.mp hx
  obtain ⟨y, hy, hxy⟩ := h.exists_universal huniversal
  exact ⟨y, Tgd.mem_affectedVariables.mpr
    ⟨hy, h.forall_standsAt hR hV hxy (P := (· ∈ affected)) haffected hall⟩, hxy⟩

/-! ### Marked variables -/

/-- Whether the value of a variable of a dependency may get lost: some head atom lacks it, or
has it at a place that a body has for another such variable. -/
inductive MarkedIn (ts : List Tgd) : Tgd → String → Prop
  | lost {t : Tgd} {x : String} {a : Atom} (ha : a ∈ t.head) (hx : x ∉ a.vars) : MarkedIn ts t x
  | exposed {t u : Tgd} {x y : String} {a b : Atom} {p : Position} (ha : a ∈ t.head)
      (hx : a.StandsAt x p) (hu : u ∈ ts) (hb : b ∈ u.body.positiveAtoms) (hy : b.StandsAt y p)
      (hmark : MarkedIn ts u y) : MarkedIn ts t x

lemma isMarked_iff_markedIn {n : Nat} (ht : ts[n]? = some t) :
    IsMarked ts n x ↔ MarkedIn ts t x := by
  constructor
  · intro h
    induction h generalizing t with
    | lost ht' ha hx =>
        obtain rfl := Option.some.inj (ht'.symm.trans ht)
        exact .lost ha hx
    | exposed ht' ha hx hq _ ih =>
        obtain rfl := Option.some.inj (ht'.symm.trans ht)
        obtain ⟨u, hu, b, hb, hy⟩ := hq
        have hatom : b ∈ u.body.positiveAtoms :=
          Clause.mem_positiveAtoms.mpr (List.mem_of_getElem? hb)
        exact .exposed ha hx (List.mem_of_getElem? hu) hatom hy (ih hu)
  · intro h
    induction h generalizing n with
    | lost ha hx => exact .lost ht ha hx
    | @exposed t u x y a b p ha hx hu hb hy _ ih =>
        obtain ⟨m, hm⟩ := List.mem_iff_getElem?.mp hu
        obtain ⟨q, rfl, rfl, hq⟩ := Tgd.exists_standsInBody hb hy m
        exact .exposed ht ha hx ⟨u, hm, hq⟩ (ih hm)

/-- **Corresponding variables are marked in variants.** -/
theorem MarkedIn.of_shuffled (hR : Relator.BiUnique R) (h : MarkedIn ts t x)
    (hts : Shuffled (Tgd.Variant R) ts ts') (hV : Relator.BiUnique V) (ht : t.Renames R V t')
    (hxy : V x y) : MarkedIn ts' t' y := by
  induction h generalizing V t' y with
  | lost ha hx =>
      obtain ⟨a', ha', haa⟩ := ht.head.exists_mem ha
      refine .lost ha' fun hy => hx ?_
      exact (List.rel_mem hV hxy (Term.forall₂_vars haa.terms)).mpr hy
  | exposed ha hx hu hb hb' _ ih =>
      obtain ⟨a', ha', haa⟩ := ht.head.exists_mem ha
      have hmatches := haa.matches hx
      obtain ⟨z, hz, hza⟩ := haa.exists_standsAt hR hmatches hx
      obtain rfl : y = z := hV.2 hxy hz
      obtain ⟨u', hu', V', hV', hrenames⟩ := hts.exists_mem hu
      obtain ⟨b', hb'', hbb⟩ := hrenames.body.positiveAtoms.exists_mem hb
      obtain ⟨z', hz', hzb⟩ := hbb.exists_standsAt hR hmatches hb'
      exact .exposed ha' hza hu' hb'' hzb (ih hV' hrenames hz')

/-! ### Repeated variables -/

namespace Marking

/-- The places of the literal at one place of a body, with the terms there. -/
def placesOf (n : Nat) (l : Literal) (i : Nat) : List (BodyPosition × Term) :=
  match l.positiveAtom? with
  | some a => a.terms.zipIdx.map fun (term, j) => (⟨n, i, j, a.predicate⟩, term)
  | none => []

lemma places_eq (t : Tgd) (n : Nat) :
    places t n = t.body.literals.zipIdx.flatMap fun (l, i) => placesOf n l i := rfl

/-- The terms at the body positions are those of the body atoms. -/
lemma map_snd_places (t : Tgd) (n : Nat) :
    (places t n).map Prod.snd = t.body.positiveAtoms.flatMap Atom.terms := by
  have hall : ∀ (ls : List Literal) k,
      ((ls.zipIdx k).flatMap fun (l, i) => placesOf n l i).map Prod.snd =
        (ls.filterMap Literal.positiveAtom?).flatMap Atom.terms := by
    intro ls
    induction ls with
    | nil => exact fun _ => rfl
    | cons l ls ih =>
        intro k
        rw [List.zipIdx_cons, List.flatMap_cons, List.map_append, ih, List.filterMap_cons]
        simp only [placesOf]
        cases l.positiveAtom? with
        | none => rfl
        | some a =>
            refine congrArg (· ++ _) ?_
            rw [List.map_map]
            exact List.zipIdx_map_fst 0 a.terms
  rw [places_eq, hall, Clause.positiveAtoms]

/-- The places of one literal carry its place in the body and differ in that of the argument. -/
lemma literal_of_mem_placesOf {n i : Nat} {l : Literal} {p : BodyPosition}
    (hp : p ∈ (placesOf n l i).map Prod.fst) : p.literal = i := by
  obtain ⟨⟨q, term⟩, hq, rfl⟩ := List.mem_map.mp hp
  rw [placesOf] at hq
  split at hq
  · obtain ⟨⟨term, j⟩, -, he⟩ := List.mem_map.mp hq
    cases he
    rfl
  · cases hq

lemma nodup_placesOf (n : Nat) (l : Literal) (i : Nat) : ((placesOf n l i).map Prod.fst).Nodup := by
  rw [placesOf]
  split
  · next a ha =>
      refine List.Nodup.of_map BodyPosition.index ?_
      rw [List.map_map, List.map_map]
      exact (List.zipIdx_map_snd 0 a.terms).symm ▸ List.nodup_range'
  · exact List.nodup_nil

/-- No body position comes twice. -/
lemma nodup_places (t : Tgd) (n : Nat) : ((places t n).map Prod.fst).Nodup := by
  rw [places_eq, List.map_flatMap, List.nodup_flatMap]
  refine ⟨fun (l, i) _ => nodup_placesOf n l i, ?_⟩
  have hdistinct : (t.body.literals.zipIdx.map Prod.snd).Nodup :=
    (List.zipIdx_map_snd 0 t.body.literals).symm ▸ List.nodup_range'
  refine (List.pairwise_map.mp hdistinct).imp fun hne p hp hq => hne ?_
  exact (literal_of_mem_placesOf hp).symm.trans (literal_of_mem_placesOf hq)

/-- A variable stands at one body position at most iff it occurs once at most. -/
lemma occurs_once_iff {n : Nat} :
    (∀ p q : BodyPosition, p.tgd = n → q.tgd = n → t.StandsInBody p x → t.StandsInBody q x →
      p = q) ↔ (t.body.positiveAtoms.flatMap Atom.vars).count x ≤ 1 := by
  have hcount : (t.body.positiveAtoms.flatMap Atom.vars).count x = (occurrences t n x).length := by
    have hterms : t.body.positiveAtoms.flatMap Atom.vars =
        (t.body.positiveAtoms.flatMap Atom.terms).filterMap Term.varName? := by
      rw [List.filterMap_flatMap]
      rfl
    rw [hterms, ← map_snd_places t n, List.count_filterMap, List.countP_map, occurrences,
      List.length_map, List.countP_eq_length_filter]
    refine congrArg List.length (List.filter_congr fun place _ => ?_)
    rw [Bool.eq_iff_iff, decide_eq_true_iff]
    exact beq_iff_eq.trans Term.varName?_eq_some
  have hnodup : (occurrences t n x).Nodup :=
    (nodup_places t n).sublist (List.filter_sublist.map _)
  rw [hcount, ← List.toFinset_card_of_nodup hnodup, Finset.card_le_one]
  simp only [List.mem_toFinset, mem_occurrences]
  exact ⟨fun h p hp q hq => h p q hp.1 hq.1 hp.2 hq.2,
    fun h p q hp hq hpx hqx => h p ⟨hp, hpx⟩ q ⟨hq, hqx⟩⟩

end Marking

/-- **No marked variable stands twice** iff none occurs in its body more than once. -/
theorem marked_once_iff :
    (∀ p q x, p.tgd = q.tgd → Stands ts p x → Stands ts q x → IsMarked ts p.tgd x → p = q) ↔
      ∀ t ∈ ts, ∀ x, MarkedIn ts t x →
        (t.body.positiveAtoms.flatMap Atom.vars).count x ≤ 1 := by
  constructor
  · intro h t ht x hmark
    obtain ⟨n, hn⟩ := List.mem_iff_getElem?.mp ht
    refine (Marking.occurs_once_iff (n := n)).mp fun p q hp hq hpx hqx => ?_
    subst hp
    exact h p q x hq.symm ⟨t, hn, hpx⟩ ⟨t, hq ▸ hn, hqx⟩ ((isMarked_iff_markedIn hn).mpr hmark)
  · rintro h p q x htgd ⟨t, ht, hpx⟩ ⟨u, hu, hqx⟩ hmark
    obtain rfl := Option.some.inj (ht.symm.trans (htgd ▸ hu))
    have honce := h t (List.mem_of_getElem? ht) x ((isMarked_iff_markedIn ht).mp hmark)
    exact (Marking.occurs_once_iff (n := p.tgd)).mpr honce p q rfl htgd.symm hpx hqx

/-- If no marked variable of a dependency occurs more than once, none of a variant does. -/
lemma MarkedIn.occurs_once_of_shuffled (hR : Relator.BiUnique R)
    (hts : Shuffled (Tgd.Variant R) ts ts') (h : t.Variant R t')
    (honce : ∀ x, MarkedIn ts t x → (t.body.positiveAtoms.flatMap Atom.vars).count x ≤ 1) :
    ∀ y, MarkedIn ts' t' y → (t'.body.positiveAtoms.flatMap Atom.vars).count y ≤ 1 := by
  intro y hmark
  obtain ⟨V, hV, hrenames⟩ := h
  have hvars : Shuffled V (t.body.positiveAtoms.flatMap Atom.vars)
      (t'.body.positiveAtoms.flatMap Atom.vars) :=
    hrenames.body.positiveAtoms.flatMap fun _ _ h => Term.forall₂_vars h.terms
  by_cases hy : y ∈ t'.body.positiveAtoms.flatMap Atom.vars
  · obtain ⟨x, -, hxy⟩ := hvars.flip.exists_mem hy
    rw [← hvars.count_eq hV hxy]
    refine honce x (hmark.of_shuffled (biUnique_flip hR) ?_ (biUnique_flip hV) hrenames.flip hxy)
    exact hts.flip.mono fun _ _ h => Tgd.Variant.flip h
  · rw [List.count_eq_zero_of_not_mem hy]
    exact Nat.zero_le 1

end DependencyTheory
