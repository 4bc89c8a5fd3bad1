/-
Searches that compare definitions end, and leave their memory in order:

* `Sides.nodup_comparands`: no comparison is listed twice among those that can come up;
* `Memory.InOrder`: whether the schemas are in their first places, no comparison is under way,
  and none was entered twice;
* `Memory.Holds`: whether a memory has certain verdicts, and has entered what they are on;
* `EndsInOrder`: whether a search comes to an end with all fuel above a bound, and leaves one
  memory, that is in order;
* `search_endsInOrder`: all searches do that compare definitions, whatever these refer to, and
  their outcome is that of the search that runs.
-/
import DependencyTheory.Proofs.Homomorphism.Errors
import DependencyTheory.Proofs.Homomorphism.Mirror

namespace DependencyTheory.Homomorphism

variable {α : Type} {base : Sides} {w : Verdicts} {μ : Memory}

/-! ### The comparisons that can come up -/

/-- No two rows of a table have the same handle. -/
lemma nodup_handles (table : Table) : table.handles.Nodup := by
  have hindex : table.handles.map Handle.index = List.range' 0 table.length := by
    rw [Table.handles, List.map_map, ← List.zipIdx_map_snd]
    rfl
  exact .of_map Handle.index (hindex ▸ List.nodup_range')

/-- No comparison is listed twice. -/
lemma Sides.nodup_comparands (sides : Sides) : sides.comparands.Nodup := by
  have hpairs (d r : Schema) (turned : Bool) : (d.predicates.handles.flatMap fun h =>
      r.predicates.handles.map fun k => (⟨h, k, turned⟩ : Comparand)).Nodup := by
    have hproduct := (nodup_handles d.predicates).product (nodup_handles r.predicates)
    have hinjective : Function.Injective fun p : Handle × Handle =>
        (⟨p.1, p.2, turned⟩ : Comparand) := by
      rintro ⟨h, k⟩ ⟨h', k'⟩ heq
      cases heq
      rfl
    simpa [List.product, SProd.sprod, List.map_flatMap, Function.comp_def] using
      hproduct.map hinjective
  refine (hpairs _ _ _).append (hpairs _ _ _) fun pair hfirst hsecond => ?_
  -- the two halves differ in the way round
  simp only [List.mem_flatMap, List.mem_map] at hfirst hsecond
  obtain ⟨_, _, _, _, hfirst⟩ := hfirst
  obtain ⟨_, _, _, _, hsecond⟩ := hsecond
  simpa using congrArg Comparand.turned (hsecond.trans hfirst.symm)

/-! ### Memories in order -/

/-- Whether a memory is in order at the end of a search: the schemas are in the places they had
at the start, no comparison is under way, none was entered twice, and only such were as can come
up. -/
structure Memory.InOrder (base : Sides) (μ : Memory) : Prop where
  sides : μ.sides = base
  idle : ∀ pair, μ.standing pair ≠ some .underWay
  nodup : μ.entered.Nodup
  subset : μ.entered ⊆ base.comparands

/-- Whether a memory has entered the comparisons on which there are verdicts, and has these
verdicts on them and no others. -/
structure Memory.Holds (w : Verdicts) (μ : Memory) : Prop where
  entered : μ.entered.Perm (w.map Prod.fst)
  standing : ∀ pair, μ.standing pair = (w.lookup pair).map .ended

/-- When all comparisons are left to open, none is under way. -/
lemma Drops.inOrder (h : Drops base base.comparands base μ) : μ.InOrder base where
  sides := h.sides
  idle pair hunder := (h.underWay pair hunder).2 (h.underWay pair hunder).1
  nodup := h.nodup
  subset := h.subset

/-- The comparisons that were entered have then ended, with the verdicts of the search. -/
lemma Keeps.holds (h : Keeps base base.comparands base w μ) : μ.Holds w := by
  have hstanding pair : μ.standing pair = (w.lookup pair).map .ended := by
    rw [h.standing, standingWith]
    cases w.lookup pair <;> simp
  refine ⟨(List.perm_ext_iff_of_nodup h.nodup h.single).mpr fun pair => ?_, hstanding⟩
  rw [h.mem_entered, hstanding, ← lookup_ne_none_iff, ne_eq, Option.map_eq_none_iff]

/-- Whether a search comes to an end that makes its verdicts in a memory. With all fuel that
allows more comparisons inside each other than there are comparisons, it has one outcome and
leaves one memory, which is in order and holds the verdicts of the search that runs. -/
def EndsInOrder (base : Sides) (x : Attempt α) (y : ℕ → Inquiry α)
    (outcome : Except AnalysisError α) : Prop :=
  ∃ μ, (∀ fuel, base.comparands.length < fuel → Ends (y fuel) (.start base) outcome μ) ∧
    μ.InOrder base ∧ ∀ a w, Yields x [] a w → outcome = .ok a ∧ μ.Holds w

/-- Steps that mirror a search from its start end in order, with the outcome of the search. -/
lemma Mirrors.endsInOrder {x : Attempt α} {y : ℕ → Inquiry α}
    (h : Mirrors base base.comparands base x
      fun fuel : {fuel // base.comparands.length < fuel} => y fuel) :
    EndsInOrder base x y (do let (a, _) ← x.run []; return a) := by
  obtain ⟨outcome, μ, hends, hmirrored⟩ := h [] _ (keeps_start base)
  cases hx : x.run [] with
  | error e =>
      rw [hx] at hmirrored
      cases hmirrored with
      | error hdrops =>
          exact ⟨μ, fun fuel hfuel => hends ⟨fuel, hfuel⟩, hdrops.inOrder,
            fun a w hyields => by cases hx.symm.trans hyields⟩
  | ok answer =>
      rw [hx] at hmirrored
      cases hmirrored with
      | answer hkeeps =>
          refine ⟨μ, fun fuel hfuel => hends ⟨fuel, hfuel⟩, hkeeps.drops.inOrder,
            fun a w hyields => ?_⟩
          cases hx.symm.trans hyields
          exact ⟨rfl, hkeeps.holds⟩

/-! ### All searches end -/

/-- **Searches that compare definitions end in order**, however the definitions refer to each
other and to themselves. With more fuel than there are comparisons, searches between lists and
between rules come to an end, and have the outcome of the searches that run; this is an answer
where the schemas are built and declare the literals. -/
theorem search_endsInOrder (domain range : Schema) :
    let m : Setting := ⟨domain, range, .ruleStructural⟩
    (∀ ds rs start, EndsInOrder m.sides (search m.agree m.sides rs ds start)
      (fun fuel => Inquiry.search (Inquiry.agree .ruleStructural fuel) rs ds start)
      (m.homomorphismFrom? start ds rs)) ∧
    (∀ d r : Rule, EndsInOrder m.sides (searchRule m.agree m.sides d r)
      (fun fuel => Inquiry.searchRule (Inquiry.agree .ruleStructural fuel) d r)
      (m.ruleHomomorphism? d r)) ∧
    ∀ b c : Builder, b.build = .ok domain → c.build = .ok range →
      (∀ ds rs, Declares domain ds → Declares range rs → ∀ start,
        ∃ found, m.homomorphismFrom? start ds rs = .ok found) ∧
      ∀ d r : Rule, Declares domain d.body.literals → Declares range r.body.literals →
        ∃ found, m.ruleHomomorphism? d r = .ok found := by
  intro m
  have hagree : MirrorsAgreement m.sides m.sides.comparands m.sides m.agree
      fun fuel : {fuel // m.sides.comparands.length < fuel} =>
        Inquiry.agree .ruleStructural fuel :=
    mirrors_agree (fun fuel => fuel.2) m.sides.nodup_comparands (Or.inl rfl)
  refine ⟨fun ds rs start => (mirrors_search hagree ds rs start).endsInOrder,
    fun d r => (mirrors_searchRule hagree d r).endsInOrder, fun b c hb hc => ?_⟩
  have hanswered (ds rs) (hd : Declares domain ds) (hr : Declares range rs) :
      AllAnswered m.agree m.sides ds rs :=
    Setting.allAnswered (rulesDeclared_of_build hb) (rulesDeclared_of_build hc) hd hr rfl
  refine ⟨fun ds rs hd hr start => ?_, fun d r hd hr => ?_⟩
  · obtain ⟨found, w, hyields⟩ := answers_search start (hanswered ds rs hd hr) []
    exact ⟨found, Setting.homomorphismFrom?_eq_ok.mpr ⟨rfl, w, hyields⟩⟩
  · obtain ⟨found, w, hyields⟩ := answers_searchRule (hanswered _ _ hd hr) []
    exact ⟨found, Setting.ruleHomomorphism?_eq_ok.mpr ⟨rfl, w, hyields⟩⟩

/-- Three predicates are compared that are defined through themselves and each other. Of the
eighteen comparisons that can come up eight are entered, and all of these end. -/
theorem search_endsInOrder_loops :
    let m : Setting := ⟨loops, loops, .ruleStructural⟩
    let forth : List Literal := [unary 0 "x", unary 1 "x"]
    let target : List Literal := [unary 2 "u"]
    (∃ μ, (∀ fuel, 18 < fuel →
        Ends (Inquiry.search (Inquiry.agree .ruleStructural fuel) target forth .empty)
          (.start m.sides) (.ok (some ⟨[("x", .var "u")], by simp⟩)) μ) ∧
      μ.InOrder m.sides ∧ μ.entered.length = 8) ∧
    ∀ d r : Rule, d.body.literals = forth → r.body.literals = target →
      ∃ found, m.ruleHomomorphism? d r = .ok found := by
  intro m forth target
  have hbuild : (⟨0, loops.predicates, []⟩ : Builder).build = .ok loops := by decide +kernel
  obtain ⟨hlists, -, hbuilt⟩ := search_endsInOrder loops loops
  obtain ⟨-, hrules⟩ := hbuilt _ _ hbuild hbuild
  refine ⟨?_, fun d r hd hr => hrules d r (declares_unary fun l hl => ?_)
    (declares_unary fun l hl => ?_)⟩
  · have hcount : m.sides.comparands.length = 18 := by decide +kernel
    -- the comparisons are nested deeply
    have hrun : ((search m.agree m.sides target forth .empty).run []).map
        (Prod.map id List.length) = .ok (some ⟨[("x", .var "u")], by simp⟩, 8) := by
      decide +kernel
    obtain ⟨μ, hends, horder, hholds⟩ := hlists forth target .empty
    cases hyields : (search m.agree m.sides target forth .empty).run [] with
    | error e =>
        rw [hyields] at hrun
        cases hrun
    | ok answer =>
        obtain ⟨found, w⟩ := answer
        rw [hyields] at hrun
        obtain ⟨rfl, hlength⟩ := Prod.mk.inj (Except.ok.inj hrun)
        obtain ⟨houtcome, hholds⟩ := hholds _ w hyields
        refine ⟨μ, fun fuel hfuel => ?_, horder, ?_⟩
        · exact houtcome ▸ hends fuel (hcount ▸ hfuel)
        · rw [hholds.entered.length_eq, List.length_map, hlength]
  · rw [hd] at hl
    simp only [forth, List.mem_cons, List.not_mem_nil, or_false] at hl
    rcases hl with rfl | rfl <;> exact ⟨_, _, _, rfl, rfl⟩
  · rw [hr] at hl
    exact ⟨_, _, _, List.mem_singleton.mp hl, rfl⟩

end DependencyTheory.Homomorphism
