/-
The names of variables do not matter to a search:

* `Substitution.rename`: a substitution of renamed variables, whose images have renamed variables
  too, in a way of their own;
* `matchTerms?_rename`, `matchLiterals_rename`, `search_rename`: matching and searching commute
  with renaming the domain and the range;
* `binds_of_search`: a search never binds a variable that the domain does not have;
* `Setting.homomorphism?_rename`: with domain or range renamed, it finds the same as before but
  for the names, under every policy.

Domain and range may share names of variables. As the two sides can be renamed independently of
each other, it makes no difference whether they do. Which predicates match does not depend on
terms, so that the two searches ask the same questions and make the same verdicts all along.
-/
import DependencyTheory.Proofs.Homomorphism.FirstChoice
import DependencyTheory.Proofs.Homomorphism.Permutation
import DependencyTheory.Proofs.Presentation.Verdicts

namespace DependencyTheory

variable {δ ρ : String ↪ String}

/-! ### Terms -/

lemma Term.rename_var (x : String) : (Term.var x).rename ρ = .var (ρ x) := rfl

lemma Term.rename_const (c : String) : (Term.const c).rename ρ = .const c := rfl

lemma Term.rename_injective (ρ : String ↪ String) : Function.Injective (Term.rename ρ) := by
  intro t u h
  cases t with
  | var x =>
      cases u with
      | var y => exact congrArg var (ρ.injective (var.inj h))
      | const c => cases h
  | const c =>
      cases u with
      | var y => cases h
      | const d => exact h

lemma Term.rename_refl : Term.rename (Function.Embedding.refl String) = id := by
  funext t
  cases t <;> rfl

/-! ### Substitutions -/

namespace Substitution

variable {s : Substitution} {x : String} {t u : Term}

/-- The substitution that gives renamed variables the old images, but with the variables in these
renamed in their turn. -/
def rename (δ ρ : String ↪ String) (s : Substitution) : Substitution :=
  ⟨s.bindings.map (Prod.map δ (Term.rename ρ)), by
    have hvars : (s.bindings.map (Prod.map δ (Term.rename ρ))).map Prod.fst =
        (s.bindings.map Prod.fst).map δ := by
      simp only [List.map_map, Function.comp_def, Prod.map_fst]
    rw [hvars]
    exact s.distinct.map δ.injective⟩

lemma rename_injective : Function.Injective (rename δ ρ) := fun _ _ h =>
  bindings_inj.mp (List.map_injective_iff.mpr
    (δ.injective.prodMap (Term.rename_injective ρ)) (bindings_inj.mpr h))

/-- The image of a renamed variable is the renamed image. -/
lemma get?_rename : (s.rename δ ρ).get? (δ x) = (s.get? x).map (Term.rename ρ) := by
  simp only [get?, rename]
  induction s.bindings with
  | nil => rfl
  | cons b rest ih =>
      rw [List.map_cons, List.lookup_cons, List.lookup_cons, ih]
      by_cases hx : x = b.1
      · simp [hx]
      · have hne : δ x ≠ δ b.1 := fun h => hx (δ.injective h)
        simp [beq_eq_false_iff_ne.mpr hx, beq_eq_false_iff_ne.mpr hne]

/-- A renamed binding is refused just where the old one is. -/
lemma bind?_rename :
    (s.rename δ ρ).bind? (δ x) (t.rename ρ) = (s.bind? x t).map (rename δ ρ) := by
  cases h : s.get? x with
  | none =>
      have hnone : (s.rename δ ρ).get? (δ x) = none := by rw [get?_rename, h, Option.map_none]
      rw [bind?_of_none h, bind?_of_none hnone]
      exact congrArg some (bindings_inj.mp (by simp [rename, append]))
  | some u =>
      have hsome : (s.rename δ ρ).get? (δ x) = some (u.rename ρ) := by
        rw [get?_rename, h, Option.map_some]
      rw [bind?_of_some h, bind?_of_some hsome]
      simp only [(Term.rename_injective ρ).eq_iff]
      split <;> rfl

end Substitution

namespace Homomorphism

open Warrant

variable {agree : Agreement} {sides : Sides} {s : Substitution}

/-! ### Matching -/

/-- Terms are matched in the same way under other names. -/
lemma matchTerms?_rename (s : Substitution) (domain range : List Term) :
    matchTerms? (s.rename δ ρ) (domain.map (Term.rename δ)) (range.map (Term.rename ρ)) =
      (matchTerms? s domain range).map (Substitution.rename δ ρ) := by
  induction domain generalizing s range with
  | nil => cases range <;> rfl
  | cons t domain ih =>
      cases range with
      | nil => cases t <;> rfl
      | cons u range =>
          cases t with
          | var x =>
              simp only [List.map_cons, Term.rename_var, matchTerms?, Substitution.bind?_rename]
              cases s.bind? x u with
              | none => rfl
              | some v => exact ih v range
          | const c =>
              have hconst : u.rename ρ = .const c ↔ u = .const c :=
                (Term.rename_injective ρ).eq_iff' (Term.rename_const c)
              simp only [List.map_cons, Term.rename_const, matchTerms?, hconst]
              split
              · exact ih s range
              · rfl

lemma way?_rename (a b : BuiltIn) :
    way? (s.rename δ ρ) (a.mapTerms (Term.rename δ)) (b.mapTerms (Term.rename ρ)) =
      (way? s a b).map (Substitution.rename δ ρ) := by
  simp only [way?, BuiltIn.operator_mapTerms, BuiltIn.terms_mapTerms, matchTerms?_rename]
  split <;> rfl

/-- The second way to match a comparison is left out just where it was. -/
lemma matchBuiltIns_rename (a b : BuiltIn) :
    matchBuiltIns (s.rename δ ρ) (a.mapTerms (Term.rename δ)) (b.mapTerms (Term.rename ρ)) =
      (matchBuiltIns s a b).map (Substitution.rename δ ρ) := by
  have hturned : ((b.mapTerms (Term.rename ρ)).converse.bind
      (way? (s.rename δ ρ) (a.mapTerms (Term.rename δ)))) =
        (b.converse.bind (way? s a)).map (Substitution.rename δ ρ) := by
    rw [BuiltIn.converse_mapTerms]
    cases b.converse with
    | none => rfl
    | some c => exact way?_rename a c
  simp only [matchBuiltIns_eq, hturned, way?_rename, List.map_append, Option.toList_map,
    List.filter_map, Function.comp_def, List.mem_map_of_injective Substitution.rename_injective]

lemma matchLiterals_rename (a b : Literal) :
    matchLiterals agree sides (s.rename δ ρ) (a.mapTerms (Term.rename δ))
        (b.mapTerms (Term.rename ρ)) =
      List.map (Substitution.rename δ ρ) <$> matchLiterals agree sides s a b := by
  cases a with
  | builtIn a =>
      cases b with
      | ordinary q b => rfl
      | builtIn b =>
          simp only [Literal.mapTerms, matchLiterals, matchBuiltIns_rename, map_pure]
  | ordinary p a =>
      cases b with
      | builtIn b => rfl
      | ordinary q b =>
          simp only [Literal.mapTerms, Atom.mapTerms, matchLiterals, matchTerms?_rename,
            Option.toList_map]
          split
          · simp only [map_bind]
            refine bind_congr fun answer => ?_
            cases answer <;> simp
          · simp

/-! ### Searching -/

/-- **A search under other names** goes through the same steps, and finds the same but for the
names. -/
theorem search_rename (s : Substitution) (domain range : List Literal) :
    search agree sides (range.map (Literal.mapTerms (Term.rename ρ)))
        (domain.map (Literal.mapTerms (Term.rename δ))) (s.rename δ ρ) =
      Option.map (Substitution.rename δ ρ) <$> search agree sides range domain s := by
  induction domain generalizing s with
  | nil => simp [search]
  | cons first rest ih =>
      simp only [List.map_cons, search, findSomeM?_map, matchLiterals_rename, bind_map_left, ih,
        map_findSomeM?, map_bind]

/-- A search binds the variables of the domain, besides those that are bound when it starts. What
it is told about predicates does not matter to this. -/
lemma binds_of_search {domain range : List Literal} {t : Substitution} {w w' : Verdicts}
    (h : Yields (search agree sides range domain s) w (some t) w') (x : String) :
    (t.get? x).isSome ↔ (s.get? x).isSome ∨ ∃ a ∈ domain, x ∈ a.vars := by
  let anything : Warrant agree sides :=
    ⟨fun _ _ => True, fun _ => True, fun _ _ _ _ => True, fun _ _ _ => trivial,
      fun _ _ _ _ _ _ _ => trivial, fun _ _ _ => trivial⟩
  obtain ⟨-, -, hsome⟩ := settled_of_search (W := anything)
    (fun _ _ _ _ _ _ _ _ => trivial) trivial h
  exact (hsome t rfl).binds x

/-! ### Answers -/

namespace Setting

variable {m : Setting}

lemma firstDerived?_mapTerms (s : Schema) (f : Term → Term) (literals : List Literal) :
    firstDerived? s (literals.map (Literal.mapTerms f)) = firstDerived? s literals := by
  simp only [firstDerived?, List.findSome?_map, Function.comp_def, Literal.predicate?_mapTerms]

/-- What is refused does not depend on terms. -/
lemma refuseDerived_mapTerms (f g : Term → Term) (domain range : List Literal) :
    m.refuseDerived (domain.map (Literal.mapTerms f)) (range.map (Literal.mapTerms g)) =
      m.refuseDerived domain range := by
  simp only [refuseDerived, firstDerived?_mapTerms]

/-- A search with another outcome, behind a check. -/
lemma run_map {α β : Type} (check : Except AnalysisError Unit) (f : α → β) (x : Attempt α) :
    (do check; let (found, _) ← (f <$> x).run []; return found : Except AnalysisError β) =
      (do check; let (found, _) ← x.run []; return found : Except AnalysisError α).map f := by
  cases check with
  | error e => rfl
  | ok _ =>
      rw [StateT.run_map]
      cases h : x.run [] with
      | error e => rfl
      | ok answer => rfl

/-- Domain and range are renamed independently of each other. -/
theorem homomorphismFrom?_rename (start : Substitution) (domain range : List Literal) :
    m.homomorphismFrom? (start.rename δ ρ) (domain.map (Literal.mapTerms (Term.rename δ)))
        (range.map (Literal.mapTerms (Term.rename ρ))) =
      (m.homomorphismFrom? start domain range).map (Option.map (Substitution.rename δ ρ)) := by
  rw [homomorphismFrom?, homomorphismFrom?, refuseDerived_mapTerms, search_rename]
  exact run_map _ _ _

/-- **The names of variables do not matter**, under every policy. When different variables of the
domain get different new names, the answer is the old one with the bound variables renamed, and
when those of the range do, it is the old one with the variables in the images renamed; so whether
the two sides share names makes no difference to success. What is bound is just what the domain
has, and a variable of the range never is for being one. -/
theorem homomorphism?_rename (m : Setting) (δ ρ : String ↪ String) (domain range : List Literal) :
    m.homomorphism? (domain.map (Literal.mapTerms (Term.rename δ))) range =
        (m.homomorphism? domain range).map (Option.map (Substitution.rename δ (.refl _))) ∧
      m.homomorphism? domain (range.map (Literal.mapTerms (Term.rename ρ))) =
        (m.homomorphism? domain range).map (Option.map (Substitution.rename (.refl _) ρ)) ∧
      (Found m (domain.map (Literal.mapTerms (Term.rename δ)))
          (range.map (Literal.mapTerms (Term.rename ρ))) ↔ Found m domain range) ∧
      ∀ h, m.homomorphism? domain range = .ok (some h) →
        ∀ x, (h.get? x).isSome ↔ ∃ a ∈ domain, x ∈ a.vars := by
  have hrename : ∀ δ ρ : String ↪ String,
      m.homomorphism? (domain.map (Literal.mapTerms (Term.rename δ)))
          (range.map (Literal.mapTerms (Term.rename ρ))) =
        (m.homomorphism? domain range).map (Option.map (Substitution.rename δ ρ)) :=
    fun δ ρ => homomorphismFrom?_rename .empty domain range
  refine ⟨?_, ?_, ?_, fun h hfound x => ?_⟩
  · simpa only [Term.rename_refl, Literal.mapTerms_id, List.map_id] using hrename δ (.refl _)
  · simpa only [Term.rename_refl, Literal.mapTerms_id, List.map_id] using hrename (.refl _) ρ
  · rw [Found, hrename δ ρ, Found]
    cases m.homomorphism? domain range with
    | error e => simp [Except.map]
    | ok found => cases found <;> simp [Except.map]
  · obtain ⟨-, w, hw⟩ := homomorphismFrom?_eq_ok.mp hfound
    rw [binds_of_search hw x]
    simp [Substitution.get?, Substitution.empty]

/-- Both sides have the variables `x` and `y`, and each of them is mapped onto the other. When
they are exchanged in the domain, each is mapped onto itself. The variable `z` of the range, which
the search tries first, is never bound. -/
theorem homomorphism?_rename_joins :
    let m : Setting := ⟨joins, joins, .ruleStructural⟩
    let below (x y : String) : Literal := .builtIn (.comparison .lt (.var x) (.var y))
    let above (x y : String) : Literal := .builtIn (.comparison .gt (.var x) (.var y))
    let range : List Literal := [unary 3 "z", unary 3 "y", above "x" "y"]
    m.homomorphism? [unary 2 "x", below "x" "y"] range =
        .ok (some ⟨[("x", .var "y"), ("y", .var "x")], by simp⟩) ∧
      m.homomorphism? [unary 2 "y", below "y" "x"] range =
        .ok (some ⟨[("y", .var "y"), ("x", .var "x")], by simp⟩) ∧
      ∀ h, m.homomorphism? [unary 2 "x", below "x" "y"] range = .ok (some h) →
        h.get? "z" = none := by
  intro m below above range
  have hfound : m.homomorphism? [unary 2 "x", below "x" "y"] range =
      .ok (some ⟨[("x", .var "y"), ("y", .var "x")], by simp⟩) := by decide +kernel
  obtain ⟨hdomain, -, -, hbinds⟩ := homomorphism?_rename m (Equiv.swap "x" "y").toEmbedding
    (Equiv.swap "x" "y").toEmbedding [unary 2 "x", below "x" "y"] range
  refine ⟨hfound, ?_, fun h hh => ?_⟩
  · have hnames : [unary 2 "x", below "x" "y"].map
        (Literal.mapTerms (Term.rename (Equiv.swap "x" "y").toEmbedding)) =
          [unary 2 "y", below "y" "x"] := by
      simp [unary, below, Literal.mapTerms, Atom.mapTerms, BuiltIn.mapTerms, Term.rename]
    rw [← hnames, hdomain, hfound]
    refine congrArg (fun s => Except.ok (some s)) (Substitution.bindings_inj.mp ?_)
    simp [Substitution.rename, Term.rename]
  · refine Option.not_isSome_iff_eq_none.mp fun hz => ?_
    obtain ⟨a, ha, hza⟩ := (hbinds h hh "z").mp hz
    simp only [List.mem_cons, List.not_mem_nil, or_false] at ha
    rcases ha with rfl | rfl <;>
      simp [unary, below, Literal.vars, Literal.terms, BuiltIn.terms] at hza

end Setting

end Homomorphism

end DependencyTheory
