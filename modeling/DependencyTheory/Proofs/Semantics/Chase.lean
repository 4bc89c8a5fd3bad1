/-
What follows from facts and dependencies, and how it is found by firing them:

* `Vocabulary.Certain`: whether a fact holds in all sets of facts that have the given
  ones and satisfy some dependencies;
* `Invented`: the values that firings make up, one for each existential variable of a
  dependency and each assignment under which it fires;
* `Chase`: the facts that firings lead to;
* `Chase.certain`: what firings lead to is certain, unless it is about values made up.

A dependency fires here under every assignment that makes its body true, also when its
head is true already. Its values are known by what they are made up for, so that no
order of firings comes in.
-/
import DependencyTheory.Proofs.Semantics.Facts
import Mathlib.Logic.Function.Basic

namespace DependencyTheory

universe u

variable {U V : Type u}

/-! ### What is certain -/

namespace Vocabulary

variable (K : Vocabulary U) (D : Set (Fact U))

/-- Whether a set of facts, about other values, extends given ones: values that differ
are not identified, and constants keep their values. -/
structure Extends (L : Vocabulary V) (h : U → V) (M : Set (Fact V)) : Prop where
  injective : Function.Injective h
  constant : ∀ c, L.constant c = h (K.constant c)
  facts : ∀ f ∈ D, f.map h ∈ M

/-- Whether a fact holds in every set of facts that extends given ones and satisfies
some dependencies. -/
def Certain (ds : List Dependency) (f : Fact U) : Prop :=
  ∀ (V : Type u) (L : Vocabulary V) (h : U → V) (M : Set (Fact V)), K.Extends D L h M →
    (∀ d ∈ ds, L.Satisfies M d) → f.map h ∈ M

variable {K} {D}

/-- What fewer dependencies make certain, more make certain too. -/
lemma Certain.mono {ds es : List Dependency} (hsubset : ds ⊆ es) {f : Fact U}
    (h : K.Certain D ds f) : K.Certain D es f :=
  fun V L g M hext hsat => h V L g M hext fun d hd => hsat d (hsubset hd)

/-- Mapping a value is taking the value under the mapped assignment. -/
lemma map_value {L : Vocabulary V} {h : U → V} (hconst : ∀ c, L.constant c = h (K.constant c))
    (v : String → U) (t : Term) : h (K.value v t) = L.value (fun x => h (v x)) t := by
  cases t with
  | var x => rfl
  | const c => exact (hconst c).symm

/-- Mapping the fact that an atom becomes is the same for the atom. -/
lemma map_toFact {L : Vocabulary V} {h : U → V} (hconst : ∀ c, L.constant c = h (K.constant c))
    (v : String → U) (a : Atom) :
    (a.toFact (K.value v)).map h = a.toFact (L.value fun x => h (v x)) := by
  rw [Atom.map_toFact]
  exact Atom.toFact_congr fun t _ => map_value hconst v t

end Vocabulary

/-! ### Values that are made up -/

/-- The given values, and a new one for each existential variable of a dependency and
each assignment. -/
inductive Invented (U : Type u) : Type u where
  | known (u : U)
  | invented (t : Tgd) (x : String) (v : String → Invented U)

namespace Invented

lemma known_injective : Function.Injective (known : U → Invented U) := by
  intro a b h
  injection h

/-- **No two values are made up for assignments that have each other.** -/
lemma not_mutual {t t' : Tgd} {x x' y y' : String} {v v' : String → Invented U}
    (h : v' y' = invented t x v) : v y ≠ invented t' x' v' := by
  have hall : ∀ i : Invented U, ∀ t t' x x' y y' v v', i = invented t x v → v' y' = i →
      v y ≠ invented t' x' v' := by
    intro i
    induction i with
    | known u =>
        intro t t' x x' y y' v v' hi
        exact absurd hi (by simp)
    | invented s z w ih =>
        -- the value of `y` is made up for an assignment that has the value at hand
        rintro t t' x x' y y' v v' hi hv' hv
        cases hi
        exact ih y t' s x' z y' y v' w hv rfl hv'
  exact hall _ t t' x x' y y' v v' rfl h

end Invented

/-- The values that a dependency fires with: its universal variables keep theirs, and
the others get new ones. -/
def Tgd.invent (t : Tgd) (v : String → Invented U) (x : String) : Invented U :=
  if x ∈ t.universal then v x else .invented t x v

namespace Tgd

variable {t t' : Tgd} {x y : String} {v v' : String → Invented U}

lemma invent_of_universal (hx : x ∈ t.universal) : t.invent v x = v x := if_pos hx

lemma invent_of_existential (hx : x ∈ t.existential) : t.invent v x = .invented t x v :=
  if_neg (mem_existential.mp hx).2

end Tgd

/-- Constants have known values. Built-in operators, which only occur in bodies, mean
nothing here. -/
def Vocabulary.invented (K : Vocabulary U) : Vocabulary (Invented U) :=
  ⟨fun c => .known (K.constant c), fun _ _ _ => False, fun _ _ => False⟩

/-! ### Firing over and over -/

/-- The facts that are given, and those that firings add to them. -/
inductive Chase (K : Vocabulary U) (ts : List Tgd) (D : Set (Fact U)) : Set (Fact (Invented U))
  | given {f : Fact U} : f ∈ D → Chase K ts D (f.map .known)
  | fired {t : Tgd} {v : String → Invented U} {a : Atom} : t ∈ ts →
      (∀ b, .ordinary true b ∈ t.body.literals → Chase K ts D (b.toFact (K.invented.value v))) →
      a ∈ t.head → Chase K ts D (a.toFact (K.invented.value (t.invent v)))

namespace Chase

variable {K : Vocabulary U} {ts : List Tgd} {D : Set (Fact U)}

/-- The value of a value made up, if each dependency has a choice of values for its
existential variables. -/
def eval (h : U → V) (choice : Tgd → (String → V) → String → V) : Invented U → V
  | .known u => h u
  | .invented t x v => choice t (fun y => eval h choice (v y)) x

/-- The values that a dependency fires with become the choice. -/
lemma eval_invent {h : U → V} {choice : Tgd → (String → V) → String → V} {t : Tgd}
    (hkeep : ∀ w, ∀ x ∈ t.universal, choice t w x = w x) (v : String → Invented U) (x : String) :
    eval h choice (t.invent v x) = choice t (fun y => eval h choice (v y)) x := by
  by_cases hx : x ∈ t.universal
  · rw [Tgd.invent_of_universal hx, hkeep _ x hx]
  · rw [Tgd.invent, if_neg hx, eval]

/-- **All that is fired holds in every model**, whose choices give the values that are
made up. -/
theorem map_eval_mem {L : Vocabulary V} {h : U → V} {M : Set (Fact V)}
    {choice : Tgd → (String → V) → String → V} (hext : K.Extends D L h M)
    (hatomic : ∀ t ∈ ts, t.body.IsAtomic)
    (hkeep : ∀ t ∈ ts, ∀ w, ∀ x ∈ t.universal, choice t w x = w x)
    (hchoice : ∀ t ∈ ts, ∀ w, L.HoldsAll M w t.body.literals →
      ∀ a ∈ t.head, a.toFact (L.value (choice t w)) ∈ M)
    {f : Fact (Invented U)} (hf : f ∈ Chase K ts D) : f.map (eval h choice) ∈ M := by
  have hconst : ∀ c, L.constant c = eval h choice (K.invented.constant c) := hext.constant
  induction hf with
  | @given f hf =>
      rw [Fact.map_map]
      exact hext.facts f hf
  | @fired t v a ht _ ha ih =>
      have hbody : L.HoldsAll M (fun x => eval h choice (v x)) t.body.literals := by
        intro l hl
        obtain ⟨b, rfl⟩ := hatomic t ht l hl
        have hb := ih b hl
        rwa [Vocabulary.map_toFact hconst] at hb
      have hvalues : (fun x => eval h choice (t.invent v x)) =
          choice t fun x => eval h choice (v x) :=
        funext fun x => eval_invent (hkeep t ht) v x
      rw [Vocabulary.map_toFact hconst, hvalues]
      exact hchoice t ht _ hbody a ha

/-- **What is fired is certain**, if it is about known values. -/
theorem certain (hatomic : ∀ t ∈ ts, t.body.IsAtomic) {f : Fact U}
    (hf : f.map .known ∈ Chase K ts D) : K.Certain D (ts.map .tgd) f := by
  classical
  intro V L h M hext hsat
  let choice : Tgd → (String → V) → String → V := fun t w =>
    if hw : L.HoldsHead M w t then hw.choose else w
  have hkeep : ∀ t ∈ ts, ∀ w, ∀ x ∈ t.universal, choice t w x = w x := by
    intro t _ w x hx
    by_cases hw : L.HoldsHead M w t
    · have hdef : choice t w = hw.choose := dif_pos hw
      rw [hdef, hw.choose_spec.1 x hx]
    · have hdef : choice t w = w := dif_neg hw
      rw [hdef]
  have hchoice : ∀ t ∈ ts, ∀ w, L.HoldsAll M w t.body.literals →
      ∀ a ∈ t.head, a.toFact (L.value (choice t w)) ∈ M := by
    intro t ht w hbody
    have hw : L.HoldsHead M w t := hsat (.tgd t) (List.mem_map_of_mem ht) w hbody
    have hdef : choice t w = hw.choose := dif_pos hw
    rw [hdef]
    exact hw.choose_spec.2
  have hmem := map_eval_mem hext hatomic hkeep hchoice hf
  rwa [Fact.map_map] at hmem

end Chase

end DependencyTheory
