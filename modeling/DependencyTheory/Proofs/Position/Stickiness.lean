/-
The values that sticky dependencies join on are never dropped:

* `Secure`: a value of a fact stands where no marked body variable does;
* `Firing.secure_of_not_marked`: the value of an unmarked variable is secure in all that
  the firing adds;
* `Firing.exists_not_marked`: a secure value of a fact that a firing uses is the value of an
  unmarked variable there;
* `Schema.value_sticks`: in a sticky schema, the value of a variable that a body repeats is
  passed on, firing by firing, to all facts that depend on it.
-/
import DependencyTheory.Proofs.Language.Verdicts
import DependencyTheory.Proofs.Semantics.Run
import Mathlib.Logic.Relation

namespace DependencyTheory

universe u

variable {U : Type u} {K : Vocabulary U} {s : Schema} {D D' : Set (Fact U)} {f : Firing U}
  {fs : List (Firing U)} {ts : List Tgd} {n : Nat} {x : String} {u : U} {g : Fact U}

/-! ### Occurrences and constants -/

/-- Whether a variable occurs at a place of a clause, given by the place of a literal and
that of one of its arguments. -/
def Clause.OccursAt (c : Clause) (x : String) (place : Nat × Nat) : Prop :=
  ∃ l, c.literals[place.1]? = some l ∧ l.terms[place.2]? = some (.var x)

/-- Whether a value is that of a constant in the body of some dependency. -/
def Vocabulary.IsBodyConstant (K : Vocabulary U) (s : Schema) (u : U) : Prop :=
  ∃ t ∈ s.tgds, ∃ l ∈ t.body.literals, ∃ c, .const c ∈ l.terms ∧ u = K.constant c

/-- In a body of affirmed atoms, a variable stands wherever it occurs. -/
lemma Clause.OccursAt.exists_stands {t : Tgd} {place : Nat × Nat} (h : t.body.OccursAt x place)
    (hatomic : t.body.IsAtomic) (ht : ts[n]? = some t) :
    ∃ p : BodyPosition, p.tgd = n ∧ (p.literal, p.index) = place ∧ Stands ts p x := by
  obtain ⟨l, hl, hx⟩ := h
  obtain ⟨b, rfl⟩ := hatomic l (List.mem_of_getElem? hl)
  exact ⟨⟨n, place.1, place.2, b.predicate⟩, rfl, rfl, t, ht, b, hl, rfl, hx⟩

/-- A variable that a sticky dependency's body repeats is not marked. -/
lemma Schema.not_isMarked_of_isSticky (h : s.isSticky = .ok true) {t : Tgd}
    {place place' : Nat × Nat} (ht : s.tgds[n]? = some t) (hx : t.body.OccursAt x place)
    (hx' : t.body.OccursAt x place') (hne : place ≠ place') : ¬IsMarked s.tgds n x := by
  intro hmark
  have hatomic : t.body.IsAtomic :=
    isAtomic_of_requireAtomicBodies (isNonConflictingAnd_eq_true.mp h).1 t (List.mem_of_getElem? ht)
  obtain ⟨p, rfl, rfl, hp⟩ := hx.exists_stands hatomic ht
  obtain ⟨q, hq, rfl, hqx⟩ := hx'.exists_stands hatomic ht
  have hsame : p = q := eq_of_isSticky h hq.symm hp hqx hmark
  exact hne (congrArg (fun p : BodyPosition => (p.literal, p.index)) hsame)

/-! ### Secure values -/

/-- Whether a fact has a value at a position that no marked variable has in any body. -/
def Secure (ts : List Tgd) (u : U) (g : Fact U) : Prop :=
  ∃ i, g.args[i]? = some u ∧
    ∀ p y, Stands ts p y → p.place = ⟨g.predicate, i⟩ → ¬IsMarked ts p.tgd y

lemma Secure.mem_args (h : Secure ts u g) : u ∈ g.args := by
  obtain ⟨i, hi, -⟩ := h
  exact List.mem_of_getElem? hi

namespace Firing

/-- **The value of an unmarked variable is secure** in each fact that is added. -/
lemma secure_of_not_marked (ht : ts[n]? = some f.tgd) (hx : ¬IsMarked ts n x) :
    ∀ g ∈ f.adds K, Secure ts (f.values x) g := by
  rintro g ⟨a, ha, rfl⟩
  have hmem : x ∈ a.vars := by
    by_contra hlost
    exact hx (.lost ht ha hlost)
  obtain ⟨r, hr⟩ := Atom.mem_vars.mp hmem
  refine ⟨r.index, ?_, fun p y hp hplace hmark => hx (.exposed ht ha ?_ hp hmark)⟩
  · rw [Atom.args_toFact, List.getElem?_map, hr.2]
    rfl
  · rw [hplace]
    exact ⟨rfl, hr.2⟩

/-- **A secure value of a fact that is used** is the value of an unmarked variable, unless a
constant has it. -/
lemma exists_not_marked (ht : ts[n]? = some f.tgd) (hg : g ∈ f.uses K) (hu : Secure ts u g)
    (hconstant : ∀ l ∈ f.tgd.body.literals, ∀ c, .const c ∈ l.terms → u ≠ K.constant c) :
    ∃ y, f.values y = u ∧ ¬IsMarked ts n y := by
  obtain ⟨b, hb, rfl⟩ := hg
  obtain ⟨i, hi, hsecure⟩ := hu
  rw [Atom.args_toFact, List.getElem?_map] at hi
  obtain ⟨term, hterm, rfl⟩ := Option.map_eq_some_iff.mp hi
  cases term with
  | const c => exact absurd rfl (hconstant _ hb c (List.mem_of_getElem? hterm))
  | var y =>
      have hy : b.StandsAt y ⟨b.predicate, i⟩ := ⟨rfl, hterm⟩
      obtain ⟨p, rfl, hplace, hp⟩ :=
        Tgd.exists_standsInBody (Clause.mem_positiveAtoms.mpr hb) hy n
      exact ⟨y, rfl, hsecure p y ⟨f.tgd, ht, hp⟩ hplace⟩

end Firing

/-! ### Values that are passed on -/

/-- Along a chain of firings each of which uses what the one before has added, the value of
an unmarked variable of the first is secure in what the last one adds. -/
lemma secure_of_transGen (hfs : ∀ f ∈ fs, f.tgd ∈ ts)
    (hconstant : ∀ t ∈ ts, ∀ l ∈ t.body.literals, ∀ c, .const c ∈ l.terms → u ≠ K.constant c)
    {i j : Nat} (hi : ∀ f, fs[i]? = some f → ∀ g ∈ f.adds K, Secure ts u g)
    (hchain : Relation.TransGen (K.UsedBy fs) i j) :
    ∀ f, fs[j]? = some f → ∀ g ∈ f.adds K, Secure ts u g := by
  have hstep : ∀ {i j}, (∀ f, fs[i]? = some f → ∀ g ∈ f.adds K, Secure ts u g) →
      K.UsedBy fs i j → ∀ f, fs[j]? = some f → ∀ g ∈ f.adds K, Secure ts u g := by
    rintro i j hi ⟨-, f, f', hf, hf', g, hadded, hused⟩ f₁ hf₁
    obtain rfl := Option.some.inj (hf'.symm.trans hf₁)
    have htgd : f'.tgd ∈ ts := hfs f' (List.mem_of_getElem? hf')
    obtain ⟨n, hn⟩ := List.mem_iff_getElem?.mp htgd
    obtain ⟨y, rfl, hy⟩ := Firing.exists_not_marked hn hused (hi f hf g hadded) (hconstant _ htgd)
    exact Firing.secure_of_not_marked hn hy
  induction hchain with
  | single hused => exact hstep hi hused
  | tail _ hused ih => exact hstep ih hused

/-- **Join values stick.** In any run of a sticky schema, the value of a variable that occurs
at two places of the body of a firing's dependency is found in all facts that the firing
adds, and in all that are added by later firings which use one of these, directly or through
a chain of firings; unless it is the value of a constant in some body. -/
theorem Schema.value_sticks (h : s.isSticky = .ok true)
    {Allowed : Set (Fact U) → Firing U → Prop} (hrun : K.Runs s Allowed D fs D')
    {i : Nat} (hf : fs[i]? = some f) {place place' : Nat × Nat}
    (hx : f.tgd.body.OccursAt x place) (hx' : f.tgd.body.OccursAt x place')
    (hne : place ≠ place') (hconstant : ¬K.IsBodyConstant s (f.values x)) :
    (∀ g ∈ f.adds K, f.values x ∈ g.args) ∧
      ∀ j f', Relation.TransGen (K.UsedBy fs) i j → fs[j]? = some f' →
        ∀ g ∈ f'.adds K, f.values x ∈ g.args := by
  obtain ⟨n, hn⟩ := List.mem_iff_getElem?.mp (hrun.tgd_mem f (List.mem_of_getElem? hf))
  have hfirst : ∀ g ∈ f.adds K, Secure s.tgds (f.values x) g :=
    Firing.secure_of_not_marked hn (not_isMarked_of_isSticky h hn hx hx' hne)
  refine ⟨fun g hg => (hfirst g hg).mem_args, fun j f' hchain hf' g hg => ?_⟩
  refine (secure_of_transGen hrun.tgd_mem
    (fun t ht l hl c hc he => hconstant ⟨t, ht, l, hl, c, hc, he⟩) (fun f₁ hf₁ => ?_)
    hchain f' hf' g hg).mem_args
  obtain rfl := Option.some.inj (hf.symm.trans hf₁)
  exact hfirst

/-! ### A join value on its way -/

namespace Courier

/-- Two predicates are joined, and of what comes out, only the value in the middle goes on. -/
def schema : Schema :=
  let r (x y : String) : Atom := .ofVars 0 [x, y]
  let p (x y : String) : Atom := .ofVars 1 [x, y]
  let t (x y z : String) : Atom := .ofVars 2 [x, y, z]
  ⟨[⟨0, "R", 2, []⟩, ⟨0, "P", 2, []⟩, ⟨0, "T", 3, []⟩],
    [.tgd (.ofAtoms (.ofAtoms (r "x" "y") [p "y" "z"]) (t "x" "y" "z") []),
      .tgd (.ofAtoms (.ofAtoms (t "x" "y" "z") []) (p "y" "w") [])]⟩

/-- Numbers, none of which is a constant but zero. -/
def vocabulary : Vocabulary Nat := ⟨fun _ => 0, fun _ _ _ => False, fun _ _ => False⟩

/-- 1 is related to 2, and 2 to 3. -/
def facts : Set (Fact Nat) := {⟨⟨0, 0, 2⟩, [1, 2], rfl⟩, ⟨⟨0, 1, 2⟩, [2, 3], rfl⟩}

/-- The facts are joined on 2. -/
def join : Firing Nat :=
  ⟨.ofAtoms (.ofAtoms (.ofVars 0 ["x", "y"]) [.ofVars 1 ["y", "z"]])
      (.ofVars 2 ["x", "y", "z"]) [],
    fun x => if x = "x" then 1 else if x = "y" then 2 else 3⟩

/-- 2 is passed on, along with something new. -/
def pass : Firing Nat :=
  ⟨.ofAtoms (.ofAtoms (.ofVars 2 ["x", "y", "z"]) []) (.ofVars 1 ["y", "w"]) [],
    fun x => if x = "x" then 1 else if x = "y" then 2 else if x = "z" then 3 else 4⟩

lemma runs : vocabulary.Runs schema (fun _ _ => True) facts [join, pass]
    (facts ∪ join.adds vocabulary ∪ pass.adds vocabulary) := by
  refine .fires (by decide) ?_ trivial (.fires (by decide) ?_ trivial .done)
  · intro l hl
    rcases List.mem_pair.mp hl with rfl | rfl
    · exact Or.inl rfl
    · exact Or.inr rfl
  · intro l hl
    obtain rfl := List.mem_singleton.mp hl
    exact Or.inr ⟨_, List.mem_cons_self, rfl⟩

/-- What the second firing adds has the value that the first one joins on. -/
theorem value_sticks_courier :
    schema.isSticky = .ok true ∧ join.tgd.body.OccursAt "y" (0, 1) ∧
      join.tgd.body.OccursAt "y" (1, 0) ∧ vocabulary.UsedBy [join, pass] 0 1 ∧
      (∀ g ∈ join.adds vocabulary, 2 ∈ g.args) ∧ ∀ g ∈ pass.adds vocabulary, 2 ∈ g.args := by
  have hsticky : schema.isSticky = .ok true := by decide +kernel
  have hy : join.tgd.body.OccursAt "y" (0, 1) := ⟨_, rfl, rfl⟩
  have hy' : join.tgd.body.OccursAt "y" (1, 0) := ⟨_, rfl, rfl⟩
  have hused : vocabulary.UsedBy [join, pass] 0 1 :=
    ⟨by decide, join, pass, rfl, rfl, _, ⟨_, List.mem_cons_self, rfl⟩, _, List.mem_cons_self, rfl⟩
  have hconstant : ¬vocabulary.IsBodyConstant schema (join.values "y") := by
    rintro ⟨_, _, _, _, _, _, he⟩
    exact absurd he (show 2 ≠ 0 by decide)
  obtain ⟨hfirst, hlater⟩ := Schema.value_sticks hsticky runs
    (show [join, pass][0]? = some join from rfl) hy hy' (by decide) hconstant
  exact ⟨hsticky, hy, hy', hused, hfirst, hlater 1 pass (.single hused) rfl⟩

end Courier

end DependencyTheory
