/-
Texts put one behind the other:

* `ReadAs.append`: what is read of two texts on lines of their own;
* `eraseDups_append_of_consistent`: the names in two lists of uses, in order of first use;
* `Schema.rulesFor`: the rules of a schema for a name;
* `Schema.Compatible`: whether two schemas have no name with different arities;
* `Schema.Joins`: whether a schema is one behind another, if predicates are told by their names;
* `Schema.ofText_concatenation`: **texts that describe schemas describe their join together**, or
  are refused for a name with two arities.
-/
import DependencyTheory.Proofs.Source.Acceptance
import DependencyTheory.Proofs.Source.Comments

namespace DependencyTheory

namespace Source

/-! ### Texts on lines of their own -/

variable {t₁ t₂ : List Char} {sts₁ sts₂ : List Statement} {ks₁ ks₂ : List Token}

/-- A line feed ends a comment and stays, so that no comment of the first text goes into the
second one. -/
lemma ReadAs.withoutComments_append (h : ReadAs t₁ sts₁ ks₁) (t₂ : List Char) :
    withoutComments (t₁ ++ '\n' :: t₂) = withoutComments t₁ ++ '\n' :: withoutComments t₂ := by
  have hend := h.after_uncommented
  simp only [withoutComments, Scan.kept_append]
  refine congrArg (Scan.outside.kept t₁ ++ ·) ?_
  cases hafter : Scan.outside.after t₁ with
  | quoted =>
      rw [hafter] at hend
      cases hend
  | _ => rfl

/-- **Two texts are read one after the other.** What is read of the first one does not depend on
the second one, since there is a blank in between. -/
lemma ReadAs.append (h₁ : ReadAs t₁ sts₁ ks₁) (h₂ : ReadAs t₂ sts₂ ks₂) :
    ReadAs (t₁ ++ '\n' :: t₂) (sts₁ ++ sts₂) (ks₁ ++ ks₂) := by
  obtain ⟨rest₁, hks₁, hrest₁⟩ := h₁.layout
  obtain ⟨rest₂, hks₂, hrest₂⟩ := h₂.layout
  have hblanks : ∀ c ∈ rest₁ ++ ['\n'], Text.isBlank c = true :=
    List.forall_mem_append.mpr ⟨hrest₁, fun c hc => List.mem_singleton.mp hc ▸ rfl⟩
  obtain ⟨rest, hsecond, hrest⟩ := hks₂.exists_behind_blanks hrest₂ hblanks
  rw [List.append_assoc, List.singleton_append] at hsecond
  have hfirst := hks₁.append_blank (b := '\n') rfl (withoutComments t₂)
  refine ⟨h₁.spells.append h₂.spells, rest, ?_, hrest⟩
  rw [h₁.withoutComments_append]
  exact Layout.append_iff.mpr ⟨_, hfirst, hsecond⟩

lemma readAll_append {cs₁ cs₂ : List Char}
    (h₁ : readAll program (withoutComments cs₁) = .ok sts₁)
    (h₂ : readAll program (withoutComments cs₂) = .ok sts₂) :
    readAll program (withoutComments (cs₁ ++ '\n' :: cs₂)) = .ok (sts₁ ++ sts₂) := by
  obtain ⟨ks₁, hks₁⟩ := exists_readAs_iff.mpr h₁
  obtain ⟨ks₂, hks₂⟩ := exists_readAs_iff.mpr h₂
  exact exists_readAs_iff.mp ⟨_, hks₁.append hks₂⟩

end Source

/-! ### Uses in two lists -/

section

variable {uses uses' : List (String × Nat)} {expected found : Nat}

/-- Dropping repetitions and leaving members out can be done in either order. -/
lemma eraseDups_filter {α : Type} [BEq α] [LawfulBEq α] (p : α → Bool) (as : List α) :
    (as.filter p).eraseDups = as.eraseDups.filter p := by
  induction as using List.reverseRecOn with
  | nil => rfl
  | append_singleton as a ih =>
      rw [List.filter_append, List.filter_singleton, eraseDups_concat]
      cases ha : p a with
      | false =>
          rw [cond_false, List.append_nil, ih]
          split
          · rfl
          · rw [List.filter_append, List.filter_singleton, ha, cond_false, List.append_nil]
      | true =>
          rw [cond_true, eraseDups_concat, ih]
          by_cases hmem : a ∈ as
          · rw [if_pos (List.mem_filter.mpr ⟨hmem, ha⟩), if_pos hmem]
          · rw [if_neg fun h => hmem (List.mem_filter.mp h).1, if_neg hmem, List.filter_append,
              List.filter_singleton, ha, cond_true]

/-- Behind consistent uses, others that are consistent with them add just the names that are new. -/
lemma eraseDups_append_of_consistent (h : ConsistentUses (uses ++ uses')) :
    (uses ++ uses').eraseDups = uses.eraseDups ++
      uses'.eraseDups.filter fun u => decide (u.1 ∉ uses.eraseDups.map Prod.fst) := by
  rw [List.eraseDups_append, List.removeAll, ← eraseDups_filter]
  refine congrArg (uses.eraseDups ++ List.eraseDups ·) (List.filter_congr fun u hu => ?_)
  have hiff : u ∈ uses ↔ u.1 ∈ uses.eraseDups.map Prod.fst := by
    constructor
    · exact fun hmem => List.mem_map_of_mem (List.mem_eraseDups.mpr hmem)
    · intro hname
      obtain ⟨u', hu', he⟩ := List.mem_map.mp hname
      have hmem := List.mem_eraseDups.mp hu'
      have harity := h u' (List.mem_append_left _ hmem) u (List.mem_append_right _ hu) he
      rwa [← Prod.ext he harity]
  simp only [← hiff, decide_not, List.elem_eq_mem]

/-- The first disagreement in two lists that are consistent is between them. -/
lemma FirstDisagreement.of_append (h : FirstDisagreement (uses ++ uses') expected found)
    (huses : ConsistentUses uses) (huses' : ConsistentUses uses') :
    expected ≠ found ∧ ∃ name, (name, expected) ∈ uses ∧ (name, found) ∈ uses' := by
  obtain ⟨before, name, after, hsplit, -, hlookup, hne⟩ := h
  have hbefore := mem_of_lookup hlookup
  refine ⟨hne, name, ?_⟩
  -- the disagreeing use is in the second list, and the one that it disagrees with in the first
  rcases List.append_eq_append_iff.mp hsplit with ⟨more, rfl, rfl⟩ | ⟨more, rfl, hmore⟩
  · have hfound : (name, found) ∈ more ++ (name, found) :: after := by simp
    rcases List.mem_append.mp hbefore with hmem | hmem
    · exact ⟨hmem, hfound⟩
    · exact absurd (huses' _ (List.mem_append_left _ hmem) _ hfound rfl) hne
  · rcases more with _ | ⟨u, more⟩
    · obtain rfl : (name, found) :: after = uses' := hmore
      exact ⟨List.mem_append_left _ hbefore, List.mem_cons_self⟩
    · obtain ⟨rfl, -⟩ := List.cons.inj hmore
      have hfound : (name, found) ∈ before ++ (name, found) :: more := by simp
      exact absurd (huses _ (List.mem_append_left _ hbefore) _ hfound rfl) hne

end

namespace Schema

open Source

/-! ### Schemas behind each other -/

/-- The rules of a schema for a name, of which there are none if no predicate has it. -/
def rulesFor (s : Schema) (name : String) : List Rule :=
  ((s.predicates.find? fun p => p.name == name).map Predicate.rules).getD []

/-- Whether no name has different arities in two schemas. -/
def Compatible (s₁ s₂ : Schema) : Prop :=
  ∀ p₁ ∈ s₁.predicates, ∀ p₂ ∈ s₂.predicates, p₁.name = p₂.name → p₁.arity = p₂.arity

/-- Whether a schema is one behind another, if predicates are told by their names: it has the names
of the first one and the new ones of the second one, and under each name the rules of both, and
the dependencies of both, all in order. -/
structure Joins (s₁ s₂ s : Schema) : Prop where
  distinct : s.predicates.DistinctNames
  signature : s.predicates.signature = s₁.predicates.signature ++
    s₂.predicates.signature.filter fun u => decide (u.1 ∉ s₁.names)
  rules : ∀ p ∈ s.predicates, ∃ rs₁ rs₂, p.rules = rs₁ ++ rs₂ ∧
    List.Forall₂ (Rule.Copies (s₁.Namesakes s)) (s₁.rulesFor p.name) rs₁ ∧
    List.Forall₂ (Rule.Copies (s₂.Namesakes s)) (s₂.rulesFor p.name) rs₂
  dependencies : ∃ ds₁ ds₂, s.dependencies = ds₁ ++ ds₂ ∧
    List.Forall₂ (Dependency.Copies (s₁.Namesakes s)) s₁.dependencies ds₁ ∧
    List.Forall₂ (Dependency.Copies (s₂.Namesakes s)) s₂.dependencies ds₂

variable {s₁ s₂ s : Schema} {sts₁ sts₂ : List Statement} {expected found : Nat}

/-- Arities are compared in the signatures. -/
lemma compatible_iff_signature : s₁.Compatible s₂ ↔ ∀ u ∈ s₁.predicates.signature,
    ∀ u' ∈ s₂.predicates.signature, u.1 = u'.1 → u.2 = u'.2 := by
  simp only [Compatible, Table.signature, List.forall_mem_map]

namespace DescribedBy

/-- The rules for a name are what those among the statements denote, if there are any. -/
lemma denotes_rulesFor (h : s.DescribedBy sts₁) (name : String) :
    List.Forall₂ (Statement.DenotesRule s.predicates.RefersTo)
      (sts₁.filter (Statement.isRuleFor name)) (s.rulesFor name) := by
  rw [rulesFor]
  cases hfind : s.predicates.find? fun p => p.name == name with
  | some p =>
      have hname := List.find?_some hfind
      rw [← beq_iff_eq.mp hname]
      exact h.rules p (List.mem_of_find?_eq_some hfind)
  | none =>
      have hnone : sts₁.filter (Statement.isRuleFor name) = [] := by
        refine List.filter_eq_nil_iff.mpr fun st hst hrule => ?_
        cases st with
        | dependency _ _ => cases hrule
        | rule head body =>
            obtain ⟨p, hp, hpname⟩ := List.mem_map.mp (h.mem_names hst)
            have hne := List.find?_eq_none.mp hfind p hp
            exact hne (beq_iff_eq.mpr (hpname.trans (beq_iff_eq.mp hrule)))
      rw [hnone]
      exact .nil

/-- Schemas are compatible iff the statements that describe them use each name with one number of
terms when they are taken together. -/
lemma compatible_iff (h₁ : s₁.DescribedBy sts₁) (h₂ : s₂.DescribedBy sts₂) :
    s₁.Compatible s₂ ↔ ConsistentUses ((sts₁ ++ sts₂).flatMap Statement.uses) := by
  rw [compatible_iff_signature, List.flatMap_append]
  simp only [h₁.mem_signature_iff, h₂.mem_signature_iff]
  constructor
  · intro h u hu u' hu' hname
    rcases List.mem_append.mp hu with hu | hu <;> rcases List.mem_append.mp hu' with hu' | hu'
    · exact h₁.consistentUses u hu u' hu' hname
    · exact h u hu u' hu' hname
    · exact (h u' hu' u hu hname.symm).symm
    · exact h₂.consistentUses u hu u' hu' hname
  · exact fun h u hu u' hu' =>
      h u (List.mem_append_left _ hu) u' (List.mem_append_right _ hu')

/-- **What two lists of statements describe together** is the join of what each describes. -/
lemma joins (h₁ : s₁.DescribedBy sts₁) (h₂ : s₂.DescribedBy sts₂)
    (h : s.DescribedBy (sts₁ ++ sts₂)) : s₁.Joins s₂ s := by
  constructor
  · exact h.names
  · have hsignature := declareUses_eq_ok.mp h.signature
    rw [List.flatMap_append] at hsignature
    rw [hsignature.2, eraseDups_append_of_consistent hsignature.1, names_eq,
      (declareUses_eq_ok.mp h₁.signature).2, (declareUses_eq_ok.mp h₂.signature).2]
  · intro p hp
    have hrules := h.rules p hp
    rw [List.filter_append] at hrules
    obtain ⟨rs₁, rs₂, hsplit, hrs₁, hrs₂⟩ := forall₂_append_left hrules
    exact ⟨rs₁, rs₂, hsplit,
      forall₂_of_common (h₁.denotes_rulesFor p.name) hrs₁ fun _ _ _ => rule_copies_of_denotes,
      forall₂_of_common (h₂.denotes_rulesFor p.name) hrs₂ fun _ _ _ => rule_copies_of_denotes⟩
  · have hdependencies := h.dependencies
    rw [List.filter_append] at hdependencies
    obtain ⟨ds₁, ds₂, hsplit, hds₁, hds₂⟩ := forall₂_append_left hdependencies
    exact ⟨ds₁, ds₂, hsplit,
      forall₂_of_common h₁.dependencies hds₁ fun _ _ _ => dependency_copies_of_denotes,
      forall₂_of_common h₂.dependencies hds₂ fun _ _ _ => dependency_copies_of_denotes⟩

/-- The first disagreement is about a name with an arity in each schema. -/
lemma exists_disagreeing (h₁ : s₁.DescribedBy sts₁) (h₂ : s₂.DescribedBy sts₂)
    (h : FirstDisagreement ((sts₁ ++ sts₂).flatMap Statement.uses) expected found) :
    ∃ p₁ ∈ s₁.predicates, ∃ p₂ ∈ s₂.predicates, p₁.name = p₂.name ∧ p₁.arity ≠ p₂.arity ∧
      expected = p₁.arity ∧ found = p₂.arity := by
  rw [List.flatMap_append] at h
  obtain ⟨hne, name, hmem₁, hmem₂⟩ := h.of_append h₁.consistentUses h₂.consistentUses
  obtain ⟨p₁, hp₁, hu₁⟩ := List.mem_map.mp ((h₁.mem_signature_iff _).mpr hmem₁)
  obtain ⟨p₂, hp₂, hu₂⟩ := List.mem_map.mp ((h₂.mem_signature_iff _).mpr hmem₂)
  obtain ⟨rfl, rfl⟩ := Prod.mk.inj hu₁
  obtain ⟨hname, rfl⟩ := Prod.mk.inj hu₂
  exact ⟨p₁, hp₁, p₂, hp₂, hname.symm, hne, rfl, rfl⟩

end DescribedBy

/-! ### Texts behind each other -/

/-- **Texts can be put one behind the other.** Two texts that describe schemas, on lines of their
own, describe a schema together iff no name has different arities in the two. Otherwise they are
refused for such a name, with its arity in the first schema as the expected one. The schema that
they describe together is the second one behind the first one. -/
theorem ofText_concatenation {issuer₁ issuer₂ : Nat} {text₁ text₂ : String}
    (h₁ : ofText issuer₁ text₁ = .ok s₁) (h₂ : ofText issuer₂ text₂ = .ok s₂) (issuer : Nat) :
    ((∃ s, ofText issuer (text₁ ++ "\n" ++ text₂) = .ok s) ↔ s₁.Compatible s₂) ∧
    (¬s₁.Compatible s₂ → ∃ p₁ ∈ s₁.predicates, ∃ p₂ ∈ s₂.predicates,
      p₁.name = p₂.name ∧ p₁.arity ≠ p₂.arity ∧
      ofText issuer (text₁ ++ "\n" ++ text₂) = .error (.arityMismatch p₁.arity p₂.arity)) ∧
    ∀ s, ofText issuer (text₁ ++ "\n" ++ text₂) = .ok s → s₁.Joins s₂ s := by
  obtain ⟨sts₁, hsts₁, hdescribed₁, hread₁⟩ := describedBy_of_ofText h₁
  obtain ⟨sts₂, hsts₂, hdescribed₂, hread₂⟩ := describedBy_of_ofText h₂
  have htext : (text₁ ++ "\n" ++ text₂).toList = text₁.toList ++ '\n' :: text₂.toList := by
    rw [String.toList_append, String.toList_append, List.append_assoc]
    rfl
  have hread : readAll program (withoutComments (text₁ ++ "\n" ++ text₂).toList) =
      .ok (sts₁ ++ sts₂) := by
    rw [htext]
    exact readAll_append hread₁ hread₂
  have hparts : ∀ st ∈ sts₁ ++ sts₂, st.HasParts := fun st hst =>
    (List.mem_append.mp hst).elim (fun h => (hsts₁ st h).hasParts) fun h => (hsts₂ st h).hasParts
  rw [ofText_of_readAll hread, hdescribed₁.compatible_iff hdescribed₂]
  refine ⟨exists_ofStatements_iff hparts, fun hinconsistent => ?_, fun s hs => ?_⟩
  · cases hs : ofStatements issuer (sts₁ ++ sts₂) with
    | ok s => exact absurd ((exists_ofStatements_iff hparts).mp ⟨s, hs⟩) hinconsistent
    | error e =>
        obtain ⟨expected, found, hfirst, rfl⟩ := (ofStatements_eq_error hparts).mp hs
        obtain ⟨p₁, hp₁, p₂, hp₂, hname, hne, rfl, rfl⟩ :=
          hdescribed₁.exists_disagreeing hdescribed₂ hfirst
        exact ⟨p₁, hp₁, p₂, hp₂, hname, hne, rfl⟩
  · exact hdescribed₁.joins hdescribed₂ (describedBy_of_ofStatements hparts hs)

end Schema

/-! ### A text in two parts -/

namespace Halves

/-- A dependency, with a comment that the text ends in. -/
def first : String := "P(x) -> Q(x). # it's the first part"

/-- A text with names of the first one and a new one, that starts with a number. -/
def second : String := "2 = x, Q(x) -> R(x, '#'), P(x).\nP(x) :- Q(x), not R(x, 5)."

/-- A text that has a name of the first one with another arity. -/
def other : String := "S(x) :- P(x). Q(x, y) -> P(x)."

/-- The second text can be put behind the first one, and the other one cannot. -/
theorem ofText_concatenation_halves : ∃ s₁ s₂ s₃,
    Schema.ofText 0 first = .ok s₁ ∧ Schema.ofText 1 second = .ok s₂ ∧
    Schema.ofText 2 other = .ok s₃ ∧
    (∃ s, Schema.ofText 3 (first ++ "\n" ++ second) = .ok s ∧ s₁.Joins s₂ s ∧
      s.predicates.signature = [("P", 1), ("Q", 1), ("R", 2)]) ∧
    ∃ expected found, Schema.ofText 3 (first ++ "\n" ++ other) =
      .error (.arityMismatch expected found) := by
  have hfirst : (Schema.ofText 0 first).map (Table.signature ∘ Schema.predicates) =
      .ok [("P", 1), ("Q", 1)] := by decide +kernel
  have hsecond : (Schema.ofText 1 second).map (Table.signature ∘ Schema.predicates) =
      .ok [("Q", 1), ("R", 2), ("P", 1)] := by decide +kernel
  have hother : (Schema.ofText 2 other).map (Table.signature ∘ Schema.predicates) =
      .ok [("S", 1), ("P", 1), ("Q", 2)] := by decide +kernel
  obtain ⟨s₁, hs₁, hsignature₁⟩ := exists_of_map_eq_ok hfirst
  obtain ⟨s₂, hs₂, hsignature₂⟩ := exists_of_map_eq_ok hsecond
  obtain ⟨s₃, hs₃, hsignature₃⟩ := exists_of_map_eq_ok hother
  rw [Function.comp_apply] at hsignature₁ hsignature₂ hsignature₃
  obtain ⟨haccepted, -, hjoins⟩ := Schema.ofText_concatenation hs₁ hs₂ 3
  obtain ⟨-, hrefused, -⟩ := Schema.ofText_concatenation hs₁ hs₃ 3
  refine ⟨s₁, s₂, s₃, hs₁, hs₂, hs₃, ?_, ?_⟩
  · have hcompatible : s₁.Compatible s₂ := by
      rw [Schema.compatible_iff_signature, hsignature₁, hsignature₂]
      decide
    obtain ⟨s, hs⟩ := haccepted.mpr hcompatible
    refine ⟨s, hs, hjoins s hs, ?_⟩
    rw [(hjoins s hs).signature, Schema.names_eq, hsignature₁, hsignature₂]
    decide
  · have hincompatible : ¬s₁.Compatible s₃ := by
      rw [Schema.compatible_iff_signature, hsignature₁, hsignature₃]
      decide
    obtain ⟨p₁, -, p₂, -, -, -, he⟩ := hrefused hincompatible
    exact ⟨_, _, he⟩

end Halves

end DependencyTheory
