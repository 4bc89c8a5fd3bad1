/-
A search is the exhaustive enumeration of all choices, where names decide which
predicates match:

* `IsHomomorphism`: whether a substitution makes each literal of a list, when it is
  applied to it, one of another list;
* `homomorphismFrom?_enumerates`: nothing is found iff no substitution that extends
  the given one maps the domain into the range, and what is found is built from
  the first sequence of choices that some such substitution realises.

A search binds a variable only to what its choices force, so it keeps to the least
extensions. That nothing is lost by this is the content of
`homomorphismFrom?_byName`, where the images are arbitrary.
-/
import DependencyTheory.Proofs.Homomorphism.ByName

namespace DependencyTheory.Homomorphism

variable {m : Setting} {domain range : List Literal} {start t h : Substitution}

/-- Whether a substitution is a homomorphism: applied to a literal of the domain, it
gives some literal of the range, as it is written or the other way round, but for
the handle of a predicate of the same name and arity. -/
def IsHomomorphism (m : Setting) (h : Substitution) (domain range : List Literal) : Prop :=
  ∀ a ∈ domain, ∃ b ∈ range, ∃ turned b', b.reading turned = some b' ∧
    Alike (SamePredicate m.sides) (h.applyLiteral a) b' ∧ (h.applyLiteral a).terms = b'.terms

/-- Applying a substitution does not change what kind a literal is of. -/
lemma alike_applyLiteral {same : Handle → Handle → Prop} {a b : Literal} :
    Alike same (h.applyLiteral a) b ↔ Alike same a b := by
  cases a with
  | ordinary p a => cases b <;> rfl
  | builtIn a =>
      cases b with
      | ordinary q b => rfl
      | builtIn b =>
          simp only [Substitution.applyLiteral, Literal.mapTerms, Alike, BuiltIn.operator_mapTerms]

/-- Homomorphisms are the substitutions whose images map the domain into the
range. -/
lemma isHomomorphism_iff :
    IsHomomorphism m h domain range ↔ Maps (SamePredicate m.sides) h.image domain range := by
  have honto : ∀ a b, Onto (SamePredicate m.sides) h.image a b ↔
      Alike (SamePredicate m.sides) (h.applyLiteral a) b ∧ (h.applyLiteral a).terms = b.terms := by
    intro a b
    rw [Onto, alike_applyLiteral, Substitution.applyLiteral, Literal.terms_mapTerms,
      Substitution.applyTerm_eq_under]
  simp only [IsHomomorphism, Maps, honto]

/-- A substitution that extends another, and makes the choices by which a third
was built from it, agrees with the third. -/
lemma fits_of_realises {same : Handle → Handle → Prop} {cs : List Choice} (hle : start ≤ t)
    (hbinds : ∀ x, (t.get? x).isSome ↔ (start.get? x).isSome ∨ ∃ a ∈ domain, x ∈ a.vars)
    (ht : Realises same t.image range domain cs) (hh : start ≤ h)
    (hcs : Realises same h.image range domain cs) : t.Fits h.image := by
  intro x u hx
  have hbound : (t.get? x).isSome := by
    rw [hx]
    rfl
  rcases (hbinds x).mp hbound with hstart | ⟨a, ha, hxa⟩
  · obtain ⟨v, hv⟩ := Option.isSome_iff_exists.mp hstart
    have huv : u = v := Option.some.inj (hx.symm.trans (hle x v hv))
    rw [huv]
    exact Substitution.fits_image_of_le hh x v hv
  · calc h.image x = t.image x := (ht.image_eq hcs a ha x hxa).symm
      _ = u := t.fits_image x u hx

/-- **The search enumerates.** Where names decide which predicates match, there is
an answer. It is that there is no homomorphism iff no extension of the given
substitution maps each domain literal onto a range literal; and a homomorphism that
is found binds the variables of the given substitution and of the domain, is built
from choices that come first among all that can be made, and is the only extension
to make them, up to variables that stay what they are. -/
theorem homomorphismFrom?_enumerates (m : Setting) (start : Substitution)
    (domain range : List Literal) (hd : Declares m.domain domain) (hr : Declares m.range range)
    (hpolicy : m.policy = .sameName ∨
      m.policy = .forbidden ∧ OverBase m.domain domain ∧ OverBase m.range range) :
    ∃ found, m.homomorphismFrom? start domain range = .ok found ∧
      (found = none ↔ ¬∃ h, start ≤ h ∧ IsHomomorphism m h domain range) ∧
      ∀ t, found = some t → start ≤ t ∧
        (∀ x, (t.get? x).isSome ↔ (start.get? x).isSome ∨ ∃ a ∈ domain, x ∈ a.vars) ∧
        ∃ cs, Realises (SamePredicate m.sides) t.image range domain cs ∧
          (∀ h cs', start ≤ h → Realises (SamePredicate m.sides) h.image range domain cs' →
            cs ≤ cs') ∧
          ∀ h, start ≤ h → Realises (SamePredicate m.sides) h.image range domain cs →
            t.Fits h.image := by
  have hnames : NamesDecide m domain range := ⟨hd, hr, hpolicy.imp_right And.right⟩
  obtain ⟨found, hfound, hnone, hsome⟩ := homomorphismFrom?_byName hnames start
  refine ⟨found, hfound, ⟨fun hfound' => ?_, fun hno => ?_⟩, fun t ht => ?_⟩
  · rintro ⟨h, hh, hmaps⟩
    exact hnone hfound' h.image (Substitution.fits_image_of_le hh) (isHomomorphism_iff.mp hmaps)
  · refine Option.eq_none_iff_forall_ne_some.mpr fun t ht => hno ?_
    obtain ⟨hle, -, cs, hcs, -⟩ := hsome t ht
    exact ⟨t, hle, isHomomorphism_iff.mpr (maps_iff_exists_realises.mpr ⟨cs, hcs⟩)⟩
  · obtain ⟨hle, hbinds, cs, hcs, hfirst⟩ := hsome t ht
    refine ⟨hle, hbinds, cs, hcs, fun h cs' hh => ?_, fun h hh => ?_⟩
    · exact hfirst h.image cs' (Substitution.fits_image_of_le hh)
    · exact fits_of_realises hle hbinds hcs hh

/-- Edges under one name, with a comparison that is turned. The first edge of the
range does not lead to a homomorphism, since a variable is bound in advance. -/
theorem homomorphismFrom?_enumerates_edges :
    let edge (s t : String) : Literal := .ordinary true ⟨⟨0, 0, 2⟩, [.var s, .var t], rfl⟩
    let m : Setting := ⟨⟨[⟨0, "P", 2, []⟩], []⟩, ⟨[⟨0, "P", 2, []⟩], []⟩, .sameName⟩
    let start : Substitution := ⟨[("z", .var "d")], by simp⟩
    let d : List Literal := [edge "x" "y", .builtIn (.comparison .lt (.var "y") (.var "z"))]
    let r : List Literal :=
      [edge "x" "y", edge "y" "c", .builtIn (.comparison .gt (.var "d") (.var "c"))]
    Declares m.domain d ∧ Declares m.range r ∧
      ∃ t, m.homomorphismFrom? start d r = .ok (some t) ∧ start ≤ t ∧
        ∃ cs, Realises (SamePredicate m.sides) t.image r d cs ∧
          ∀ h cs', start ≤ h → Realises (SamePredicate m.sides) h.image r d cs' → cs ≤ cs' := by
  intro edge m start d r
  have hdeclares : ∀ ls, ls = d ∨ ls = r → Declares ⟨[⟨0, "P", 2, []⟩], []⟩ ls := by
    rintro ls (rfl | rfl) l hl h hh <;>
    · simp only [d, r, edge, List.mem_cons, List.not_mem_nil, or_false] at hl
      rcases hl with rfl | rfl | rfl <;> cases hh <;> exact ⟨_, rfl⟩
  have hd : Declares m.domain d := hdeclares d (Or.inl rfl)
  have hr : Declares m.range r := hdeclares r (Or.inr rfl)
  obtain ⟨found, hfound, -, hsome⟩ :=
    homomorphismFrom?_enumerates m start d r hd hr (Or.inl rfl)
  have ht : m.homomorphismFrom? start d r =
      .ok (some ⟨[("z", .var "d"), ("x", .var "y"), ("y", .var "c")], by simp⟩) := by decide +kernel
  obtain ⟨hle, -, cs, hcs, hfirst, -⟩ := hsome _ (Except.ok.inj (hfound.symm.trans ht))
  exact ⟨hd, hr, _, ht, hle, cs, hcs, hfirst⟩

end DependencyTheory.Homomorphism
