/-
What removing comments leaves of a text:

* `Scan.kept_append`: what stays of a text in two parts;
* `Scan.uncommented`: where the scan of what stays is, with `Scan.kept_kept` and `Scan.after_kept`:
  it goes along with the scan of the text, and removes nothing more;
* `Scan.quotations`: the constants between quotes in a text, as a scan finds them;
* `Layout.quotations_eq`: in what is laid out, these are the quoted tokens;
* `withoutComments_transparent`: **comments go and nothing else does**, and the constants that are
  read are those that stand in the text with its comments.

The scan and the readers tell constants from the rest of a text each in its own way. That they find
the same is shown token by token, for the text without comments, and carried over to the text with
them by the scan.
-/
import DependencyTheory.Proofs.Source.RoundTrip

namespace DependencyTheory.Source

variable {scan : Scan} {s r t u v cs : List Char} {c : Char} {k : Token} {ks : List Token}

namespace Scan

/-! ### Texts in parts -/

lemma kept_cons_of_keeps (h : scan.keeps c = true) :
    scan.kept (c :: t) = c :: (scan.next c).kept t := if_pos h

lemma kept_cons_of_not_keeps (h : scan.keeps c = false) :
    scan.kept (c :: t) = (scan.next c).kept t := by
  rw [kept, h]
  rfl

/-- The second part is scanned from where the scan of the first one ends. -/
lemma kept_append (scan : Scan) (u v : List Char) :
    scan.kept (u ++ v) = scan.kept u ++ (scan.after u).kept v := by
  induction u generalizing scan with
  | nil => rfl
  | cons c u ih =>
      cases hc : scan.keeps c with
      | true =>
          rw [List.cons_append, kept_cons_of_keeps hc, kept_cons_of_keeps hc, ih]
          rfl
      | false =>
          rw [List.cons_append, kept_cons_of_not_keeps hc, kept_cons_of_not_keeps hc, ih]
          rfl

/-- A text that passes is one that stays and leaves the scan outside. -/
lemma passes_iff : Passes cs ↔ outside.kept cs = cs ∧ outside.after cs = outside := by
  constructor
  · intro h
    have hkept : outside.kept cs = cs := by simpa [kept] using h []
    refine ⟨hkept, ?_⟩
    have hrest : ∀ s, (outside.after cs).kept s = outside.kept s := fun s => by
      have hs := h s
      rw [kept_append, hkept] at hs
      exact List.append_cancel_left hs
    -- between quotes a number sign would stay, and in a comment a letter would not
    have hsign := hrest ['#']
    have hletter := hrest ['a']
    cases hafter : outside.after cs with
    | outside => rfl
    | quoted =>
        rw [hafter] at hsign
        exact absurd hsign (by decide)
    | comment =>
        rw [hafter] at hletter
        exact absurd hletter (by decide)
  · rintro ⟨hkept, hafter⟩ s
    rw [kept_append, hkept, hafter]

/-! ### A second scan -/

/-- Where the scan of what stays is: where there was a comment, there is none any more. -/
def uncommented : Scan → Scan
  | comment => outside
  | scan => scan

lemma uncommented_of_ne (h : scan ≠ comment) : scan.uncommented = scan := by
  cases scan with
  | comment => exact absurd rfl h
  | _ => rfl

lemma keeps_uncommented (h : scan.keeps c = true) : scan.uncommented.keeps c = true := by
  cases scan with
  | outside => exact h
  | quoted => rfl
  | comment =>
      obtain rfl : c = '\n' := of_decide_eq_true h
      rfl

/-- What stays starts no comment. -/
lemma next_ne_comment_of_keeps (hscan : scan ≠ comment) (h : scan.keeps c = true) :
    scan.next c ≠ comment := by
  by_cases hquote : c = '\''
  · subst hquote
    cases scan with
    | comment => exact absurd rfl hscan
    | _ => decide
  · cases scan with
    | outside =>
        rw [next_outside ⟨of_decide_eq_true h, hquote⟩]
        decide
    | quoted =>
        rw [next_quoted hquote]
        decide
    | comment => exact absurd rfl hscan

/-- What stays is scanned again as it was at first. -/
lemma next_uncommented_of_keeps (h : scan.keeps c = true) :
    scan.uncommented.next c = (scan.next c).uncommented := by
  by_cases hscan : scan = comment
  · subst hscan
    obtain rfl : c = '\n' := of_decide_eq_true h
    rfl
  · rw [uncommented_of_ne hscan, uncommented_of_ne (next_ne_comment_of_keeps hscan h)]

/-- What does not stay changes nothing for what does. -/
lemma uncommented_next_of_not_keeps (h : scan.keeps c = false) :
    (scan.next c).uncommented = scan.uncommented := by
  cases scan with
  | outside =>
      obtain rfl : c = '#' := by simpa [keeps] using h
      rfl
  | quoted => cases h
  | comment =>
      rw [next_comment (of_decide_eq_false h)]

/-- **Removing comments again changes nothing.** -/
lemma kept_kept (scan : Scan) (t : List Char) :
    scan.uncommented.kept (scan.kept t) = scan.kept t := by
  induction t generalizing scan with
  | nil => rfl
  | cons c t ih =>
      cases hc : scan.keeps c with
      | true =>
          rw [kept_cons_of_keeps hc, kept_cons_of_keeps (keeps_uncommented hc),
            next_uncommented_of_keeps hc, ih]
      | false => rw [kept_cons_of_not_keeps hc, ← uncommented_next_of_not_keeps hc, ih]

/-- **The scan of what stays** ends where the scan of the text does, comments apart. -/
lemma after_kept (scan : Scan) (t : List Char) :
    scan.uncommented.after (scan.kept t) = (scan.after t).uncommented := by
  induction t generalizing scan with
  | nil => rfl
  | cons c t ih =>
      show _ = ((scan.next c).after t).uncommented
      rw [← ih]
      cases hc : scan.keeps c with
      | true =>
          rw [kept_cons_of_keeps hc, ← next_uncommented_of_keeps hc]
          rfl
      | false => rw [kept_cons_of_not_keeps hc, uncommented_next_of_not_keeps hc]

/-- **Line feeds stay.** -/
lemma count_kept (scan : Scan) (t : List Char) : (scan.kept t).count '\n' = t.count '\n' := by
  induction t generalizing scan with
  | nil => rfl
  | cons c t ih =>
      cases hc : scan.keeps c with
      | true => rw [kept_cons_of_keeps hc, List.count_cons, List.count_cons, ih]
      | false =>
          have hne : c ≠ '\n' := by
            rintro rfl
            cases scan <;> cases hc
          rw [kept_cons_of_not_keeps hc, List.count_cons_of_ne hne, ih]

/-- A comment goes up to the end of its line. -/
lemma kept_comment (h : '\n' ∉ cs) (v : List Char) :
    comment.kept (cs ++ '\n' :: v) = '\n' :: outside.kept v := by
  induction cs with
  | nil => rfl
  | cons c cs ih =>
      rw [List.mem_cons, not_or] at h
      have hc : comment.keeps c = false := decide_eq_false (Ne.symm h.1)
      rw [List.cons_append, kept_cons_of_not_keeps hc, next_comment (Ne.symm h.1), ih h.2]

/-! ### Constants between quotes -/

/-- The constants between quotes in a text that is scanned from here on. Between quotes, the first
of them is what is left of the constant up to its closing quote. -/
def quotations : Scan → List Char → List (List Char)
  | _, [] => []
  | quoted, c :: t =>
    if c = '\'' then [] :: outside.quotations t else (quoted.quotations t).modifyHead (c :: ·)
  | scan, c :: t => (scan.next c).quotations t

/-- They are the same in what stays. -/
lemma quotations_kept (scan : Scan) (t : List Char) :
    scan.uncommented.quotations (scan.kept t) = scan.quotations t := by
  induction t generalizing scan with
  | nil => cases scan <;> rfl
  | cons c t ih =>
      cases hc : scan.keeps c with
      | true =>
          have hnext := ih (scan.next c)
          rw [← next_uncommented_of_keeps hc] at hnext
          rw [kept_cons_of_keeps hc]
          cases scan with
          | quoted =>
              by_cases hquote : c = '\''
              · subst hquote
                exact congrArg ([] :: ·) hnext
              · rw [show quoted.uncommented = quoted from rfl, next_quoted hquote] at hnext ⊢
                rw [quotations, quotations, if_neg hquote, if_neg hquote, hnext]
          | _ => exact hnext
      | false =>
          rw [kept_cons_of_not_keeps hc, ← uncommented_next_of_not_keeps hc, ih]
          cases scan with
          | quoted => cases hc
          | _ => rfl

/-- A text without number signs and quotes has none. -/
lemma quotations_of_forall (h : ∀ c ∈ cs, c ≠ '#' ∧ c ≠ '\'') (t : List Char) :
    outside.quotations (cs ++ t) = outside.quotations t := by
  induction cs with
  | nil => rfl
  | cons c cs ih =>
      obtain ⟨hc, hcs⟩ := List.forall_mem_cons.mp h
      rw [List.cons_append, quotations, next_outside hc, ih hcs]
      simp

lemma quotations_of_isBlank (h : ∀ c ∈ cs, Text.isBlank c = true) (t : List Char) :
    outside.quotations (cs ++ t) = outside.quotations t :=
  quotations_of_forall (forall_ne_of_isBlank h) t

/-- A constant between quotes is one. -/
lemma quotations_quoted (h : '\'' ∉ cs) (t : List Char) :
    outside.quotations ('\'' :: (cs ++ '\'' :: t)) = cs :: outside.quotations t := by
  show quoted.quotations (cs ++ '\'' :: t) = _
  induction cs with
  | nil => rfl
  | cons c cs ih =>
      rw [List.mem_cons, not_or] at h
      rw [List.cons_append, quotations, if_neg (Ne.symm h.1), ih h.2]
      rfl

end Scan

/-! ### Constants that are read -/

/-- The constant between quotes that a token is. -/
def Token.quotation? : Token → Option (List Char)
  | quoted c => some c.toList
  | _ => none

lemma Token.Valid.quotations_append (h : k.Valid) (t : List Char) :
    Scan.outside.quotations (k.text ++ t) = k.quotation?.toList ++ Scan.outside.quotations t := by
  by_cases hk : ∃ c, k = .quoted c
  · obtain ⟨c, rfl⟩ := hk
    rw [text, List.cons_append, List.append_assoc]
    exact Scan.quotations_quoted h.2 t
  · rw [Scan.quotations_of_forall (h.forall_ne (not_exists.mp hk))]
    cases k with
    | quoted c => exact absurd ⟨c, rfl⟩ hk
    | _ => rfl

/-- **Quoted tokens are the constants between quotes** in what is laid out. -/
lemma Layout.quotations_eq (h : Layout ks s r) :
    Scan.outside.quotations s = ks.filterMap Token.quotation? ++ Scan.outside.quotations r := by
  induction h with
  | done => rfl
  | @token blanks s _ k ks hblanks hk _ _ ih =>
      rw [List.append_assoc, Scan.quotations_of_isBlank hblanks, hk.quotations_append, ih,
        ← List.append_assoc]
      refine congrArg (· ++ _) ?_
      cases hq : k.quotation? with
      | none => rw [List.filterMap_cons_none hq]; rfl
      | some q => rw [List.filterMap_cons_some hq]; rfl

/-! ### Texts with comments -/

/-- Whether statements are read from a text with comments, as some tokens. -/
structure ReadAs (t : List Char) (sts : List Statement) (ks : List Token) : Prop where
  spells : InTurn SpellsStatement sts ks
  layout : ∃ rest, Layout ks (withoutComments t) rest ∧ ∀ c ∈ rest, Text.isBlank c = true

lemma exists_readAs_iff {sts : List Statement} :
    (∃ ks, ReadAs t sts ks) ↔ readAll program (withoutComments t) = .ok sts := by
  rw [reads_program.readAll_eq_ok]
  constructor
  · rintro ⟨ks, hspells, rest, hks⟩
    exact ⟨ks, rest, hspells, hks⟩
  · rintro ⟨ks, rest, hspells, hks⟩
    exact ⟨ks, hspells, rest, hks⟩

namespace ReadAs

variable {sts : List Statement}

/-- The scan of a text that is read may end in a comment, though not between quotes. -/
lemma after_uncommented (h : ReadAs t sts ks) :
    (Scan.outside.after t).uncommented = .outside := by
  obtain ⟨rest, hks, hrest⟩ := h.layout
  obtain ⟨cs, hcs, hpasses⟩ := hks.exists_passes
  have hkept := Scan.passes_iff.mp (hpasses.append (Scan.passes_of_isBlank hrest))
  rw [← Scan.after_kept]
  rw [← hcs] at hkept
  exact hkept.2

/-- **The constants that are read are those in the text.** -/
lemma quotations_eq (h : ReadAs t sts ks) :
    ks.filterMap Token.quotation? = Scan.outside.quotations t := by
  obtain ⟨rest, hks, hrest⟩ := h.layout
  have hnone : Scan.outside.quotations rest = [] := by
    rw [← List.append_nil rest, Scan.quotations_of_isBlank hrest]
    rfl
  have hall := hks.quotations_eq
  rw [hnone, List.append_nil] at hall
  exact hall.symm.trans (Scan.quotations_kept .outside t)

end ReadAs

/-- **Comments go and nothing else does.** All line feeds stay, and removing comments again changes
nothing. A comment goes up to the end of its line, whatever is in it, and what stands between quotes
stays, whatever it is. Where a text describes a schema, no quote is left open in it, and the
constants between quotes in it are those that the statements of the schema are read with. -/
theorem withoutComments_transparent :
    (∀ t, (withoutComments t).count '\n' = t.count '\n' ∧
      withoutComments (withoutComments t) = withoutComments t) ∧
    (∀ u c v, Scan.outside.after u = .outside → '\n' ∉ c →
      withoutComments (u ++ '#' :: (c ++ '\n' :: v)) =
        withoutComments u ++ '\n' :: withoutComments v) ∧
    (∀ u c v, Scan.outside.after u = .outside → '\'' ∉ c →
      withoutComments (u ++ '\'' :: (c ++ '\'' :: v)) =
        withoutComments u ++ '\'' :: (c ++ '\'' :: withoutComments v)) ∧
    ∀ issuer text s, Schema.ofText issuer text = .ok s →
      Scan.outside.after text.toList ≠ .quoted ∧
      ∃ sts ks, ReadAs text.toList sts ks ∧ s.DescribedBy sts ∧
        ks.filterMap Token.quotation? = Scan.outside.quotations text.toList := by
  refine ⟨fun t => ⟨Scan.count_kept _ t, Scan.kept_kept .outside t⟩, fun u c v hu hc => ?_,
    fun u c v hu hc => ?_, fun issuer text s hs => ?_⟩
  · rw [withoutComments, Scan.kept_append, hu, Scan.kept_cons_of_not_keeps rfl]
    exact congrArg (_ ++ ·) (Scan.kept_comment hc v)
  · have hquoted := Scan.passes_quoted hc v
    rw [List.cons_append, List.append_assoc, List.singleton_append] at hquoted
    rw [withoutComments, Scan.kept_append, hu, hquoted, List.cons_append, List.append_assoc]
    rfl
  · obtain ⟨sts, -, hdescribed, hread⟩ := Schema.describedBy_of_ofText hs
    obtain ⟨ks, hks⟩ := exists_readAs_iff.mpr hread
    refine ⟨fun hquoted => ?_, sts, ks, hks, hdescribed, hks.quotations_eq⟩
    have hend := hks.after_uncommented
    rw [hquoted] at hend
    cases hend

/-! ### Number signs and quotes in each other -/

namespace Interleaved

/-- A text with number signs and line feeds in constants, and with quotes in comments, of which
the last one is not ended. -/
def text : String :=
  "P('a # b\nc') -> Q('#'). # it's 'x' # y\nQ(x), x <> '\n' -> R(x). # it's the end"

/-- Three constants are read, and the comment in the first line goes as a whole. -/
theorem withoutComments_transparent_interleaved :
    (withoutComments text.toList).count '\n' = 3 ∧
    withoutComments ("P('#'). ".toList ++ '#' :: (" it's 'x' # y".toList ++ '\n' :: "Q(').".toList))
      = withoutComments "P('#'). ".toList ++ '\n' :: withoutComments "Q(').".toList ∧
    withoutComments ("P(".toList ++ '\'' :: ("#\n#".toList ++ '\'' :: "). # it's P".toList)) =
      withoutComments "P(".toList ++
        '\'' :: ("#\n#".toList ++ '\'' :: withoutComments "). # it's P".toList) ∧
    ∃ s sts ks, Schema.ofText 0 text = .ok s ∧ Scan.outside.after text.toList = .comment ∧
      ReadAs text.toList sts ks ∧ s.DescribedBy sts ∧
        ks.filterMap Token.quotation? = ["a # b\nc".toList, "#".toList, "\n".toList] := by
  obtain ⟨hlines, hcomment, hquoted, htext⟩ := withoutComments_transparent
  refine ⟨?_, hcomment _ _ _ (by decide) (by decide), hquoted _ _ _ (by decide) (by decide), ?_⟩
  · rw [(hlines text.toList).1]
    decide +kernel
  · have hpretty : (Schema.ofText 0 text).map Schema.pretty =
        .ok "P('a # b\nc') -> Q('#').\nQ(x), x <> '\n' -> R(x).\n" := by decide +kernel
    obtain ⟨s, hs, -⟩ := exists_of_map_eq_ok hpretty
    obtain ⟨-, sts, ks, hread, hdescribed, hquotations⟩ := htext 0 text s hs
    have hall : Scan.outside.quotations text.toList =
        ["a # b\nc".toList, "#".toList, "\n".toList] := by decide +kernel
    exact ⟨s, sts, ks, hs, by decide +kernel, hread, hdescribed, hquotations.trans hall⟩

end Interleaved

end DependencyTheory.Source
