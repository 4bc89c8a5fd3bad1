/-
Which searches for homomorphisms fail with an error:

* `OverDerived`, `FirstOverDerived`: whether a literal is over a derived predicate, and whether
  a list has such literals and which name comes first;
* `Setting.run_eq_error`: a search that has an answer unless it is refused fails just when it is
  refused;
* `Setting.allAnswered`: a search that is not refused has an answer, however deep comparisons
  of rules go;
* `Setting.DecidedByLiterals`, `Setting.errors_decided`: so which searches fail, and with which
  error, can be read off the policy and the two lists.
-/
import DependencyTheory.Proofs.Homomorphism.ByName
import DependencyTheory.Proofs.Homomorphism.Permutation

namespace DependencyTheory.Homomorphism

variable {s : Schema} {l : Literal} {literals : List Literal} {name : String}

/-! ### Literals over derived predicates -/

/-- Whether a literal, affirmed or denied, is over a derived predicate of a schema, and the
predicate has a given name. -/
def OverDerived (s : Schema) (l : Literal) (name : String) : Prop :=
  ∃ positive a p, l = .ordinary positive a ∧ s.get? a.predicate = some p ∧ p.isDerived = true ∧
    p.name = name

/-- Whether a list has literals over derived predicates, the first of them over one of a given
name. -/
def FirstOverDerived (s : Schema) (literals : List Literal) (name : String) : Prop :=
  ∃ before l after, literals = before ++ l :: after ∧ OverBase s before ∧ OverDerived s l name

/-- The name that is looked for in a literal is that of its predicate, if this is derived. -/
lemma overDerived_iff : OverDerived s l name ↔
    ((l.predicate?.bind s.get?).bind fun p => if p.isDerived then some p.name else none) =
      some name := by
  simp only [Option.bind_eq_some_iff, Option.ite_some_none_eq_some]
  constructor
  · rintro ⟨positive, a, p, rfl, hp, hderived⟩
    exact ⟨p, ⟨a.predicate, rfl, hp⟩, hderived⟩
  · rintro ⟨p, ⟨h, hh, hp⟩, hderived⟩
    cases l with
    | builtIn b => cases hh
    | ordinary positive a =>
        cases hh
        exact ⟨positive, a, p, rfl, hp, hderived⟩

lemma firstDerived?_eq_some :
    firstDerived? s literals = some name ↔ FirstOverDerived s literals name := by
  rw [firstDerived?, List.findSome?_eq_some_iff]
  simp only [← List.findSome?_eq_none_iff, ← overDerived_iff]
  simp only [FirstOverDerived, ← firstDerived?_eq_none]
  exact exists_congr fun before => exists_congr fun l => exists_congr fun after =>
    and_congr_right fun _ => and_comm

/-- A list has a first literal over a derived predicate iff it has any. -/
lemma exists_firstOverDerived_iff : (∃ name, FirstOverDerived s literals name) ↔
    ∃ l ∈ literals, ∃ name, OverDerived s l name := by
  simp only [← firstDerived?_eq_some, overDerived_iff, ← Option.isSome_iff_exists]
  rw [firstDerived?, List.findSome?_isSome_iff]

namespace Setting

variable {m : Setting} {domain range : List Literal}

/-! ### Refused searches -/

/-- Literals are refused where derived predicates are forbidden, and the first name is told. -/
lemma refuseDerived_eq_error {e : AnalysisError} : m.refuseDerived domain range = .error e ↔
    m.policy = .forbidden ∧ ∃ name, e = .derivedLiteral name ∧
      (FirstOverDerived m.domain domain name ∨
        OverBase m.domain domain ∧ FirstOverDerived m.range range name) := by
  simp only [← firstDerived?_eq_none, ← firstDerived?_eq_some, ← Option.or_eq_some_iff]
  rw [refuseDerived]
  cases m.policy with
  | sameName => simp
  | ruleStructural => simp
  | forbidden =>
      cases (firstDerived? m.domain domain).or (firstDerived? m.range range) with
      | none => simp
      | some name => simp [eq_comm]

/-- Where derived predicates are forbidden, lists that are not refused are over base
predicates. -/
lemma overBase_of_allowed (hpolicy : m.policy = .forbidden)
    (hallowed : m.refuseDerived domain range = .ok ()) :
    OverBase m.domain domain ∧ OverBase m.range range := by
  rw [← firstDerived?_eq_none, ← firstDerived?_eq_none, ← Option.or_eq_none_iff]
  rw [refuseDerived, hpolicy] at hallowed
  cases h : (firstDerived? m.domain domain).or (firstDerived? m.range range) with
  | none => rfl
  | some name =>
      rw [h] at hallowed
      cases hallowed

/-- A search that has an answer unless it is refused fails just when it is refused. -/
lemma run_eq_error {α : Type} {check : Except AnalysisError Unit} {x : Attempt α}
    (hx : check = .ok () → Answers x) {e : AnalysisError} :
    (do check; let (found, _) ← x.run []; return found : Except AnalysisError α) = .error e ↔
      check = .error e := by
  cases check with
  | error e' =>
      exact ⟨fun h => congrArg _ (Except.error.inj h), fun h => congrArg _ (Except.error.inj h)⟩
  | ok _ =>
      obtain ⟨a, w, hw⟩ := hx rfl []
      have hok := run_eq_ok.mpr ⟨rfl, w, hw⟩
      exact ⟨fun h => (nomatch hok.symm.trans h), fun h => (nomatch h)⟩

/-- **A search that is not refused has answers** to all its questions, between schemas that
declare what their rules refer to. -/
theorem allAnswered (hdomain : RulesDeclared m.domain) (hrange : RulesDeclared m.range)
    (hd : Declares m.domain domain) (hr : Declares m.range range)
    (hallowed : m.refuseDerived domain range = .ok ()) :
    AllAnswered m.agree m.sides domain range := by
  have hnames : NamesDecide m domain range → AllAnswered m.agree m.sides domain range :=
    fun h a ha b hb d hda r hrb => (h.comesUp ha hb hda hrb).answers
  cases hpolicy : m.policy with
  | sameName => exact hnames ⟨hd, hr, Or.inl hpolicy⟩
  | forbidden => exact hnames ⟨hd, hr, Or.inr (overBase_of_allowed hpolicy hallowed)⟩
  | ruleStructural =>
      have hanswers : AnswersDeclared m.agree m.sides := by
        rw [Setting.agree, hpolicy]
        exact answers_rulesAgree m.sides.comparands hdomain hrange
      exact hanswers.allAnswered hd hr

/-! ### Errors read off the literals -/

/-- Whether the policy and the literals alone decide if a search fails: not where derived
predicates are admitted, and otherwise iff some literal of either list is over one. The error
then has the name of the first such predicate, in the domain or, if this has none, in the
range. -/
structure DecidedByLiterals (m : Setting) (domain range : List Literal)
    (answer : Except AnalysisError (Option Substitution)) : Prop where
  admitted : m.policy ≠ .forbidden → ∃ found, answer = .ok found
  forbidden : m.policy = .forbidden → ((∃ name, answer = .error (.derivedLiteral name)) ↔
    (∃ l ∈ domain, ∃ name, OverDerived m.domain l name) ∨
      ∃ l ∈ range, ∃ name, OverDerived m.range l name)
  error : ∀ e, answer = .error e ↔ m.policy = .forbidden ∧ ∃ name, e = .derivedLiteral name ∧
    (FirstOverDerived m.domain domain name ∨
      OverBase m.domain domain ∧ FirstOverDerived m.range range name)

/-- What fails just when it is refused is decided by the literals. -/
lemma decidedByLiterals {answer : Except AnalysisError (Option Substitution)}
    (h : ∀ e, answer = .error e ↔ m.refuseDerived domain range = .error e) :
    m.DecidedByLiterals domain range answer where
  admitted hpolicy := by
    cases hanswer : answer with
    | ok found => exact ⟨found, rfl⟩
    | error e => exact absurd (refuseDerived_eq_error.mp ((h e).mp hanswer)).1 hpolicy
  forbidden hpolicy := by
    simp only [h, refuseDerived_eq_error, hpolicy, true_and, AnalysisError.derivedLiteral.injEq,
      exists_eq_left', exists_or, ← exists_firstOverDerived_iff, exists_and_left]
    refine ⟨Or.imp_right And.right, fun hfirst => ?_⟩
    by_cases hbase : OverBase m.domain domain
    · exact hfirst.imp_right fun hrange => ⟨hbase, hrange⟩
    · refine Or.inl ?_
      simp only [← firstDerived?_eq_some, ← Option.isSome_iff_exists]
      rwa [Option.isSome_iff_ne_none, ne_eq, firstDerived?_eq_none]
  error e := by rw [h, refuseDerived_eq_error]

/-- **Which searches fail is decided by the input alone.** Between built schemas and declared
literals, searches for homomorphisms between lists, with or without a given substitution, and
between rules fail only where derived predicates are forbidden and some literal is over one,
however far the search and the comparisons of rules would get. -/
theorem errors_decided (m : Setting) {b c : Builder} (hb : b.build = .ok m.domain)
    (hc : c.build = .ok m.range) :
    (∀ domain range, Declares m.domain domain → Declares m.range range →
      m.DecidedByLiterals domain range (m.homomorphism? domain range) ∧
        ∀ start, m.DecidedByLiterals domain range (m.homomorphismFrom? start domain range)) ∧
      ∀ d r : Rule, Declares m.domain d.body.literals → Declares m.range r.body.literals →
        m.DecidedByLiterals d.body.literals r.body.literals (m.ruleHomomorphism? d r) := by
  have hdomain := rulesDeclared_of_build hb
  have hrange := rulesDeclared_of_build hc
  have hlists : ∀ domain range, Declares m.domain domain → Declares m.range range → ∀ start,
      m.DecidedByLiterals domain range (m.homomorphismFrom? start domain range) :=
    fun domain range hd hr start => decidedByLiterals fun e => run_eq_error fun hallowed =>
      answers_search start (allAnswered hdomain hrange hd hr hallowed)
  refine ⟨fun domain range hd hr => ⟨hlists domain range hd hr .empty,
    hlists domain range hd hr⟩, fun d r hd hr => ?_⟩
  exact decidedByLiterals fun e => run_eq_error fun hallowed =>
    answers_searchRule (allAnswered hdomain hrange hd hr hallowed)

/-- Where derived predicates are compared, predicates that are defined through themselves do no
harm. Where they are forbidden, a denied literal at the end of the range is enough to refuse a
search that would have stopped before. -/
theorem errors_decided_joins :
    (∃ found, (⟨loops, loops, .ruleStructural⟩ : Setting).homomorphism?
        [unary 1 "x", unary 0 "x"] [unary 2 "u"] = .ok found) ∧
      (⟨joins, joins, .forbidden⟩ : Setting).homomorphismFrom? .empty [unary 0 "x"]
          [unary 1 "u", .ordinary false ⟨⟨0, 3, 1⟩, [.var "u"], rfl⟩] =
        .error (.derivedLiteral "E") ∧
      ∀ d r : Rule, d.body.literals = [unary 0 "x"] → r.body.literals = [unary 3 "u"] →
        (⟨joins, joins, .forbidden⟩ : Setting).ruleHomomorphism? d r =
          .error (.derivedLiteral "E") := by
  have hloops : (⟨0, loops.predicates, []⟩ : Builder).build = .ok loops := by decide +kernel
  have hjoins : (⟨0, joins.predicates, []⟩ : Builder).build = .ok joins := by decide +kernel
  obtain ⟨hlists, -⟩ := errors_decided ⟨loops, loops, .ruleStructural⟩ hloops hloops
  obtain ⟨hlists', hrules⟩ := errors_decided ⟨joins, joins, .forbidden⟩ hjoins hjoins
  have hbase : OverBase joins [unary 0 "x"] := by
    rw [← firstDerived?_eq_none]
    rfl
  have hdomain : Declares joins [unary 0 "x"] :=
    declares_unary fun l hl => ⟨_, _, _, List.mem_singleton.mp hl, rfl⟩
  have hrange : Declares joins [unary 3 "u"] :=
    declares_unary fun l hl => ⟨_, _, _, List.mem_singleton.mp hl, rfl⟩
  refine ⟨?_, ?_, fun d r hd hr => ?_⟩
  · refine (hlists _ _ (declares_unary fun l hl => ?_) (declares_unary fun l hl => ?_)).1.admitted
      (by simp)
    · simp only [List.mem_cons, List.not_mem_nil, or_false] at hl
      rcases hl with rfl | rfl <;> exact ⟨_, _, _, rfl, rfl⟩
    · exact ⟨_, _, _, List.mem_singleton.mp hl, rfl⟩
  · refine (((hlists' _ _ hdomain fun l hl => ?_).2 .empty).error _).mpr
      ⟨rfl, _, rfl, Or.inr ⟨hbase, ?_⟩⟩
    · simp only [List.mem_cons, List.not_mem_nil, or_false] at hl
      rcases hl with rfl | rfl <;> rintro _ ⟨⟩ <;> exact ⟨_, rfl⟩
    · exact firstDerived?_eq_some.mp rfl
  · refine ((hrules d r (hd ▸ hdomain) (hr ▸ hrange)).error _).mpr
      ⟨rfl, _, rfl, Or.inr ⟨hd ▸ hbase, firstDerived?_eq_some.mp ?_⟩⟩
    rw [hr]
    rfl

end Setting

end DependencyTheory.Homomorphism
