/-
The language of dependency texts:

* `name`, `quotedConstant`, `number`, `term`: terms;
* `atom`, `comparison`, `truthValue`, `literal`, `body`, `head`: the parts of
  statements;
* `statement`, `program`: dependencies `body -> head.` and derivation rules
  `head :- body.`;
* `literalList`: a body on its own.

Every token may have blanks in front. `not`, `true` and `false` are no
reserved words: where a predicate or variable can stand, they are names.
-/
import DependencyTheory.Source.Reader
import DependencyTheory.Source.Statement
import DependencyTheory.Text.Name

namespace DependencyTheory.Source

open Reader

/-! ### Terms and atoms -/

/-- The name of a predicate or a variable. -/
def name : Reader String := token do
  let first ← charOf Text.isNameStart
  let rest ← takeWhile Text.isNamePart
  return String.ofList (first :: rest)

/-- A constant between single quotes, which it cannot hold itself. -/
def quotedConstant : Reader String := token do
  let _ ← char '\''
  let content ← span1 .quotedText (· != '\'')
  let _ ← char '\''
  return String.ofList content

/-- The fraction of a number: a point with digits behind it. -/
def fraction : Reader (List Char) := do
  let point ← char '.'
  return point :: (← digits)

/-- A constant that is a number, kept as it is written. -/
def number : Reader String := token do
  let sign ← optional (char '-')
  let whole ← digits
  let fraction ← optional fraction
  return String.ofList (sign.toList ++ whole ++ fraction.getD [])

/-- A constant or a variable. -/
def term : Reader Term :=
  firstOf [Term.const <$> firstOf [quotedConstant, number], Term.var <$> name]

/-- The comma between the items of a list. -/
def comma : Reader String := token (word ",")

/-- A name with terms between parentheses. -/
def atom : Reader Atom := do
  let predicate ← name
  let _ ← token (char '(')
  let terms ← sepBy comma term
  let _ ← token (char ')')
  return ⟨predicate, terms⟩

/-! ### Literals -/

/-- The word `not` with a blank behind it. -/
def notWord : Reader String := do
  let not ← word "not"
  blanks1
  return not

/-- What denies the atom behind it. -/
def negation : Reader String := token (firstOf [word "!", notWord])

/-- One spelling of a comparison. -/
def spelled (spelling : String) (op : Comparison) : Reader Comparison :=
  (fun _ => op) <$> word spelling

/-- A comparison operator. Longer spellings are tried before the shorter ones
that they start with. -/
def comparison : Reader Comparison :=
  token (firstOf
    [spelled "<=" .le, spelled ">=" .ge, spelled "<>" .ne, spelled "!=" .ne,
      spelled "<" .lt, spelled ">" .gt, spelled "=" .eq])

/-- What cannot follow a truth value, since with it the word would be part of
a name or stand in front of terms. -/
def goesOn (c : Char) : Bool := Text.isNamePart c || c == '('

/-- One of the words `true` and `false`, as a word of its own. -/
def truthValue : Reader Bool := token do
  let value ← firstOf
    [(fun _ => true) <$> word "true", (fun _ => false) <$> word "false"]
  notFollowedBy (charOf goesOn)
  return value

/-- An atom with a negation in front. -/
def deniedAtom : Reader Literal := do
  let _ ← negation
  return .atom false (← atom)

/-- Two terms with a comparison in between. -/
def compared : Reader Literal := do
  let left ← term
  let op ← comparison
  return .comparison op left (← term)

/-- A condition. -/
def literal : Reader Literal :=
  firstOf [deniedAtom, Literal.atom true <$> atom, compared, Literal.truth <$> truthValue]

/-- One or more conditions. -/
def body : Reader (List Literal) := sepBy1 comma literal

/-! ### Statements -/

/-- Two terms with an equality sign in between. -/
def equality : Reader Head := do
  let left ← term
  let _ ← token (word "=")
  return .equality left (← term)

/-- One or more atoms, or an equality. -/
def head : Reader Head :=
  firstOf [Head.atoms <$> sepBy1 comma atom, equality]

/-- What stands between the body and the head of a dependency. -/
def arrow : Reader String := token (word "->")

/-- What stands between the head and the body of a rule. -/
def turnstile : Reader String := token (word ":-")

/-- The full stop at the end of a statement. -/
def fullStop : Reader String := token (Char.toString <$> char '.')

/-- A derivation rule without its full stop. -/
def rule : Reader Statement := do
  let head ← atom
  let _ ← turnstile
  return .rule head (← body)

/-- A dependency without its full stop. -/
def dependency : Reader Statement := do
  let body ← body
  let _ ← arrow
  return .dependency body (← head)

/-- A statement with its full stop. -/
def statement : Reader Statement := do
  let s ← firstOf [rule, dependency]
  let _ ← fullStop
  return s

/-- Statements one after the other. -/
def program : Reader (List Statement) := many statement

/-- One or more conditions, with a full stop or without. -/
def literalList : Reader (List Literal) := do
  let literals ← body
  let _ ← optional fullStop
  return literals

end DependencyTheory.Source
