import Reckoner.Fault
import Reckoner.Token.Basic
/-!
# Reading tokens

Blanks are dropped first. A matrix literal is one token, up to the bracket that closes it. A minus sign where an operand
is expected is a negation, and where an operand follows another one a multiplication sign is put between them.
-/

namespace Reckoner.Token

open CharClass

/-! ## Lexemes -/

/-- The number of characters of an unsigned decimal number at the start of a text: digits, and a point if further
digits follow it. -/
def numberLength (t : Text) : Nat :=
  let (whole, rest) := Text.spanDigits t
  match rest with
  | '.' :: rest =>
    let places := (Text.spanDigits rest).1
    if places.isEmpty then whole.length else whole.length + 1 + places.length
  | _ => whole.length

/-- Whether the imaginary unit stands at the start of a text: the letter alone, not the start of a longer name. -/
def unitAhead : Text → Bool
  | c :: rest => (c == 'i' || c == 'I') && !rest.head?.any isPlainLetter
  | [] => false

/-- How many characters there are up to the bracket that closes the last of `depth` open ones. -/
def closingBracket? (depth : Nat) : Text → Option Nat
  | [] => none
  | c :: rest =>
    if c = '[' then (closingBracket? (depth + 1) rest).map (· + 1)
    else if c = ']' then if depth ≤ 1 then some 1 else (closingBracket? (depth - 1) rest).map (· + 1)
    else (closingBracket? depth rest).map (· + 1)

/-- The lexeme that begins with `c`: its kind, and how many of the characters in `rest` belong to it. A minus sign is
taken as an operator. -/
def lexeme? (c : Char) (rest : Text) : Option (Kind × Nat) :=
  if c = '[' then (closingBracket? 1 rest).map fun n => (.operand .matrix, n)
  else if isDigit c then
    let n := numberLength (c :: rest)
    some (if unitAhead ((c :: rest).drop n) then (.operand .imaginary, n) else (.operand .number, n - 1))
  else if unitAhead (c :: rest) then some (.operand .imaginary, 0)
  else if isPlainLetter c then
    let n := (rest.takeWhile isPlainLetter).length
    some (if (rest.drop n).head? = some '(' then (.function, n) else (.operand .identifier, n))
  else if c = '*' then
    some (if rest.head? = some '*' then (.operator .matrixTimes, 1) else (.operator .times, 0))
  else if c = '^' then some (.operator .power, 0)
  else if c = '+' then some (.operator .plus, 0)
  else if c = '-' then some (.operator .minus, 0)
  else if c = '/' then some (.operator .divide, 0)
  else if c = '%' then some (.operator .modulo, 0)
  else if c = '(' then some (.opening, 0)
  else if c = ')' then some (.closing, 0)
  else none

/-! ## Places -/

/-- Whether an operand has to follow the last token. -/
def expectsOperand : Option Kind → Bool
  | some (.operand _) | some .closing => false
  | _ => true

/-- The kind of a token by what stands before it: a minus sign where an operand is expected is a negation. -/
def resolve (last : Option Kind) : Kind → Kind
  | .operator .minus => if expectsOperand last then .negate else .operator .minus
  | kind => kind

/-- Whether a token can follow the last one. -/
def fits (last : Option Kind) : Kind → Bool
  | .operator _ | .closing => !expectsOperand last
  | .negate => last != some .negate
  | _ => true

/-- Whether a multiplication sign is left out before a token. -/
def joins (last : Option Kind) : Kind → Bool
  | .operand _ | .function | .opening => !expectsOperand last
  | _ => false

/-- The number of open parentheses after a token; a parenthesis that closes none is refused. -/
def nesting (source : Text) (position depth : Nat) : Kind → Outcome Nat
  | .opening => .ok (depth + 1)
  | .closing => if depth = 0 then refuse (.unopenedParenthesis position source) else .ok (depth - 1)
  | _ => .ok depth

/-! ## Scanning -/

/-- The tokens of a text without blanks that stands at `position`, after the last token and inside `depth` open
parentheses. -/
def scan (source : Text) (position depth : Nat) (last : Option Kind) : Text → Outcome (List Token)
  | [] =>
    if depth ≠ 0 then refuse (.unclosedParenthesis source)
    else if expectsOperand last then refuse (.missingOperand source)
    else .ok []
  | c :: rest =>
    match lexeme? c rest with
    | none =>
      if c = '[' then refuse (.unclosedBracket position source) else refuse (.strayCharacter position c source)
    | some (form, n) => do
      let kind := resolve last form
      let depth ← nesting source position depth kind
      if !fits last kind then refuse (.misplacedToken position source)
      else
        let following ← scan source (position + n + 1) depth (some kind) (rest.drop n)
        let token : Token := ⟨kind, c :: rest.take n, position⟩
        return if joins last kind then ⟨.operator .times, ['*'], position⟩ :: token :: following
          else token :: following
termination_by t => t.length
decreasing_by simp only [List.length_drop, List.length_cons]; omega

/-- The tokens of an expression; `source` is the input that messages show. -/
def tokenize (expression source : Text) : Outcome (List Token) :=
  let t := Text.squeeze expression
  if t.isEmpty then refuse (.emptyExpression source) else scan source 0 0 none t

end Reckoner.Token
