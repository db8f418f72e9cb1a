import Reckoner.Token.Lexer
/-!
# Postfix form

An expression with every operator after its operands, so that it needs no parentheses. Infix tokens are put in postfix
order in one pass: operands go out at once, operators wait on a stack until an operator that binds less tightly, a
closing parenthesis or the end takes them off.
-/

namespace Reckoner

/-- Tokens in postfix order, with the input that messages show. -/
structure Postfix where
  tokens : List Token
  source : Text
  deriving DecidableEq, Repr

namespace Postfix

/-- Whether a waiting token can only be taken off by a closing parenthesis. -/
def waitsForClosing (t : Token) : Bool := t.kind == .opening || t.kind == .function

/-- Infix tokens in postfix order, above the tokens that wait on the stack. -/
def order (source : Text) (stack : List Token) : List Token → Outcome (List Token)
  | [] => if stack.any waitsForClosing then refuse (.mismatchedParentheses source) else .ok stack
  | t :: rest =>
    match t.kind with
    | .operand _ => do return t :: (← order source stack rest)
    | .function | .opening | .negate => order source (t :: stack) rest
    | .operator o => do
      let (taken, left) := stack.span (·.kind.bindsBefore o)
      return taken ++ (← order source (t :: left) rest)
    | .closing => do
      let (taken, left) := stack.span (·.kind != .opening)
      match left with
      | [] => refuse (.mismatchedParentheses source)
      | _ :: left =>
        let (called, left) := call left
        return taken ++ called ++ (← order source left rest)
where
  /-- A function whose argument is complete, and what waits below it. -/
  call : List Token → List Token × List Token
    | f :: left => if f.kind = .function then ([f], left) else ([], f :: left)
    | [] => ([], [])

/-- The postfix form of infix tokens. -/
def ofTokens (tokens : List Token) (source : Text) : Outcome Postfix := do
  return ⟨← order source [] tokens, source⟩

/-- The postfix form of an expression. -/
def parse (expression source : Text) : Outcome Postfix := do ofTokens (← Token.tokenize expression source) source

/-- The tokens with blanks between them; a negation is spelled out. -/
def text (p : Postfix) : Text :=
  Text.join [' '] (p.tokens.map fun t => if t.kind = .negate then ['n', 'e', 'g'] else t.value)

end Postfix

end Reckoner
