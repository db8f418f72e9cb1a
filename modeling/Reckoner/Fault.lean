import Reckoner.Report
/-!
# Faults and failures

A fault is one cause for which the calculator refuses an input; its report gives the family, the message and the
details. A failure is a fault, or one of the few conditions that no fault covers.
-/

namespace Reckoner

open Text (str)

/-- The shape of a matrix: rows and columns. -/
abbrev Shape := Nat × Nat

/-- The causes of refusal. A `source` is the input as it was given. -/
inductive Fault where
  -- expressions
  | emptyExpression (source : Text)
  | strayCharacter (position : Nat) (c : Char) (source : Text)
  | unopenedParenthesis (position : Nat) (source : Text)
  | unclosedParenthesis (source : Text)
  | unclosedBracket (position : Nat) (source : Text)
  | misplacedToken (position : Nat) (source : Text)
  | missingOperand (source : Text)
  | mismatchedParentheses (source : Text)
  | malformedPostfix (source : Text)
  -- lines
  | equalsCount (source : Text)
  | unbalancedBrackets (source : Text)
  | emptyName (source : Text)
  | nameStartsWithDigit (source : Text)
  | nameNotLetters (source : Text)
  | imaginaryName (source : Text)
  | notAssignment (source : Text)
  | missingValue (source : Text)
  | resultNotRequested (source : Text)
  | emptyComputation (source : Text)
  | missingSide (source : Text)
  | severalUnknowns (source : Text) (unknowns : List Text)
  | undefinedVariables (source : Text) (names : List Text)
  | undefinedFunctions (source : Text) (names : List Text)
  -- literals
  | emptyRational
  | badRational (literal : Text)
  | emptyComplex
  | badComplex (literal : Text)
  | badMatrix (literal : Text)
  | badMatrixRow (row : Nat) (literal : Text)
  | badMatrixEntry (row column : Nat) (literal : Text)
  | unevenMatrixRow (row entries expected : Nat)
  | nonScalarEntry (shown : Text)
  | emptyPolynomial
  | severalVariables (source : Text)
  | danglingSign (source : Text)
  | badTerm (term source : Text)
  -- building values
  | zeroDenominator
  | notFinite (shown : Text)
  | noRationalFrom (typeName : Text)
  | noValueFrom (typeName : Text)
  | nonScalarCell (shown : Text)
  | emptyMatrix
  | unevenRows
  | badPower (shown : Text)
  | polynomialCoefficient
  | mixedVariables (left right : Text)
  | foreignBody (name parameter bodyVariable : Text)
  | mixedParameters (left leftParameter right rightParameter : Text)
  -- arithmetic
  | rootOfNegative (shown : Text)
  | addScalarToMatrix (left right : Text)
  | addMatrixToScalar (left right : Text)
  | subtractScalarFromMatrix (left right : Text)
  | subtractMatrixFromScalar (left right : Text)
  | unsupported (left operator right : Text)
  | divideByZero
  | moduloByZero
  | negativePowerOfZero
  | singularMatrix
  | dimensionMismatch (operation : String) (left right : Shape)
  | notSquare (operation : String) (shape : Shape)
  | badExponent (shown : Text)
  | complexModulo
  | matrixModulo
  | matrixDivision
  | divideScalarByMatrix (left right : Text)
  | polynomialDivision (left right : Text)
  | divideByPolynomial (left right : Text)
  | moduloPolynomial (left right : Text)
  | negativePolynomialPower (base : Text) (exponent : Int)
  | degreeTooHigh (degree : Nat)
  | nonScalarEquation (shown : Text)
  | nonRationalQuadratic (shown : Text)
  deriving DecidableEq, Repr

namespace Fault

/-- The family of a fault. -/
def family : Fault → Family
  | .emptyExpression .. | .strayCharacter .. | .unopenedParenthesis .. | .unclosedParenthesis ..
  | .unclosedBracket .. | .misplacedToken .. | .missingOperand .. | .mismatchedParentheses ..
  | .malformedPostfix .. | .equalsCount .. | .unbalancedBrackets .. | .nameStartsWithDigit .. | .nameNotLetters ..
  | .notAssignment .. | .missingValue .. | .resultNotRequested .. | .emptyComputation .. | .missingSide .. =>
    .malformed
  | .emptyRational | .badRational .. | .emptyComplex | .badComplex .. | .badMatrix .. | .badMatrixRow ..
  | .badMatrixEntry .. | .unevenMatrixRow .. | .nonScalarEntry .. | .emptyPolynomial | .severalVariables ..
  | .danglingSign .. | .badTerm .. =>
    .badFormat
  | .emptyName .. | .imaginaryName .. | .severalUnknowns .. => .semantic
  | .undefinedVariables .. | .undefinedFunctions .. => .undefinedName
  | .zeroDenominator | .notFinite .. | .noRationalFrom .. | .noValueFrom .. | .nonScalarCell .. | .emptyMatrix
  | .unevenRows | .badPower .. | .polynomialCoefficient | .mixedVariables .. | .foreignBody ..
  | .mixedParameters .. =>
    .badArgument
  | .rootOfNegative .. | .addScalarToMatrix .. | .addMatrixToScalar .. | .subtractScalarFromMatrix ..
  | .subtractMatrixFromScalar .. | .unsupported .. =>
    .math
  | .divideByZero | .moduloByZero | .negativePowerOfZero => .divideByZero
  | .singularMatrix => .singularMatrix
  | .dimensionMismatch .. => .dimensionMismatch
  | .notSquare .. => .notSquare
  | .badExponent .. | .complexModulo | .matrixModulo | .matrixDivision | .divideScalarByMatrix ..
  | .polynomialDivision .. | .divideByPolynomial .. | .moduloPolynomial .. | .negativePolynomialPower ..
  | .degreeTooHigh .. | .nonScalarEquation .. | .nonRationalQuadratic .. =>
    .notSupported

/-- The message of a fault, one line unless the input itself has more. -/
def message : Fault → String
  | .emptyExpression source => s!"Tokenizer: empty expression: {str source}"
  | .strayCharacter position c source =>
    s!"Tokenizer: invalid character at position {position}: '{str [c]}' in {str source}"
  | .unopenedParenthesis position source =>
    s!"Tokenizer: unmatched ')' at position {position} in {str source}"
  | .unclosedParenthesis source => s!"Tokenizer: unmatched '(' in {str source}"
  | .unclosedBracket position source => s!"Tokenizer: unmatched '[' at position {position} in {str source}"
  | .misplacedToken _ source => s!"Tokenizer: invalid expression: {str source}"
  | .missingOperand source => s!"Tokenizer: invalid expression: {str source}"
  | .mismatchedParentheses source => s!"Postfix: mismatched parentheses: {str source}"
  | .malformedPostfix source => s!"Postfix: invalid expression: {str source}"
  | .equalsCount source => s!"Parser: expression can only contain one '=' token: {str source}"
  | .unbalancedBrackets source => s!"Parser: invalid type (check syntax!): {str source}"
  | .emptyName source => s!"Assignation: variable name can not be empty: {str source}"
  | .nameStartsWithDigit source => s!"Assignation: variable name can not start with a digit: {str source}"
  | .nameNotLetters source => s!"Assignation: variable name can only contain letters: {str source}"
  | .imaginaryName source => s!"Assignation: variable name can not contain 'i' character: {str source}"
  | .notAssignment source => s!"Assignation: expression is not an assignment: {str source}"
  | .missingValue source => s!"Assignation: missing value: {str source}"
  | .resultNotRequested source => s!"Computation: use '= ?' to request a result: {str source}"
  | .emptyComputation source => s!"Computation: empty expression: {str source}"
  | .missingSide source => s!"Solve: both sides of the equation are required: {str source}"
  | .severalUnknowns source _ => s!"Solve: equation can only contain one unknown: {str source}"
  | .undefinedVariables source _ =>
    s!"Variable Substitution: expression contains undefined variables: {str source}"
  | .undefinedFunctions source _ =>
    s!"Variable Substitution: expression contains undefined functions: {str source}"
  | .emptyRational => "Invalid rational number: empty input"
  | .badRational literal => s!"Invalid rational number: '{str literal}'"
  | .emptyComplex => "Invalid complex number: empty input"
  | .badComplex literal => s!"Invalid complex number: '{str literal}'"
  | .badMatrix literal => s!"Invalid matrix: '{str literal}'"
  | .badMatrixRow row literal => s!"Invalid matrix row {row}: '{str literal}'"
  | .badMatrixEntry row column literal => s!"Invalid matrix entry at ({row},{column}): '{str literal}'"
  | .unevenMatrixRow row entries expected =>
    s!"Invalid matrix: row {row} has {entries} entries, expected {expected}"
  | .nonScalarEntry shown =>
    s!"Invalid matrix: Matrix cells must be rational or complex numbers, got {str shown}"
  | .emptyPolynomial => "Invalid polynomial: empty input"
  | .severalVariables source => s!"Invalid polynomial: more than one variable in '{str source}'"
  | .danglingSign source => s!"Invalid polynomial: dangling sign in '{str source}'"
  | .badTerm term source => s!"Invalid polynomial term '{str term}' in '{str source}'"
  | .zeroDenominator => "Denominator cannot be zero"
  | .notFinite shown => s!"Cannot represent {str shown} as a rational number"
  | .noRationalFrom typeName => s!"Cannot build a rational number from {str typeName}"
  | .noValueFrom typeName => s!"Cannot convert {str typeName} to a math value"
  | .nonScalarCell shown => s!"Matrix cells must be rational or complex numbers, got {str shown}"
  | .emptyMatrix => "Matrix must have at least one row and one column"
  | .unevenRows => "Matrix rows must all have same length"
  | .badPower shown => s!"Polynomial powers must be non-negative integers: {str shown}"
  | .polynomialCoefficient => "Polynomial coefficients cannot be polynomials"
  | .mixedVariables left right =>
    s!"Cannot combine polynomials in different variables: '{str left}' and '{str right}'"
  | .foreignBody name parameter bodyVariable =>
    s!"Function {str name}({str parameter}) cannot have a body in '{str bodyVariable}'"
  | .mixedParameters left leftParameter right rightParameter =>
    s!"Functions must share a variable: {str left}({str leftParameter}) and {str right}({str rightParameter})"
  | .rootOfNegative shown => s!"Cannot take the square root of a negative number: {str shown}"
  | .addScalarToMatrix left right => s!"Cannot add a scalar to a matrix: {str left} + {str right}"
  | .addMatrixToScalar left right => s!"Cannot add a matrix to a scalar: {str left} + {str right}"
  | .subtractScalarFromMatrix left right => s!"Cannot subtract a scalar from a matrix: {str left} - {str right}"
  | .subtractMatrixFromScalar left right => s!"Cannot subtract a matrix from a scalar: {str left} - {str right}"
  | .unsupported left operator right => s!"Unsupported operation: {str left} {str operator} {str right}"
  | .divideByZero => "Cannot divide by zero"
  | .moduloByZero => "Cannot perform modulo by zero"
  | .negativePowerOfZero => "Cannot raise zero to negative power"
  | .singularMatrix => "Matrix is singular"
  | .dimensionMismatch operation left right => str (Report.dimensionMismatch operation left right).message
  | .notSquare operation shape => str (Report.notSquare operation shape).message
  | .badExponent shown => s!"Exponent must be an integer: {str shown}"
  | .complexModulo => "Modulo is not defined for complex numbers"
  | .matrixModulo => "Modulo is not defined for matrices"
  | .matrixDivision => "Matrix division is not supported, multiply by the inverse instead"
  | .divideScalarByMatrix left right => s!"Cannot divide a scalar by a matrix: {str left} / {str right}"
  | .polynomialDivision left right => s!"Polynomial division is not supported: ({str left}) / ({str right})"
  | .divideByPolynomial left right => s!"Cannot divide by a polynomial: {str left} / ({str right})"
  | .moduloPolynomial left right => s!"Cannot take a value modulo a polynomial: {str left} % ({str right})"
  | .negativePolynomialPower base exponent =>
    s!"Negative powers of a polynomial are not supported: ({str base})^{exponent}"
  | .degreeTooHigh degree => s!"Polynomial degree {degree} is strictly greater than 2, cannot solve"
  | .nonScalarEquation shown => s!"Cannot solve an equation with non-scalar coefficients: {str shown} = 0"
  | .nonRationalQuadratic shown =>
    s!"Cannot solve a degree 2 polynomial with non-rational coefficients: {str shown}"

/-- The details of a fault: where in the input it lies, which names it is about, which shapes did not fit. -/
def details : Fault → List (Text × Data)
  | .strayCharacter position _ source | .unopenedParenthesis position source | .unclosedBracket position source
  | .misplacedToken position source =>
    [("position".toList, .count position), ("expression".toList, .text source)]
  | .severalUnknowns _ unknowns => [("unknowns".toList, .texts unknowns)]
  | .undefinedVariables _ names | .undefinedFunctions _ names => [("names".toList, .texts names)]
  | .badMatrixRow row _ | .unevenMatrixRow row _ _ => [("position".toList, .count row)]
  | .badMatrixEntry row column _ => [("position".toList, .list [.count row, .count column])]
  | .unsupported _ operator _ => [("operator".toList, .text operator)]
  | .dimensionMismatch operation left right => (Report.dimensionMismatch operation left right).details
  | .notSquare operation shape => (Report.notSquare operation shape).details
  | _ => []

/-- The report on a fault. -/
def report (f : Fault) : Report := ⟨f.family, f.message.toList, f.details⟩

end Fault

/-- What an operation ends in when it gives no value. -/
inductive Failure where
  /-- The input is refused. -/
  | fault (f : Fault)
  /-- A number is too large for a double. -/
  | overflow
  /-- No rule covers operands or arguments of these kinds. -/
  | kindMismatch
  /-- A row or column outside the matrix. -/
  | indexOutOfRange
  /-- A plain number divided by zero. -/
  | zeroDivision
  /-- Settings, or names of a value, that are not valid. -/
  | invalid
  /-- Data does not have the part that is asked for. -/
  | missingPart
  /-- Data of the right kind that has no meaning where it stands, or a numeral too long to be written. -/
  | meaningless
  /-- A key that nothing is stored under. -/
  | unknownKey
  /-- A result too large to be held. -/
  | outOfMemory
  /-- An operation on decimal numbers that has no result. -/
  | undefinedDecimal
  /-- A decimal number divided by zero. -/
  | decimalZeroDivision
  /-- A decimal result beyond the largest exponent. -/
  | decimalOverflow
  deriving DecidableEq, Inhabited, Repr

/-- A value or a failure. -/
abbrev Outcome := Except Failure

/-- The outcome of an input that is refused. -/
def refuse {α : Type} (f : Fault) : Outcome α := .error (.fault f)

/-- What is written, if its numerals are short enough. -/
def Outcome.written {α : Type} (short : Bool) (a : α) : Outcome α := if short then .ok a else .error .meaningless

/-- The value, or none if the input is refused; other failures stay. -/
def Outcome.unlessRefused {α : Type} : Outcome α → Outcome (Option α)
  | .ok a => .ok (some a)
  | .error (.fault _) => .ok none
  | .error e => .error e

end Reckoner
