import Reckoner.Data
/-!
# Reports

The structured form of what goes wrong: a family, a message of one line, and details. The families form a tree
with four branches (syntax, semantic, math, not supported) and the family of invalid arguments.
-/

namespace Reckoner

/-- The families of faults. -/
inductive Family where
  | general
  | malformed
  | badFormat
  | semantic
  | undefinedName
  | badArgument
  | math
  | divideByZero
  | singularMatrix
  | dimensionMismatch
  | notSquare
  | notSupported
  deriving DecidableEq, Repr

namespace Family

/-- All families. -/
def all : List Family :=
  [.general, .malformed, .badFormat, .semantic, .undefinedName, .badArgument, .math, .divideByZero, .singularMatrix,
   .dimensionMismatch, .notSquare, .notSupported]

/-- The name that reports show. -/
def name : Family → String
  | .general => "ComputorError"
  | .malformed => "ExpressionSyntaxError"
  | .badFormat => "InvalidFormatError"
  | .semantic => "SemanticError"
  | .undefinedName => "UndefinedNameError"
  | .badArgument => "InvalidArgumentError"
  | .math => "MathError"
  | .divideByZero => "DivideByZeroError"
  | .singularMatrix => "SingularMatrixError"
  | .dimensionMismatch => "DimensionMismatchError"
  | .notSquare => "NotSquareError"
  | .notSupported => "NotSupportedError"

/-- The branch of the tree that a family belongs to. -/
def category : Family → String
  | .general => "error"
  | .malformed | .badFormat => "syntax"
  | .semantic | .undefinedName => "semantic"
  | .badArgument => "argument"
  | .math | .divideByZero | .singularMatrix | .dimensionMismatch | .notSquare => "math"
  | .notSupported => "not_supported"

/-- The wider groups that a family counts as, its own branch last. -/
def groups : Family → List String
  | .general => []
  | .malformed | .badFormat => ["ValueError", "ExpressionSyntaxError"]
  | .semantic | .undefinedName => ["ValueError", "SemanticError"]
  | .badArgument => ["ValueError"]
  | .math | .singularMatrix | .dimensionMismatch | .notSquare => ["ArithmeticError", "MathError"]
  | .divideByZero => ["ArithmeticError", "ZeroDivisionError", "MathError"]
  | .notSupported => ["NotImplementedError"]

end Family

/-- What is reported about a fault. -/
structure Report where
  family : Family
  message : Text
  details : List (Text × Data) := []

namespace Report

/-- The report as the fields of a record; details are left out when there are none. -/
def fields (r : Report) : List (Text × Data) :=
  [("type".toList, .text r.family.name.toList), ("category".toList, .text r.family.category.toList),
   ("message".toList, .text r.message)]
    ++ (if r.details.isEmpty then [] else [("details".toList, .record r.details)])

/-! ## Reports on shapes -/

/-- Rows and columns as data. -/
def shapeData (shape : Nat × Nat) : Data := .list [.count shape.1, .count shape.2]

/-- Rows and columns as messages show them. -/
def shapeText (shape : Nat × Nat) : String := s!"{shape.1}x{shape.2}"

/-- The message about two shapes that do not fit together. -/
def mismatchMessage (operation left right : String) : String :=
  s!"Matrix dimensions do not match for {operation}: {left} and {right}"

/-- The message about a shape that is not square. -/
def notSquareMessage (operation shape : String) : String := s!"Matrix must be square for {operation}: got {shape}"

/-- Details about two shapes. -/
def mismatchDetails (operation left right : Data) : List (Text × Data) :=
  [("operation".toList, operation), ("left".toList, left), ("right".toList, right)]

/-- Details about one shape. -/
def notSquareDetails (operation shape : Data) : List (Text × Data) :=
  [("operation".toList, operation), ("shape".toList, shape)]

/-- Two shapes that do not fit together. -/
def dimensionMismatch (operation : String) (left right : Nat × Nat) : Report where
  family := .dimensionMismatch
  message := (mismatchMessage operation (shapeText left) (shapeText right)).toList
  details := mismatchDetails (.text operation.toList) (shapeData left) (shapeData right)

/-- A shape that is not square. -/
def notSquare (operation : String) (shape : Nat × Nat) : Report where
  family := .notSquare
  message := (notSquareMessage operation (shapeText shape)).toList
  details := notSquareDetails (.text operation.toList) (shapeData shape)

end Report

end Reckoner
