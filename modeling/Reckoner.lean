import Reckoner.Datum.Evaluation
import Reckoner.Datum.Integers
import Reckoner.Datum.Sort
import Reckoner.Log.Context
import Reckoner.Main
import Reckoner.Report.Given
import Reckoner.Proofs.Expression.Acceptance
import Reckoner.Proofs.Expression.Conversion
import Reckoner.Proofs.Expression.Parsing
import Reckoner.Proofs.Expression.Writing
import Reckoner.Proofs.Gaussian.Reading
import Reckoner.Proofs.Line.Checks
import Reckoner.Proofs.Mat.Reading
import Reckoner.Proofs.Poly.Denotation
import Reckoner.Proofs.Rational.Reading
import Reckoner.Proofs.Session.Reading
import Reckoner.Proofs.Token.Reading
import Reckoner.Proofs.Value.Exactness
import Reckoner.Proofs.Value.Failures
import Reckoner.Proofs.Poly.Power
import Reckoner.Proofs.Session.Definition
import Reckoner.Proofs.Value.Variable
import Reckoner.Session.Command
import Reckoner.Proofs.Expression.Evaluation
import Reckoner.Proofs.Session.Reachable
import Reckoner.Proofs.CommandLine.Run
import Reckoner.Proofs.Value.Power
import Reckoner.Proofs.Value.Substitution
import Reckoner.Proofs.Line.Names
import Reckoner.Proofs.Expression.Agreement
import Reckoner.Proofs.Session.Substitution
import Reckoner.Proofs.Poly.Roots
import Reckoner.Proofs.Session.Solution
import Reckoner.Proofs.Mat.Inverse
import Reckoner.Proofs.Line.Parts
import Reckoner.Proofs.Session.Agreement
import Reckoner.Proofs.Double.Overflow
import Reckoner.Proofs.Mat.Overflow
import Reckoner.Proofs.Expression.Overflow
import Reckoner.Proofs.Poly.Failures
import Reckoner.Proofs.Session.Failures
import Reckoner.Proofs.Poly.Reading
import Reckoner.Proofs.Mat.Determinant
import Reckoner.Proofs.Double.Underflow
import Reckoner.Proofs.Mat.Singular
import Reckoner.Proofs.Poly.Solutions
import Reckoner.Proofs.Poly.RootCount
import Reckoner.Proofs.Double.Root
import Reckoner.Proofs.Poly.Homomorphism
import Reckoner.Proofs.NamedFunction.Pointwise
import Reckoner.Proofs.Session.Inlining
import Reckoner.Proofs.Rational.Construction
import Reckoner.Proofs.Rational.Nearest
import Reckoner.Proofs.Session.Literals
import Reckoner.Proofs.Mat.Literals
import Reckoner.Proofs.Rational.Grammar
import Reckoner.Proofs.Gaussian.Grammar
import Reckoner.Proofs.Token.Brackets
import Reckoner.Proofs.Token.Names
import Reckoner.Proofs.Session.Checks
import Reckoner.Proofs.Poly.Writing
import Reckoner.Proofs.NamedFunction.Calculus
import Reckoner.Proofs.Mat.Algebra
import Reckoner.Proofs.Token.Tiling
import Reckoner.Proofs.Expression.MatrixLiteral
import Reckoner.Proofs.Gaussian.Size
import Reckoner.Proofs.Value.Equality
import Reckoner.Proofs.Session.Spelling
import Reckoner.Proofs.Session.Recall
import Reckoner.Proofs.Poly.Opposite
import Reckoner.Proofs.Session.Swapping
import Reckoner.Proofs.Mat.Norm
import Reckoner.Proofs.Poly.RoundedRoots
import Reckoner.Proofs.Postfix.Conservation
import Reckoner.Proofs.Rational.Terminating
import Reckoner.Proofs.Session.SharedSettings
