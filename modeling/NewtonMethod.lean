import NewtonMethod.Expression
import NewtonMethod.Json.Reader
import NewtonMethod.Json.Records
import NewtonMethod.Main
import NewtonMethod.Space.Fixed
import NewtonMethod.Pattern.Check
import NewtonMethod.SignedFloat
import NewtonMethod.Proofs.LinearSolve
import NewtonMethod.Proofs.StepLoop
import NewtonMethod.Proofs.Failure
import NewtonMethod.Proofs.FailureReport
import NewtonMethod.Proofs.Coordinates
import NewtonMethod.Proofs.AffineRoot
import NewtonMethod.Proofs.Budget
import NewtonMethod.Proofs.Shapes
import NewtonMethod.Proofs.OneCoordinate
import NewtonMethod.Proofs.FixedLength
import NewtonMethod.Proofs.Tangent
import NewtonMethod.Proofs.Counts
import NewtonMethod.Proofs.DualQuestions
import NewtonMethod.Proofs.Evaluations
import NewtonMethod.Proofs.Events
import NewtonMethod.Proofs.Tolerance
import NewtonMethod.Proofs.SingularityTolerance
import NewtonMethod.Proofs.TrustRadius
import NewtonMethod.Proofs.Truncation
import NewtonMethod.Proofs.Sections
import NewtonMethod.Proofs.ResidualNorm
import NewtonMethod.Proofs.AffineQuotients
import NewtonMethod.Proofs.StepLength
import NewtonMethod.Proofs.CombinedEquations
import NewtonMethod.Proofs.HigherDerivatives
import NewtonMethod.Proofs.Rounding
import NewtonMethod.Proofs.Magnitude
import NewtonMethod.Proofs.RoundedOperations
import NewtonMethod.Proofs.RoundedNorm
import NewtonMethod.Proofs.ClampedStep
import NewtonMethod.Proofs.NumberText
import NewtonMethod.Proofs.MatrixText
import NewtonMethod.Proofs.LinearCommand
import NewtonMethod.Proofs.DualValues
import NewtonMethod.Proofs.PolynomialFunctions
import NewtonMethod.Proofs.PivotTest
import NewtonMethod.Proofs.GivenOptions
import NewtonMethod.Proofs.Precedence
