import Stationary.Launch
import Stationary.Main
import Stationary.Nested
import Stationary.Operands
import Stationary.Session
import Stationary.Proofs.Recording
import Stationary.Proofs.Walk
import Stationary.Proofs.Stopping
import Stationary.Proofs.Budget
import Stationary.Proofs.BinaryFormat
import Stationary.Proofs.Flushing
import Stationary.Proofs.Convergence
import Stationary.Proofs.LoopHeads
import Stationary.Proofs.Lockstep
import Stationary.Proofs.Exclusive
import Stationary.Proofs.Infinities
import Stationary.Proofs.FiniteIterates
import Stationary.Proofs.Masks
import Stationary.Proofs.Misfits
import Stationary.Proofs.Admission
import Stationary.Proofs.PolicyForms
import Stationary.Proofs.Restart
import Stationary.Proofs.Evaluations
import Stationary.Proofs.Exact
import Stationary.Proofs.TriangularFactors
import Stationary.Proofs.Regularity
import Stationary.Proofs.ProjectedSteps
import Stationary.Proofs.Recasting
import Stationary.Proofs.TransformedEquations
import Stationary.Proofs.Relabelling
import Stationary.Proofs.RankDeficiency
import Stationary.Proofs.Undefined
import Stationary.Proofs.Infeasibility
import Stationary.Proofs.Rounding
import Stationary.Proofs.Canonical
import Stationary.Proofs.RoundedOperations
import Stationary.Proofs.RoundedArithmetic
import Stationary.Proofs.RoundedFormats
import Stationary.Proofs.Conversions
import Stationary.Proofs.Tolerances
import Stationary.Proofs.RoundingErrors
import Stationary.Proofs.CommandFailure
import Stationary.Proofs.SingularValues
import Stationary.Proofs.LinearMethods
import Stationary.Proofs.Absorption
import Stationary.Proofs.PivotSettings
import Stationary.Proofs.CommandEndings
import Stationary.Proofs.DefinedSteps
import Stationary.Proofs.RegularSteps
import Stationary.Proofs.MinimumNorm
import Stationary.Proofs.NonFiniteData
import Stationary.Proofs.ClampedIterates
import Stationary.Proofs.LinearEquations
import Stationary.Proofs.AlikeTensors
import Stationary.Proofs.Derivatives
import Stationary.Proofs.Lagrangian
import Stationary.Proofs.Answers
import Stationary.Proofs.Guesses
import Stationary.Proofs.PolicyMasks
import Stationary.Proofs.RoundedMaxima
import Stationary.Proofs.Projections
import Stationary.Proofs.CertifiedJacobians
import Stationary.Proofs.Thresholds
import Stationary.Proofs.RepeatedMasks
