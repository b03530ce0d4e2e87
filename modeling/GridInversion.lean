import GridInversion.Buffer.Ledger
import GridInversion.Cli.Report
import GridInversion.Engine.Choice
import GridInversion.Inverter
import GridInversion.Log
import GridInversion.MachineScalar
import GridInversion.Main
import GridInversion.Matrix.Arithmetic
import GridInversion.MatrixText
import GridInversion.Proofs.CellAddresses
import GridInversion.Proofs.CommaLines
import GridInversion.Proofs.DominantMatrices
import GridInversion.Proofs.ErrorOrigins
import GridInversion.Proofs.ExposedCells
import GridInversion.Proofs.FiniteInverses
import GridInversion.Proofs.FiniteOrders
import GridInversion.Proofs.GridFilling
import GridInversion.Proofs.HonestSessions
import GridInversion.Proofs.InconsistentInputs
import GridInversion.Proofs.InterruptedRuns
import GridInversion.Proofs.InversionLog
import GridInversion.Proofs.LeadingBlocks
import GridInversion.Proofs.LeadingMinors
import GridInversion.Proofs.MatrixDistances
import GridInversion.Proofs.NestedRows
import GridInversion.Proofs.PivotOrders
import GridInversion.Proofs.PlainProducts
import GridInversion.Proofs.PrintedMatrices
import GridInversion.Proofs.RecycledBuffers
import GridInversion.Proofs.ResidualMeasures
import GridInversion.Proofs.RightColumns
import GridInversion.Proofs.RunComparison
import GridInversion.Proofs.ScalarLaws
import GridInversion.Proofs.SignedSums
import GridInversion.Proofs.TextRows
import GridInversion.Proofs.Thresholds
import GridInversion.Proofs.TriangularMatrices
import GridInversion.Proofs.VerifiedRuns
import GridInversion.Proofs.VisitOrders
import GridInversion.Proofs.ZeroPivots
import GridInversion.Random.Dominant
import GridInversion.Session.Run

