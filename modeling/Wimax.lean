import Wimax.Caller
import Wimax.Run
import Wimax.Signal
import Wimax.Proofs.Calls
import Wimax.Proofs.Flags
import Wimax.Proofs.Steps
import Wimax.Proofs.CallTrace
import Wimax.Proofs.Bookkeeping
import Wimax.Proofs.Moves
import Wimax.Proofs.Visits
import Wimax.Proofs.ReportHistory
import Wimax.Proofs.OpenDriver
import Wimax.Proofs.ConnectRequests
import Wimax.Proofs.CompleteBringup
import Wimax.Proofs.RealConnection
import Wimax.Proofs.Notices
import Wimax.Proofs.GivingUp
import Wimax.Proofs.Preference
import Wimax.Proofs.Release
import Wimax.Proofs.WholeTeardown
import Wimax.Proofs.BoundedDescent
import Wimax.Proofs.LostDevice
import Wimax.Proofs.HealthyCard
import Wimax.Proofs.Convergence
import Wimax.Proofs.FreshReadings
import Wimax.Proofs.StaleReadings
import Wimax.Proofs.Correspondence
import Wimax.Proofs.Retiring
import Wimax.Proofs.Endings
import Wimax.Proofs.BenchRuns
import Wimax.Proofs.Stopping
import Wimax.Proofs.Queries
import Wimax.Proofs.News
import Wimax.Proofs.FailedCalls
import Wimax.Proofs.SignalStrength
import Wimax.Proofs.ScanBudget
import Wimax.Proofs.MonitorRounds
import Wimax.Proofs.Ownership
import Wimax.Proofs.CallBudget
import Wimax.Proofs.CheckedWords
import Wimax.Proofs.SignalBars
import Wimax.Proofs.CursorWalk
import Wimax.Proofs.DottedFields
