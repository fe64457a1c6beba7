import BackgroundScan.Json.Printer
import BackgroundScan.Json.Reader
import BackgroundScan.Text.Quoted
import BackgroundScan.Record.Tree
import BackgroundScan.Record.Text
import BackgroundScan.Toml.Syntax
import BackgroundScan.Toml.Document
import BackgroundScan.Argument.Conversion
import BackgroundScan.JobId
import BackgroundScan.Policy
import BackgroundScan.JobStatus
import BackgroundScan.Options
import BackgroundScan.Lease.Accounts
import BackgroundScan.Call
import BackgroundScan.Job.Bench
import BackgroundScan.Job.Holding
import BackgroundScan.Store.Basic
import BackgroundScan.Settings
import BackgroundScan.Request
import BackgroundScan.Client.Session
import BackgroundScan.Proofs.Calls
import BackgroundScan.Proofs.FirstFailure
import BackgroundScan.Proofs.Objects
import BackgroundScan.Proofs.Overrides
import BackgroundScan.Proofs.Submission
import BackgroundScan.Proofs.StoreActions
import BackgroundScan.Proofs.Dispatch
import BackgroundScan.Proofs.Fleet
import BackgroundScan.Proofs.Polling
import BackgroundScan.Proofs.Answers
import BackgroundScan.Proofs.Leases
import BackgroundScan.Proofs.Erasure
import BackgroundScan.Proofs.JobLog
import BackgroundScan.Proofs.FreshIds
import BackgroundScan.Proofs.ArmedErrors
import BackgroundScan.Proofs.ProgressRange
import BackgroundScan.Proofs.Lifecycle
import BackgroundScan.Proofs.NoFaults
import BackgroundScan.Proofs.KeptPolicy
import BackgroundScan.Proofs.Isolation
import BackgroundScan.Proofs.ErrorReports
import BackgroundScan.Proofs.Conversions
import BackgroundScan.Proofs.Lexemes
import BackgroundScan.Proofs.Lossless
import BackgroundScan.Proofs.Written
import BackgroundScan.Proofs.IntegerLiterals
import BackgroundScan.Proofs.Grammar
import BackgroundScan.Proofs.OptionGrammar
import BackgroundScan.Proofs.PolicyGrammar
import BackgroundScan.Proofs.LeaseMoves
import BackgroundScan.Proofs.LedgerCounts
import BackgroundScan.Proofs.BenchSteps
import BackgroundScan.Proofs.JobInvariant
import BackgroundScan.Proofs.LeaseEvents
import BackgroundScan.Proofs.ReleaseOrder
import BackgroundScan.Proofs.StatusCodes
import BackgroundScan.Proofs.OpenRecords
import BackgroundScan.Proofs.RequestObjects
import BackgroundScan.Proofs.RecordTexts
import BackgroundScan.Proofs.RequestTexts
import BackgroundScan.Proofs.Positions
import BackgroundScan.Proofs.CallProtocol
import BackgroundScan.Proofs.ArgumentEquality
import BackgroundScan.Proofs.ArgumentClones
import BackgroundScan.Proofs.DocumentStatements
import BackgroundScan.Proofs.DocumentScalars
import BackgroundScan.Proofs.LoadedSettings
