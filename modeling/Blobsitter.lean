import Blobsitter.Library.BitPositions
import Blobsitter.Library.CallStack
import Blobsitter.Library.FiniteSums
import Blobsitter.Library.ByteString
import Blobsitter.Library.Keccak
import Blobsitter.Library.MountainRange
import Blobsitter.Library.GreedyTiling
import Blobsitter.Library.MerklePath
import Blobsitter.Library.Fallible
import Blobsitter.Library.PrimeCertificate
import Blobsitter.Library.Barycentric
import Blobsitter.Library.Residues
import Blobsitter.Library.DurableFile
import Blobsitter.Library.SuppressionWindow
import Blobsitter.Library.TokenBucket
import Blobsitter.Library.ProRata
import Blobsitter.Library.Segments
import Blobsitter.Reference.Hashing
import Blobsitter.Reference.Decompose
import Blobsitter.Reference.Mmr
import Blobsitter.Reference.Subtrees
import Blobsitter.Reference.Verify
import Blobsitter.Reference.Inclusion
import Blobsitter.Reference.Binding
import Blobsitter.Reference.Scalar
import Blobsitter.Reference.Blob
import Blobsitter.Reference.Evaluation
import Blobsitter.Reference.BigintEvaluation
import Blobsitter.Reference.FiatShamir
import Blobsitter.Reference.Eip712
import Blobsitter.Reference.Custody
import Blobsitter.Reference.PathBuilder
import Blobsitter.Intents.Package
import Blobsitter.Circuit.Equivalence
import Blobsitter.Circuit.Custody
import Blobsitter.Circuit.Witnesses
import Blobsitter.Testkit.Declare
import Blobsitter.Contract.Checked
import Blobsitter.Contract.Mmr
import Blobsitter.Contract.MmrRefinement
import Blobsitter.Contract.State
import Blobsitter.Contract.Paymaster
import Blobsitter.Contract.Publication
import Blobsitter.Contract.Providers
import Blobsitter.Contract.Change
import Blobsitter.Contract.World
import Blobsitter.Intents.SigningDigest
import Blobsitter.Intents.Authorisation
import Blobsitter.Carrier.Coverage
import Blobsitter.Carrier.Carry
import Blobsitter.Carrier.Preflight
import Blobsitter.Carrier.Solvency
import Blobsitter.Contract.Allowance
import Blobsitter.Contract.StoreInvariant
import Blobsitter.Contract.Books
import Blobsitter.Contract.Distribution
import Blobsitter.Contract.Solvency
import Blobsitter.Contract.PaymasterRuns
import Blobsitter.Contract.PaymasterLedger
import Blobsitter.Contract.ParkedPayouts
import Blobsitter.Contract.Reimbursements
import Blobsitter.Contract.Sweep
import Blobsitter.Contract.Lapse
import Blobsitter.Contract.CommitDiscipline
import Blobsitter.Contract.PendingCommit
import Blobsitter.Contract.Dataset
import Blobsitter.Contract.Pins
import Blobsitter.Contract.Declarations
import Blobsitter.Contract.EventLog
import Blobsitter.Contract.Isolation
import Blobsitter.Contract.Registry
import Blobsitter.Contract.Authority
import Blobsitter.Contract.BarePublication
import Blobsitter.Contract.Activity
import Blobsitter.Contract.Answers
import Blobsitter.Contract.Resolutions
import Blobsitter.Contract.Content
import Blobsitter.Contract.Exit
import Blobsitter.Daemon.Persist
import Blobsitter.Daemon.Store
import Blobsitter.Daemon.Source
import Blobsitter.Daemon.Ingest
import Blobsitter.Daemon.CrashConsistency
import Blobsitter.Daemon.Ledger
import Blobsitter.Daemon.Intake
import Blobsitter.Daemon.Cursor
import Blobsitter.Daemon.EnforcementScan
import Blobsitter.Daemon.EnforcementHistory
import Blobsitter.Daemon.Replay
import Blobsitter.Daemon.IntakeDeficit
import Blobsitter.Daemon.Responder
import Blobsitter.Daemon.ResponseDuty
import Blobsitter.Daemon.Delivery
import Blobsitter.Daemon.Mirror
import Blobsitter.Daemon.Mirroring
import Blobsitter.Daemon.DeclaredScan
import Blobsitter.Daemon.Following
import Blobsitter.Daemon.GapRecovery
import Blobsitter.Daemon.Enforcement
import Blobsitter.Daemon.ProofSet
import Blobsitter.Daemon.Custody
import Blobsitter.Daemon.CustodyWitness
import Blobsitter.Daemon.CustodyDriver
import Blobsitter.Daemon.ClosedLoop
import Blobsitter.Daemon.ProofHandover
import Blobsitter.Daemon.SendEpisode
import Blobsitter.Daemon.CustodyStatus
import Blobsitter.Daemon.PlanGuards
import Blobsitter.Daemon.StoreOpening
import Blobsitter.Daemon.FeeEscalation
import Blobsitter.Library.Spans
import Blobsitter.Daemon.Config
import Blobsitter.Daemon.LogPaging
import Blobsitter.Daemon.CursorLoss
import Blobsitter.Daemon.Packing
import Blobsitter.Daemon.Paging
import Blobsitter.Daemon.RootCheck
import Blobsitter.Daemon.ProofExactness
import Blobsitter.Daemon.BlobChain
