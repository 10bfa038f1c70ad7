import OxDeAI.Lib.Run
import OxDeAI.Lib.FirstMatch
import OxDeAI.Lib.Async
import OxDeAI.Lib.Call
import OxDeAI.Lib.Histories
import OxDeAI.Lib.FirstDifference
import OxDeAI.Lib.FixedWindow
import OxDeAI.Lib.HighWater
import OxDeAI.Lib.Expiring
import OxDeAI.Lib.SlidingWindow
import OxDeAI.Lib.Slots
import OxDeAI.Lib.CompareAndSet
import OxDeAI.Lib.Spacing
import OxDeAI.Lib.StableSort
import OxDeAI.Lib.Simulation
import OxDeAI.Lib.LucasTest
import OxDeAI.Lib.TwistedEdwards
import OxDeAI.Js.Text
import OxDeAI.Js.Number
import OxDeAI.Js.Rounding
import OxDeAI.Js.Record
import OxDeAI.Js.SameRecord
import OxDeAI.Js.Json
import OxDeAI.Js.JsonRoundTrip
import OxDeAI.Js.Unicode
import OxDeAI.Js.JsonTree
import OxDeAI.Js.JsonMembers
import OxDeAI.Js.Value
import OxDeAI.Js.JsonEq
import OxDeAI.Js.ShortestDigits
import OxDeAI.Js.NumberText
import OxDeAI.Js.Coerce
import OxDeAI.Js.Base64
import OxDeAI.Js.Except
import OxDeAI.Core.CanonicalJson
import OxDeAI.Core.CanonicalForm
import OxDeAI.Core.RuntimeKinds
import OxDeAI.Harness.Canonicalize
import OxDeAI.Harness.TypeScript
import OxDeAI.Harness.Python
import OxDeAI.Harness.Go
import OxDeAI.Core.CanonicalFields
import OxDeAI.Core.Framing
import OxDeAI.Core.CanonicalInjective
import OxDeAI.Core.Types
import OxDeAI.Core.Clone
import OxDeAI.Core.DeepMerge
import OxDeAI.Core.SameState
import OxDeAI.Core.StateGuards
import OxDeAI.Policy.Gates
import OxDeAI.Policy.Replay
import OxDeAI.Policy.Concurrency
import OxDeAI.Policy.Budget
import OxDeAI.Policy.ToolAmplification
import OxDeAI.Policy.Decision
import OxDeAI.Policy.OrderFree
import OxDeAI.Policy.Isolation
import OxDeAI.Snapshot.Serialize
import OxDeAI.Snapshot.Payload
import OxDeAI.Snapshot.CanonicalRecord
import OxDeAI.Snapshot.OrderFree
import OxDeAI.Snapshot.Deserialize
import OxDeAI.Snapshot.CanonicalCodec
import OxDeAI.Engine.Options
import OxDeAI.Engine.Audit
import OxDeAI.Engine.Evaluate
import OxDeAI.Engine.Admission
import OxDeAI.Engine.Allow
import OxDeAI.Engine.Hashable
import OxDeAI.Engine.IntentHash
import OxDeAI.Engine.Outcome
import OxDeAI.Engine.Issue
import OxDeAI.Engine.Modes
import OxDeAI.Engine.VerifyAuthorization
import OxDeAI.Engine.AuditTrail
import OxDeAI.Engine.LeaseHash
import OxDeAI.Engine.IntentCongruence
import OxDeAI.Engine.Probe
import OxDeAI.Engine.IntentBinding
import OxDeAI.Engine.AuditFaithful
import OxDeAI.Engine.Runs
import OxDeAI.Engine.Frame
import OxDeAI.Engine.ReplaySafety
import OxDeAI.Engine.BudgetConservation
import OxDeAI.Engine.VelocityWindow
import OxDeAI.Engine.ToolWindow
import OxDeAI.Engine.SettledHash
import OxDeAI.Engine.InternalErrors
import OxDeAI.Engine.OrderFree
import OxDeAI.Engine.Isolation
import OxDeAI.Engine.ImportState
import OxDeAI.Engine.LeaseTable
import OxDeAI.Engine.LeaseAccounting
import OxDeAI.Engine.ConcurrencyCap
import OxDeAI.Audit.Schema
import OxDeAI.Audit.Chain
import OxDeAI.Audit.Heads
import OxDeAI.Audit.DrainedLog
import OxDeAI.Audit.Acceptance
import OxDeAI.Audit.TamperEvidence
import OxDeAI.Audit.EngineLog
import OxDeAI.Audit.Cadence
import OxDeAI.Crypto.Keys
import OxDeAI.Crypto.KeyPair
import OxDeAI.Crypto.Edwards25519
import OxDeAI.Crypto.SmallOrder
import OxDeAI.Crypto.Preimages
import OxDeAI.Verification.Result
import OxDeAI.Verification.Authorization
import OxDeAI.Verification.AuthorizationSound
import OxDeAI.Verification.SignedContent
import OxDeAI.Verification.KeyCheck
import OxDeAI.Verification.KeyLookup
import OxDeAI.Verification.Scope
import OxDeAI.Verification.Delegation
import OxDeAI.Verification.DelegationChain
import OxDeAI.Verification.SignedKrl
import OxDeAI.Verification.KeyResolution
import OxDeAI.Verification.KeyReports
import OxDeAI.Verification.KeyOrder
import OxDeAI.Verification.Separation
import OxDeAI.Verification.Verifier
import OxDeAI.Verification.AmbiguousBytes
import OxDeAI.Verification.EncodeEnvelope
import OxDeAI.Verification.EnvelopeRoundTrip
import OxDeAI.Verification.VerifierTrust
import OxDeAI.Verification.CreateDelegation
import OxDeAI.Verification.IssueVerify
import OxDeAI.Snapshot.Export
import OxDeAI.Verification.Snapshot
import OxDeAI.Verification.SnapshotHash
import OxDeAI.Verification.Envelope
import OxDeAI.Core.IntentValue
import OxDeAI.Guard.Revocation
import OxDeAI.Guard.RevocationContent
import OxDeAI.Guard.Watermarks
import OxDeAI.Guard.SigningKey
import OxDeAI.Guard.Boundary
import OxDeAI.Guard.DelegationSnapshot
import OxDeAI.Lib.Noted
import OxDeAI.Lib.Once
import OxDeAI.Guard.ObjectGraph
import OxDeAI.Guard.Trust
import OxDeAI.Guard.Requests
import OxDeAI.Guard.StandardPath
import OxDeAI.Guard.ReplayRetention
import OxDeAI.Guard.DelegationPath
import OxDeAI.Guard.Mediation
import OxDeAI.Guard.Reach
import OxDeAI.Guard.CompleteMediation
import OxDeAI.Guard.DelegatedAuthority
import OxDeAI.Guard.CallProgress
import OxDeAI.Guard.BoundaryEvents
import OxDeAI.Guard.Gateway
import OxDeAI.Guard.GatewayOutcomes
import OxDeAI.Guard.GatewayFaults
import OxDeAI.Guard.SharedReplay
import OxDeAI.Guard.IssuedExecution
import OxDeAI.Guard.CommittedBudget
import OxDeAI.Guard.Provenance
import OxDeAI.Guard.NormalizeAction
import OxDeAI.Sift.Canonical
import OxDeAI.Sift.StringCodes
import OxDeAI.Sift.KeyOrders
import OxDeAI.Sift.PropertyOrder
import OxDeAI.Sift.WatermarkStores
import OxDeAI.Sift.PythonContract
import OxDeAI.Sift.KeyStore
import OxDeAI.Sift.AntiRollback
import OxDeAI.Sift.RefreshAtomic
import OxDeAI.Sift.ReceiptAuthorization
import OxDeAI.Sift.MemberText
import OxDeAI.Sift.StringifyText
import OxDeAI.Sift.NormalizeIntent
import OxDeAI.Sift.SigningText
import OxDeAI.Sift.CoreAcceptance
import OxDeAI.Sift.VerifyReceipt
import OxDeAI.Sift.ReceiptSound
import OxDeAI.Sift.VerifyWithKeyStore
import OxDeAI.Sift.OneGeneration
import OxDeAI.Sdk.StateFile
import OxDeAI.Sdk.StateReader
import OxDeAI.Sdk.StateParts
import OxDeAI.Sdk.StateRoundTrip
import OxDeAI.Sdk.Instances
import OxDeAI.Sdk.AuditDelivery
import OxDeAI.Snapshot.Reread
import OxDeAI.Snapshot.RereadModules
import OxDeAI.Snapshot.RereadLimits
import OxDeAI.Snapshot.RoundTrip
import OxDeAI.Snapshot.Alike
import OxDeAI.Policy.Alike
import OxDeAI.Engine.Alike
import OxDeAI.Snapshot.Plain
import OxDeAI.Engine.Replay
import OxDeAI.Snapshot.Imported
import OxDeAI.Guard.SecureConfig
import OxDeAI.Guard.SecureCapture
import OxDeAI.Guard.ReplayPosture
