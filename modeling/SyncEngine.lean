import SyncEngine.Lib.CanonicalJson
import SyncEngine.Lib.Decimal
import SyncEngine.Lib.InsertionMap
import SyncEngine.Lib.JavaScript
import SyncEngine.Lib.Json
import SyncEngine.Lib.KeyedList
import SyncEngine.Lib.Program
import SyncEngine.Lib.SqlTable
import SyncEngine.Lib.Throwing
import SyncEngine.Lib.TransitionSystem
import SyncEngine.Lib.Utf16
import SyncEngine.Model.Bootstrap
import SyncEngine.Model.Counter
import SyncEngine.Model.D1
import SyncEngine.Model.Discovery
import SyncEngine.Model.Fingerprint
import SyncEngine.Model.Interleaving
import SyncEngine.Model.Invariants
import SyncEngine.Model.Network
import SyncEngine.Model.Projecting
import SyncEngine.Model.Projection
import SyncEngine.Model.Protocol
import SyncEngine.Model.Record
import SyncEngine.Model.Replica
import SyncEngine.Model.Route
import SyncEngine.Model.RowAuthority
import SyncEngine.Model.RowOperations
import SyncEngine.Model.Rows
import SyncEngine.Model.Scheduling
import SyncEngine.Model.Server
import SyncEngine.Model.Session
import SyncEngine.Model.Snapshot
import SyncEngine.Model.Store
import SyncEngine.Model.Switch
import SyncEngine.Model.Transport
import SyncEngine.Model.View
import SyncEngine.Model.Wire
import SyncEngine.Proof.Acceptance
import SyncEngine.Proof.AnyResponse
import SyncEngine.Proof.AuthorityRun
import SyncEngine.Proof.Batch
import SyncEngine.Proof.Bootstrap
import SyncEngine.Proof.Canonicalization
import SyncEngine.Proof.ClientOrder
import SyncEngine.Proof.Compaction
import SyncEngine.Proof.Concurrency
import SyncEngine.Proof.Continuity
import SyncEngine.Proof.Convergence
import SyncEngine.Proof.Deliveries
import SyncEngine.Proof.Discovery
import SyncEngine.Proof.Durability
import SyncEngine.Proof.Fingerprint
import SyncEngine.Proof.HttpSession
import SyncEngine.Proof.Interleaving
import SyncEngine.Proof.Interruption
import SyncEngine.Proof.Merge
import SyncEngine.Proof.Network
import SyncEngine.Proof.Outcomes
import SyncEngine.Proof.Participant
import SyncEngine.Proof.Places
import SyncEngine.Proof.Projecting
import SyncEngine.Proof.Projection
import SyncEngine.Proof.Realizability
import SyncEngine.Proof.Record
import SyncEngine.Proof.Refinement
import SyncEngine.Proof.Replica
import SyncEngine.Proof.Response
import SyncEngine.Proof.Restoration
import SyncEngine.Proof.Reuse
import SyncEngine.Proof.Route
import SyncEngine.Proof.RowAcceptance
import SyncEngine.Proof.RowAuthority
import SyncEngine.Proof.RowCodec
import SyncEngine.Proof.RowMap
import SyncEngine.Proof.RowNormalization
import SyncEngine.Proof.RowTransport
import SyncEngine.Proof.Rows
import SyncEngine.Proof.Scheduling
import SyncEngine.Proof.Sequential
import SyncEngine.Proof.Server
import SyncEngine.Proof.Session
import SyncEngine.Proof.Snapshot
import SyncEngine.Proof.Store
import SyncEngine.Proof.Tables
import SyncEngine.Proof.Transport
import SyncEngine.Proof.Validation
import SyncEngine.Proof.View
import SyncEngine.Proof.Wire
import SyncEngine.Spec.Authority
import SyncEngine.Spec.Draft
import SyncEngine.Spec.Inbox
import SyncEngine.Spec.Knowledge
import SyncEngine.Spec.Ledger
