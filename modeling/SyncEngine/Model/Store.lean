import Mathlib.Data.Finset.Card
import SyncEngine.Model.Network
import SyncEngine.Model.Record

/-!
# The IndexedDB store

`IndexedDbReplicaStore` of `indexeddb/store.ts` on the value that a database holds for its stream, and
replicas that live in such stores, next to one server. A readwrite transaction runs alone, and one that
aborts leaves the stored value. All connections to a stream run the same code on the same value, so that
a connection is not a state of its own.
-/

namespace SyncEngine

open JavaScript Throwing

variable {ι State Intent Operation Rejection ε α : Type}

inductive StoreError (ε : Type) where
  | record (error : IndexedDbReplicaRecordError)
  | reducer (error : SyncEngineError ε)
  | error (message : String)

abbrev StoreResult (ε α : Type) := Except (StoreError ε) α

def reduce (result : Result ε α) : StoreResult ε α := result.mapError .reducer

structure IndexedDbReplicaStore (State Intent Operation ε : Type) where
  streamId : String
  interpreter : ReplicaInterpreter State Intent Operation ε

structure IndexedDbMergeResult (State Intent Operation Rejection : Type) extends
    MergeSyncResult State Intent Operation Rejection where
  status : IndexedDbReplicaStatus

/-- A readwrite transaction on the value of a stream: how it settles, and the value afterwards. -/
def transact {Record : Type} (stored : Option Record)
    (operation : Option Record → StoreResult ε (Record × α)) : StoreResult ε α × Option Record :=
  match operation stored with
  | .ok (record, result) => (.ok result, some record)
  | .error error => (.error error, stored)

namespace IndexedDbReplicaStore

variable (store : IndexedDbReplicaStore State Intent Operation ε)
  (stored : Option (IndexedDbReplicaRecord State Intent Operation Rejection))

def assertRecord (value : Option (IndexedDbReplicaRecord State Intent Operation Rejection)) :
    StoreResult ε (IndexedDbReplicaRecord State Intent Operation Rejection) :=
  (assertReplicaRecord value store.streamId).mapError .record

/-- `#updateRecord`: the record is validated before and after the update. -/
def updateRecord
    (update : IndexedDbReplicaRecord State Intent Operation Rejection →
      StoreResult ε (IndexedDbReplicaRecord State Intent Operation Rejection × α)) :
    StoreResult ε α × Option (IndexedDbReplicaRecord State Intent Operation Rejection) :=
  transact stored fun stored => do
    let current ← store.assertRecord stored
    let next ← update current
    let _ ← store.assertRecord (some next.1)
    return next

def readRecord : StoreResult ε (IndexedDbReplicaRecord State Intent Operation Rejection) :=
  store.assertRecord stored

def enqueueOperation (input : EnqueueOperationInput Intent) :
    StoreResult ε (ProposedOperation Intent) ×
      Option (IndexedDbReplicaRecord State Intent Operation Rejection) :=
  store.updateRecord stored fun record => do
    let replica ← reduce (SyncEngine.enqueueOperation record.replica input)
    match replica.outbox.getLast? with
    | none => throw (.error "enqueue produced no outbox entry")
    | some last => return ({ record with replica := replica }, last.proposal)

def prepareSyncRequest (options : PrepareSyncRequestOptions) : StoreResult ε (SyncRequest Intent) := do
  let record ← store.readRecord stored
  reduce (SyncEngine.prepareSyncRequest record.replica options)

def mergeSyncResponse (response : SyncResponse Operation Rejection) :
    StoreResult ε (IndexedDbMergeResult State Intent Operation Rejection) ×
      Option (IndexedDbReplicaRecord State Intent Operation Rejection) :=
  store.updateRecord stored fun record => do
    let merged ← reduce (SyncEngine.mergeSyncResponse store.interpreter record.replica response)
    let nextRecord := { record with
      replica := merged.state
      resolutions := appendUniqueResolutions record.resolutions merged.newlyResolved }
    return (nextRecord, { merged with status := statusFromRecord nextRecord })

def deleteCommittedLogPrefix (throughSequence : Int) :
    StoreResult ε Int × Option (IndexedDbReplicaRecord State Intent Operation Rejection) :=
  store.updateRecord stored fun record => do
    let replica ← reduce (SyncEngine.deleteCommittedLogPrefix record.replica throughSequence)
    return ({ record with replica := replica },
      (record.replica.confirmedLog.length : Int) - replica.confirmedLog.length)

def acknowledgeResolutions (operationIds : List String) :
    StoreResult ε Int × Option (IndexedDbReplicaRecord State Intent Operation Rejection) :=
  let acknowledged := operationIds.toFinset
  if acknowledged.card = 0 then (.ok 0, stored)
  else
    store.updateRecord stored fun record =>
      let resolutions := record.resolutions.filter fun decision => decision.operationId ∉ acknowledged
      .ok ({ record with resolutions := resolutions },
        (record.resolutions.length : Int) - resolutions.length)

end IndexedDbReplicaStore

/-! ### Replicas in stores -/

/-- A network whose replicas are kept for one stream, each in a database of its own. A store creates its
replica without a choice of the first client sequence. -/
structure StoreSetup (ι State Intent Operation Rejection ε : Type) extends
    NetworkSetup ι State Intent Operation Rejection ε where
  streamId : String
  firstOpened : ∀ i, (replicaOptions i).nextClientSequence = none

def StoreSetup.store (setup : StoreSetup ι State Intent Operation Rejection ε) (i : ι) :
    IndexedDbReplicaStore State Intent Operation ε where
  streamId := setup.streamId
  interpreter := setup.replicaInterpreter i

inductive OutcomeEvent (Operation Rejection : Type) where
  | learned (newlyResolved : List (ProposalDecision Operation Rejection))
  | acknowledged (operationIds : List String)

structure StoreNetwork (ι State Intent Operation Rejection : Type) where
  server : InMemoryLogServer State Operation Rejection
  stored : ι → Option (IndexedDbReplicaRecord State Intent Operation Rejection)
  requests : List (ι × SyncRequest Intent)
  responses : List (ι × SyncResponse Operation Rejection)
  /-- Every proposal that an enqueue returned. No step reads this record. -/
  enqueued : List (ι × ProposedOperation Intent)
  /-- The outcomes of every replica, in order. No step reads this record. -/
  outcomes : ι → List (OutcomeEvent Operation Rejection)

inductive StoreAction (ι Intent : Type) where
  | network (action : NetworkAction ι Intent)
  | acknowledge (replica : ι) (operationIds : List String)

def StoreAction.networkAction? : StoreAction ι Intent → Option (NetworkAction ι Intent)
  | .network action => some action
  | .acknowledge _ _ => none

namespace StoreNetwork

variable [DecidableEq ι] (setup : StoreSetup ι State Intent Operation Rejection ε)
  (network : StoreNetwork ι State Intent Operation Rejection)

def setStored (replica : ι) (value : Option (IndexedDbReplicaRecord State Intent Operation Rejection)) :
    StoreNetwork ι State Intent Operation Rejection :=
  { network with stored := Function.update network.stored replica value }

def recordOutcome (replica : ι) (event : OutcomeEvent Operation Rejection) :
    StoreNetwork ι State Intent Operation Rejection :=
  { network with
    outcomes := Function.update network.outcomes replica (network.outcomes replica ++ [event]) }

def next : StoreAction ι Intent → StoreNetwork ι State Intent Operation Rejection
  | .network (.enqueue i input) =>
      let (outcome, stored) := (setup.store i).enqueueOperation (network.stored i) input
      let network := network.setStored i stored
      match outcome with
      | .ok proposal => { network with enqueued := network.enqueued ++ [(i, proposal)] }
      | .error _ => network
  | .network (.prepare i options) =>
      match (setup.store i).prepareSyncRequest (network.stored i) options with
      | .ok request => { network with requests := network.requests ++ [(i, request)] }
      | .error _ => network
  | .network (.deliver index) =>
      match network.requests[index]? with
      | none => network
      | some (i, request) =>
          match InMemoryLogServer.synchronize setup.settings network.server request with
          | .ok (response, server) =>
              { network with
                server := server
                responses := network.responses ++ [(i, response)] }
          | .error _ => network
  | .network (.merge index) =>
      match network.responses[index]? with
      | none => network
      | some (i, response) =>
          let (outcome, stored) := (setup.store i).mergeSyncResponse (network.stored i) response
          let network := network.setStored i stored
          match outcome with
          | .ok result => network.recordOutcome i (.learned result.newlyResolved)
          | .error _ => network
  | .network (.compact i throughSequence) =>
      network.setStored i
        ((setup.store i).deleteCommittedLogPrefix (network.stored i) throughSequence).2
  | .acknowledge i operationIds =>
      let (outcome, stored) := (setup.store i).acknowledgeResolutions (network.stored i) operationIds
      let network := network.setStored i stored
      match outcome with
      | .ok _ => network.recordOutcome i (.acknowledged operationIds)
      | .error _ => network

def Fresh : StoreAction ι Intent → Prop
  | .network (.enqueue _ input) => ∀ entry ∈ network.enqueued, entry.2.operationId ≠ input.operationId
  | _ => True

end StoreNetwork

def StoreSetup.storeSystem [DecidableEq ι] (setup : StoreSetup ι State Intent Operation Rejection ε) :
    TransitionSystem (StoreNetwork ι State Intent Operation Rejection) (StoreAction ι Intent) where
  start network :=
    network.server = InMemoryLogServer.initial setup.initialState ∧
    (∀ i, ∃ replica, (createReplicaState (setup.replicaOptions i) : Result ε _) = .ok replica ∧
      network.stored i = some {
        schemaVersion := indexedDbReplicaSchemaVersion
        streamId := setup.streamId
        replica := replica
        resolutions := [] }) ∧
    network.requests = [] ∧ network.responses = [] ∧ network.enqueued = [] ∧ ∀ i, network.outcomes i = []
  step network action network' := network.Fresh action ∧ network' = network.next setup action

end SyncEngine
