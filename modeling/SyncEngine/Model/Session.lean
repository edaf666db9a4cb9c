import SyncEngine.Model.Store

/-!
# A synchronization session

`runSyncSession` of `client/sync-session.ts`, for a store and a transport that act on a world and may
throw, and the session of one store of a network with the server itself as its transport. While a session
runs nobody else acts on the world.
-/

namespace SyncEngine

open JavaScript Throwing

variable {World ι State Intent Operation Rejection ε : Type}

def responseHasMoreEntries (response : SyncResponse Operation Rejection) : Bool :=
  response.throughSequence < response.headSequence

inductive SessionError (ε : Type) where
  | store (error : StoreError ε)
  | transport (error : SyncEngineError ε)
  | syncClientError (message : String)
  | syncClientProtocolError (message : String)

/-- Code that acts on a world and may throw. What it has done before it throws stays done. -/
abbrev SessionM (World ε α : Type) := ExceptT (SessionError ε) (StateM World) α

/-- The options of a session. The store is the part of `SyncReplicaStore` that a session calls. -/
structure RunSyncSessionOptions (World Intent Operation Rejection ε : Type) where
  streamId : String
  prepareSyncRequest : PrepareSyncRequestOptions → SessionM World ε (SyncRequest Intent)
  mergeSyncResponse : SyncResponse Operation Rejection → SessionM World ε Unit
  synchronize : SyncRequestEnvelope Intent → SessionM World ε (SyncResponseEnvelope Operation Rejection)
  refreshAfterMerge : SessionM World ε IndexedDbReplicaStatus
  maximumEntries : Option Int := none
  maximumProposals : Option Int := none
  maximumSyncRounds : Option Int := none

def assertResponseEnvelope (streamId : String) (envelope : SyncResponseEnvelope Operation Rejection) :
    Except (SessionError ε) Unit := do
  throwIf (envelope.protocolVersion ≠ syncProtocolVersion)
    (.syncClientProtocolError s!"unsupported sync protocol version {envelope.protocolVersion}")
  throwIf (envelope.streamId ≠ streamId)
    (.syncClientProtocolError
      (s!"sync response stream {stringify envelope.streamId} does not match " ++ stringify streamId))

section Session

variable (options : RunSyncSessionOptions World Intent Operation Rejection ε)

/-- The body of the loop: whether the session returns after this round. -/
def syncRound : SessionM World ε Bool := do
  let request ← options.prepareSyncRequest {
    maximumProposals := some (options.maximumProposals.getD 64)
    maximumEntries := some (options.maximumEntries.getD 256) }
  let responseEnvelope ← options.synchronize {
    protocolVersion := syncProtocolVersion
    streamId := options.streamId
    request := request }
  liftExcept (assertResponseEnvelope options.streamId responseEnvelope)
  options.mergeSyncResponse responseEnvelope.response
  let status ← options.refreshAfterMerge
  return !responseHasMoreEntries responseEnvelope.response &&
    status.pendingProposalCount = 0 && status.acceptedAwaitingConfirmationCount = 0
where
  liftExcept (result : Except (SessionError ε) Unit) : SessionM World ε Unit := fun world => (result, world)

def syncRounds (maximumSyncRounds : Int) : Nat → SessionM World ε Unit
  | 0 => throw (.syncClientError
      (s!"synchronization exceeded {maximumSyncRounds} rounds; " ++
        "the authority may be changing continuously"))
  | remaining + 1 => do
      if ← syncRound options then return
      else syncRounds maximumSyncRounds remaining

def runSyncSession : SessionM World ε Unit :=
  let maximumSyncRounds := options.maximumSyncRounds.getD 100
  syncRounds options maximumSyncRounds maximumSyncRounds.toNat

end Session

/-! ### The session of a store with the server -/

namespace StoreNetwork

variable [DecidableEq ι] (setup : StoreSetup ι State Intent Operation Rejection ε) (i : ι)

def prepareSyncRequest (options : PrepareSyncRequestOptions) :
    SessionM (StoreNetwork ι State Intent Operation Rejection) ε (SyncRequest Intent) := fun stores =>
  match (setup.store i).prepareSyncRequest (stores.stored i) options with
  | .ok request => (.ok request, { stores with requests := stores.requests ++ [(i, request)] })
  | .error error => (.error (.store error), stores)

/-- A transport that calls the server and answers in the envelope of the request. -/
def synchronize (envelope : SyncRequestEnvelope Intent) :
    SessionM (StoreNetwork ι State Intent Operation Rejection) ε (SyncResponseEnvelope Operation Rejection) :=
  fun stores =>
    match InMemoryLogServer.synchronize setup.settings stores.server envelope.request with
    | .ok (response, server) =>
        (.ok {
          protocolVersion := syncProtocolVersion
          streamId := envelope.streamId
          response := response },
        { stores with
          server := server
          responses := stores.responses ++ [(i, response)] })
    | .error error => (.error (.transport error), stores)

def mergeSyncResponse (response : SyncResponse Operation Rejection) :
    SessionM (StoreNetwork ι State Intent Operation Rejection) ε Unit := fun stores =>
  let (outcome, stored) := (setup.store i).mergeSyncResponse (stores.stored i) response
  let stores := stores.setStored i stored
  match outcome with
  | .ok result => (.ok (), stores.recordOutcome i (.learned result.newlyResolved))
  | .error error => (.error (.store error), stores)

def readStatus : SessionM (StoreNetwork ι State Intent Operation Rejection) ε IndexedDbReplicaStatus :=
  fun stores =>
    match (setup.store i).readRecord (stores.stored i) with
    | .ok record => (.ok (statusFromRecord record), stores)
    | .error error => (.error (.store error), stores)

def session (maximumEntries maximumProposals maximumSyncRounds : Option Int) :
    RunSyncSessionOptions (StoreNetwork ι State Intent Operation Rejection) Intent Operation Rejection ε where
  streamId := setup.streamId
  prepareSyncRequest := prepareSyncRequest setup i
  mergeSyncResponse := mergeSyncResponse setup i
  synchronize := synchronize setup i
  refreshAfterMerge := readStatus setup i
  maximumEntries := maximumEntries
  maximumProposals := maximumProposals
  maximumSyncRounds := maximumSyncRounds

end StoreNetwork

end SyncEngine
