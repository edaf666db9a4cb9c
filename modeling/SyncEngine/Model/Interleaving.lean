import SyncEngine.Lib.Program
import SyncEngine.Model.Session

/-!
# Interleaved sessions

`runSyncSession` of `client/sync-session.ts`, with a turn for others at every `await`. Any number of sessions
run at the same time, of several replicas and of the same one, as when a store is open in several tabs. A
transaction of a store is one step, and so is the call of the server.
-/

namespace SyncEngine

open JavaScript Throwing

variable {ι State Intent Operation Rejection ε : Type}

/-! ### Calls -/

/-- What a session awaits. -/
inductive SessionCall (ι Intent Operation Rejection : Type) where
  | prepareSyncRequest (replica : ι) (options : PrepareSyncRequestOptions)
  | synchronize (replica : ι) (envelope : SyncRequestEnvelope Intent)
  | mergeSyncResponse (replica : ι) (response : SyncResponse Operation Rejection)
  | refreshAfterMerge (replica : ι)

def SessionInterface (ι Intent Operation Rejection ε : Type) : Interface where
  Call := SessionCall ι Intent Operation Rejection
  Answer
    | .prepareSyncRequest _ _ => Except (SessionError ε) (SyncRequest Intent)
    | .synchronize _ _ => Except (SessionError ε) (SyncResponseEnvelope Operation Rejection)
    | .mergeSyncResponse _ _ => Except (SessionError ε) Unit
    | .refreshAfterMerge _ => Except (SessionError ε) IndexedDbReplicaStatus

/-- The stores and the server answer. -/
def StoreNetwork.answer [DecidableEq ι] (setup : StoreSetup ι State Intent Operation Rejection ε) :
    Handler (SessionInterface ι Intent Operation Rejection ε) (StoreNetwork ι State Intent Operation Rejection)
  | .prepareSyncRequest replica options, stores => prepareSyncRequest setup replica options stores
  | .synchronize replica envelope, stores => synchronize setup replica envelope stores
  | .mergeSyncResponse replica response, stores => mergeSyncResponse setup replica response stores
  | .refreshAfterMerge replica, stores => readStatus setup replica stores

/-! ### The session -/

/-- A session of a replica. -/
structure SyncSession (ι : Type) where
  replica : ι
  maximumEntries : Option Int := none
  maximumProposals : Option Int := none
  maximumSyncRounds : Option Int := none

abbrev SessionProgram (ι Intent Operation Rejection ε α : Type) :=
  Program (SessionInterface ι Intent Operation Rejection ε) (SessionError ε) α

namespace SyncSession

variable (streamId : String) (session : SyncSession ι)

def prepareSyncRequest (options : PrepareSyncRequestOptions) :
    SessionProgram ι Intent Operation Rejection ε (SyncRequest Intent) := do
  Program.lift (← Program.ask (I := SessionInterface ι Intent Operation Rejection ε)
    (.prepareSyncRequest session.replica options))

def synchronize (envelope : SyncRequestEnvelope Intent) :
    SessionProgram ι Intent Operation Rejection ε (SyncResponseEnvelope Operation Rejection) := do
  Program.lift (← Program.ask (I := SessionInterface ι Intent Operation Rejection ε)
    (.synchronize session.replica envelope))

def mergeSyncResponse (response : SyncResponse Operation Rejection) :
    SessionProgram ι Intent Operation Rejection ε Unit := do
  Program.lift (← Program.ask (I := SessionInterface ι Intent Operation Rejection ε)
    (.mergeSyncResponse session.replica response))

def refreshAfterMerge : SessionProgram ι Intent Operation Rejection ε IndexedDbReplicaStatus := do
  Program.lift (← Program.ask (I := SessionInterface ι Intent Operation Rejection ε)
    (.refreshAfterMerge session.replica))

/-- The body of the loop: whether the session returns after this round. -/
def syncRound : SessionProgram ι Intent Operation Rejection ε Bool := do
  let request ← session.prepareSyncRequest {
    maximumProposals := some (session.maximumProposals.getD 64)
    maximumEntries := some (session.maximumEntries.getD 256) }
  let responseEnvelope ← session.synchronize {
    protocolVersion := syncProtocolVersion
    streamId := streamId
    request := request }
  Program.lift (assertResponseEnvelope streamId responseEnvelope)
  session.mergeSyncResponse responseEnvelope.response
  let status ← session.refreshAfterMerge
  return !responseHasMoreEntries responseEnvelope.response &&
    status.pendingProposalCount = 0 && status.acceptedAwaitingConfirmationCount = 0

/-- The loop, with the rounds that are left. -/
def syncRounds (maximumSyncRounds : Int) : Nat → SessionProgram ι Intent Operation Rejection ε Unit
  | 0 => .throw (.syncClientError
      (s!"synchronization exceeded {maximumSyncRounds} rounds; " ++
        "the authority may be changing continuously"))
  | remaining + 1 => do
      if ← syncRound streamId session then return
      else syncRounds maximumSyncRounds remaining

def runSyncSession : SessionProgram ι Intent Operation Rejection ε Unit :=
  let maximumSyncRounds := session.maximumSyncRounds.getD 100
  syncRounds streamId session maximumSyncRounds maximumSyncRounds.toNat

end SyncSession

/-- Sessions that run at the same time, over stores in which nobody writes. -/
abbrev SessionPool (ι State Intent Operation Rejection ε : Type) :=
  Pool (SessionInterface ι Intent Operation Rejection ε) (StoreNetwork ι State Intent Operation Rejection)
    (SessionError ε) Unit (SyncSession ι)

def StoreSetup.sessionSystem [DecidableEq ι] (setup : StoreSetup ι State Intent Operation Rejection ε)
    (before : StoreNetwork ι State Intent Operation Rejection)
    (admits : StoreNetwork ι State Intent Operation Rejection → SyncSession ι → Prop) :
    TransitionSystem (SessionPool ι State Intent Operation Rejection ε) (PoolAction (SyncSession ι)) :=
  Pool.system (StoreNetwork.answer setup) (SyncSession.runSyncSession setup.streamId) (fun stores => stores = before)
    admits

end SyncEngine
