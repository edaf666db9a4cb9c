import SyncEngine.Lib.TransitionSystem
import SyncEngine.Model.Record
import SyncEngine.Model.Rows

/-!
# The observable view of a replica

`createReplicaView` of `client/replica-view.ts`, cut into the segments of code that run without
interruption. A refresh runs once the ones called before it have settled, up to the `await` of
`readViewSnapshot`, and continues when that read settles. What the store answers, and when, is the
environment's choice. An enqueue reaches the view as the refresh it calls.
-/

namespace SyncEngine

open JavaScript Throwing

/-- The errors a snapshot can carry and a refresh can fail with, `Failure` being those of the store and
of synchronization. -/
inductive ViewError (Failure : Type) where
  | schemaMismatch (error : SyncClientSchemaMismatchError)
  | other (failure : Failure)

inductive SyncClientPhase where
  | idle
  | syncing
  | error
  | closed
  deriving DecidableEq

structure SyncReplicaStoreSnapshot (Row : Type) where
  clientId : String
  optimisticState : ReplicaDatabaseState Row
  status : IndexedDbReplicaStatus

structure SyncClientSnapshot (Row Failure : Type) where
  phase : SyncClientPhase
  error : Option (ViewError Failure)
  confirmedSequence : Int
  pendingProposalCount : Nat
  acceptedAwaitingConfirmationCount : Nat
  unacknowledgedResolutionCount : Nat
  revision : Nat
  tables : JsRecord (List Row)

structure ReplicaViewRefreshOptions (Failure : Type) where
  phase : SyncClientPhase
  error : Option (ViewError Failure)

structure ReplicaViewSetup where
  schema : ReplicaSchemaContract
  localeCompare : Text → Text → Int

structure ReplicaView (Row Failure : Type) where
  clientId : String
  phase : SyncClientPhase
  error : Option (ViewError Failure)
  revision : Nat
  optimisticState : ReplicaDatabaseState Row
  status : IndexedDbReplicaStatus
  snapshot : SyncClientSnapshot Row Failure

variable {Row Failure : Type} (setup : ReplicaViewSetup)

def makeSnapshot (state : ReplicaDatabaseState Row) (status : IndexedDbReplicaStatus)
    (phase : SyncClientPhase) (error : Option (ViewError Failure)) (revision : Nat) :
    SyncClientSnapshot Row Failure where
  phase := phase
  error := error
  confirmedSequence := status.confirmedSequence
  pendingProposalCount := status.pendingProposalCount
  acceptedAwaitingConfirmationCount := status.acceptedAwaitingConfirmationCount
  unacknowledgedResolutionCount := status.unacknowledgedResolutionCount
  revision := revision
  tables := InsertionMap.empty.setAll (setup.schema.tables.entries.map fun table =>
    (table.1, readTableRows setup.localeCompare state table.1))

def createReplicaView (initial : SyncReplicaStoreSnapshot Row) :
    Except SyncClientSchemaMismatchError (ReplicaView Row Failure) := do
  assertDatabaseStateSchema setup.schema initial.optimisticState
  return {
    clientId := initial.clientId
    phase := .idle
    error := none
    revision := 0
    optimisticState := initial.optimisticState
    status := initial.status
    snapshot := makeSnapshot setup initial.optimisticState initial.status .idle none 0 }

namespace ReplicaView

variable (view : ReplicaView Row Failure)

def emit : ReplicaView Row Failure :=
  { view with
    snapshot := makeSnapshot setup view.optimisticState view.status view.phase view.error view.revision }

def setPhase (phase : SyncClientPhase) (error : Option (ViewError Failure)) : ReplicaView Row Failure :=
  { view with phase := phase, error := error }.emit setup

def close : ReplicaView Row Failure := { view with phase := .closed }.emit setup

def beginRefresh : Option (ReplicaViewRefreshOptions Failure) → ReplicaView Row Failure
  | none => view
  | some options => { view with phase := options.phase, error := options.error }

/-- The part of a refresh after its `await`: the view it leaves, and how the refresh settles. -/
def endRefresh : Except Failure (SyncReplicaStoreSnapshot Row) →
    ReplicaView Row Failure × Except (ViewError Failure) IndexedDbReplicaStatus
  | .error failure => (view, .error (.other failure))
  | .ok next =>
      let assigned := { view with clientId := next.clientId, optimisticState := next.optimisticState }
      match assertDatabaseStateSchema setup.schema next.optimisticState with
      | .error mismatch => (assigned, .error (.schemaMismatch mismatch))
      | .ok () =>
          ({ assigned with status := next.status, revision := view.revision + 1 }.emit setup,
            .ok next.status)

end ReplicaView

structure RefreshCall (Failure : Type) where
  /-- How many refreshes were called before. -/
  number : Nat
  options : Option (ReplicaViewRefreshOptions Failure)

/-- A view between two segments. The first call of the tail reads the store once it has begun; the
others wait for it. -/
structure ViewRun (Row Failure : Type) where
  view : ReplicaView Row Failure
  calls : Nat
  refreshTail : List (RefreshCall Failure)
  reading : Bool
  /-- The results that refreshes have published, with the number of the call, the latest last. No
  segment reads this record. -/
  published : List (Nat × SyncReplicaStoreSnapshot Row)

inductive ViewEvent (Row Failure : Type) where
  | refresh (options : Option (ReplicaViewRefreshOptions Failure))
  | begins
  | reads (result : Except Failure (SyncReplicaStoreSnapshot Row))
  | setPhase (phase : SyncClientPhase) (error : Option (ViewError Failure))
  | close

namespace ViewRun

variable (run : ViewRun Row Failure)

def settle (call : RefreshCall Failure) (rest : List (RefreshCall Failure))
    (result : Except Failure (SyncReplicaStoreSnapshot Row)) : ViewRun Row Failure :=
  let (view, outcome) := run.view.endRefresh setup result
  { run with
    view := view
    refreshTail := rest
    reading := false
    published :=
      match outcome, result with
      | .ok _, .ok next => run.published ++ [(call.number, next)]
      | _, _ => run.published }

def next : ViewEvent Row Failure → Option (ViewRun Row Failure)
  | .refresh options =>
      some { run with
        calls := run.calls + 1
        refreshTail := run.refreshTail ++ [⟨run.calls, options⟩] }
  | .begins =>
      match run.refreshTail with
      | [] => none
      | call :: _ =>
          if run.reading then none
          else some { run with view := run.view.beginRefresh call.options, reading := true }
  | .reads result =>
      match run.refreshTail with
      | [] => none
      | call :: rest => if run.reading then some (run.settle setup call rest result) else none
  | .setPhase phase error => some { run with view := run.view.setPhase setup phase error }
  | .close => some { run with view := run.view.close setup }

def created (view : ReplicaView Row Failure) : ViewRun Row Failure where
  view := view
  calls := 0
  refreshTail := []
  reading := false
  published := []

end ViewRun

def ReplicaViewSetup.system (initial : SyncReplicaStoreSnapshot Row) :
    TransitionSystem (ViewRun Row Failure) (ViewEvent Row Failure) where
  start run := ∃ view, createReplicaView setup initial = .ok view ∧ run = ViewRun.created view
  step run event run' := run.next setup event = some run'

end SyncEngine
