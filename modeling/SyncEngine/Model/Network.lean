import SyncEngine.Lib.TransitionSystem
import SyncEngine.Model.Replica
import SyncEngine.Model.Server

/-!
# One authority and its replicas over a lossy network

A configuration holds the server, every replica, every request ever prepared and every response ever
produced. Messages are never removed, so delivering one again, late, out of order or not at all is a
choice of the schedule. A call that throws leaves the configuration as it was.
-/

namespace SyncEngine

variable {ι State Intent Operation Rejection ε : Type}

/-- A server with resolved limits and replicas with distinct client identifiers that start from the
server's initial state. Every replica has its own interpreter. -/
structure NetworkSetup (ι State Intent Operation Rejection ε : Type) where
  settings : LogServerSettings State Intent Operation Rejection ε
  resolved : settings.limits.Resolved
  initialState : State
  replicaOptions : ι → CreateReplicaOptions State
  replicaInterpreter : ι → ReplicaInterpreter State Intent Operation ε
  startsFromServerState : ∀ i, (replicaOptions i).initialState = initialState
  distinctClientIds : Function.Injective fun i => (replicaOptions i).clientId

structure Network (ι State Intent Operation Rejection : Type) where
  server : InMemoryLogServer State Operation Rejection
  replicas : ι → ReplicaState State Intent Operation
  requests : List (ι × SyncRequest Intent)
  responses : List (ι × SyncResponse Operation Rejection)
  /-- Every proposal ever enqueued, with its replica. No step reads this record. -/
  enqueued : List (ι × ProposedOperation Intent)

inductive NetworkAction (ι Intent : Type) where
  | enqueue (replica : ι) (input : EnqueueOperationInput Intent)
  | prepare (replica : ι) (options : PrepareSyncRequestOptions)
  | deliver (request : Nat)
  | merge (response : Nat)
  | compact (replica : ι) (throughSequence : Int)

def NetworkAction.isCompact : NetworkAction ι Intent → Bool
  | .compact _ _ => true
  | _ => false

namespace Network

variable [DecidableEq ι] (setup : NetworkSetup ι State Intent Operation Rejection ε)
  (network : Network ι State Intent Operation Rejection)

def setReplica (replica : ι) (state : ReplicaState State Intent Operation) :
    Network ι State Intent Operation Rejection :=
  { network with replicas := Function.update network.replicas replica state }

def recordEnqueued (replica : ι) (state : ReplicaState State Intent Operation) :
    Network ι State Intent Operation Rejection :=
  { network.setReplica replica state with
    enqueued := network.enqueued ++ state.outbox.getLast?.toList.map fun entry =>
      (replica, entry.proposal) }

def next : NetworkAction ι Intent → Network ι State Intent Operation Rejection
  | .enqueue replica input =>
      match (enqueueOperation (network.replicas replica) input : Result ε _) with
      | .ok state => network.recordEnqueued replica state
      | .error _ => network
  | .prepare replica options =>
      match (prepareSyncRequest (network.replicas replica) options : Result ε _) with
      | .ok request => { network with requests := network.requests ++ [(replica, request)] }
      | .error _ => network
  | .deliver index =>
      match network.requests[index]? with
      | none => network
      | some (replica, request) =>
          match InMemoryLogServer.synchronize setup.settings network.server request with
          | .ok (response, server) =>
              { network with
                server := server
                responses := network.responses ++ [(replica, response)] }
          | .error _ => network
  | .merge index =>
      match network.responses[index]? with
      | none => network
      | some (replica, response) =>
          match mergeSyncResponse (setup.replicaInterpreter replica) (network.replicas replica)
              response with
          | .ok result => network.setReplica replica result.state
          | .error _ => network
  | .compact replica throughSequence =>
      match (deleteCommittedLogPrefix (network.replicas replica) throughSequence : Result ε _) with
      | .ok state => network.setReplica replica state
      | .error _ => network

/-- An enqueue uses an operation identifier no replica has used before. -/
def Fresh : NetworkAction ι Intent → Prop
  | .enqueue _ input => ∀ entry ∈ network.enqueued, entry.2.operationId ≠ input.operationId
  | _ => True

def run (network : Network ι State Intent Operation Rejection) (actions : List (NetworkAction ι Intent)) :
    Network ι State Intent Operation Rejection :=
  actions.foldl (next setup) network

def FreshRun (network : Network ι State Intent Operation Rejection) :
    List (NetworkAction ι Intent) → Prop
  | [] => True
  | action :: actions => network.Fresh action ∧ (network.next setup action).FreshRun actions

end Network

def NetworkSetup.system [DecidableEq ι] (setup : NetworkSetup ι State Intent Operation Rejection ε) :
    TransitionSystem (Network ι State Intent Operation Rejection) (NetworkAction ι Intent) where
  start network :=
    network.server = InMemoryLogServer.initial setup.initialState ∧
    (∀ i, (createReplicaState (setup.replicaOptions i) : Result ε _) = .ok (network.replicas i)) ∧
    network.requests = [] ∧ network.responses = [] ∧ network.enqueued = []
  step network action network' := network.Fresh action ∧ network' = network.next setup action

theorem NetworkSetup.path_run [DecidableEq ι] (setup : NetworkSetup ι State Intent Operation Rejection ε)
    {network : Network ι State Intent Operation Rejection} {actions : List (NetworkAction ι Intent)}
    (hfresh : network.FreshRun setup actions) :
    setup.system.Path network actions (network.run setup actions) := by
  induction actions generalizing network with
  | nil => exact .nil network
  | cons action actions ih =>
      have hfirst : setup.system.Path network ([] ++ [action]) (network.next setup action) :=
        (TransitionSystem.Path.nil network).snoc ⟨hfresh.1, rfl⟩
      exact hfirst.trans (ih hfresh.2)

/-! ### Callers that use an identifier again -/

namespace Network

variable (network : Network ι State Intent Operation Rejection)

def Used (i : ι) (operationId : String) : Prop :=
  ∃ entry ∈ network.enqueued, entry.1 = i ∧ entry.2.operationId = operationId

/-- The operation was rejected and the replica has removed it, or its canonical entry is below the log
the replica retains. -/
def Forgotten (i : ι) (operationId : String) : Prop :=
  (∃ reason, network.server.getDecision operationId = some (.rejected operationId reason) ∧
    ∀ entry ∈ (network.replicas i).outbox, entry.operationId ≠ operationId) ∨
  ∃ sequence operation,
    network.server.getDecision operationId = some (.accepted operationId sequence operation) ∧
    sequence ≤ (network.replicas i).confirmedSequence - (network.replicas i).confirmedLog.length

def Unshared : NetworkAction ι Intent → Prop
  | .enqueue i input =>
      ∀ entry ∈ network.enqueued, entry.2.operationId = input.operationId → entry.1 = i
  | _ => True

/-- An enqueue does not use an identifier that its replica has used and forgotten. -/
def Mindful : NetworkAction ι Intent → Prop
  | .enqueue i input => network.Used i input.operationId → ¬network.Forgotten i input.operationId
  | _ => True

end Network

variable [DecidableEq ι] (setup : NetworkSetup ι State Intent Operation Rejection ε)

/-- The network whose callers choose identifiers as they like, apart from those of other replicas. -/
def NetworkSetup.unsharedSystem :
    TransitionSystem (Network ι State Intent Operation Rejection) (NetworkAction ι Intent) where
  start := setup.system.start
  step network action network' := network.Unshared action ∧ network' = network.next setup action

def NetworkSetup.mindfulSystem :
    TransitionSystem (Network ι State Intent Operation Rejection) (NetworkAction ι Intent) where
  start := setup.system.start
  step network action network' :=
    network.Unshared action ∧ network.Mindful action ∧ network' = network.next setup action

end SyncEngine
