import SyncEngine.Model.Counter
import SyncEngine.Proof.Store

/-!
# Durable replicas and their outcomes

A store is the pure replica plus durability: it never finds its own record invalid, its operations
succeed when the reducers do, and it holds the replica that the reducers lead to. Every outcome is
reported once, and stays in the inbox until it is acknowledged.
-/

namespace SyncEngine

open JavaScript TransitionSystem

variable {ι State Intent Operation Rejection ε α : Type} [DecidableEq ι]

/-- An operation on a record does what a reducer does on its replica: it succeeds when the reducer
does, and then stores what the reducer returns; it fails when the reducer does, with the same error, and
then leaves the record as it was. -/
def Persists (record : IndexedDbReplicaRecord State Intent Operation Rejection)
    (reduced : Result ε (ReplicaState State Intent Operation))
    (operation : StoreResult ε α × Option (IndexedDbReplicaRecord State Intent Operation Rejection)) : Prop :=
  match reduced with
  | .ok replica => ∃ value resolutions,
      operation = (.ok value, some { record with replica := replica, resolutions := resolutions })
  | .error error => operation = (.error (.reducer error), some record)

/-- The replica of a store, through all operations on it. -/
structure PersistsReplica (setup : StoreSetup ι State Intent Operation Rejection ε)
    (stores : StoreNetwork ι State Intent Operation Rejection) (i : ι)
    (record : IndexedDbReplicaRecord State Intent Operation Rejection) : Prop where
  enqueueOperation : ∀ input, stores.Fresh (.network (.enqueue i input)) →
    Persists record (SyncEngine.enqueueOperation record.replica input)
      ((setup.store i).enqueueOperation (some record) input)
  mergeSyncResponse : ∀ response, (i, response) ∈ stores.responses →
    Persists record
      ((SyncEngine.mergeSyncResponse (setup.replicaInterpreter i) record.replica response).map fun result =>
        result.state)
      ((setup.store i).mergeSyncResponse (some record) response)
  deleteCommittedLogPrefix : ∀ throughSequence,
    Persists record (SyncEngine.deleteCommittedLogPrefix record.replica throughSequence)
      ((setup.store i).deleteCommittedLogPrefix (some record) throughSequence)
  acknowledgeResolutions : ∀ operationIds,
    Persists record (.ok record.replica) ((setup.store i).acknowledgeResolutions (some record) operationIds)

section Proofs

variable {setup : StoreSetup ι State Intent Operation Rejection ε}
  {stores : StoreNetwork ι State Intent Operation Rejection}
  {network : Network ι State Intent Operation Rejection}

theorem StoreNetwork.Follows.clientSequences (h : stores.Follows setup network) (i : ι) :
    ∃ count, ((stores.enqueued.filter fun entry => entry.1 = i).map fun entry => entry.2.clientSequence) =
      (List.range count).map fun index : Nat => (index + 1 : Int) := by
  obtain ⟨authority, knowledge, retained, hconsistent⟩ := Network.consistent_of_reachable h.reachable
  have hsequence := (hconsistent.participants i).sequence
  have hfirst : setup.firstSequence i = 1 := by
    rw [NetworkSetup.firstSequence, setup.firstOpened i]
    rfl
  have hproposals : ((stores.enqueued.filter fun entry => entry.1 = i).map fun entry => entry.2.clientSequence) =
      (network.proposalsOf i).map fun proposal => proposal.clientSequence := by
    rw [h.enqueued, Network.proposalsOf, List.map_map]
    rfl
  refine ⟨(network.proposalsOf i).length, ?_⟩
  rw [hproposals]
  apply List.ext_getElem
  · rw [List.length_map, List.length_map, List.length_range]
  · intro index hleft hright
    rw [List.length_map] at hleft
    have hat := hsequence index _ (List.getElem?_eq_getElem hleft)
    rw [List.getElem_map, List.getElem_map, List.getElem_range]
    omega

theorem StoreNetwork.Follows.persists (h : stores.Follows setup network) (i : ι) :
    PersistsReplica setup stores i (setup.record (network.replicas i) (outstanding (stores.outcomes i))) := by
  constructor
  case enqueueOperation =>
    intro input hfresh
    change Persists _ (SyncEngine.enqueueOperation (network.replicas i) input) _
    cases hcall : (SyncEngine.enqueueOperation (network.replicas i) input : Result ε _) with
    | error error => exact IndexedDbReplicaStore.enqueueOperation_of_error (h.accepts i) hcall
    | ok state => exact ⟨_, _, h.enqueueOperation_of_ok hfresh hcall⟩
  case mergeSyncResponse =>
    intro response hresponse
    rw [h.responses] at hresponse
    change Persists _ (Except.map _ (SyncEngine.mergeSyncResponse _ (network.replicas i) response)) _
    cases hcall : SyncEngine.mergeSyncResponse (setup.replicaInterpreter i) (network.replicas i) response with
    | error error => exact IndexedDbReplicaStore.mergeSyncResponse_of_error (h.accepts i) hcall
    | ok merged =>
        obtain ⟨status, hmerge⟩ := h.mergeSyncResponse_of_ok hresponse hcall
        exact ⟨_, _, hmerge⟩
  case deleteCommittedLogPrefix =>
    intro throughSequence
    change Persists _ (SyncEngine.deleteCommittedLogPrefix (network.replicas i) throughSequence) _
    cases hcall : (SyncEngine.deleteCommittedLogPrefix (network.replicas i) throughSequence : Result ε _) with
    | error error => exact IndexedDbReplicaStore.deleteCommittedLogPrefix_of_error (h.accepts i) hcall
    | ok state =>
        obtain ⟨deleted, hdelete⟩ := h.deleteCommittedLogPrefix_of_ok hcall
        exact ⟨_, _, hdelete⟩
  case acknowledgeResolutions =>
    intro operationIds
    obtain ⟨removed, hacknowledge⟩ := h.acknowledgeResolutions_eq i operationIds
    exact ⟨_, _, hacknowledge⟩

end Proofs

/-! ### Two counters in stores -/

def counterStoreSetup : StoreSetup Bool Int Int Int String Empty where
  toNetworkSetup := counterSetup
  streamId := "counter"
  firstOpened _ := rfl

def counterStoresStart : StoreNetwork Bool Int Int Int String where
  server := counterStart.server
  stored i := some (counterStoreSetup.record (counterStart.replicas i) [])
  requests := []
  responses := []
  enqueued := []
  outcomes _ := []

theorem counterStoresStart_start : counterStoreSetup.storeSystem.start counterStoresStart :=
  ⟨rfl, fun i => ⟨_, counterStart_start.2.1 i, rfl⟩, rfl, rfl, rfl, fun _ => rfl⟩

/-- One client synchronizes an increment and acknowledges its outcome. -/
def counterStoreActions : List (StoreAction Bool Int) := [
  .network (.enqueue true { operationId := "op-a1", intentHash := "test:5", intent := 5 }),
  .network (.prepare true {}),
  .network (.deliver 0),
  .network (.merge 0),
  .acknowledge true ["op-a1"]]

def counterStores : StoreNetwork Bool Int Int Int String :=
  counterStoreActions.foldl (StoreNetwork.next counterStoreSetup) counterStoresStart

theorem counterStores_path :
    counterStoreSetup.storeSystem.Path counterStoresStart counterStoreActions counterStores := by
  have henqueue : counterStoresStart.Fresh
      (.network (.enqueue true { operationId := "op-a1", intentHash := "test:5", intent := 5 })) :=
    fun entry hentry => absurd hentry List.not_mem_nil
  have hstep : ∀ stores action, stores.Fresh action →
      counterStoreSetup.storeSystem.step stores action (stores.next counterStoreSetup action) :=
    fun _ _ hfresh => ⟨hfresh, rfl⟩
  have hstart : counterStoreSetup.storeSystem.Path counterStoresStart [] counterStoresStart := .nil _
  have henqueued := hstart.snoc (hstep _ _ henqueue)
  have hprepared := henqueued.snoc (hstep _ (.network (.prepare true {})) trivial)
  have hdelivered := hprepared.snoc (hstep _ (.network (.deliver 0)) trivial)
  have hmerged := hdelivered.snoc (hstep _ (.network (.merge 0)) trivial)
  exact hmerged.snoc (hstep _ (.acknowledge true ["op-a1"]) trivial)

/-- The store is the pure replica plus durability. Along every run of the stores there is the run of pure
replicas through the same operations in the same order; every stored record holds the replica of that
run, passes its validation, and lets every operation do what the reducer does. Client sequences are
handed out from one on without gap or repetition. -/
theorem store_refines_replica (setup : StoreSetup ι State Intent Operation Rejection ε)
    {start stores : StoreNetwork ι State Intent Operation Rejection} {actions : List (StoreAction ι Intent)}
    (hstart : setup.storeSystem.start start) (hpath : setup.storeSystem.Path start actions stores) :
    ∃ first network, setup.system.start first ∧
      setup.system.Path first (actions.filterMap StoreAction.networkAction?) network ∧
      ∀ i, (∃ record, stores.stored i = some record ∧
          assertReplicaRecord (some record) setup.streamId = .ok record ∧
          record.replica = network.replicas i ∧ PersistsReplica setup stores i record) ∧
        ∃ count, ((stores.enqueued.filter fun entry => entry.1 = i).map fun entry => entry.2.clientSequence) =
          (List.range count).map fun index : Nat => (index + 1 : Int) := by
  obtain ⟨first, network, hfirst, hnetwork, h⟩ := follows_of_path hstart hpath
  refine ⟨first, network, hfirst, hnetwork, fun i => ⟨?_, h.clientSequences i⟩⟩
  exact ⟨_, h.stored i, h.accepts i, rfl, h.persists i⟩

theorem store_refines_replica_counter :
    ∃ record, counterStores.stored true = some record ∧
      assertReplicaRecord (some record) "counter" = .ok record ∧
      PersistsReplica counterStoreSetup counterStores true record := by
  obtain ⟨first, network, -, -, h⟩ :=
    store_refines_replica counterStoreSetup counterStoresStart_start counterStores_path
  obtain ⟨⟨record, hstored, hvalid, -, hpersists⟩, -⟩ := h true
  exact ⟨record, hstored, hvalid, hpersists⟩

/-- Every outcome is reported once and kept until it is acknowledged. After any run, the merges of a
replica have reported every operation at most once, and exactly those that are not pending any more, with
decisions that the server keeps for ever; the inbox holds what was reported and not acknowledged since,
in order; and nothing comes back after its acknowledgement. -/
theorem outcomes_reported_once (setup : StoreSetup ι State Intent Operation Rejection ε)
    {start stores : StoreNetwork ι State Intent Operation Rejection} {actions : List (StoreAction ι Intent)}
    (hstart : setup.storeSystem.start start) (hpath : setup.storeSystem.Path start actions stores) (i : ι) :
    ((learnedOutcomes (stores.outcomes i)).map ProposalDecision.operationId).Nodup ∧
    (∀ decision ∈ learnedOutcomes (stores.outcomes i),
      (∃ proposal, (i, proposal) ∈ stores.enqueued ∧ proposal.operationId = decision.operationId) ∧
      ∀ later stores', setup.storeSystem.Path stores later stores' →
        stores'.server.getDecision decision.operationId = some decision) ∧
    (∃ record, stores.stored i = some record ∧
      (∀ proposal, (i, proposal) ∈ stores.enqueued →
        (proposal.operationId ∈ (learnedOutcomes (stores.outcomes i)).map ProposalDecision.operationId ↔
          .pending proposal ∉ record.replica.outbox)) ∧
      record.resolutions = outstanding (stores.outcomes i)) ∧
    ∀ before operationIds after, stores.outcomes i = before ++ .acknowledged operationIds :: after →
      ∀ decision ∈ learnedOutcomes before, decision.operationId ∈ operationIds →
        (∀ other ∈ outstanding (stores.outcomes i), other.operationId ≠ decision.operationId) ∧
        ∀ other ∈ learnedOutcomes after, other.operationId ≠ decision.operationId := by
  obtain ⟨first, network, hfirst, hnetwork, h⟩ := follows_of_path hstart hpath
  obtain ⟨authority, knowledge, retained, hconsistent⟩ := Network.consistent_of_reachable h.reachable
  have hinformed := h.informed i
  refine ⟨hinformed.distinct, ?_, ⟨_, h.stored i, ?_, rfl⟩, ?_⟩
  · intro decision hdecision
    refine ⟨?_, fun later stores' hlater => ?_⟩
    · obtain ⟨proposal, hproposal, hid⟩ := hinformed.own decision hdecision
      exact ⟨proposal, h.enqueued ▸ Network.mem_proposalsOf.mp hproposal, hid⟩
    · obtain ⟨network', hrest, h'⟩ := h.path hlater
      obtain ⟨authority', knowledge', retained', hconsistent', hgrows⟩ := hconsistent.path hrest
      rw [h'.server]
      exact hconsistent.getDecision_mono hconsistent' hgrows (hinformed.permanent decision hdecision)
  · intro proposal hproposal
    rw [h.enqueued] at hproposal
    have hown := Network.mem_proposalsOf.mpr hproposal
    rw [hinformed.told proposal hown, ← Bool.not_eq_true, hconsistent.awaits_iff hown]
    rfl
  · intro before operationIds after houtcomes decision hlearned hacknowledged
    have hdistinct := hinformed.distinct
    rw [houtcomes] at hdistinct ⊢
    exact not_outstanding_of_acknowledged hdistinct hlearned hacknowledged

theorem outcomes_reported_once_counter :
    learnedOutcomes (counterStores.outcomes true) = [.accepted "op-a1" 1 5] ∧
    counterStores.server.getDecision "op-a1" = some (.accepted "op-a1" 1 5) ∧
    ∃ record, counterStores.stored true = some record ∧ record.resolutions = [] := by
  have hlearned : learnedOutcomes (counterStores.outcomes true) = [.accepted "op-a1" 1 5] := rfl
  obtain ⟨-, hdecisions, ⟨record, hstored, -, hinbox⟩, -⟩ :=
    outcomes_reported_once counterStoreSetup counterStoresStart_start counterStores_path true
  obtain ⟨-, hpermanent⟩ := hdecisions (.accepted "op-a1" 1 5) (hlearned ▸ List.mem_singleton_self _)
  exact ⟨hlearned, hpermanent [] _ (.nil _), record, hstored, hinbox⟩

end SyncEngine
