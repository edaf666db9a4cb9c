import SyncEngine.Proof.Outcomes
import SyncEngine.Proof.Record
import SyncEngine.Proof.Reuse
import SyncEngine.Spec.Inbox

/-!
# A store keeps a pure replica

Every record that a run of stores writes is valid, so that the validations of an update find nothing and
a store operation is the pure reducer on the stored replica. The stores then follow the network of pure
replicas step by step; acknowledging outcomes is invisible in it.
-/

namespace SyncEngine

open JavaScript Throwing TransitionSystem

variable {ι State Intent Operation Rejection ε α : Type} [DecidableEq ι]

/-! ### Replicas of a network are valid -/

namespace Network

variable {setup : NetworkSetup ι State Intent Operation Rejection ε}
  {network : Network ι State Intent Operation Rejection}
  {authority : Authority setup.settings.interpreter setup.initialState} {knowledge : ι → Knowledge}
  {retained : ι → Nat}

theorem nextClientSequence_le (hreachable : setup.system.Reachable network) :
    ∀ i, (network.replicas i).nextClientSequence ≤ maxSafeInteger := by
  apply hreachable.invariant
    (I := fun network => ∀ i, (network.replicas i).nextClientSequence ≤ maxSafeInteger)
  · intro start hstart i
    obtain ⟨-, hreplicas, -⟩ := hstart
    have hcreate := hreplicas i
    simp only [createReplicaState, bind_unit_eq_ok, assertClientSequence,
      assertLogSequence_false_eq_ok] at hcreate
    rw [← Except.ok.inj hcreate.2.2]
    exact hcreate.2.1.2
  · intro network action network' hreachable hle hstep i
    obtain ⟨authority, knowledge, retained, h⟩ := consistent_of_reachable hreachable
    obtain ⟨authority', knowledge', retained', h'⟩ := consistent_of_reachable (hreachable.step hstep)
    have hnext := (h.participants i).nextClientSequence
    have hnext' := (h'.participants i).nextClientSequence
    have hle := hle i
    obtain ⟨-, rfl⟩ := hstep
    rcases enqueued_next network action with hsame | ⟨j, input, state, -, henqueued, hadded⟩
    · rw [proposalsOf, hsame, ← proposalsOf] at hnext'
      omega
    · rw [proposalsOf, hadded, List.filter_append, List.map_append, List.length_append, ← proposalsOf] at hnext'
      by_cases hij : j = i
      · subst hij
        have hroom := henqueued.room
        simp only [decide_true, List.filter_cons_of_pos, List.filter_nil, List.map_cons, List.map_nil,
          List.length_singleton] at hnext'
        omega
      · simp [hij] at hnext'
        omega

namespace Consistent

variable (h : network.Consistent setup authority knowledge retained)
include h

theorem log_identity {entry : CommittedOperation Operation} (hentry : entry ∈ canonicalLog authority.ledger) :
    ∃ proposal ∈ network.enqueued, proposal.2.toOperationSubmissionIdentity = entry.identity :=
  h.origin _ (authority.justified.mem_log_iff.mp hentry)

theorem sequence_bounds {i : ι} {proposal : ProposedOperation Intent} (hproposal : proposal ∈ network.proposalsOf i) :
    proposal.clientSequence < (network.replicas i).nextClientSequence := by
  obtain ⟨index, hindex⟩ := List.getElem?_of_mem hproposal
  obtain ⟨hlt, -⟩ := List.getElem?_eq_some_iff.mp hindex
  have hsequence := (h.participants i).sequence index proposal hindex
  have hnext := (h.participants i).nextClientSequence
  omega

theorem accepted_bounds {i : ι} {proposal : ProposedOperation Intent} {sequence : Int} {operation : Operation}
    (hentry : .accepted proposal sequence operation ∈ (network.replicas i).outbox) :
    (network.replicas i).confirmedSequence < sequence ∧ sequence ≤ (canonicalLog authority.ledger).length := by
  have hreflects := (h.participants i).reflects
  rw [hreflects.outbox] at hentry
  refine ⟨hreflects.confirmedSequence ▸ accepted_beyond hentry, ?_⟩
  obtain ⟨-, hsettle⟩ := mem_outboxOf.mp hentry
  rw [OutboxEntry.proposal_accepted] at hsettle
  have hsettled : Settled authority.ledger (knowledge i) proposal := by
    by_contra hpending
    rw [settle_of_not_settled hpending] at hsettle
    simp at hsettle
  rcases settle_of_settled hsettled with hnone | ⟨record, _, decided, _, hrecord, hdecision, -, -, haccepted⟩
  · rw [hnone] at hsettle
    simp at hsettle
  · rw [haccepted] at hsettle
    obtain ⟨-, hsame, -⟩ := OutboxEntry.accepted.inj (Option.some.inj hsettle)
    obtain ⟨hmem, -⟩ := (recordOf_eq_some_iff authority.justified.operationIds_nodup).mp hrecord
    obtain ⟨index, hindex, hsequence⟩ := authority.justified.getElem?_of_committed? hmem
      (StoredProposalDecision.committed?_of_accepted hdecision)
    obtain ⟨hlt, -⟩ := List.getElem?_eq_some_iff.mp hindex
    change decided = index + 1 at hsequence
    omega

theorem own_log {i : ι} {entry : CommittedOperation Operation}
    (hentry : entry ∈ canonicalLog authority.ledger)
    (hclient : entry.origin.clientId = (network.replicas i).clientId) :
    ∃ proposal ∈ network.proposalsOf i, proposal.toOperationSubmissionIdentity = entry.identity := by
  have hrecord := authority.justified.mem_log_iff.mp hentry
  rw [(h.participants i).sameClient] at hclient
  exact h.exists_proposal hrecord hclient

theorem outbox_ne_log {i : ι} {entry : CommittedOperation Operation} {outboxEntry : OutboxEntry Intent Operation}
    (hentry : entry ∈ (network.replicas i).confirmedLog)
    (houtbox : outboxEntry ∈ (network.replicas i).outbox) :
    entry.operationId ≠ outboxEntry.operationId := by
  intro hid
  have hreflects := (h.participants i).reflects
  rw [hreflects.confirmedLog] at hentry
  rw [hreflects.outbox] at houtbox
  have hprefix := List.mem_of_mem_drop hentry
  have hlog := List.mem_of_mem_take hprefix
  obtain ⟨-, hsettle⟩ := mem_outboxOf.mp houtbox
  have hrecord := recordOf_of_mem_log authority.justified hlog
  rw [hid] at hrecord
  obtain ⟨index, hindex⟩ := List.getElem?_of_mem hprefix
  obtain ⟨hlt, -⟩ := List.getElem?_eq_some_iff.mp hindex
  rw [List.length_take] at hlt
  rw [List.getElem?_take_of_lt (by omega)] at hindex
  have hsequence := authority.justified.sequence_eq hindex
  rw [settle_of_accepted hrecord rfl, if_pos (by omega)] at hsettle
  simp at hsettle

theorem identities_apart (i : ι) : (network.replicas i).identities.Pairwise fun earlier later =>
    earlier.toOperationIdentity.Apart later.toOperationIdentity := by
  have hparticipant := h.participants i
  have hreflects := hparticipant.reflects
  have hsubset : ∀ entry ∈ (network.replicas i).outbox, entry.proposal ∈ network.proposalsOf i := by
    intro entry hentry
    rw [hreflects.outbox] at hentry
    exact (mem_outboxOf.mp hentry).1
  refine List.pairwise_append.mpr ⟨?_, ?_, ?_⟩
  · rw [List.pairwise_map, hreflects.confirmedLog]
    refine (authority.justified.log_distinct.sublist ?_).imp fun hne => hne
    exact (List.drop_sublist _ _).trans (List.take_sublist _ _)
  · have houtbox : ((network.replicas i).outbox.map OutboxEntry.proposal).Pairwise fun earlier later =>
        earlier.operationId ≠ later.operationId ∧ earlier.clientSequence < later.clientSequence := by
      rw [hreflects.outbox]
      refine List.Pairwise.sublist (outboxOf_sublist _ _ _) ?_
      exact (List.pairwise_map.mp (h.proposals_nodup i)).and hparticipant.pairwise
    rw [List.pairwise_map] at houtbox ⊢
    refine houtbox.imp fun hne => ⟨hne.1, fun hposition => ?_⟩
    exact absurd (congrArg Prod.snd hposition) hne.2.ne
  · intro identity hidentity other hother
    obtain ⟨entry, hentry, rfl⟩ := List.mem_map.mp hidentity
    obtain ⟨outboxEntry, houtbox, rfl⟩ := List.mem_map.mp hother
    refine ⟨h.outbox_ne_log hentry houtbox, fun hposition => ?_⟩
    -- An entry at the position of an own proposal is that proposal.
    have hmem := hsubset outboxEntry houtbox
    have hclient : entry.origin.clientId = (network.replicas i).clientId := by
      rw [hparticipant.sameClient, ← hparticipant.own _ hmem]
      exact congrArg Prod.fst hposition
    have hlog := hentry
    rw [hreflects.confirmedLog] at hlog
    obtain ⟨proposal, hproposal, hsame⟩ := h.own_log (List.mem_of_mem_take (List.mem_of_mem_drop hlog)) hclient
    have hsequence : proposal.clientSequence = outboxEntry.proposal.clientSequence :=
      (congrArg (fun identity => identity.clientSequence) hsame).trans (congrArg Prod.snd hposition)
    have heq : proposal = outboxEntry.proposal := by
      by_contra hne
      rcases KeyedList.pairwise_or hparticipant.pairwise hproposal hmem hne with hless | hless
      all_goals omega
    apply h.outbox_ne_log hentry houtbox
    rw [OutboxEntry.operationId, ← heq]
    exact (congrArg (fun identity => identity.operationId) hsame).symm

theorem valid (hreachable : setup.system.Reachable network) (i : ι) : (network.replicas i).Valid := by
  have hparticipant := h.participants i
  have hreflects := hparticipant.reflects
  have hthrough := hreflects.known.through
  have hretained := hreflects.retainedLe
  have hsafe : ((canonicalLog authority.ledger).length : Int) ≤ maxSafeInteger := h.server.safe
  have hvalid := enqueued_valid hreachable
  obtain ⟨hclientId, hfirst⟩ := valid_of_reachable hreachable i
  have hnext := hparticipant.nextClientSequence
  have hcursor := hreflects.confirmedSequence
  have hlength : (network.replicas i).confirmedLog.length = (knowledge i).through - retained i := by
    rw [hreflects.confirmedLog, List.length_drop, List.length_take]
    omega
  have hlog : ∀ entry ∈ (network.replicas i).confirmedLog, entry ∈ canonicalLog authority.ledger := by
    intro entry hentry
    rw [hreflects.confirmedLog] at hentry
    exact List.mem_of_mem_take (List.mem_of_mem_drop hentry)
  have hsublist := outboxOf_sublist authority.ledger (knowledge i) (network.proposalsOf i)
  constructor
  case clientId => exact hparticipant.sameClient ▸ hclientId
  case nextClientSequence => exact ⟨by omega, nextClientSequence_le hreachable i⟩
  case confirmedSequence => omega
  case retained => omega
  case contiguous =>
    intro index entry hentry
    rw [hreflects.confirmedLog, List.getElem?_drop] at hentry
    obtain ⟨hlt, -⟩ := List.getElem?_eq_some_iff.mp hentry
    rw [List.length_take] at hlt
    rw [List.getElem?_take_of_lt (by omega)] at hentry
    have hsequence := authority.justified.sequence_eq hentry
    push_cast at hsequence
    omega
  case log =>
    intro entry hentry
    obtain ⟨proposal, hproposal, hsame⟩ := h.log_identity (hlog entry hentry)
    exact hsame ▸ hvalid proposal hproposal
  case own =>
    intro entry hentry hclient
    obtain ⟨proposal, hproposal, hsame⟩ := h.own_log (hlog entry hentry) hclient
    have hbelow := h.sequence_bounds hproposal
    rwa [congrArg (fun identity => identity.clientSequence) hsame] at hbelow
  case outbox =>
    intro entry hentry
    have hmem := hentry
    rw [hreflects.outbox] at hmem
    have hproposal := (mem_outboxOf.mp hmem).1
    constructor
    case valid => exact hvalid _ (mem_proposalsOf.mp hproposal)
    case client => exact (hparticipant.own _ hproposal).trans hparticipant.sameClient.symm
    case below => exact h.sequence_bounds hproposal
    case beyond =>
      intro proposal sequence operation haccepted
      have hbounds := h.accepted_bounds (haccepted ▸ hentry)
      omega
  case ordered =>
    rw [hreflects.outbox]
    exact (List.pairwise_map (f := OutboxEntry.proposal)).mp (hparticipant.pairwise.sublist hsublist)
  case apart => exact h.identities_apart i

end Consistent

end Network

/-! ### Operations on accepted records -/

namespace IndexedDbReplicaStore

variable (store : IndexedDbReplicaStore State Intent Operation ε)
  {record next : IndexedDbReplicaRecord State Intent Operation Rejection}

def Accepts (record : IndexedDbReplicaRecord State Intent Operation Rejection) : Prop :=
  assertReplicaRecord (some record) store.streamId = .ok record

variable {store} {update : IndexedDbReplicaRecord State Intent Operation Rejection →
    StoreResult ε (IndexedDbReplicaRecord State Intent Operation Rejection × α)}

theorem Accepts.assertRecord (h : store.Accepts record) : store.assertRecord (some record) = .ok record := by
  rw [IndexedDbReplicaStore.assertRecord, h]
  rfl

theorem updateRecord_of_ok (h : store.Accepts record) {value : α} (hupdate : update record = .ok (next, value))
    (hnext : store.Accepts next) : store.updateRecord (some record) update = (.ok value, some next) := by
  rw [updateRecord, transact, h.assertRecord, ok_bind, hupdate, ok_bind]
  dsimp only
  rw [hnext.assertRecord]
  rfl

theorem updateRecord_of_error (h : store.Accepts record) {error : StoreError ε}
    (hupdate : update record = .error error) :
    store.updateRecord (some record) update = (.error error, some record) := by
  rw [updateRecord, transact, h.assertRecord, ok_bind, hupdate]
  rfl

theorem enqueueOperation_of_ok (h : store.Accepts record) {input : EnqueueOperationInput Intent}
    {replica : ReplicaState State Intent Operation}
    (hcall : (SyncEngine.enqueueOperation record.replica input : Result ε _) = .ok replica)
    (hnext : store.Accepts { record with replica := replica }) :
    store.enqueueOperation (some record) input =
      (.ok (record.replica.propose input), some { record with replica := replica }) := by
  refine updateRecord_of_ok h ?_ hnext
  rw [hcall, (enqueueOperation_eq_ok.mp hcall).result, reduce]
  simp only [Except.mapError, ok_bind, List.getLast?_append, List.getLast?_singleton]
  rfl

theorem enqueueOperation_of_error (h : store.Accepts record) {input : EnqueueOperationInput Intent}
    {error : SyncEngineError ε} (hcall : SyncEngine.enqueueOperation record.replica input = .error error) :
    store.enqueueOperation (some record) input = (.error (.reducer error), some record) := by
  refine updateRecord_of_error h ?_
  rw [hcall]
  rfl

theorem prepareSyncRequest_eq (h : store.Accepts record) (options : PrepareSyncRequestOptions) :
    store.prepareSyncRequest (some record) options =
      reduce (SyncEngine.prepareSyncRequest record.replica options) := by
  rw [prepareSyncRequest, readRecord, h.assertRecord, ok_bind]

theorem mergeSyncResponse_of_ok (h : store.Accepts record) {response : SyncResponse Operation Rejection}
    {merged : MergeSyncResult State Intent Operation Rejection}
    (hcall : SyncEngine.mergeSyncResponse store.interpreter record.replica response = .ok merged)
    (hnext : store.Accepts { record with
      replica := merged.state
      resolutions := appendUniqueResolutions record.resolutions merged.newlyResolved }) :
    store.mergeSyncResponse (some record) response =
      (.ok { merged with
        status := statusFromRecord { record with
          replica := merged.state
          resolutions := appendUniqueResolutions record.resolutions merged.newlyResolved } },
      some { record with
        replica := merged.state
        resolutions := appendUniqueResolutions record.resolutions merged.newlyResolved }) := by
  refine updateRecord_of_ok h ?_ hnext
  rw [hcall]
  rfl

theorem mergeSyncResponse_of_error (h : store.Accepts record) {response : SyncResponse Operation Rejection}
    {error : SyncEngineError ε}
    (hcall : SyncEngine.mergeSyncResponse store.interpreter record.replica response = .error error) :
    store.mergeSyncResponse (some record) response = (.error (.reducer error), some record) := by
  refine updateRecord_of_error h ?_
  rw [hcall]
  rfl

theorem deleteCommittedLogPrefix_of_ok (h : store.Accepts record) {throughSequence : Int}
    {replica : ReplicaState State Intent Operation}
    (hcall : (SyncEngine.deleteCommittedLogPrefix record.replica throughSequence : Result ε _) = .ok replica)
    (hnext : store.Accepts { record with replica := replica }) :
    store.deleteCommittedLogPrefix (some record) throughSequence =
      (.ok ((record.replica.confirmedLog.length : Int) - replica.confirmedLog.length),
        some { record with replica := replica }) := by
  refine updateRecord_of_ok h ?_ hnext
  rw [hcall]
  rfl

theorem deleteCommittedLogPrefix_of_error (h : store.Accepts record) {throughSequence : Int}
    {error : SyncEngineError ε}
    (hcall : SyncEngine.deleteCommittedLogPrefix record.replica throughSequence = .error error) :
    store.deleteCommittedLogPrefix (some record) throughSequence = (.error (.reducer error), some record) := by
  refine updateRecord_of_error h ?_
  rw [hcall]
  rfl

theorem acknowledgeResolutions_of_accepts (h : store.Accepts record) {operationIds : List String}
    (hnext : store.Accepts { record with
      resolutions := record.resolutions.filter fun decision => decision.operationId ∉ operationIds }) :
    ∃ removed, store.acknowledgeResolutions (some record) operationIds = (.ok removed, some { record with
      resolutions := record.resolutions.filter fun decision => decision.operationId ∉ operationIds }) := by
  simp only [acknowledgeResolutions, Finset.card_eq_zero, List.toFinset_eq_empty_iff]
  by_cases hempty : operationIds = []
  · subst hempty
    rw [if_pos rfl]
    simp
  · rw [if_neg hempty]
    simp only [List.mem_toFinset]
    exact ⟨_, updateRecord_of_ok h rfl hnext⟩

end IndexedDbReplicaStore

/-! ### The stores follow a network of pure replicas -/

section Follows

variable {setup : StoreSetup ι State Intent Operation Rejection ε}
  {stores : StoreNetwork ι State Intent Operation Rejection}
  {network : Network ι State Intent Operation Rejection}

/-- The record in which a store keeps a replica. -/
def StoreSetup.record (setup : StoreSetup ι State Intent Operation Rejection ε)
    (replica : ReplicaState State Intent Operation) (resolutions : List (ProposalDecision Operation Rejection)) :
    IndexedDbReplicaRecord State Intent Operation Rejection where
  schemaVersion := indexedDbReplicaSchemaVersion
  streamId := setup.streamId
  replica := replica
  resolutions := resolutions

theorem Network.Informed.validResolutions (hreachable : setup.system.Reachable network) {i : ι}
    {learned resolutions : List (ProposalDecision Operation Rejection)} (h : network.Informed i learned)
    (hsublist : resolutions.Sublist learned) : ValidResolutions resolutions where
  distinct := h.distinct.sublist (hsublist.map _)
  named := by
    intro decision hdecision
    obtain ⟨proposal, hproposal, hid⟩ := h.own decision (hsublist.subset hdecision)
    exact hid ▸ (enqueued_valid hreachable _ (mem_proposalsOf.mp hproposal)).operationId
  safe := by
    intro decision hdecision
    obtain ⟨authority, knowledge, retained, hconsistent⟩ := consistent_of_reachable hreachable
    have hpermanent := h.permanent decision (hsublist.subset hdecision)
    rw [hconsistent.getDecision_eq] at hpermanent
    obtain ⟨record, hrecord, hsame⟩ := Option.map_eq_some_iff.mp hpermanent
    cases decision with
    | rejected => trivial
    | accepted operationId sequence operation =>
        obtain ⟨hmem, -⟩ := (recordOf_eq_some_iff authority.justified.operationIds_nodup).mp hrecord
        obtain ⟨index, hindex, hsequence⟩ := authority.justified.getElem?_of_committed? hmem
          (StoredProposalDecision.committed?_of_accepted hsame)
        obtain ⟨hlt, -⟩ := List.getElem?_eq_some_iff.mp hindex
        have hsafe := hconsistent.server.safe
        change ((canonicalLog authority.ledger).length : Int) ≤ maxSafeInteger at hsafe
        change sequence = index + 1 at hsequence
        exact ⟨by omega, by omega⟩

/-- A store accepts the record of a replica with outcomes that the replica has been told. -/
theorem Network.Informed.accepts (hreachable : setup.system.Reachable network) {i : ι}
    {learned resolutions : List (ProposalDecision Operation Rejection)} (h : network.Informed i learned)
    (hsublist : resolutions.Sublist learned) :
    (setup.store i).Accepts (setup.record (network.replicas i) resolutions) := by
  obtain ⟨authority, knowledge, retained, hconsistent⟩ := consistent_of_reachable hreachable
  exact assertReplicaRecord_of_valid (hconsistent.valid hreachable i) (h.validResolutions hreachable hsublist)

/-- The stores hold the replicas of a network of pure replicas, next to what they have been told and
not acknowledged. -/
structure StoreNetwork.Follows (setup : StoreSetup ι State Intent Operation Rejection ε)
    (stores : StoreNetwork ι State Intent Operation Rejection)
    (network : Network ι State Intent Operation Rejection) : Prop where
  reachable : setup.system.Reachable network
  server : stores.server = network.server
  requests : stores.requests = network.requests
  responses : stores.responses = network.responses
  enqueued : stores.enqueued = network.enqueued
  stored : ∀ i, stores.stored i =
    some (setup.record (network.replicas i) (outstanding (stores.outcomes i)))
  informed : ∀ i, network.Informed i (learnedOutcomes (stores.outcomes i))

namespace StoreNetwork.Follows

variable (h : stores.Follows setup network)
include h

theorem accepts (i : ι) :
    (setup.store i).Accepts (setup.record (network.replicas i) (outstanding (stores.outcomes i))) :=
  (h.informed i).accepts h.reachable (outstanding_sublist _)

theorem fresh {action : NetworkAction ι Intent} (hfresh : stores.Fresh (.network action)) :
    network.Fresh action := by
  cases action with
  | enqueue i input =>
      rw [StoreNetwork.Fresh, h.enqueued] at hfresh
      exact hfresh
  | prepare => trivial
  | deliver => trivial
  | merge => trivial
  | compact => trivial

/-- What an action does to the network that is followed. -/
theorem step (action : NetworkAction ι Intent) (hfresh : network.Fresh action) :
    setup.system.Reachable (network.next setup.toNetworkSetup action) ∧
    ∀ i, (network.next setup.toNetworkSetup action).Informed i
      (learnedOutcomes (stores.outcomes i) ++ network.announcedBy setup.toNetworkSetup i action) :=
  ⟨h.reachable.step ⟨hfresh, rfl⟩, fun i => (h.informed i).next h.reachable hfresh⟩

theorem enqueueOperation_of_ok {i : ι} {input : EnqueueOperationInput Intent}
    (hfresh : stores.Fresh (.network (.enqueue i input))) {state : ReplicaState State Intent Operation}
    (hcall : (enqueueOperation (network.replicas i) input : Result ε _) = .ok state) :
    (setup.store i).enqueueOperation
        (some (setup.record (network.replicas i) (outstanding (stores.outcomes i)))) input =
      (.ok ((network.replicas i).propose input), some (setup.record state (outstanding (stores.outcomes i)))) := by
  obtain ⟨hreachable, hinformed⟩ := h.step (.enqueue i input) (h.fresh hfresh)
  simp only [Network.announcedBy, List.append_nil] at hinformed
  rw [Network.next, hcall] at hreachable hinformed
  have hnext := (hinformed i).accepts hreachable (outstanding_sublist (stores.outcomes i))
  simp only [Network.recordEnqueued, Network.setReplica, Function.update_self] at hnext
  exact IndexedDbReplicaStore.enqueueOperation_of_ok (h.accepts i) hcall hnext

theorem mergeSyncResponse_of_ok {i : ι} {response : SyncResponse Operation Rejection}
    (hresponse : (i, response) ∈ network.responses) {merged : MergeSyncResult State Intent Operation Rejection}
    (hcall : SyncEngine.mergeSyncResponse (setup.replicaInterpreter i) (network.replicas i) response = .ok merged) :
    ∃ status, (setup.store i).mergeSyncResponse
        (some (setup.record (network.replicas i) (outstanding (stores.outcomes i)))) response =
      (.ok { merged with status := status },
        some (setup.record merged.state (outstanding (stores.outcomes i) ++ merged.newlyResolved))) := by
  obtain ⟨index, hindex⟩ := List.getElem?_of_mem hresponse
  obtain ⟨hreachable, hinformed⟩ := h.step (.merge index) trivial
  have htold := hinformed i
  simp only [Network.next, Network.announcedBy, hindex, hcall, if_pos] at hreachable htold
  have hsublist := (outstanding_sublist (stores.outcomes i)).append_right merged.newlyResolved
  have hnext := htold.accepts hreachable hsublist
  simp only [Network.setReplica, Function.update_self] at hnext
  rw [← appendUniqueResolutions_of_nodup (htold.distinct.sublist (hsublist.map _))] at hnext ⊢
  exact ⟨_, IndexedDbReplicaStore.mergeSyncResponse_of_ok (h.accepts i) hcall hnext⟩

theorem deleteCommittedLogPrefix_of_ok {i : ι} {throughSequence : Int}
    {state : ReplicaState State Intent Operation}
    (hcall : (deleteCommittedLogPrefix (network.replicas i) throughSequence : Result ε _) = .ok state) :
    ∃ deleted, (setup.store i).deleteCommittedLogPrefix
        (some (setup.record (network.replicas i) (outstanding (stores.outcomes i)))) throughSequence =
      (.ok deleted, some (setup.record state (outstanding (stores.outcomes i)))) := by
  obtain ⟨hreachable, hinformed⟩ := h.step (.compact i throughSequence) trivial
  simp only [Network.announcedBy, List.append_nil] at hinformed
  rw [Network.next, hcall] at hreachable hinformed
  have hnext := (hinformed i).accepts hreachable (outstanding_sublist (stores.outcomes i))
  simp only [Network.setReplica, Function.update_self] at hnext
  exact ⟨_, IndexedDbReplicaStore.deleteCommittedLogPrefix_of_ok (h.accepts i) hcall hnext⟩

theorem acknowledgeResolutions_eq (i : ι) (operationIds : List String) :
    ∃ removed, (setup.store i).acknowledgeResolutions
        (some (setup.record (network.replicas i) (outstanding (stores.outcomes i)))) operationIds =
      (.ok removed, some (setup.record (network.replicas i)
        (outstanding (stores.outcomes i ++ [.acknowledged operationIds])))) := by
  rw [outstanding_acknowledged]
  exact IndexedDbReplicaStore.acknowledgeResolutions_of_accepts (h.accepts i)
    ((h.informed i).accepts h.reachable (List.filter_sublist.trans (outstanding_sublist _)))

theorem setStored_self (i : ι) :
    stores.setStored i (some (setup.record (network.replicas i) (outstanding (stores.outcomes i)))) = stores := by
  rw [← h.stored i, setStored, Function.update_eq_self]

theorem stored_setReplica {i : ι} {outcomes : ι → List (OutcomeEvent Operation Rejection)}
    (hothers : ∀ j, j ≠ i → outcomes j = stores.outcomes j) (state : ReplicaState State Intent Operation) (j : ι) :
    (stores.setStored i (some (setup.record state (outstanding (outcomes i))))).stored j =
      some (setup.record ((network.setReplica i state).replicas j) (outstanding (outcomes j))) := by
  by_cases hij : j = i
  · subst hij
    simp only [setStored, Network.setReplica, Function.update_self]
  · simp only [setStored, Network.setReplica, Function.update_of_ne hij, hothers j hij]
    exact h.stored j

theorem enqueue {i : ι} {input : EnqueueOperationInput Intent} (hfresh : stores.Fresh (.network (.enqueue i input))) :
    (stores.next setup (.network (.enqueue i input))).Follows setup
      (network.next setup.toNetworkSetup (.enqueue i input)) := by
  obtain ⟨hreachable, hinformed⟩ := h.step (.enqueue i input) (h.fresh hfresh)
  simp only [Network.announcedBy, List.append_nil] at hinformed
  rw [StoreNetwork.next, h.stored i]
  rw [Network.next] at hreachable hinformed ⊢
  cases hcall : (enqueueOperation (network.replicas i) input : Result ε _) with
  | error error =>
      rw [IndexedDbReplicaStore.enqueueOperation_of_error (h.accepts i) hcall]
      dsimp only
      rw [h.setStored_self]
      exact h
  | ok state =>
      rw [hcall] at hreachable hinformed
      rw [h.enqueueOperation_of_ok hfresh hcall]
      dsimp only
      constructor
      case reachable => exact hreachable
      case server => exact h.server
      case requests => exact h.requests
      case responses => exact h.responses
      case enqueued =>
        rw [Network.recordEnqueued, (enqueueOperation_eq_ok.mp hcall).result, List.getLast?_append,
          List.getLast?_singleton, setStored, h.enqueued]
        rfl
      case stored => exact h.stored_setReplica (fun _ _ => rfl) state
      case informed => exact hinformed

theorem prepare (i : ι) (options : PrepareSyncRequestOptions) :
    (stores.next setup (.network (.prepare i options))).Follows setup
      (network.next setup.toNetworkSetup (.prepare i options)) := by
  obtain ⟨hreachable, hinformed⟩ := h.step (.prepare i options) trivial
  simp only [Network.announcedBy, List.append_nil] at hinformed
  rw [StoreNetwork.next, h.stored i, IndexedDbReplicaStore.prepareSyncRequest_eq (h.accepts i)]
  rw [Network.next] at hreachable hinformed ⊢
  cases hcall : (SyncEngine.prepareSyncRequest (network.replicas i) options : Result ε _) with
  | error error =>
      rw [StoreSetup.record, hcall]
      exact h
  | ok request =>
      rw [hcall] at hreachable hinformed
      rw [StoreSetup.record, hcall]
      constructor
      case reachable => exact hreachable
      case server => exact h.server
      case requests => exact congrArg (· ++ [(i, request)]) h.requests
      case responses => exact h.responses
      case enqueued => exact h.enqueued
      case stored => exact h.stored
      case informed => exact hinformed

theorem deliver (index : Nat) :
    (stores.next setup (.network (.deliver index))).Follows setup
      (network.next setup.toNetworkSetup (.deliver index)) := by
  obtain ⟨hreachable, hinformed⟩ := h.step (.deliver index) trivial
  simp only [Network.announcedBy, List.append_nil] at hinformed
  rw [StoreNetwork.next, h.requests, h.server]
  rw [Network.next] at hreachable hinformed ⊢
  cases hrequest : network.requests[index]? with
  | none => exact h
  | some addressed =>
      obtain ⟨i, request⟩ := addressed
      rw [hrequest] at hreachable hinformed
      dsimp only at hreachable hinformed ⊢
      cases hcall : InMemoryLogServer.synchronize setup.settings network.server request with
      | error error => exact h
      | ok answer =>
          obtain ⟨response, server⟩ := answer
          rw [hcall] at hreachable hinformed
          constructor
          case reachable => exact hreachable
          case server => rfl
          case requests => rfl
          case responses => exact congrArg (· ++ [(i, response)]) h.responses
          case enqueued => exact h.enqueued
          case stored => exact h.stored
          case informed => exact hinformed

/-- The step lemma for a merge: what is new is appended to the inbox. -/
theorem merge (index : Nat) :
    (stores.next setup (.network (.merge index))).Follows setup
      (network.next setup.toNetworkSetup (.merge index)) := by
  obtain ⟨hreachable, hinformed⟩ := h.step (.merge index) trivial
  rw [StoreNetwork.next, h.responses]
  rw [Network.next] at hreachable hinformed ⊢
  simp only [Network.announcedBy] at hinformed
  cases hresponse : network.responses[index]? with
  | none => exact h
  | some addressed =>
      obtain ⟨i, response⟩ := addressed
      rw [hresponse] at hreachable hinformed
      dsimp only at hreachable hinformed ⊢
      rw [h.stored i]
      cases hcall : SyncEngine.mergeSyncResponse (setup.replicaInterpreter i) (network.replicas i) response with
      | error error =>
          rw [IndexedDbReplicaStore.mergeSyncResponse_of_error (h.accepts i) hcall]
          dsimp only
          rw [h.setStored_self]
          exact h
      | ok merged =>
          rw [hcall] at hreachable hinformed
          dsimp only at hreachable hinformed
          obtain ⟨status, hmerge⟩ := h.mergeSyncResponse_of_ok (List.mem_of_getElem? hresponse) hcall
          rw [hmerge]
          have houtcomes : ∀ j, j ≠ i → Function.update stores.outcomes i
              (stores.outcomes i ++ [.learned merged.newlyResolved]) j = stores.outcomes j :=
            fun j hij => Function.update_of_ne hij _ _
          have hstored := h.stored_setReplica houtcomes merged.state
          rw [Function.update_self, outstanding_learned] at hstored
          constructor
          case reachable => exact hreachable
          case server => exact h.server
          case requests => exact h.requests
          case responses => exact h.responses
          case enqueued => exact h.enqueued
          case stored => exact hstored
          case informed =>
            intro j
            have htold := hinformed j
            by_cases hij : j = i
            · subst hij
              rw [if_pos rfl] at htold
              simp only [recordOutcome, Function.update_self, learnedOutcomes_concat, OutcomeEvent.reported]
              exact htold
            · rw [if_neg (Ne.symm hij), List.append_nil] at htold
              simp only [recordOutcome, Function.update_of_ne hij]
              exact htold

theorem compact (i : ι) (throughSequence : Int) :
    (stores.next setup (.network (.compact i throughSequence))).Follows setup
      (network.next setup.toNetworkSetup (.compact i throughSequence)) := by
  obtain ⟨hreachable, hinformed⟩ := h.step (.compact i throughSequence) trivial
  simp only [Network.announcedBy, List.append_nil] at hinformed
  rw [StoreNetwork.next, h.stored i]
  rw [Network.next] at hreachable hinformed ⊢
  cases hcall : (deleteCommittedLogPrefix (network.replicas i) throughSequence : Result ε _) with
  | error error =>
      rw [IndexedDbReplicaStore.deleteCommittedLogPrefix_of_error (h.accepts i) hcall]
      dsimp only
      rw [h.setStored_self]
      exact h
  | ok state =>
      rw [hcall] at hreachable hinformed
      obtain ⟨deleted, hdelete⟩ := h.deleteCommittedLogPrefix_of_ok hcall
      rw [hdelete]
      exact { h with
        reachable := hreachable
        stored := h.stored_setReplica (fun _ _ => rfl) state
        informed := hinformed }

/-- Acknowledging outcomes takes them out of the inbox. -/
theorem acknowledge (i : ι) (operationIds : List String) :
    (stores.next setup (.acknowledge i operationIds)).Follows setup network := by
  obtain ⟨removed, hcall⟩ := h.acknowledgeResolutions_eq i operationIds
  rw [StoreNetwork.next, h.stored i, hcall]
  dsimp only
  constructor
  case reachable => exact h.reachable
  case server => exact h.server
  case requests => exact h.requests
  case responses => exact h.responses
  case enqueued => exact h.enqueued
  case stored =>
    intro j
    by_cases hij : j = i
    · subst hij
      simp only [recordOutcome, setStored, Function.update_self]
    · simp only [recordOutcome, setStored, Function.update_of_ne hij]
      exact h.stored j
  case informed =>
    intro j
    by_cases hij : j = i
    · subst hij
      simp only [recordOutcome, setStored, Function.update_self, learnedOutcomes_concat,
        OutcomeEvent.reported, List.append_nil]
      exact h.informed j
    · simp only [recordOutcome, setStored, Function.update_of_ne hij]
      exact h.informed j

theorem next {action : NetworkAction ι Intent} (hfresh : stores.Fresh (.network action)) :
    (stores.next setup (.network action)).Follows setup (network.next setup.toNetworkSetup action) := by
  cases action with
  | enqueue i input => exact h.enqueue hfresh
  | prepare i options => exact h.prepare i options
  | deliver index => exact h.deliver index
  | merge index => exact h.merge index
  | compact i throughSequence => exact h.compact i throughSequence

end StoreNetwork.Follows

theorem follows_of_start (hstart : setup.storeSystem.start stores) :
    ∃ network, setup.system.start network ∧ stores.Follows setup network := by
  obtain ⟨hserver, hstored, hrequests, hresponses, henqueued, houtcomes⟩ := hstart
  choose replicas hcreate hrecord using hstored
  have hsystem : setup.system.start ⟨.initial setup.initialState, replicas, [], [], []⟩ :=
    ⟨rfl, hcreate, rfl, rfl, rfl⟩
  refine ⟨_, hsystem, ?_⟩
  constructor
  case reachable => exact .of_start hsystem
  case server => exact hserver
  case requests => exact hrequests
  case responses => exact hresponses
  case enqueued => exact henqueued
  case stored =>
    intro i
    rw [hrecord i, houtcomes i]
    rfl
  case informed =>
    intro i
    rw [houtcomes i]
    exact .start rfl

/-- The run lemma: the stores follow the network along the actions that are not acknowledgements. -/
theorem StoreNetwork.Follows.path (h : stores.Follows setup network) {actions : List (StoreAction ι Intent)}
    {stores' : StoreNetwork ι State Intent Operation Rejection}
    (hpath : setup.storeSystem.Path stores actions stores') :
    ∃ network', setup.system.Path network (actions.filterMap StoreAction.networkAction?) network' ∧
      stores'.Follows setup network' := by
  have hkept : ∀ (stores : StoreNetwork ι State Intent Operation Rejection) network action networkAction stores',
      stores.Follows setup network → action.networkAction? = some networkAction →
      setup.storeSystem.step stores action stores' →
        ∃ network', setup.system.step network networkAction network' ∧ stores'.Follows setup network' := by
    intro stores network action networkAction stores' hfollows hlabel hstep
    obtain ⟨hfresh, rfl⟩ := hstep
    cases action with
    | acknowledge => simp [StoreAction.networkAction?] at hlabel
    | network action =>
        obtain rfl := Option.some.inj hlabel
        exact ⟨_, ⟨hfollows.fresh hfresh, rfl⟩, hfollows.next hfresh⟩
  have hhidden : ∀ (stores : StoreNetwork ι State Intent Operation Rejection) network action stores',
      stores.Follows setup network → action.networkAction? = none →
      setup.storeSystem.step stores action stores' → stores'.Follows setup network := by
    intro stores network action stores' hfollows hlabel hstep
    obtain ⟨-, rfl⟩ := hstep
    cases action with
    | network => simp [StoreAction.networkAction?] at hlabel
    | acknowledge i operationIds => exact hfollows.acknowledge i operationIds
  exact hpath.project hkept hhidden h

theorem follows_of_path {start : StoreNetwork ι State Intent Operation Rejection}
    {actions : List (StoreAction ι Intent)} (hstart : setup.storeSystem.start start)
    (hpath : setup.storeSystem.Path start actions stores) :
    ∃ first network, setup.system.start first ∧
      setup.system.Path first (actions.filterMap StoreAction.networkAction?) network ∧
      stores.Follows setup network := by
  obtain ⟨first, hfirst, h⟩ := follows_of_start hstart
  obtain ⟨network, hnetwork, hlast⟩ := h.path hpath
  exact ⟨first, network, hfirst, hnetwork, hlast⟩

end Follows

end SyncEngine
