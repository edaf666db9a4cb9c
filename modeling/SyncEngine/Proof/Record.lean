import SyncEngine.Model.Record
import SyncEngine.Proof.Validation

/-!
# Valid records

What makes `assertReplicaRecord` accept a record, as one list of conditions on the record: its loops are
followed with the identities they have registered, and each condition closes one check.
-/

namespace SyncEngine

open JavaScript Throwing

variable {State Intent Operation Rejection : Type} {streamId path : String}

def CommittedOperation.identity (entry : CommittedOperation Operation) : OperationSubmissionIdentity where
  operationId := entry.operationId
  clientId := entry.origin.clientId
  clientSequence := entry.origin.clientSequence
  intentHash := entry.origin.intentHash

def OutboxEntry.identity (entry : OutboxEntry Intent Operation) : OperationSubmissionIdentity :=
  entry.proposal.toOperationSubmissionIdentity

/-- The identities in a replica: those of the retained log, and those of the outbox. -/
def ReplicaState.identities (replica : ReplicaState State Intent Operation) :
    List OperationSubmissionIdentity :=
  replica.confirmedLog.map CommittedOperation.identity ++ replica.outbox.map OutboxEntry.identity

/-- Two identities have neither the operation nor the client position in common. -/
def OperationIdentity.Apart (left right : OperationIdentity) : Prop :=
  left.operationId ≠ right.operationId ∧ left.position ≠ right.position

def ProposalDecision.SequenceSafe : ProposalDecision Operation Rejection → Prop
  | .accepted _ sequence _ => 1 ≤ sequence ∧ sequence ≤ maxSafeInteger
  | .rejected _ _ => True

structure OutboxEntry.ValidIn (entry : OutboxEntry Intent Operation)
    (replica : ReplicaState State Intent Operation) : Prop where
  valid : entry.identity.Valid
  client : entry.proposal.clientId = replica.clientId
  below : entry.proposal.clientSequence < replica.nextClientSequence
  beyond : ∀ proposal sequence operation, entry = .accepted proposal sequence operation →
    replica.confirmedSequence < sequence ∧ sequence ≤ maxSafeInteger

structure ReplicaState.Valid (replica : ReplicaState State Intent Operation) : Prop where
  clientId : replica.clientId.length ≠ 0
  nextClientSequence : 1 ≤ replica.nextClientSequence ∧ replica.nextClientSequence ≤ maxSafeInteger
  confirmedSequence : 0 ≤ replica.confirmedSequence ∧ replica.confirmedSequence ≤ maxSafeInteger
  retained : (replica.confirmedLog.length : Int) ≤ replica.confirmedSequence
  contiguous : ∀ (index : Nat) entry, replica.confirmedLog[index]? = some entry →
    entry.sequence = replica.confirmedSequence - replica.confirmedLog.length + index + 1
  log : ∀ entry ∈ replica.confirmedLog, entry.identity.Valid
  own : ∀ entry ∈ replica.confirmedLog, entry.origin.clientId = replica.clientId →
    entry.origin.clientSequence < replica.nextClientSequence
  outbox : ∀ entry ∈ replica.outbox, entry.ValidIn replica
  ordered : replica.outbox.Pairwise fun earlier later =>
    earlier.proposal.clientSequence < later.proposal.clientSequence
  apart : replica.identities.Pairwise fun earlier later =>
    earlier.toOperationIdentity.Apart later.toOperationIdentity

/-- The conditions on a list of unacknowledged outcomes. -/
structure ValidResolutions (resolutions : List (ProposalDecision Operation Rejection)) : Prop where
  distinct : (resolutions.map ProposalDecision.operationId).Nodup
  named : ∀ decision ∈ resolutions, decision.operationId.length ≠ 0
  safe : ∀ decision ∈ resolutions, decision.SequenceSafe

@[simp] theorem requireRecord_eq_ok (condition : Prop) [Decidable condition] (detail : String) (u : Unit) :
    requireRecord condition streamId detail = .ok u ↔ condition := by
  rw [requireRecord, throwIf_eq_ok, not_not]

theorem requireRecord_of {condition : Prop} [Decidable condition] (h : condition) (detail : String) :
    requireRecord condition streamId detail = .ok () := (requireRecord_eq_ok _ _ _).mpr h

theorem readNonEmptyString_of {value : String} (h : value.length ≠ 0) :
    readNonEmptyString value streamId path = .ok () := requireRecord_of h _

theorem readSafeInteger_of {value minimum : Int} (hminimum : minimum ≤ value) (hnonneg : 0 ≤ minimum)
    (hsafe : value ≤ maxSafeInteger) : readSafeInteger value streamId path minimum = .ok () := by
  refine requireRecord_of ⟨?_, hminimum⟩ _
  rw [IsSafeInteger]
  unfold maxSafeInteger at *
  omega

theorem appendUniqueResolutions_of_nodup {existing received : List (ProposalDecision Operation Rejection)}
    (hnodup : ((existing ++ received).map ProposalDecision.operationId).Nodup) :
    appendUniqueResolutions existing received = existing ++ received := by
  have hfold : ∀ existing : List (ProposalDecision Operation Rejection),
      ((existing ++ received).map ProposalDecision.operationId).Nodup →
        (received.foldl appendResolution
          (existing, (existing.map ProposalDecision.operationId).toFinset)).1 = existing ++ received := by
    clear hnodup
    induction received with
    | nil => simp
    | cons decision received ih =>
        intro existing hnodup
        have hfresh : decision.operationId ∉ (existing.map ProposalDecision.operationId).toFinset := by
          rw [List.map_append, List.map_cons, List.nodup_append] at hnodup
          rw [List.mem_toFinset]
          exact fun hmem => hnodup.2.2 _ hmem _ List.mem_cons_self rfl
        have hseen : insert decision.operationId (existing.map ProposalDecision.operationId).toFinset =
            ((existing ++ [decision]).map ProposalDecision.operationId).toFinset := by
          ext operationId
          rw [Finset.mem_insert, List.mem_toFinset, List.mem_toFinset, List.map_append, List.mem_append,
            List.map_singleton, List.mem_singleton]
          exact or_comm
        rw [List.foldl_cons, appendResolution, if_neg hfresh, hseen,
          ih (existing ++ [decision]) (by simpa using hnodup),
          List.append_assoc, List.singleton_append]
  rw [appendUniqueResolutions]
  split
  · rename_i hempty
    rw [List.eq_nil_of_length_eq_zero hempty, List.append_nil]
  · exact hfold existing hnodup

/-! ### Registered identities -/

structure IdentityIndex.Holds (index : IdentityIndex) (identities : List OperationSubmissionIdentity) :
    Prop where
  operationIds : ∀ operationId, operationId ∈ index.operationIds ↔
    ∃ identity ∈ identities, identity.operationId = operationId
  clientPositions : ∀ key, index.clientPositions.get? key = none ↔
    ∀ identity ∈ identities, identity.toOperationIdentity.clientPositionKey ≠ key

theorem IdentityIndex.empty_holds : IdentityIndex.empty.Holds [] where
  operationIds := by simp [empty]
  clientPositions := by simp [empty]

theorem registerIdentity_of_apart (streamId path : String) {index : IdentityIndex}
    {identities : List OperationSubmissionIdentity}
    (h : index.Holds identities) {identity : OperationSubmissionIdentity}
    (hapart : ∀ earlier ∈ identities, earlier.toOperationIdentity.Apart identity.toOperationIdentity) :
    ∃ index', registerIdentity streamId path index identity.operationId identity.clientId
      identity.clientSequence = .ok index' ∧ index'.Holds (identities ++ [identity]) := by
  have hid : identity.operationId ∉ index.operationIds := by
    intro hmem
    obtain ⟨earlier, hearlier, hsame⟩ := (h.operationIds _).mp hmem
    exact (hapart earlier hearlier).1 hsame
  have hposition : index.clientPositions.get? (clientPositionKey identity.clientId identity.clientSequence) =
      none := by
    rw [h.clientPositions]
    intro earlier hearlier hsame
    exact (hapart earlier hearlier).2 (OperationIdentity.clientPositionKey_eq_iff.mp hsame)
  refine ⟨⟨insert identity.operationId index.operationIds,
    index.clientPositions.set (clientPositionKey identity.clientId identity.clientSequence)
      identity.operationId⟩, ?_, ?_, ?_⟩
  · rw [registerIdentity, requireRecord_of hid, ok_bind, hposition]
    rfl
  · intro operationId
    rw [Finset.mem_insert, h.operationIds]
    simp only [List.mem_append, List.mem_singleton, or_and_right, exists_or, exists_eq_left]
    rw [or_comm, eq_comm]
  · intro key
    rw [InsertionMap.get?_set]
    by_cases hkey : key = clientPositionKey identity.clientId identity.clientSequence
    · rw [if_pos hkey]
      refine iff_of_false (by simp) fun hall => ?_
      exact hall identity (List.mem_append_right _ (List.mem_singleton_self _)) hkey.symm
    · rw [if_neg hkey, h.clientPositions, List.forall_mem_append, List.forall_mem_singleton]
      exact (and_iff_left fun hsame => hkey hsame.symm).symm

/-! ### The three loops -/

variable {replica : ReplicaState State Intent Operation}

theorem apart_of_pairwise {front rest : List OperationSubmissionIdentity}
    {identity : OperationSubmissionIdentity}
    (h : (front ++ identity :: rest).Pairwise fun earlier later =>
      earlier.toOperationIdentity.Apart later.toOperationIdentity) :
    ∀ earlier ∈ front, earlier.toOperationIdentity.Apart identity.toOperationIdentity :=
  fun earlier hearlier =>
    (List.pairwise_append.mp h).2.2 earlier hearlier identity List.mem_cons_self

theorem confirmedLog_loop (streamId : String) (h : replica.Valid) :
    ∃ index, replica.confirmedLog.zipIdx.foldlM (assertRecordedEntry streamId replica)
      IdentityIndex.empty = .ok index ∧ index.Holds (replica.confirmedLog.map CommittedOperation.identity) := by
  apply foldlM_zipIdx_eq_ok (I := fun passed (index : IdentityIndex) =>
    index.Holds (passed.map CommittedOperation.identity))
  · exact IdentityIndex.empty_holds
  · intro passed entry rest index hlog hindex
    have hmem : entry ∈ replica.confirmedLog := hlog ▸ by simp
    have hid : entry.operationId.length ≠ 0 := (h.log entry hmem).operationId
    have hclient : entry.origin.clientId.length ≠ 0 := (h.log entry hmem).clientId
    have hpositive : 1 ≤ entry.origin.clientSequence := (h.log entry hmem).clientSequence
    have hsafe : entry.origin.clientSequence ≤ maxSafeInteger := (h.log entry hmem).safe
    have hhash : entry.origin.intentHash.length ≠ 0 := (h.log entry hmem).intentHash
    have hsequence := h.contiguous passed.length entry (by rw [hlog]; simp)
    have hretained := h.retained
    have hlength : passed.length < replica.confirmedLog.length := by
      rw [hlog, List.length_append, List.length_cons]
      omega
    have hconfirmed := h.confirmedSequence
    have hidentities : passed.map CommittedOperation.identity ++ entry.identity ::
        (rest.map CommittedOperation.identity ++ replica.outbox.map OutboxEntry.identity) =
        replica.identities := by
      rw [ReplicaState.identities, hlog, List.map_append, List.map_cons, List.append_assoc, List.cons_append]
    obtain ⟨index', hregister, hindex'⟩ := registerIdentity_of_apart streamId
      s!"replica.confirmedLog[{passed.length}]" hindex
      (apart_of_pairwise (hidentities ▸ h.apart))
    refine ⟨index', ?_, by rwa [List.map_append, List.map_singleton]⟩
    have hregister' : registerIdentity streamId s!"replica.confirmedLog[{passed.length}]" index
        entry.operationId entry.origin.clientId entry.origin.clientSequence = .ok index' := hregister
    simp only [assertRecordedEntry]
    rw [readSafeInteger_of (by omega) (by decide) (by omega), ok_bind,
      requireRecord_of hsequence, ok_bind, readNonEmptyString_of hid, ok_bind,
      readNonEmptyString_of hclient, ok_bind, readSafeInteger_of hpositive (by decide) hsafe, ok_bind,
      readNonEmptyString_of hhash, ok_bind, hregister', ok_bind, requireRecord_of (h.own entry hmem), ok_bind]
    rfl

structure OutboxIndex.HoldsUpTo (replica : ReplicaState State Intent Operation)
    (passed : List (OutboxEntry Intent Operation)) (index : OutboxIndex) : Prop where
  identities : index.toIdentityIndex.Holds (replica.confirmedLog.map CommittedOperation.identity ++
    passed.map OutboxEntry.identity)
  previous : ∀ rest, replica.outbox = passed ++ rest → ∀ entry ∈ rest,
    index.previousClientSequence < entry.proposal.clientSequence

theorem outbox_loop (streamId : String) (h : replica.Valid) {identities : IdentityIndex}
    (hidentities : identities.Holds (replica.confirmedLog.map CommittedOperation.identity)) :
    ∃ index, replica.outbox.zipIdx.foldlM (assertRecordedOutboxEntry streamId replica) ⟨identities, 0⟩ =
      .ok index := by
  have hloop : ∃ index, replica.outbox.zipIdx.foldlM (assertRecordedOutboxEntry streamId replica)
      ⟨identities, 0⟩ = .ok index ∧ index.HoldsUpTo replica replica.outbox := by
    apply foldlM_zipIdx_eq_ok (I := fun passed (index : OutboxIndex) => index.HoldsUpTo replica passed)
    · refine ⟨by simpa using hidentities, fun rest hrest entry hentry => ?_⟩
      have hpositive := (h.outbox entry (hrest ▸ hentry)).valid.clientSequence
      change 1 ≤ entry.proposal.clientSequence at hpositive
      change 0 < entry.proposal.clientSequence
      omega
    · intro passed entry rest index houtbox hindex
      have hmem : entry ∈ replica.outbox := houtbox ▸ by simp
      have hentry := h.outbox entry hmem
      have hid : entry.proposal.operationId.length ≠ 0 := hentry.valid.operationId
      have hclient : entry.proposal.clientId.length ≠ 0 := hentry.valid.clientId
      have hpositive : 1 ≤ entry.proposal.clientSequence := hentry.valid.clientSequence
      have hsafe : entry.proposal.clientSequence ≤ maxSafeInteger := hentry.valid.safe
      have hhash : entry.proposal.intentHash.length ≠ 0 := hentry.valid.intentHash
      have hall : (replica.confirmedLog.map CommittedOperation.identity ++ passed.map OutboxEntry.identity) ++
          entry.identity :: rest.map OutboxEntry.identity = replica.identities := by
        rw [ReplicaState.identities, houtbox, List.map_append, List.map_cons, List.append_assoc]
      obtain ⟨index', hregister, hindex'⟩ := registerIdentity_of_apart streamId
        s!"replica.outbox[{passed.length}]" hindex.identities (apart_of_pairwise (hall ▸ h.apart))
      have hlater : ∀ rest, replica.outbox = passed ++ [entry] ++ rest → ∀ later ∈ rest,
          entry.proposal.clientSequence < later.proposal.clientSequence := by
        intro rest hrest later hlater
        have hordered := h.ordered
        rw [hrest, List.append_assoc, List.pairwise_append, List.singleton_append, List.pairwise_cons]
          at hordered
        exact hordered.2.1.1 later hlater
      have hregister' : registerIdentity streamId s!"replica.outbox[{passed.length}]" index.toIdentityIndex
          entry.proposal.operationId entry.proposal.clientId entry.proposal.clientSequence = .ok index' :=
        hregister
      refine ⟨⟨index', entry.proposal.clientSequence⟩, ?_, ?_, hlater⟩
      · simp only [assertRecordedOutboxEntry]
        rw [readNonEmptyString_of hid, ok_bind, readNonEmptyString_of hclient, ok_bind,
          readSafeInteger_of hpositive (by decide) hsafe, ok_bind, readNonEmptyString_of hhash, ok_bind,
          requireRecord_of hentry.client, ok_bind,
          requireRecord_of hentry.below, ok_bind,
          requireRecord_of (hindex.previous (entry :: rest) houtbox entry List.mem_cons_self), ok_bind, hregister',
          ok_bind]
        cases entry with
        | pending proposal => rfl
        | accepted proposal sequence operation =>
            obtain ⟨hbeyond, hsafe⟩ := hentry.beyond proposal sequence operation rfl
            have hconfirmed := h.confirmedSequence
            dsimp only
            rw [readSafeInteger_of (by omega) (by decide) hsafe, ok_bind, requireRecord_of hbeyond, ok_bind]
            rfl
      · rwa [List.map_append, List.map_singleton, ← List.append_assoc]
  obtain ⟨index, hindex, _⟩ := hloop
  exact ⟨index, hindex⟩

theorem resolutions_loop (streamId : String) {resolutions : List (ProposalDecision Operation Rejection)}
    (h : ValidResolutions resolutions) :
    ∃ seen, resolutions.zipIdx.foldlM (assertRecordedResolution streamId) ∅ = .ok seen := by
  have hloop : ∃ seen, resolutions.zipIdx.foldlM (assertRecordedResolution streamId) ∅ = .ok seen ∧
      seen = (resolutions.map ProposalDecision.operationId).toFinset := by
    apply foldlM_zipIdx_eq_ok (I := fun passed seen =>
      seen = (passed.map ProposalDecision.operationId).toFinset)
    · rfl
    · intro passed decision rest seen hresolutions hseen
      have hmem : decision ∈ resolutions := hresolutions ▸ by simp
      have hfresh : decision.operationId ∉ seen := by
        have hdistinct := h.distinct
        rw [hresolutions, List.map_append, List.map_cons, List.nodup_append] at hdistinct
        rw [hseen, List.mem_toFinset]
        exact fun hpassed => hdistinct.2.2 _ hpassed _ List.mem_cons_self rfl
      refine ⟨insert decision.operationId seen, ?_, ?_⟩
      · simp only [assertRecordedResolution]
        rw [readNonEmptyString_of (h.named decision hmem), ok_bind, requireRecord_of hfresh, ok_bind]
        cases decision with
        | accepted operationId sequence operation =>
            obtain ⟨hpositive, hsafe⟩ := h.safe _ hmem
            dsimp only
            rw [readSafeInteger_of hpositive (by decide) hsafe]
            rfl
        | rejected operationId reason => rfl
      · rw [hseen]
        ext operationId
        simp only [Finset.mem_insert, List.mem_toFinset, List.map_append, List.map_cons, List.map_nil,
          List.mem_append, List.mem_singleton]
        exact or_comm
  obtain ⟨seen, hseen, _⟩ := hloop
  exact ⟨seen, hseen⟩

/-- A record of a valid replica with valid outcomes passes its validation. -/
theorem assertReplicaRecord_of_valid {resolutions : List (ProposalDecision Operation Rejection)}
    (hreplica : replica.Valid) (hresolutions : ValidResolutions resolutions) :
    assertReplicaRecord (some ⟨indexedDbReplicaSchemaVersion, streamId, replica, resolutions⟩) streamId =
      .ok ⟨indexedDbReplicaSchemaVersion, streamId, replica, resolutions⟩ := by
  obtain ⟨identities, hlog, hidentities⟩ := confirmedLog_loop streamId hreplica
  obtain ⟨index, houtbox⟩ := outbox_loop streamId hreplica hidentities
  obtain ⟨seen, hseen⟩ := resolutions_loop streamId hresolutions
  rw [assertReplicaRecord]
  dsimp only
  rw [requireRecord_of rfl, ok_bind, requireRecord_of rfl, ok_bind, readNonEmptyString_of hreplica.clientId,
    ok_bind, readSafeInteger_of hreplica.nextClientSequence.1 (by decide) hreplica.nextClientSequence.2, ok_bind,
    readSafeInteger_of hreplica.confirmedSequence.1 (by decide) hreplica.confirmedSequence.2, ok_bind,
    requireRecord_of hreplica.retained, ok_bind, hlog, ok_bind, houtbox, ok_bind, hseen, ok_bind]
  rfl

end SyncEngine
