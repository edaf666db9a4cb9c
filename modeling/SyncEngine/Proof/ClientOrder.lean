import SyncEngine.Model.Counter
import SyncEngine.Proof.Network

/-!
# The order of one client

The authority decides the operations of a client from the first one on and accepts them in their
order, and an outbox lists what is accepted before what is pending. The server compares the client
sequences of one batch only. Across batches the order comes from the requests being snapshots of the
first pending proposals.
-/

namespace SyncEngine

open JavaScript Throwing

variable {ι State Intent Operation Rejection ε : Type}

/-- The first entry may stand before the second one in an outbox. -/
def OutboxEntry.Precedes : OutboxEntry Intent Operation → OutboxEntry Intent Operation → Prop
  | .accepted _ sequence _, .accepted _ sequence' _ => sequence < sequence'
  | .accepted _ _ _, .pending _ => True
  | .pending _, .accepted _ _ _ => False
  | .pending _, .pending _ => True

/-- The server keeps the order of every client: what it has decided of a client begins with the
client's first operation and has no gap, and the log lists a client's operations in their order. -/
structure InMemoryLogServer.KeepsClientOrder (server : InMemoryLogServer State Operation Rejection)
    (clientId : ι → String) (firstSequence : ι → Int) : Prop where
  downwardClosed : ∀ record ∈ server.decisionsByOperationId.values,
    ∃ i, clientId i = record.identity.clientId ∧ firstSequence i ≤ record.identity.clientSequence ∧
      ∀ clientSequence, firstSequence i ≤ clientSequence →
        clientSequence ≤ record.identity.clientSequence →
        ∃ earlier ∈ server.decisionsByOperationId.values,
          earlier.identity.clientId = clientId i ∧ earlier.identity.clientSequence = clientSequence
  increasing : server.log.Pairwise fun earlier later =>
    earlier.origin.clientId = later.origin.clientId →
      earlier.origin.clientSequence < later.origin.clientSequence

variable [DecidableEq ι] {setup : NetworkSetup ι State Intent Operation Rejection ε}
  {network : Network ι State Intent Operation Rejection}
  {authority : Authority setup.settings.interpreter setup.initialState} {knowledge : ι → Knowledge}
  {retained : ι → Nat}

namespace Network.Consistent

variable (h : network.Consistent setup authority knowledge retained)

include h

theorem downwardClosed {record : StoredProposalDecision Operation Rejection}
    (hrecord : record ∈ authority.ledger) :
    ∃ i, (setup.replicaOptions i).clientId = record.identity.clientId ∧
      setup.firstSequence i ≤ record.identity.clientSequence ∧
      ∀ clientSequence, setup.firstSequence i ≤ clientSequence →
        clientSequence ≤ record.identity.clientSequence →
        ∃ earlier ∈ authority.ledger, earlier.identity.clientId = (setup.replicaOptions i).clientId ∧
          earlier.identity.clientSequence = clientSequence := by
  obtain ⟨⟨i, proposal⟩, hentry, hidentity⟩ := h.origin record hrecord
  have hparticipant := h.participants i
  have hproposal := mem_proposalsOf.mpr hentry
  obtain ⟨k, hk⟩ := List.getElem?_of_mem hproposal
  have hposition := hparticipant.sequence k proposal hk
  obtain ⟨hlt, -⟩ := List.getElem?_eq_some_iff.mp hk
  have hsequence : record.identity.clientSequence = proposal.clientSequence := by rw [← hidentity]
  have hclient : record.identity.clientId = proposal.clientId := by rw [← hidentity]
  refine ⟨i, ?_, by omega, fun clientSequence hfirst hle => ?_⟩
  · rw [hclient, hparticipant.own proposal hproposal]
  · rcases Int.lt_or_eq_of_le hle with hless | rfl
    · -- The proposal at the position of this sequence was decided before.
      obtain ⟨j, hj⟩ : ∃ j : Nat, clientSequence = setup.firstSequence i + j :=
        ⟨(clientSequence - setup.firstSequence i).toNat, by omega⟩
      have hget := List.getElem?_eq_getElem (show j < (network.proposalsOf i).length by omega)
      have hearlier := List.mem_of_getElem? hget
      have hearlierSequence := hparticipant.sequence j _ hget
      obtain ⟨earlier, hmem, hid⟩ := hparticipant.decidedBefore _ hearlier proposal hproposal
        (by omega) ⟨record, hrecord, by rw [← hidentity]⟩
      have hearlierIdentity := h.recordsOwn i earlier hmem _ hearlier hid
      refine ⟨earlier, hmem, ?_, ?_⟩
      · rw [hearlierIdentity]
        exact hparticipant.own _ hearlier
      · rw [hearlierIdentity]
        show (network.proposalsOf i)[j].clientSequence = clientSequence
        omega
    · exact ⟨record, hrecord, hclient.trans (hparticipant.own proposal hproposal), rfl⟩

theorem log_increasing :
    (canonicalLog authority.ledger).Pairwise fun earlier later =>
      earlier.origin.clientId = later.origin.clientId →
        earlier.origin.clientSequence < later.origin.clientSequence := by
  refine List.pairwise_filterMap.mpr (h.clientOrder.imp ?_)
  intro earlier later hordered entry hentry entry' hentry' hclient
  obtain ⟨-, horigin, -⟩ := StoredProposalDecision.committed?_eq_some hentry
  obtain ⟨-, horigin', -⟩ := StoredProposalDecision.committed?_eq_some hentry'
  rw [horigin, horigin'] at hclient ⊢
  exact hordered hclient

theorem keepsClientOrder :
    network.server.KeepsClientOrder (fun i => (setup.replicaOptions i).clientId)
      setup.firstSequence where
  downwardClosed := by
    rw [h.server.represents.values_eq]
    exact fun record hrecord => h.downwardClosed hrecord
  increasing := by
    rw [h.server.represents.log]
    exact h.log_increasing

/-- Accepted records of one client have sequences in the client's order. -/
theorem sequence_lt {i : ι} {earlier later : ProposedOperation Intent}
    (hearlier : earlier ∈ network.proposalsOf i) (hlater : later ∈ network.proposalsOf i)
    (hless : earlier.clientSequence < later.clientSequence)
    {record record' : StoredProposalDecision Operation Rejection}
    (hrecord : recordOf authority.ledger earlier.operationId = some record)
    (hrecord' : recordOf authority.ledger later.operationId = some record')
    {operationId operationId' : String} {sequence sequence' : Int} {operation operation' : Operation}
    (hdecision : record.decision = .accepted operationId sequence operation)
    (hdecision' : record'.decision = .accepted operationId' sequence' operation') :
    sequence < sequence' := by
  have hids := authority.justified.operationIds_nodup
  obtain ⟨hmem, hid⟩ := (recordOf_eq_some_iff hids).mp hrecord
  obtain ⟨hmem', hid'⟩ := (recordOf_eq_some_iff hids).mp hrecord'
  have hidentity := h.recordsOwn i record hmem earlier hearlier hid
  have hidentity' := h.recordsOwn i record' hmem' later hlater hid'
  have hclient : record.identity.clientId = record'.identity.clientId := by
    rw [hidentity, hidentity']
    exact ((h.participants i).own earlier hearlier).trans ((h.participants i).own later hlater).symm
  have hlt : record.identity.clientSequence < record'.identity.clientSequence := by
    rw [hidentity, hidentity']
    exact hless
  have hne : record ≠ record' := by
    intro hsame
    rw [hsame] at hlt
    omega
  have hordered := h.clientOrder.and authority.justified.pairwise_sequence
  rcases KeyedList.pairwise_or hordered hmem hmem' hne with hforward | hbackward
  · exact hforward.2 _ _ (StoredProposalDecision.committed?_of_accepted hdecision)
      (StoredProposalDecision.committed?_of_accepted hdecision')
  · have hgt := hbackward.1 hclient.symm
    omega

theorem outbox_precedes (i : ι) : (network.replicas i).outbox.Pairwise OutboxEntry.Precedes := by
  have hparticipant := h.participants i
  rw [hparticipant.reflects.outbox, outboxOf, List.pairwise_filterMap]
  refine (List.Pairwise.and_mem.mp hparticipant.pairwise).imp ?_
  intro earlier later hboth entry hentry entry' hentry'
  obtain ⟨hearlier, hlater, hless⟩ := hboth
  by_cases hsettled' : Settled authority.ledger (knowledge i) later
  · rcases settle_of_settled hsettled' with hnone |
      ⟨record', _, sequence', operation', hrecord', hdecision', hbeyond', hdecided', haccepted'⟩
    · rw [hnone] at hentry'
      simp at hentry'
    · obtain rfl := Option.some.inj (haccepted'.symm.trans hentry')
      have hsettled := hparticipant.settledBefore earlier hearlier later hlater hless hdecided'
      rcases settle_of_settled hsettled with hnone |
        ⟨record, _, sequence, operation, hrecord, hdecision, -, -, haccepted⟩
      · rw [hnone] at hentry
        simp at hentry
      · obtain rfl := Option.some.inj (haccepted.symm.trans hentry)
        exact h.sequence_lt hearlier hlater hless hrecord hrecord' hdecision hdecision'
  · rw [settle_of_not_settled hsettled'] at hentry'
    obtain rfl := Option.some.inj hentry'
    cases entry with
    | pending => trivial
    | accepted => trivial

end Network.Consistent

/-- The order of every client is kept end to end: by the decisions and the log of the server, and in
the outbox of every replica. -/
theorem client_order (setup : NetworkSetup ι State Intent Operation Rejection ε)
    {network : Network ι State Intent Operation Rejection} (hreachable : setup.system.Reachable network) :
    network.server.KeepsClientOrder (fun i => (setup.replicaOptions i).clientId) setup.firstSequence ∧
      ∀ i, (network.replicas i).outbox.Pairwise OutboxEntry.Precedes := by
  obtain ⟨authority, knowledge, retained, h⟩ := Network.consistent_of_reachable hreachable
  exact ⟨h.keepsClientOrder, h.outbox_precedes⟩

theorem client_order_counter :
    (counterAfter counterActions).server.KeepsClientOrder
        (fun i => (counterSetup.replicaOptions i).clientId) counterSetup.firstSequence ∧
      ∀ i, ((counterAfter counterActions).replicas i).outbox.Pairwise OutboxEntry.Precedes :=
  client_order counterSetup (counterAfter_reachable counterActions_fresh)

end SyncEngine
