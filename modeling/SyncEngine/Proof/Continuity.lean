import SyncEngine.Proof.ClientOrder
import SyncEngine.Proof.Convergence
import SyncEngine.Proof.Places

/-!
# Optimistic continuity

For an authority that accepts every operation as it was proposed, and replicas that apply operations as
the authority does. What a replica has proposed and not confirmed is then the end of what it has proposed,
and a confirmation of own operations moves them from the overlay to the log without a visible change.
-/

namespace SyncEngine

open JavaScript Throwing TransitionSystem

variable {ι State Intent Operation Rejection ε : Type} [DecidableEq ι]

/-! ### Where decisions come from -/

section Answers

variable {setup : NetworkSetup ι State Intent Operation Rejection ε}
  {network : Network ι State Intent Operation Rejection}

/-- Every decision of the server is the interpreter's answer to an operation that was enqueued. -/
def Network.Answered (setup : NetworkSetup ι State Intent Operation Rejection ε)
    (network : Network ι State Intent Operation Rejection) : Prop :=
  ∀ record ∈ network.server.decisionsByOperationId.values, ∃ entry ∈ network.enqueued,
    record.identity = entry.2.toOperationSubmissionIdentity ∧
      DecidedAs setup.settings.interpreter entry.2 record.decision

omit [DecidableEq ι] in
theorem Network.Answered.frame (h : network.Answered setup) {network' : Network ι State Intent Operation Rejection}
    (hserver : network'.server = network.server) (henqueued : network.enqueued ⊆ network'.enqueued) :
    network'.Answered setup := by
  intro record hrecord
  rw [hserver] at hrecord
  obtain ⟨entry, hentry, hanswer⟩ := h record hrecord
  exact ⟨entry, henqueued hentry, hanswer⟩

theorem Network.answered_of_reachable (hreachable : setup.system.Reachable network) : network.Answered setup := by
  apply hreachable.invariant (I := fun network => network.Answered setup)
  · intro start hstart record hrecord
    rw [hstart.1] at hrecord
    exact absurd hrecord List.not_mem_nil
  · intro network action next hreachable h hstep
    obtain ⟨hfresh, rfl⟩ := hstep
    obtain ⟨authority, knowledge, retained, hconsistent⟩ := Network.consistent_of_reachable hreachable
    cases action with
    | enqueue i input =>
        rw [Network.next]
        split
        · exact h.frame rfl (List.subset_append_left _ _)
        · exact h
    | prepare i options =>
        rw [Network.next]
        split
        · exact h.frame rfl (List.Subset.refl _)
        · exact h
    | deliver index =>
        rw [Network.next]
        split
        · exact h
        · rename_i i request hget
          split
          · rename_i response server hcall
            have hrequest := List.mem_of_getElem? hget
            obtain ⟨authority', hnext, hsynchronized⟩ := hconsistent.deliver hrequest hcall
            intro record hrecord
            rw [hnext.server.represents.values_eq] at hrecord
            rcases hsynchronized.decided record hrecord with hold | ⟨proposal, hproposal, hanswer⟩
            · exact h record (hconsistent.server.represents.values_eq ▸ hold)
            · have hown := (hconsistent.requests _ hrequest).own proposal hproposal
              exact ⟨(i, proposal), Network.mem_proposalsOf.mp hown, hanswer⟩
          · exact h
    | merge index =>
        rw [Network.next]
        split
        · exact h
        · split
          · exact h.frame rfl (List.Subset.refl _)
          · exact h
    | compact i throughSequence =>
        rw [Network.next]
        split
        · exact h.frame rfl (List.Subset.refl _)
        · exact h

end Answers

/-! ### Operations that are accepted as they are -/

/-- Every party applies operations in the same way, and the authority accepts a normal operation as it was
proposed. -/
structure NetworkSetup.Echoes (setup : NetworkSetup ι State Operation Operation Rejection ε)
    (Normal : Operation → Prop) : Prop where
  lawful : setup.Lawful
  applyOptimistic : ∀ i, (setup.replicaInterpreter i).applyOptimistic = setup.settings.interpreter.apply
  decide : ∀ (state : State) (proposal : ProposedOperation Operation), Normal proposal.intent →
    setup.settings.interpreter.decide state proposal = .ok (.accepted proposal.intent)

def Network.confirmedPrefix (network : Network ι State Intent Operation Rejection) (i : ι) :
    List (CommittedOperation Operation) :=
  network.server.log.take (network.replicas i).confirmedSequence.toNat

section Echo

variable {setup : NetworkSetup ι State Operation Operation Rejection ε} {Normal : Operation → Prop}
  {network : Network ι State Operation Operation Rejection}
  {authority : Authority setup.settings.interpreter setup.initialState} {knowledge : ι → Knowledge}
  {retained : ι → Nat}

/-- A consistent network in which only normal operations were enqueued, and every decision answers one. -/
structure Network.Echoed (setup : NetworkSetup ι State Operation Operation Rejection ε) (Normal : Operation → Prop)
    (network : Network ι State Operation Operation Rejection)
    (authority : Authority setup.settings.interpreter setup.initialState) (knowledge : ι → Knowledge)
    (retained : ι → Nat) : Prop where
  echoes : setup.Echoes Normal
  consistent : network.Consistent setup authority knowledge retained
  normal : ∀ entry ∈ network.enqueued, Normal entry.2.intent
  answered : network.Answered setup

theorem Network.echoed_of_reachable (hechoes : setup.Echoes Normal) (hreachable : setup.system.Reachable network)
    (hnormal : ∀ entry ∈ network.enqueued, Normal entry.2.intent) :
    ∃ authority knowledge retained, network.Echoed setup Normal authority knowledge retained := by
  obtain ⟨authority, knowledge, retained, hconsistent⟩ := Network.consistent_of_reachable hreachable
  exact ⟨authority, knowledge, retained, hechoes, hconsistent, hnormal, Network.answered_of_reachable hreachable⟩

namespace Network.Echoed

variable (h : network.Echoed setup Normal authority knowledge retained)

include h

theorem accepted {record : StoredProposalDecision Operation Rejection} (hrecord : record ∈ authority.ledger) :
    ∃ entry ∈ network.enqueued, record.identity = entry.2.toOperationSubmissionIdentity ∧
      ∃ sequence, record.decision = .accepted entry.2.operationId sequence entry.2.intent := by
  rw [← h.consistent.server.represents.values_eq] at hrecord
  obtain ⟨entry, hentry, hidentity, state, hanswer⟩ := h.answered record hrecord
  have hdecide := h.echoes.decide state entry.2 (h.normal entry hentry)
  refine ⟨entry, hentry, hidentity, ?_⟩
  rcases hanswer with ⟨sequence, operation, haccepted, hdecision⟩ | ⟨reason, hrejected, -⟩
  · rw [hdecide, Except.ok.injEq, DecisionDraft.accepted.injEq] at haccepted
    exact ⟨sequence, haccepted ▸ hdecision⟩
  · rw [hdecide] at hrejected
    simp at hrejected

theorem accepted_own {i : ι} {proposal : ProposedOperation Operation} (hproposal : proposal ∈ network.proposalsOf i)
    {record : StoredProposalDecision Operation Rejection}
    (hrecord : recordOf authority.ledger proposal.operationId = some record) :
    ∃ sequence, record =
      ⟨proposal.toOperationSubmissionIdentity, .accepted proposal.operationId sequence proposal.intent⟩ := by
  obtain ⟨hmem, hid⟩ := (recordOf_eq_some_iff authority.justified.operationIds_nodup).mp hrecord
  obtain ⟨entry, hentry, hidentity, sequence, hdecision⟩ := h.accepted hmem
  have hsame := KeyedList.eq_of_key_eq h.consistent.operationIds hentry (mem_proposalsOf.mp hproposal)
    ((congrArg (fun identity => identity.operationId) hidentity).symm.trans hid)
  rw [hsame] at hidentity hdecision
  exact ⟨sequence, congrArg₂ StoredProposalDecision.mk hidentity hdecision⟩

theorem settle_eq_none_iff {i : ι} {proposal : ProposedOperation Operation}
    (hproposal : proposal ∈ network.proposalsOf i) :
    settle authority.ledger (knowledge i) proposal = none ↔
      ∃ sequence ≤ ((knowledge i).through : Int), recordOf authority.ledger proposal.operationId =
        some ⟨proposal.toOperationSubmissionIdentity, .accepted proposal.operationId sequence proposal.intent⟩ := by
  cases hrecord : recordOf authority.ledger proposal.operationId with
  | none =>
      rw [settle_of_undecided hrecord]
      simp
  | some record =>
      obtain ⟨sequence, rfl⟩ := h.accepted_own hproposal hrecord
      rw [settle_of_accepted hrecord rfl]
      constructor
      · intro hnone
        by_cases hle : sequence ≤ (knowledge i).through
        · exact ⟨sequence, hle, rfl⟩
        · rw [if_neg hle] at hnone
          split at hnone <;> simp at hnone
      · intro hconfirmed
        obtain ⟨sequence', hle, hsame⟩ := hconfirmed
        have hdecision := congrArg StoredProposalDecision.decision (Option.some.inj hsame)
        rw [ProposalDecision.accepted.injEq] at hdecision
        rw [if_pos (hdecision.2.1 ▸ hle)]

theorem settle_eq_none_of_later {i : ι} {earlier later : ProposedOperation Operation}
    (hearlier : earlier ∈ network.proposalsOf i) (hlater : later ∈ network.proposalsOf i)
    (hless : earlier.clientSequence < later.clientSequence)
    (hnone : settle authority.ledger (knowledge i) later = none) :
    settle authority.ledger (knowledge i) earlier = none := by
  have hids := authority.justified.operationIds_nodup
  obtain ⟨sequence', hle', hrecord'⟩ := (h.settle_eq_none_iff hlater).mp hnone
  obtain ⟨hmem', hid'⟩ := (recordOf_eq_some_iff hids).mp hrecord'
  obtain ⟨record, hmem, hid⟩ := (h.consistent.participants i).decidedBefore earlier hearlier later hlater hless
    ⟨_, hmem', hid'⟩
  have hrecord := (recordOf_eq_some_iff hids).mpr ⟨hmem, hid⟩
  obtain ⟨sequence, rfl⟩ := h.accepted_own hearlier hrecord
  have hlt := h.consistent.sequence_lt hearlier hlater hless hrecord hrecord' rfl rfl
  exact (h.settle_eq_none_iff hearlier).mpr ⟨sequence, by omega, hrecord⟩

theorem confirmedPrefix_eq (i : ι) :
    network.confirmedPrefix i = (canonicalLog authority.ledger).take (knowledge i).through := by
  rw [confirmedPrefix, h.consistent.log_eq, (h.consistent.participants i).reflects.confirmedSequence,
    Int.toNat_natCast]

theorem mem_confirmedPrefix {i : ι} {entry : CommittedOperation Operation} :
    entry ∈ network.confirmedPrefix i ↔
      entry.decisionRecord ∈ authority.ledger ∧ entry.sequence ≤ (knowledge i).through := by
  rw [h.confirmedPrefix_eq, ← authority.justified.mem_log_iff]
  constructor
  · intro hentry
    obtain ⟨index, hindex⟩ := List.getElem?_of_mem hentry
    obtain ⟨hlt, -⟩ := List.getElem?_eq_some_iff.mp hindex
    rw [List.length_take] at hlt
    rw [List.getElem?_take_of_lt (by omega)] at hindex
    have hsequence := authority.justified.sequence_eq hindex
    exact ⟨List.mem_of_mem_take hentry, by omega⟩
  · intro hconfirmed
    obtain ⟨hentry, hle⟩ := hconfirmed
    obtain ⟨index, hindex⟩ := List.getElem?_of_mem hentry
    have hsequence := authority.justified.sequence_eq hindex
    refine List.mem_of_getElem? (i := index) ?_
    rw [List.getElem?_take_of_lt (by omega), hindex]

/-- A confirmed entry of the replica's client is one of its operations that has left the outbox. -/
theorem exists_own_of_confirmed {i : ι} {entry : CommittedOperation Operation}
    (hentry : entry ∈ network.confirmedPrefix i)
    (hclient : entry.origin.clientId = (setup.replicaOptions i).clientId) :
    ∃ proposal ∈ network.proposalsOf i, settle authority.ledger (knowledge i) proposal = none ∧
      proposal.operationId = entry.operationId ∧ proposal.clientSequence = entry.origin.clientSequence ∧
      proposal.intent = entry.operation := by
  obtain ⟨hrecord, hle⟩ := h.mem_confirmedPrefix.mp hentry
  obtain ⟨proposal, hproposal, hidentity⟩ := h.consistent.exists_proposal hrecord hclient
  have hid : proposal.operationId = entry.operationId :=
    congrArg (fun identity => identity.operationId) hidentity
  have hrecordOf : recordOf authority.ledger proposal.operationId = some entry.decisionRecord :=
    (recordOf_eq_some_iff authority.justified.operationIds_nodup).mpr ⟨hrecord, hid.symm⟩
  obtain ⟨sequence, haccepted⟩ := h.accepted_own hproposal hrecordOf
  obtain ⟨-, rfl, hoperation⟩ := ProposalDecision.accepted.inj (congrArg StoredProposalDecision.decision haccepted)
  rw [haccepted] at hrecordOf
  exact ⟨proposal, hproposal, (h.settle_eq_none_iff hproposal).mpr ⟨_, hle, hrecordOf⟩, hid,
    congrArg (fun identity => identity.clientSequence) hidentity, hoperation.symm⟩

theorem exists_confirmed_of_own {i : ι} {proposal : ProposedOperation Operation}
    (hproposal : proposal ∈ network.proposalsOf i)
    (hnone : settle authority.ledger (knowledge i) proposal = none) :
    ∃ sequence, proposal.committedAt sequence proposal.intent ∈ network.confirmedPrefix i := by
  obtain ⟨sequence, hle, hrecord⟩ := (h.settle_eq_none_iff hproposal).mp hnone
  obtain ⟨hmem, -⟩ := (recordOf_eq_some_iff authority.justified.operationIds_nodup).mp hrecord
  exact ⟨sequence, h.mem_confirmedPrefix.mpr ⟨hmem, hle⟩⟩

theorem not_mem_confirmedPrefix {i : ι} {outgoing : OutboxEntry Operation Operation}
    (houtgoing : outgoing ∈ (network.replicas i).outbox) {entry : CommittedOperation Operation}
    (hentry : entry ∈ network.confirmedPrefix i) : entry.operationId ≠ outgoing.operationId := by
  intro hsame
  rw [(h.consistent.participants i).reflects.outbox, mem_outboxOf] at houtgoing
  obtain ⟨hproposal, hsettle⟩ := houtgoing
  obtain ⟨hrecord, hle⟩ := h.mem_confirmedPrefix.mp hentry
  have hrecordOf : recordOf authority.ledger outgoing.proposal.operationId = some entry.decisionRecord :=
    (recordOf_eq_some_iff authority.justified.operationIds_nodup).mpr ⟨hrecord, hsame⟩
  rw [settle_of_accepted hrecordOf rfl, if_pos hle] at hsettle
  simp at hsettle

/-- What a replica has confirmed of its own operations is what has left its outbox, in the same order. -/
theorem own_confirmed (i : ι) :
    ((network.confirmedPrefix i).filter fun entry =>
        entry.origin.clientId = (setup.replicaOptions i).clientId).map CommittedOperation.operation =
      ((network.proposalsOf i).filter fun proposal =>
        (settle authority.ledger (knowledge i) proposal).isNone).map ProposedOperation.intent := by
  have hparticipant := h.consistent.participants i
  have hsame : ((network.confirmedPrefix i).filter fun entry =>
        entry.origin.clientId = (setup.replicaOptions i).clientId).map
          (fun entry => (entry.origin.clientSequence, entry.operation)) =
      ((network.proposalsOf i).filter fun proposal =>
        (settle authority.ledger (knowledge i) proposal).isNone).map
          fun proposal => (proposal.clientSequence, proposal.intent) := by
    apply KeyedList.eq_of_sorted_of_mem_iff Prod.fst
    · have hordered := h.consistent.log_increasing.sublist (List.take_sublist (knowledge i).through _)
      rw [← h.confirmedPrefix_eq] at hordered
      refine List.pairwise_map.mpr
        ((List.Pairwise.and_mem.mp (hordered.sublist List.filter_sublist)).imp fun hboth => ?_)
      obtain ⟨hearlier, hlater, hincreasing⟩ := hboth
      have hclient := of_decide_eq_true (List.mem_filter.mp hearlier).2
      have hclient' := of_decide_eq_true (List.mem_filter.mp hlater).2
      exact hincreasing (hclient.trans hclient'.symm)
    · exact List.pairwise_map.mpr (hparticipant.pairwise.sublist List.filter_sublist)
    · intro pair
      rw [List.mem_map, List.mem_map]
      constructor
      · intro hmem
        obtain ⟨entry, hentry, rfl⟩ := hmem
        obtain ⟨hconfirmed, hclient⟩ := List.mem_filter.mp hentry
        obtain ⟨proposal, hproposal, hnone, -, hsequence, hoperation⟩ :=
          h.exists_own_of_confirmed hconfirmed (of_decide_eq_true hclient)
        exact ⟨proposal, List.mem_filter.mpr ⟨hproposal, by rw [hnone]; rfl⟩, Prod.ext hsequence hoperation⟩
      · intro hmem
        obtain ⟨proposal, hproposal, rfl⟩ := hmem
        obtain ⟨hown, hnone⟩ := List.mem_filter.mp hproposal
        obtain ⟨sequence, hentry⟩ := h.exists_confirmed_of_own hown (Option.isNone_iff_eq_none.mp hnone)
        exact ⟨_, List.mem_filter.mpr ⟨hentry, decide_eq_true (hparticipant.own proposal hown)⟩, rfl⟩
  have hsecond := congrArg (List.map Prod.snd) hsame
  rw [List.map_map, List.map_map] at hsecond
  exact hsecond

theorem outbox_proposals (i : ι) :
    (network.replicas i).outbox.map OutboxEntry.proposal =
      (network.proposalsOf i).filter fun proposal =>
        !(settle authority.ledger (knowledge i) proposal).isNone := by
  rw [(h.consistent.participants i).reflects.outbox, outboxOf, List.map_filterMap, ← List.filterMap_eq_filter]
  apply List.filterMap_congr
  intro proposal _
  cases hsettle : settle authority.ledger (knowledge i) proposal with
  | none => simp [Option.guard, hsettle]
  | some entry => simp [Option.guard, hsettle, proposal_of_settle hsettle]

theorem split (i : ι) :
    ((network.proposalsOf i).filter fun proposal => (settle authority.ledger (knowledge i) proposal).isNone) ++
      (network.replicas i).outbox.map OutboxEntry.proposal = network.proposalsOf i := by
  rw [h.outbox_proposals]
  refine KeyedList.filter_append_filter_not (h.consistent.participants i).pairwise ?_
  intro earlier hearlier later hlater hless hnone
  rw [Option.isNone_iff_eq_none] at hnone ⊢
  exact h.settle_eq_none_of_later hearlier hlater hless hnone

theorem own_operations (i : ι) :
    (((network.confirmedPrefix i).filter fun entry =>
        entry.origin.clientId = (setup.replicaOptions i).clientId).map CommittedOperation.operation) ++
      ((network.replicas i).outbox.map fun entry => entry.proposal.intent) =
    (network.proposalsOf i).map ProposedOperation.intent := by
  rw [h.own_confirmed]
  have hsplit := congrArg (List.map ProposedOperation.intent) (h.split i)
  rw [List.map_append, List.map_map] at hsplit
  exact hsplit

theorem operation_of_accepted {i : ι} {proposal : ProposedOperation Operation} {sequence : Int}
    {operation : Operation} (hentry : .accepted proposal sequence operation ∈ (network.replicas i).outbox) :
    proposal.intent = operation := by
  rw [(h.consistent.participants i).reflects.outbox, mem_outboxOf] at hentry
  obtain ⟨hproposal, hsettle⟩ := hentry
  change proposal ∈ network.proposalsOf i at hproposal
  change settle authority.ledger (knowledge i) proposal = _ at hsettle
  cases hrecord : recordOf authority.ledger proposal.operationId with
  | none =>
      rw [settle_of_undecided hrecord] at hsettle
      simp at hsettle
  | some record =>
      obtain ⟨sequence', rfl⟩ := h.accepted_own hproposal hrecord
      rw [settle_of_accepted hrecord rfl] at hsettle
      split at hsettle
      · simp at hsettle
      · split at hsettle
        · exact (OutboxEntry.accepted.inj (Option.some.inj hsettle)).2.2
        · simp at hsettle

/-- The optimistic state: the confirmed prefix, and then the outbox. -/
theorem materialize (i : ι) :
    materializeOptimisticState (setup.replicaInterpreter i) (network.replicas i) =
      ((network.confirmedPrefix i).map CommittedOperation.operation ++
        (network.replicas i).outbox.map fun entry => entry.proposal.intent).foldlM
          setup.settings.interpreter.apply setup.initialState := by
  have hreflects := (h.consistent.participants i).reflects
  have hconfirmed := hreflects.confirmedState
  rw [← h.confirmedPrefix_eq, applyEntries, h.echoes.lawful.applyCommitted] at hconfirmed
  have hoverlay : ∀ entry ∈ (network.replicas i).outbox, ∀ state,
      overlayEntry (setup.replicaInterpreter i) state entry =
        setup.settings.interpreter.apply state entry.proposal.intent := by
    intro entry hentry state
    cases entry with
    | pending proposal =>
        rw [overlayEntry, h.echoes.applyOptimistic]
        rfl
    | accepted proposal sequence operation =>
        rw [overlayEntry, h.echoes.lawful.applyCommitted, ← h.operation_of_accepted hentry]
        rfl
  rw [List.foldlM_append, List.foldlM_map, hconfirmed, ok_bind, List.foldlM_map, materializeOptimisticState]
  exact foldlM_congr hoverlay _

theorem normal_of_confirmed {i : ι} {entry : CommittedOperation Operation}
    (hentry : entry ∈ network.confirmedPrefix i) : Normal entry.operation := by
  obtain ⟨enqueued, henqueued, -, sequence, hdecision⟩ := h.accepted (h.mem_confirmedPrefix.mp hentry).1
  obtain ⟨-, -, hoperation⟩ := ProposalDecision.accepted.inj hdecision
  rw [hoperation]
  exact h.normal enqueued henqueued

theorem normal_of_outbox {i : ι} {entry : OutboxEntry Operation Operation}
    (hentry : entry ∈ (network.replicas i).outbox) : Normal entry.proposal.intent := by
  rw [(h.consistent.participants i).reflects.outbox, mem_outboxOf] at hentry
  exact h.normal _ (mem_proposalsOf.mp hentry.1)

theorem materialize_returns (Good : State → Prop) (hstart : Good setup.initialState)
    (happly : ∀ state operation, Good state → Normal operation →
      ∃ next, setup.settings.interpreter.apply state operation = .ok next ∧ Good next) (i : ι) :
    ∃ state, materializeOptimisticState (setup.replicaInterpreter i) (network.replicas i) = .ok state := by
  have hnormal : ∀ operation ∈ (network.confirmedPrefix i).map CommittedOperation.operation ++
      (network.replicas i).outbox.map (fun entry => entry.proposal.intent), Normal operation := by
    intro operation hoperation
    rcases List.mem_append.mp hoperation with hconfirmed | houtbox
    · obtain ⟨entry, hentry, rfl⟩ := List.mem_map.mp hconfirmed
      exact h.normal_of_confirmed hentry
    · obtain ⟨entry, hentry, rfl⟩ := List.mem_map.mp houtbox
      exact h.normal_of_outbox hentry
  rw [h.materialize i]
  obtain ⟨state, hfold, -⟩ := foldlM_returns (I := Good)
    (fun operation hoperation state hstate => happly state operation hstate (hnormal operation hoperation)) hstart
  exact ⟨state, hfold⟩

end Network.Echoed

theorem HonestResponse.mem_entries_of_new {ledger : Ledger Operation Rejection}
    {response : SyncResponse Operation Rejection} (hhonest : HonestResponse ledger response) {known : Knowledge}
    (hbase : response.requestedBaseSequence ≤ known.through) {entry : CommittedOperation Operation}
    (hentry : entry ∈ newEntries ledger known response) :
    ∃ index : Nat, known.through ≤ index ∧ (canonicalLog ledger)[index]? = some entry ∧ entry ∈ response.entries := by
  obtain ⟨offset, hoffset⟩ := List.getElem?_of_mem hentry
  rw [newEntries, List.getElem?_drop] at hoffset
  obtain ⟨hlt, -⟩ := List.getElem?_eq_some_iff.mp hoffset
  rw [List.length_take] at hlt
  rw [List.getElem?_take_of_lt (by omega)] at hoffset
  refine ⟨known.through + offset, Nat.le_add_right _ _, hoffset, ?_⟩
  have hbaseNonneg := hhonest.baseNonneg
  have hlength := hhonest.through
  have hthrough : known.through + offset < response.throughSequence.toNat := lt_of_lt_of_le hlt (min_le_left _ _)
  have hinside : known.through + offset - response.requestedBaseSequence.toNat < response.entries.length := by omega
  have hget := hhonest.getElem? (List.getElem?_eq_getElem hinside)
  rw [show response.requestedBaseSequence.toNat + (known.through + offset - response.requestedBaseSequence.toNat) =
    known.through + offset by omega, hoffset, Option.some.injEq] at hget
  exact hget ▸ List.getElem_mem hinside

/-- Merging own operations only leaves the optimistic state as it is. -/
theorem Network.Echoed.merge_own (h : network.Echoed setup Normal authority knowledge retained)
    {i : ι} {response : SyncResponse Operation Rejection} (hresponse : (i, response) ∈ network.responses)
    (hown : ∀ entry ∈ response.entries, (network.replicas i).confirmedSequence < entry.sequence →
      entry.origin.clientId = (network.replicas i).clientId) :
    ∃ result, mergeSyncResponse (setup.replicaInterpreter i) (network.replicas i) response = .ok result ∧
      materializeOptimisticState (setup.replicaInterpreter i) result.state =
        materializeOptimisticState (setup.replicaInterpreter i) (network.replicas i) := by
  obtain ⟨result, hmerge⟩ := h.consistent.merge_succeeds h.echoes.lawful hresponse
  refine ⟨result, hmerge, ?_⟩
  have h' : (network.setReplica i result.state).Echoed setup Normal authority
      (Function.update knowledge i (knowledge i ⊔ response.knowledge)) retained :=
    ⟨h.echoes, h.consistent.merge hresponse hmerge, h.normal, h.answered.frame rfl (List.Subset.refl _)⟩
  have hreplica : (network.setReplica i result.state).replicas i = result.state := Function.update_self _ _ _
  have haddressed : AddressedResponse authority.ledger (network.proposalsOf i) (knowledge i) response :=
    h.consistent.responses _ hresponse
  have hparticipant := h.consistent.participants i
  -- The prefix grows by own entries only.
  have hextended : (network.setReplica i result.state).confirmedPrefix i =
      network.confirmedPrefix i ++ newEntries authority.ledger (knowledge i) response := by
    rw [h'.confirmedPrefix_eq, h.confirmedPrefix_eq, Function.update_self, take_sup_through]
  have hnew : (newEntries authority.ledger (knowledge i) response).filter (fun entry =>
      entry.origin.clientId = (setup.replicaOptions i).clientId) =
        newEntries authority.ledger (knowledge i) response := by
    rw [List.filter_eq_self]
    intro entry hentry
    obtain ⟨index, hbeyond, hindex, hmem⟩ := haddressed.honest.mem_entries_of_new haddressed.base hentry
    have hsequence := authority.justified.sequence_eq hindex
    have hcursor := hparticipant.reflects.confirmedSequence
    rw [decide_eq_true_iff, ← hparticipant.sameClient]
    exact hown entry hmem (by omega)
  -- So what the prefix gains at its end the outbox loses at its start.
  have hbefore := h.own_operations i
  have hafter := h'.own_operations i
  rw [hextended, List.filter_append, hnew, List.map_append, List.append_assoc] at hafter
  have houtbox := List.append_cancel_left (hafter.trans hbefore.symm)
  have hmaterialize := h'.materialize i
  rw [hreplica] at hmaterialize houtbox
  rw [hmaterialize, h.materialize i, hextended, List.map_append, List.append_assoc, houtbox]

end Echo

end SyncEngine
