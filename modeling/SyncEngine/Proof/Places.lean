import SyncEngine.Model.Counter
import SyncEngine.Proof.Network

/-!
# Where an operation is

An operation that was enqueued is pending or accepted in the outbox of its replica, confirmed in the
prefix of the log the replica stands on, or rejected. Which of these it is follows from its record
and from what its replica knows. Records are permanent and knowledge only grows, so operations move
forward.
-/

namespace SyncEngine

open JavaScript Throwing

variable {ι State Intent Operation Rejection ε : Type}

inductive Place where
  | pending
  | accepted
  | confirmed
  | rejected
  deriving DecidableEq

def Place.Before : Place → Place → Prop
  | .pending, _ => True
  | .accepted, later => later = .accepted ∨ later = .confirmed
  | .confirmed, later => later = .confirmed
  | .rejected, later => later = .rejected

def ReplicaState.Absent (state : ReplicaState State Intent Operation)
    (proposal : ProposedOperation Intent) : Prop :=
  ∀ entry ∈ state.outbox, entry.operationId ≠ proposal.operationId

def Network.InPlace (network : Network ι State Intent Operation Rejection) (i : ι)
    (proposal : ProposedOperation Intent) : Place → Prop
  | .pending => .pending proposal ∈ (network.replicas i).outbox
  | .accepted => ∃ sequence operation,
      .accepted proposal sequence operation ∈ (network.replicas i).outbox ∧
      (network.replicas i).confirmedSequence < sequence ∧
      element? network.server.log (sequence - 1) = some (proposal.committedAt sequence operation)
  | .confirmed => (network.replicas i).Absent proposal ∧ ∃ sequence operation,
      element? network.server.log (sequence - 1) = some (proposal.committedAt sequence operation) ∧
      sequence ≤ (network.replicas i).confirmedSequence
  | .rejected => (network.replicas i).Absent proposal ∧ ∃ reason,
      network.server.getDecision proposal.operationId = some (.rejected proposal.operationId reason)

/-- The place that a record leads to for a replica with this knowledge. -/
def placeAs (knowledge : Knowledge) (operationId : String) :
    Option (StoredProposalDecision Operation Rejection) → Place
  | none => .pending
  | some ⟨_, .rejected _ _⟩ => if operationId ∈ knowledge.decided then .rejected else .pending
  | some ⟨_, .accepted _ sequence _⟩ =>
      if sequence ≤ knowledge.through then .confirmed
      else if operationId ∈ knowledge.decided then .accepted
      else .pending

def placeOf (ledger : Ledger Operation Rejection) (knowledge : Knowledge)
    (proposal : ProposedOperation Intent) : Place :=
  placeAs knowledge proposal.operationId (recordOf ledger proposal.operationId)

section PlaceOf

variable {interpreter : LogInterpreter State Intent Operation Rejection ε} {initialState state : State}
  {ledger new : Ledger Operation Rejection} {knowledge knowledge' : Knowledge}
  {proposal : ProposedOperation Intent} {record : StoredProposalDecision Operation Rejection}

theorem placeOf_of_undecided (h : recordOf ledger proposal.operationId = none) :
    placeOf ledger knowledge proposal = .pending := by
  rw [placeOf, h, placeAs]

theorem placeOf_of_rejected (h : recordOf ledger proposal.operationId = some record)
    {operationId : String} {reason : Rejection} (hdecision : record.decision = .rejected operationId reason) :
    placeOf ledger knowledge proposal =
      if proposal.operationId ∈ knowledge.decided then .rejected else .pending := by
  obtain ⟨identity, decision⟩ := record
  obtain rfl : decision = .rejected operationId reason := hdecision
  rw [placeOf, h, placeAs]

theorem placeOf_of_accepted (h : recordOf ledger proposal.operationId = some record)
    {operationId : String} {sequence : Int} {operation : Operation}
    (hdecision : record.decision = .accepted operationId sequence operation) :
    placeOf ledger knowledge proposal =
      if sequence ≤ knowledge.through then .confirmed
      else if proposal.operationId ∈ knowledge.decided then .accepted
      else .pending := by
  obtain ⟨identity, decision⟩ := record
  obtain rfl : decision = .accepted operationId sequence operation := hdecision
  rw [placeOf, h, placeAs]

/-- More knowledge moves an operation forward. -/
theorem placeOf_before (hle : knowledge ≤ knowledge') :
    (placeOf ledger knowledge proposal).Before (placeOf ledger knowledge' proposal) := by
  have hthrough := hle.1
  cases hrecord : recordOf ledger proposal.operationId with
  | none =>
      rw [placeOf_of_undecided hrecord]
      trivial
  | some record =>
      cases hdecision : record.decision with
      | rejected operationId reason =>
          rw [placeOf_of_rejected hrecord hdecision, placeOf_of_rejected hrecord hdecision]
          by_cases hdecided : proposal.operationId ∈ knowledge.decided
          · rw [if_pos hdecided, if_pos (hle.2 hdecided)]
            rfl
          · rw [if_neg hdecided]
            trivial
      | accepted operationId sequence operation =>
          rw [placeOf_of_accepted hrecord hdecision, placeOf_of_accepted hrecord hdecision]
          by_cases hconfirmed : sequence ≤ knowledge.through
          · rw [if_pos hconfirmed, if_pos (by omega)]
            rfl
          · rw [if_neg hconfirmed]
            by_cases hdecided : proposal.operationId ∈ knowledge.decided
            · rw [if_pos hdecided, if_pos (hle.2 hdecided)]
              by_cases hconfirmed' : sequence ≤ knowledge'.through
              · rw [if_pos hconfirmed']
                exact Or.inr rfl
              · rw [if_neg hconfirmed']
                exact Or.inl rfl
            · rw [if_neg hdecided]
              trivial

/-- Decisions the replica has not heard of move nothing. -/
theorem placeOf_append (h : Justified interpreter initialState (ledger ++ new) state)
    (hknowledge : knowledge.From ledger) :
    placeOf (ledger ++ new) knowledge proposal = placeOf ledger knowledge proposal := by
  cases hrecord : recordOf ledger proposal.operationId with
  | some record => rw [placeOf, placeOf, recordOf_append hrecord, hrecord]
  | none =>
      rw [placeOf_of_undecided hrecord]
      have hunsettled := not_settled_append h hknowledge hrecord
      cases hlater : recordOf (ledger ++ new) proposal.operationId with
      | none => exact placeOf_of_undecided hlater
      | some record =>
          have hunknown : proposal.operationId ∉ knowledge.decided :=
            fun hdecided => hunsettled ⟨record, hlater, Or.inl hdecided⟩
          cases hdecision : record.decision with
          | rejected => rw [placeOf_of_rejected hlater hdecision, if_neg hunknown]
          | accepted operationId sequence operation =>
              have hbeyond : ¬sequence ≤ knowledge.through :=
                fun hle => hunsettled ⟨record, hlater, Or.inr ⟨_, _, _, hdecision, hle⟩⟩
              rw [placeOf_of_accepted hlater hdecision, if_neg hbeyond, if_neg hunknown]

end PlaceOf

/-! ### The place of an enqueued operation -/

variable [DecidableEq ι] {setup : NetworkSetup ι State Intent Operation Rejection ε}
  {network network' : Network ι State Intent Operation Rejection}
  {authority authority' : Authority setup.settings.interpreter setup.initialState}
  {knowledge knowledge' : ι → Knowledge} {retained retained' : ι → Nat}

namespace Network.Consistent

variable (h : network.Consistent setup authority knowledge retained) {i : ι}
  {proposal : ProposedOperation Intent} (henqueued : (i, proposal) ∈ network.enqueued)

include h

theorem log_eq : network.server.log = canonicalLog authority.ledger := h.server.represents.log

theorem getDecision_eq (operationId : String) :
    network.server.getDecision operationId =
      (recordOf authority.ledger operationId).map StoredProposalDecision.decision := by
  rw [InMemoryLogServer.getDecision, get?_of_decisionRows h.server.represents.decisions]
  rfl

include henqueued

theorem mem_outbox {entry : OutboxEntry Intent Operation} (hproposal : entry.proposal = proposal) :
    entry ∈ (network.replicas i).outbox ↔
      settle authority.ledger (knowledge i) proposal = some entry := by
  rw [(h.participants i).reflects.outbox, mem_outboxOf, hproposal, mem_proposalsOf]
  exact and_iff_right henqueued

theorem absent_iff :
    (network.replicas i).Absent proposal ↔ settle authority.ledger (knowledge i) proposal = none := by
  constructor
  · intro habsent
    cases hsettle : settle authority.ledger (knowledge i) proposal with
    | none => rfl
    | some entry =>
        have hproposal := proposal_of_settle hsettle
        have hne := habsent entry ((h.mem_outbox henqueued hproposal).mpr hsettle)
        rw [OutboxEntry.operationId, hproposal] at hne
        exact absurd rfl hne
  · intro hsettle entry hentry hid
    rw [(h.participants i).reflects.outbox] at hentry
    obtain ⟨hproposal, hsettle'⟩ := mem_outboxOf.mp hentry
    obtain rfl := KeyedList.eq_of_key_eq (h.proposals_nodup i) hproposal
      (mem_proposalsOf.mpr henqueued) hid
    rw [hsettle] at hsettle'
    simp at hsettle'

theorem log_of_accepted {record : StoredProposalDecision Operation Rejection}
    (hrecord : recordOf authority.ledger proposal.operationId = some record) {operationId : String}
    {sequence : Int} {operation : Operation}
    (hdecision : record.decision = .accepted operationId sequence operation) :
    element? network.server.log (sequence - 1) = some (proposal.committedAt sequence operation) := by
  obtain ⟨hmem, hid⟩ := (recordOf_eq_some_iff authority.justified.operationIds_nodup).mp hrecord
  have hidentity := h.recordsOwn i record hmem proposal (mem_proposalsOf.mpr henqueued) hid
  have hcommitted := StoredProposalDecision.committed?_of_accepted hdecision
  obtain ⟨index, hindex, hsequence⟩ := authority.justified.getElem?_of_committed? hmem hcommitted
  change sequence = index + 1 at hsequence
  rw [h.log_eq, show sequence - 1 = (index : Int) by omega, element?_natCast, hindex, hidentity]
  rfl

omit henqueued in
theorem accepted_of_log {sequence : Int} {operation : Operation}
    (hlog : element? network.server.log (sequence - 1) = some (proposal.committedAt sequence operation)) :
    recordOf authority.ledger proposal.operationId =
      some (proposal.committedAt sequence operation).decisionRecord := by
  have hmem := mem_of_element? hlog
  rw [h.log_eq] at hmem
  exact recordOf_of_mem_log authority.justified hmem

theorem inPlace_placeOf :
    network.InPlace i proposal (placeOf authority.ledger (knowledge i) proposal) := by
  have hcursor := (h.participants i).reflects.confirmedSequence
  have hpending : settle authority.ledger (knowledge i) proposal = some (.pending proposal) →
      network.InPlace i proposal .pending := (h.mem_outbox henqueued rfl).mpr
  have habsent := (h.absent_iff henqueued).mpr
  cases hrecord : recordOf authority.ledger proposal.operationId with
  | none =>
      rw [placeOf_of_undecided hrecord]
      exact hpending (settle_of_undecided hrecord)
  | some record =>
      have hmem := (recordOf_eq_some_iff authority.justified.operationIds_nodup).mp hrecord
      have hown := authority.justified.decision_operationId record hmem.1
      have hdecided := h.getDecision_eq proposal.operationId
      rw [hrecord, Option.map_some] at hdecided
      cases hdecision : record.decision with
      | rejected operationId reason =>
          rw [hdecision, ProposalDecision.operationId_rejected, hmem.2] at hown
          rw [settle_of_rejected hrecord hdecision] at hpending habsent
          rw [placeOf_of_rejected hrecord hdecision]
          split
          · rename_i hknown
            rw [hdecision, hown] at hdecided
            exact ⟨habsent (if_pos hknown), reason, hdecided⟩
          · rename_i hunknown
            exact hpending (if_neg hunknown)
      | accepted operationId sequence operation =>
          have hlog := h.log_of_accepted henqueued hrecord hdecision
          have haccepted := (h.mem_outbox henqueued
            (OutboxEntry.proposal_accepted proposal sequence operation)).mpr
          rw [settle_of_accepted hrecord hdecision] at hpending habsent haccepted
          rw [placeOf_of_accepted hrecord hdecision]
          split
          · rename_i hconfirmed
            exact ⟨habsent (if_pos hconfirmed), sequence, operation, hlog, by omega⟩
          · rename_i hbeyond
            rw [if_neg hbeyond] at hpending haccepted
            split
            · rename_i hknown
              exact ⟨sequence, operation, haccepted (if_pos hknown), by omega, hlog⟩
            · rename_i hunknown
              exact hpending (if_neg hunknown)

theorem placeOf_of_inPlace {place : Place} (hplace : network.InPlace i proposal place) :
    placeOf authority.ledger (knowledge i) proposal = place := by
  have hactual := h.inPlace_placeOf henqueued
  have hids : ((network.replicas i).outbox.map OutboxEntry.operationId).Nodup := by
    rw [(h.participants i).reflects.outbox]
    exact outboxOf_nodup (h.proposals_nodup i)
  have hpresent : ∀ entry ∈ (network.replicas i).outbox, entry.proposal = proposal →
      ¬(network.replicas i).Absent proposal := by
    intro entry hentry hproposal habsent
    have hne := habsent entry hentry
    rw [OutboxEntry.operationId, hproposal] at hne
    exact hne rfl
  have hstatus : ∀ sequence operation, .pending proposal ∈ (network.replicas i).outbox →
      .accepted proposal sequence operation ∉ (network.replicas i).outbox := by
    intro sequence operation hpending haccepted
    have hsame := KeyedList.eq_of_key_eq hids hpending haccepted rfl
    simp at hsame
  have hdecision : ∀ sequence operation reason,
      element? network.server.log (sequence - 1) = some (proposal.committedAt sequence operation) →
      network.server.getDecision proposal.operationId ≠
        some (.rejected proposal.operationId reason) := by
    intro sequence operation reason hlog hrejected
    rw [h.getDecision_eq, h.accepted_of_log hlog] at hrejected
    simp [CommittedOperation.decisionRecord] at hrejected
  generalize placeOf authority.ledger (knowledge i) proposal = actual at hactual
  cases actual with
  | pending =>
      cases place with
      | pending => rfl
      | accepted =>
          obtain ⟨sequence, operation, haccepted, -, -⟩ := hplace
          exact absurd haccepted (hstatus sequence operation hactual)
      | confirmed => exact absurd hplace.1 (hpresent _ hactual rfl)
      | rejected => exact absurd hplace.1 (hpresent _ hactual rfl)
  | accepted =>
      obtain ⟨sequence, operation, haccepted, -, -⟩ := hactual
      cases place with
      | pending => exact absurd haccepted (hstatus sequence operation hplace)
      | accepted => rfl
      | confirmed => exact absurd hplace.1 (hpresent _ haccepted rfl)
      | rejected => exact absurd hplace.1 (hpresent _ haccepted rfl)
  | confirmed =>
      obtain ⟨habsent, sequence, operation, hlog, -⟩ := hactual
      cases place with
      | pending => exact absurd habsent (hpresent _ hplace rfl)
      | accepted =>
          obtain ⟨_, _, haccepted, -, -⟩ := hplace
          exact absurd habsent (hpresent _ haccepted rfl)
      | confirmed => rfl
      | rejected =>
          obtain ⟨-, reason, hrejected⟩ := hplace
          exact absurd hrejected (hdecision sequence operation reason hlog)
  | rejected =>
      obtain ⟨habsent, reason, hrejected⟩ := hactual
      cases place with
      | pending => exact absurd habsent (hpresent _ hplace rfl)
      | accepted =>
          obtain ⟨_, _, haccepted, -, -⟩ := hplace
          exact absurd habsent (hpresent _ haccepted rfl)
      | confirmed =>
          obtain ⟨-, sequence, operation, hlog, -⟩ := hplace
          exact absurd hrejected (hdecision sequence operation reason hlog)
      | rejected => rfl

omit henqueued in
theorem countP_log_le (operationId : String) :
    (network.server.log.countP fun entry => entry.operationId = operationId) ≤ 1 := by
  have hnodup : (network.server.log.map CommittedOperation.operationId).Nodup := by
    rw [h.log_eq]
    exact List.pairwise_map.mpr (authority.justified.log_distinct.imp fun hne => hne.1)
  have hcount := List.nodup_iff_count_le_one.mp hnodup operationId
  rw [List.count_eq_countP, List.countP_map] at hcount
  exact hcount

/-- Places only move forward when the ledger and the knowledge grow. -/
theorem inPlace_before (h' : network'.Consistent setup authority' knowledge' retained')
    (hgrows : network.Grows network' authority authority' knowledge knowledge') {place place' : Place}
    (hplace : network.InPlace i proposal place) (hplace' : network'.InPlace i proposal place') :
    place.Before place' := by
  have henqueued' := hgrows.enqueued.subset henqueued
  rw [← h.placeOf_of_inPlace henqueued hplace, ← h'.placeOf_of_inPlace henqueued' hplace']
  obtain ⟨new, hnew⟩ := hgrows.ledger
  have hjustified := authority'.justified
  rw [← hnew] at hjustified ⊢
  rw [← placeOf_append hjustified (h.participants i).reflects.known]
  exact placeOf_before (hgrows.knowledge i)

end Network.Consistent

/-- No operation is lost, duplicated or resurrected: in every reachable configuration an enqueued
operation is at most once in the log and in exactly one place, and along every run it only moves
forward. -/
theorem operation_places (setup : NetworkSetup ι State Intent Operation Rejection ε)
    {network : Network ι State Intent Operation Rejection} (hreachable : setup.system.Reachable network)
    {i : ι} {proposal : ProposedOperation Intent} (henqueued : (i, proposal) ∈ network.enqueued) :
    (network.server.log.countP fun entry => entry.operationId = proposal.operationId) ≤ 1 ∧
    (∃! place, network.InPlace i proposal place) ∧
    ∀ actions network', setup.system.Path network actions network' →
      (i, proposal) ∈ network'.enqueued ∧
      ∀ place place', network.InPlace i proposal place → network'.InPlace i proposal place' →
        place.Before place' := by
  obtain ⟨authority, knowledge, retained, h⟩ := Network.consistent_of_reachable hreachable
  refine ⟨h.countP_log_le _, ?_, ?_⟩
  · refine ⟨_, h.inPlace_placeOf henqueued, fun place hplace => ?_⟩
    exact (h.placeOf_of_inPlace henqueued hplace).symm
  · intro actions network' hpath
    obtain ⟨authority', knowledge', retained', h', hgrows⟩ := h.path hpath
    refine ⟨hgrows.enqueued.subset henqueued, fun place place' hplace hplace' => ?_⟩
    exact h.inPlace_before henqueued h' hgrows hplace hplace'

theorem operation_places_counter :
    (∃! place, (counterAfter counterActions).InPlace true
      (counterProposal "op-a1" "client-a" 1 5) place) ∧
    (∃! place, (counterAfter counterActions).InPlace true
      (counterProposal "op-a2" "client-a" 2 0) place) := by
  have hreachable := counterAfter_reachable counterActions_fresh
  refine ⟨(operation_places counterSetup hreachable ?_).2.1,
    (operation_places counterSetup hreachable ?_).2.1⟩
  · exact List.mem_of_getElem? (i := 0) rfl
  · exact List.mem_of_getElem? (i := 1) rfl

end SyncEngine
