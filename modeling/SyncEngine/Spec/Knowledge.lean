import SyncEngine.Lib.KeyedList
import SyncEngine.Model.Replica
import SyncEngine.Spec.Ledger
import Mathlib.Data.Finset.Lattice.Lemmas

/-!
# What a replica has learned

Of everything an authority has told a replica, only two things matter for its outbox: how long a
prefix of the canonical log it has confirmed, and for which operations it has received a decision.
Such knowledge forms a join semilattice, and the outbox of a replica is a function of the operations
it ever enqueued, the ledger and its knowledge. Learning in another order, or twice, is a join too.
-/

namespace SyncEngine

variable {State Intent Operation Rejection ε : Type}

/-- The length of the confirmed prefix, and the operations whose decision was received. -/
@[ext] structure Knowledge where
  through : Nat
  decided : Finset String

namespace Knowledge

instance : PartialOrder Knowledge where
  le left right := left.through ≤ right.through ∧ left.decided ⊆ right.decided
  le_refl _ := ⟨Nat.le_refl _, Finset.Subset.refl _⟩
  le_trans _ _ _ h h' := ⟨Nat.le_trans h.1 h'.1, h.2.trans h'.2⟩
  le_antisymm _ _ h h' :=
    Knowledge.ext (Nat.le_antisymm h.1 h'.1) (Finset.Subset.antisymm h.2 h'.2)

instance : SemilatticeSup Knowledge where
  sup left right := ⟨max left.through right.through, left.decided ∪ right.decided⟩
  le_sup_left _ _ := ⟨Nat.le_max_left _ _, Finset.subset_union_left⟩
  le_sup_right _ _ := ⟨Nat.le_max_right _ _, Finset.subset_union_right⟩
  sup_le _ _ _ h h' := ⟨Nat.max_le.mpr ⟨h.1, h'.1⟩, Finset.union_subset h.2 h'.2⟩

@[simp] theorem sup_through (left right : Knowledge) :
    (left ⊔ right).through = max left.through right.through := rfl

/-- Knowledge that a ledger can have taught. -/
structure From (knowledge : Knowledge) (ledger : Ledger Operation Rejection) : Prop where
  through : knowledge.through ≤ (canonicalLog ledger).length
  decided : ∀ operationId ∈ knowledge.decided, ∃ record ∈ ledger,
    record.identity.operationId = operationId

theorem From.mono {knowledge : Knowledge} {ledger : Ledger Operation Rejection}
    (h : knowledge.From ledger) (new : Ledger Operation Rejection) : knowledge.From (ledger ++ new) where
  through := by
    have := h.through
    rw [canonicalLog_append, List.length_append]
    omega
  decided := by
    intro operationId hdecided
    obtain ⟨record, hrecord, hid⟩ := h.decided operationId hdecided
    exact ⟨record, List.mem_append_left _ hrecord, hid⟩

theorem From.sup {left right : Knowledge} {ledger : Ledger Operation Rejection}
    (hleft : left.From ledger) (hright : right.From ledger) : (left ⊔ right).From ledger where
  through := Nat.max_le.mpr ⟨hleft.through, hright.through⟩
  decided := by
    intro operationId hdecided
    rcases Finset.mem_union.mp hdecided with h | h
    · exact hleft.decided operationId h
    · exact hright.decided operationId h

end Knowledge

/-! ### The outbox as a function of knowledge -/

/-- The record of an operation, if it is decided. -/
def recordOf (ledger : Ledger Operation Rejection) (operationId : String) :
    Option (StoredProposalDecision Operation Rejection) :=
  ledger.find? fun record => record.identity.operationId = operationId

/-- What is left of an enqueued proposal, given its record. -/
def settleAs (knowledge : Knowledge) (proposal : ProposedOperation Intent) :
    Option (StoredProposalDecision Operation Rejection) → Option (OutboxEntry Intent Operation)
  | none => some (.pending proposal)
  | some ⟨_, .rejected _ _⟩ =>
      if proposal.operationId ∈ knowledge.decided then none else some (.pending proposal)
  | some ⟨_, .accepted _ sequence operation⟩ =>
      if sequence ≤ knowledge.through then none
      else if proposal.operationId ∈ knowledge.decided then some (.accepted proposal sequence operation)
      else some (.pending proposal)

/-- What is left of an enqueued proposal in the outbox of a replica with this knowledge. -/
def settle (ledger : Ledger Operation Rejection) (knowledge : Knowledge)
    (proposal : ProposedOperation Intent) : Option (OutboxEntry Intent Operation) :=
  settleAs knowledge proposal (recordOf ledger proposal.operationId)

def outboxOf (ledger : Ledger Operation Rejection) (knowledge : Knowledge)
    (proposals : List (ProposedOperation Intent)) : List (OutboxEntry Intent Operation) :=
  proposals.filterMap (settle ledger knowledge)

/-- The replica knows that the proposal is decided. -/
def Settled (ledger : Ledger Operation Rejection) (knowledge : Knowledge)
    (proposal : ProposedOperation Intent) : Prop :=
  ∃ record, recordOf ledger proposal.operationId = some record ∧
    (proposal.operationId ∈ knowledge.decided ∨
      ∃ operationId sequence operation, record.decision = .accepted operationId sequence operation ∧
        sequence ≤ knowledge.through)

section Settle

variable {ledger : Ledger Operation Rejection} {knowledge : Knowledge}
  {proposal : ProposedOperation Intent}

theorem settle_of_undecided (h : recordOf ledger proposal.operationId = none) :
    settle ledger knowledge proposal = some (.pending proposal) := by
  rw [settle, h, settleAs]

theorem settle_of_rejected {record : StoredProposalDecision Operation Rejection}
    (h : recordOf ledger proposal.operationId = some record) {operationId : String} {reason : Rejection}
    (hdecision : record.decision = .rejected operationId reason) :
    settle ledger knowledge proposal =
      if proposal.operationId ∈ knowledge.decided then none else some (.pending proposal) := by
  obtain ⟨identity, decision⟩ := record
  obtain rfl : decision = .rejected operationId reason := hdecision
  rw [settle, h, settleAs]

theorem settle_of_accepted {record : StoredProposalDecision Operation Rejection}
    (h : recordOf ledger proposal.operationId = some record) {operationId : String} {sequence : Int}
    {operation : Operation} (hdecision : record.decision = .accepted operationId sequence operation) :
    settle ledger knowledge proposal =
      if sequence ≤ knowledge.through then none
      else if proposal.operationId ∈ knowledge.decided then some (.accepted proposal sequence operation)
      else some (.pending proposal) := by
  obtain ⟨identity, decision⟩ := record
  obtain rfl : decision = .accepted operationId sequence operation := hdecision
  rw [settle, h, settleAs]

/-- A proposal is pending for as long as the replica does not know its decision. -/
theorem settle_of_not_settled (h : ¬Settled ledger knowledge proposal) :
    settle ledger knowledge proposal = some (.pending proposal) := by
  cases hrecord : recordOf ledger proposal.operationId with
  | none => exact settle_of_undecided hrecord
  | some record =>
      have hunknown : proposal.operationId ∉ knowledge.decided :=
        fun hdecided => h ⟨record, hrecord, Or.inl hdecided⟩
      cases hdecision : record.decision with
      | rejected => rw [settle_of_rejected hrecord hdecision, if_neg hunknown]
      | accepted operationId sequence operation =>
          have hbeyond : ¬sequence ≤ knowledge.through :=
            fun hle => h ⟨record, hrecord, Or.inr ⟨_, _, _, hdecision, hle⟩⟩
          rw [settle_of_accepted hrecord hdecision, if_neg hbeyond, if_neg hunknown]

/-- A settled proposal is gone, or accepted beyond the confirmed prefix. -/
theorem settle_of_settled (h : Settled ledger knowledge proposal) :
    settle ledger knowledge proposal = none ∨
      ∃ record operationId sequence operation, recordOf ledger proposal.operationId = some record ∧
        record.decision = .accepted operationId sequence operation ∧ ¬sequence ≤ knowledge.through ∧
        proposal.operationId ∈ knowledge.decided ∧
        settle ledger knowledge proposal = some (.accepted proposal sequence operation) := by
  obtain ⟨record, hrecord, hknown⟩ := h
  cases hdecision : record.decision with
  | rejected operationId reason =>
      rcases hknown with hdecided | ⟨_, _, _, haccepted, -⟩
      · exact Or.inl (by rw [settle_of_rejected hrecord hdecision, if_pos hdecided])
      · rw [hdecision] at haccepted
        exact absurd haccepted (by simp)
  | accepted operationId sequence operation =>
      by_cases hle : sequence ≤ knowledge.through
      · exact Or.inl (by rw [settle_of_accepted hrecord hdecision, if_pos hle])
      · have hdecided : proposal.operationId ∈ knowledge.decided := by
          rcases hknown with hdecided | ⟨_, _, _, haccepted, hle'⟩
          · exact hdecided
          · rw [hdecision] at haccepted
            obtain ⟨-, rfl, -⟩ := ProposalDecision.accepted.inj haccepted
            exact absurd hle' hle
        refine Or.inr ⟨record, _, _, _, hrecord, hdecision, hle, hdecided, ?_⟩
        rw [settle_of_accepted hrecord hdecision, if_neg hle, if_pos hdecided]

theorem settle_eq_pending_iff :
    settle ledger knowledge proposal = some (.pending proposal) ↔ ¬Settled ledger knowledge proposal := by
  refine ⟨fun h hsettled => ?_, settle_of_not_settled⟩
  rcases settle_of_settled hsettled with hnone | ⟨_, _, _, _, -, -, -, -, haccepted⟩
  · rw [hnone] at h
    simp at h
  · rw [haccepted] at h
    simp at h

theorem proposal_of_settle {entry : OutboxEntry Intent Operation}
    (h : settle ledger knowledge proposal = some entry) : entry.proposal = proposal := by
  by_cases hsettled : Settled ledger knowledge proposal
  · rcases settle_of_settled hsettled with hnone | ⟨_, _, _, _, -, -, -, -, haccepted⟩
    · rw [hnone] at h
      simp at h
    · rw [haccepted] at h
      rw [← Option.some.inj h, OutboxEntry.proposal_accepted]
  · rw [settle_of_not_settled hsettled] at h
    rw [← Option.some.inj h, OutboxEntry.proposal_pending]

theorem Settled.mono {knowledge' : Knowledge} (h : Settled ledger knowledge proposal)
    (hle : knowledge ≤ knowledge') : Settled ledger knowledge' proposal := by
  obtain ⟨record, hrecord, hdecided | ⟨operationId, sequence, operation, haccepted, hthrough⟩⟩ := h
  · exact ⟨record, hrecord, Or.inl (hle.2 hdecided)⟩
  · have := hle.1
    exact ⟨record, hrecord, Or.inr ⟨operationId, sequence, operation, haccepted, by omega⟩⟩

/-- What has left the outbox does not come back. -/
theorem settle_eq_none_mono {knowledge' : Knowledge} (h : settle ledger knowledge proposal = none)
    (hle : knowledge ≤ knowledge') : settle ledger knowledge' proposal = none := by
  have hthrough := hle.1
  cases hrecord : recordOf ledger proposal.operationId with
  | none =>
      rw [settle_of_undecided hrecord] at h
      simp at h
  | some record =>
      cases hdecision : record.decision with
      | rejected =>
          rw [settle_of_rejected hrecord hdecision, ite_eq_left_iff] at h
          have hdecided : proposal.operationId ∈ knowledge.decided := by simpa using h
          rw [settle_of_rejected hrecord hdecision, if_pos (hle.2 hdecided)]
      | accepted operationId sequence operation =>
          rw [settle_of_accepted hrecord hdecision] at h
          have hconfirmed : sequence ≤ knowledge.through := by
            by_contra hbeyond
            rw [if_neg hbeyond] at h
            split at h <;> simp at h
          rw [settle_of_accepted hrecord hdecision, if_pos (by omega)]

theorem settled_congr {knowledge' : Knowledge} (hthrough : knowledge.through = knowledge'.through)
    (hdecided : proposal.operationId ∈ knowledge.decided ↔ proposal.operationId ∈ knowledge'.decided) :
    Settled ledger knowledge proposal ↔ Settled ledger knowledge' proposal := by
  rw [Settled, Settled, hthrough, hdecided]

/-- Knowledge decides about one operation through its own identifier and the prefix only. -/
theorem settle_congr {knowledge' : Knowledge} (hthrough : knowledge.through = knowledge'.through)
    (hdecided : proposal.operationId ∈ knowledge.decided ↔ proposal.operationId ∈ knowledge'.decided) :
    settle ledger knowledge proposal = settle ledger knowledge' proposal := by
  cases hrecord : recordOf ledger proposal.operationId with
  | none => rw [settle_of_undecided hrecord, settle_of_undecided hrecord]
  | some record =>
      cases hdecision : record.decision with
      | rejected =>
          rw [settle_of_rejected hrecord hdecision, settle_of_rejected hrecord hdecision]
          simp only [hdecided]
      | accepted =>
          rw [settle_of_accepted hrecord hdecision, settle_of_accepted hrecord hdecision]
          simp only [hdecided, hthrough]

end Settle

section Outbox

variable {ledger : Ledger Operation Rejection} {knowledge : Knowledge}
  {proposals : List (ProposedOperation Intent)}

theorem mem_outboxOf {entry : OutboxEntry Intent Operation} :
    entry ∈ outboxOf ledger knowledge proposals ↔
      entry.proposal ∈ proposals ∧ settle ledger knowledge entry.proposal = some entry := by
  rw [outboxOf, List.mem_filterMap]
  constructor
  · intro hparts
    obtain ⟨proposal, hproposal, hsettle⟩ := hparts
    obtain rfl := proposal_of_settle hsettle
    exact ⟨hproposal, hsettle⟩
  · intro hparts
    obtain ⟨hproposal, hsettle⟩ := hparts
    exact ⟨entry.proposal, hproposal, hsettle⟩

/-- The outbox keeps the order of the enqueued proposals. -/
theorem outboxOf_sublist (ledger : Ledger Operation Rejection) (knowledge : Knowledge)
    (proposals : List (ProposedOperation Intent)) :
    ((outboxOf ledger knowledge proposals).map OutboxEntry.proposal).Sublist proposals := by
  induction proposals with
  | nil => exact List.Sublist.refl _
  | cons proposal proposals ih =>
      rw [outboxOf, List.filterMap_cons]
      cases hsettle : settle ledger knowledge proposal with
      | none => exact ih.cons _
      | some entry =>
          rw [List.map_cons, proposal_of_settle hsettle]
          exact ih.cons_cons _

theorem outboxOf_nodup (hnodup : (proposals.map fun proposal => proposal.operationId).Nodup) :
    ((outboxOf ledger knowledge proposals).map OutboxEntry.operationId).Nodup := by
  refine hnodup.sublist ?_
  have hsublist := (outboxOf_sublist ledger knowledge proposals).map fun proposal => proposal.operationId
  rw [List.map_map] at hsublist
  exact hsublist

/-! A step of knowledge that concerns one operation leaves the other entries as they are; the next
three lemmas say what it does to the outbox as a whole. -/

section Focus

variable {knowledge' : Knowledge} {operationId : String} (hle : knowledge ≤ knowledge')
  (hothers : ∀ proposal ∈ proposals, proposal.operationId ≠ operationId →
    settle ledger knowledge' proposal = settle ledger knowledge proposal)

include hle hothers in
theorem outboxOf_of_absent
    (habsent : ∀ entry ∈ outboxOf ledger knowledge proposals, entry.operationId ≠ operationId) :
    outboxOf ledger knowledge' proposals = outboxOf ledger knowledge proposals := by
  apply List.filterMap_congr
  intro proposal hproposal
  by_cases hid : proposal.operationId = operationId
  · cases hsettle : settle ledger knowledge proposal with
    | none => exact settle_eq_none_mono hsettle hle
    | some entry =>
        have hne := habsent entry (List.mem_filterMap.mpr ⟨proposal, hproposal, hsettle⟩)
        rw [OutboxEntry.operationId, proposal_of_settle hsettle] at hne
        exact absurd hid hne
  · exact hothers proposal hproposal hid

include hothers in
theorem outboxOf_of_removed
    (hremoved : ∀ proposal ∈ proposals, proposal.operationId = operationId →
      settle ledger knowledge' proposal = none) :
    outboxOf ledger knowledge' proposals =
      (outboxOf ledger knowledge proposals).filter fun entry => entry.operationId ≠ operationId := by
  rw [outboxOf, outboxOf, List.filter_filterMap]
  apply List.filterMap_congr
  intro proposal hproposal
  by_cases hid : proposal.operationId = operationId
  · rw [hremoved proposal hproposal hid]
    cases hsettle : settle ledger knowledge proposal with
    | none => rfl
    | some entry =>
        have hsame : entry.operationId = operationId := by
          rw [OutboxEntry.operationId, proposal_of_settle hsettle, hid]
        simp [Option.filter, hsame]
  · rw [hothers proposal hproposal hid]
    cases hsettle : settle ledger knowledge proposal with
    | none => rfl
    | some entry =>
        have hne : entry.operationId ≠ operationId := by
          rw [OutboxEntry.operationId, proposal_of_settle hsettle]
          exact hid
        simp [Option.filter, hne]

include hothers in
theorem outboxOf_of_replaced {replacement : OutboxEntry Intent Operation}
    (hreplaced : ∀ proposal ∈ proposals, proposal.operationId = operationId →
      ∃ entry, settle ledger knowledge proposal = some entry ∧
        settle ledger knowledge' proposal = some replacement) :
    outboxOf ledger knowledge' proposals =
      (outboxOf ledger knowledge proposals).map fun entry =>
        if entry.operationId = operationId then replacement else entry := by
  rw [outboxOf, outboxOf, List.map_filterMap]
  apply List.filterMap_congr
  intro proposal hproposal
  by_cases hid : proposal.operationId = operationId
  · obtain ⟨entry, hsettle, hnext⟩ := hreplaced proposal hproposal hid
    have hsame : entry.operationId = operationId := by
      rw [OutboxEntry.operationId, proposal_of_settle hsettle, hid]
    rw [hnext, hsettle, Option.map_some, if_pos hsame]
  · rw [hothers proposal hproposal hid]
    cases hsettle : settle ledger knowledge proposal with
    | none => rfl
    | some entry =>
        have hne : entry.operationId ≠ operationId := by
          rw [OutboxEntry.operationId, proposal_of_settle hsettle]
          exact hid
        rw [Option.map_some, if_neg hne]

end Focus

end Outbox

/-! ### A growing ledger -/

section Growth

variable {interpreter : LogInterpreter State Intent Operation Rejection ε} {initialState state : State}
  {ledger new : Ledger Operation Rejection} {knowledge : Knowledge}

theorem recordOf_eq_some_iff
    (hnodup : (ledger.map fun record => record.identity.operationId).Nodup) {operationId : String}
    {record : StoredProposalDecision Operation Rejection} :
    recordOf ledger operationId = some record ↔
      record ∈ ledger ∧ record.identity.operationId = operationId :=
  KeyedList.find?_eq_some_iff hnodup

/-- The record of an operation stays the same. -/
theorem recordOf_append {operationId : String} {record : StoredProposalDecision Operation Rejection}
    (h : recordOf ledger operationId = some record) :
    recordOf (ledger ++ new) operationId = some record := by
  rw [recordOf] at h ⊢
  rw [List.find?_append, h, Option.some_or]

/-- An operation that was undecided when the replica last learned something is not settled. -/
theorem not_settled_append (h : Justified interpreter initialState (ledger ++ new) state)
    (hknowledge : knowledge.From ledger) {proposal : ProposedOperation Intent}
    (hrecord : recordOf ledger proposal.operationId = none) :
    ¬Settled (ledger ++ new) knowledge proposal := by
  intro hparts
  obtain ⟨record, hsome, hknown⟩ := hparts
  have hnone : ∀ old ∈ ledger, old.identity.operationId ≠ proposal.operationId :=
    KeyedList.find?_eq_none_iff.mp hrecord
  rcases hknown with hdecided | ⟨operationId, sequence, operation, haccepted, hthrough⟩
  · obtain ⟨old, hold, hid⟩ := hknowledge.decided _ hdecided
    exact hnone old hold hid
  · -- An entry at or below the prefix stands in the old log, so its record is old.
    obtain ⟨hmem, hid⟩ := (recordOf_eq_some_iff h.operationIds_nodup).mp hsome
    have hentry := StoredProposalDecision.committed?_of_accepted haccepted
    obtain ⟨i, hi, hsequence⟩ := h.getElem?_of_committed? hmem hentry
    have := hknowledge.through
    change sequence = i + 1 at hsequence
    rw [canonicalLog_append, List.getElem?_append_left (by omega)] at hi
    obtain ⟨old, hold, hcommitted⟩ := mem_canonicalLog.mp (List.mem_of_getElem? hi)
    obtain ⟨holdId, -, -⟩ := StoredProposalDecision.committed?_eq_some hcommitted
    exact hnone old hold (holdId.symm.trans hid)

/-- Decisions the replica has not heard of do not change its outbox. -/
theorem settle_append (h : Justified interpreter initialState (ledger ++ new) state)
    (hknowledge : knowledge.From ledger) (proposal : ProposedOperation Intent) :
    settle (ledger ++ new) knowledge proposal = settle ledger knowledge proposal := by
  cases hrecord : recordOf ledger proposal.operationId with
  | some record => rw [settle, settle, recordOf_append hrecord, hrecord]
  | none =>
      rw [settle_of_undecided hrecord]
      exact settle_of_not_settled (not_settled_append h hknowledge hrecord)

theorem outboxOf_append (h : Justified interpreter initialState (ledger ++ new) state)
    (hknowledge : knowledge.From ledger) (proposals : List (ProposedOperation Intent)) :
    outboxOf (ledger ++ new) knowledge proposals = outboxOf ledger knowledge proposals :=
  List.filterMap_congr fun proposal _ => settle_append h hknowledge proposal

end Growth

end SyncEngine
