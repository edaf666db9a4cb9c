import SyncEngine.Model.Server

/-!
# The ledger of permanent decisions

What an authority is for, without its indexes: a ledger of decided operations in the order they were
decided. The canonical log is the accepted part of it. A ledger is justified when every decision in
it is the one the interpreter gives on the state the earlier entries lead to, for an operation
identity and a client position that were not decided before. The stored forms of the authority, maps
and tables, are refinements of this one list.
-/

namespace SyncEngine

open JavaScript

variable {State Intent Operation Rejection ε : Type}

def OperationIdentity.position (identity : OperationIdentity) : String × Int :=
  (identity.clientId, identity.clientSequence)

def OperationOrigin.position (origin : OperationOrigin) : String × Int :=
  (origin.clientId, origin.clientSequence)

structure OperationSubmissionIdentity.Valid (identity : OperationSubmissionIdentity) : Prop where
  operationId : identity.operationId.length ≠ 0
  clientId : identity.clientId.length ≠ 0
  clientSequence : 1 ≤ identity.clientSequence
  safe : identity.clientSequence ≤ maxSafeInteger
  intentHash : identity.intentHash.length ≠ 0

abbrev Ledger (Operation Rejection : Type) := List (StoredProposalDecision Operation Rejection)

def StoredProposalDecision.committed? :
    StoredProposalDecision Operation Rejection → Option (CommittedOperation Operation)
  | ⟨identity, .accepted _ sequence operation⟩ => some {
      sequence := sequence
      operationId := identity.operationId
      origin := {
        clientId := identity.clientId
        clientSequence := identity.clientSequence
        intentHash := identity.intentHash }
      operation := operation }
  | ⟨_, .rejected _ _⟩ => none

def CommittedOperation.submission (entry : CommittedOperation Operation) : OperationSubmissionIdentity where
  operationId := entry.operationId
  clientId := entry.origin.clientId
  clientSequence := entry.origin.clientSequence
  intentHash := entry.origin.intentHash

/-- The accepted record that an entry of the log goes with. -/
def CommittedOperation.decisionRecord (entry : CommittedOperation Operation) :
    StoredProposalDecision Operation Rejection where
  identity := {
    operationId := entry.operationId
    clientId := entry.origin.clientId
    clientSequence := entry.origin.clientSequence
    intentHash := entry.origin.intentHash }
  decision := .accepted entry.operationId entry.sequence entry.operation

def canonicalLog (ledger : Ledger Operation Rejection) : List (CommittedOperation Operation) :=
  ledger.filterMap StoredProposalDecision.committed?

/-- Neither the operation identifier nor the client position occurs in the ledger. -/
def Undecided (ledger : Ledger Operation Rejection) (identity : OperationIdentity) : Prop :=
  ∀ record ∈ ledger, record.identity.operationId ≠ identity.operationId ∧
    record.identity.position ≠ identity.position

/-- Every decision of the ledger is the interpreter's own, taken on the state the ledger had led to. -/
inductive Justified (interpreter : LogInterpreter State Intent Operation Rejection ε)
    (initialState : State) : Ledger Operation Rejection → State → Prop
  | empty : Justified interpreter initialState [] initialState
  | reject {ledger : Ledger Operation Rejection} {state : State}
      (hledger : Justified interpreter initialState ledger state)
      (proposal : ProposedOperation Intent) (reason : Rejection)
      (hvalid : proposal.toOperationSubmissionIdentity.Valid)
      (hundecided : Undecided ledger proposal.toOperationIdentity)
      (hdecide : interpreter.decide state proposal = .ok (.rejected reason)) :
      Justified interpreter initialState
        (ledger ++ [⟨proposal.toOperationSubmissionIdentity, .rejected proposal.operationId reason⟩])
        state
  | accept {ledger : Ledger Operation Rejection} {state next : State}
      (hledger : Justified interpreter initialState ledger state)
      (proposal : ProposedOperation Intent) (operation : Operation)
      (hvalid : proposal.toOperationSubmissionIdentity.Valid)
      (hundecided : Undecided ledger proposal.toOperationIdentity)
      (hdecide : interpreter.decide state proposal = .ok (.accepted operation))
      (happly : interpreter.apply state operation = .ok next) :
      Justified interpreter initialState
        (ledger ++ [⟨proposal.toOperationSubmissionIdentity,
          .accepted proposal.operationId ((canonicalLog ledger).length + 1) operation⟩])
        next

/-! ### The canonical log -/

@[simp] theorem canonicalLog_nil : canonicalLog ([] : Ledger Operation Rejection) = [] := rfl

@[simp] theorem canonicalLog_append (first second : Ledger Operation Rejection) :
    canonicalLog (first ++ second) = canonicalLog first ++ canonicalLog second :=
  List.filterMap_append

@[simp] theorem canonicalLog_rejected (identity : OperationSubmissionIdentity) (operationId : String)
    (reason : Rejection) :
    canonicalLog [(⟨identity, .rejected operationId reason⟩ : StoredProposalDecision Operation Rejection)]
      = [] := rfl

@[simp] theorem canonicalLog_accepted (proposal : ProposedOperation Intent) (sequence : Int)
    (operation : Operation) :
    canonicalLog [(⟨proposal.toOperationSubmissionIdentity,
        .accepted proposal.operationId sequence operation⟩ : StoredProposalDecision Operation Rejection)]
      = [proposal.committedAt sequence operation] := rfl

theorem mem_canonicalLog {ledger : Ledger Operation Rejection} {entry : CommittedOperation Operation} :
    entry ∈ canonicalLog ledger ↔ ∃ record ∈ ledger, record.committed? = some entry :=
  List.mem_filterMap

theorem StoredProposalDecision.committed?_eq_some {record : StoredProposalDecision Operation Rejection}
    {entry : CommittedOperation Operation} (h : record.committed? = some entry) :
    entry.operationId = record.identity.operationId ∧
    entry.origin = ⟨record.identity.clientId, record.identity.clientSequence,
      record.identity.intentHash⟩ ∧
    ∃ operationId, record.decision = .accepted operationId entry.sequence entry.operation := by
  obtain ⟨identity, decision⟩ := record
  cases decision with
  | accepted operationId sequence operation =>
      obtain rfl := Option.some.inj h
      exact ⟨rfl, rfl, operationId, rfl⟩
  | rejected => simp [committed?] at h

theorem canonicalLog_distinct {ledger : Ledger Operation Rejection}
    (h : ledger.Pairwise fun earlier later => earlier.identity.operationId ≠ later.identity.operationId ∧
      earlier.identity.position ≠ later.identity.position) :
    (canonicalLog ledger).Pairwise fun earlier later =>
      earlier.operationId ≠ later.operationId ∧ earlier.origin.position ≠ later.origin.position := by
  refine List.pairwise_filterMap.mpr (h.imp ?_)
  intro earlier later hparts entry hentry entry' hentry'
  obtain ⟨hid, hposition⟩ := hparts
  obtain ⟨he, horigin, -⟩ := StoredProposalDecision.committed?_eq_some hentry
  obtain ⟨he', horigin', -⟩ := StoredProposalDecision.committed?_eq_some hentry'
  rw [he, he', horigin, horigin']
  exact ⟨hid, hposition⟩

theorem StoredProposalDecision.committed?_of_accepted
    {record : StoredProposalDecision Operation Rejection} {operationId : String} {sequence : Int}
    {operation : Operation} (h : record.decision = .accepted operationId sequence operation) :
    record.committed? = some {
      sequence := sequence
      operationId := record.identity.operationId
      origin := ⟨record.identity.clientId, record.identity.clientSequence,
        record.identity.intentHash⟩
      operation := operation } := by
  obtain ⟨identity, decision⟩ := record
  obtain rfl : decision = .accepted operationId sequence operation := h
  rfl

theorem StoredProposalDecision.committed?_eq_some_iff
    {record : StoredProposalDecision Operation Rejection}
    (hown : record.decision.operationId = record.identity.operationId)
    {entry : CommittedOperation Operation} :
    record.committed? = some entry ↔ record = entry.decisionRecord := by
  constructor
  · intro h
    obtain ⟨identity, decision⟩ := record
    cases decision with
    | accepted operationId sequence operation =>
        obtain rfl := Option.some.inj h
        obtain rfl : operationId = identity.operationId := hown
        rfl
    | rejected => simp [committed?] at h
  · rintro rfl
    rfl

/-! ### What a justified ledger satisfies -/

section Justified

variable {interpreter : LogInterpreter State Intent Operation Rejection ε} {initialState state : State}
  {ledger : Ledger Operation Rejection}

/-- The rule every fact about single records follows from: a record is appended undecided. -/
theorem Justified.pairwise_identity (h : Justified interpreter initialState ledger state) :
    ledger.Pairwise fun earlier later =>
      earlier.identity.operationId ≠ later.identity.operationId ∧
        earlier.identity.position ≠ later.identity.position := by
  induction h with
  | empty => exact List.Pairwise.nil
  | reject _ proposal reason _ hundecided _ ih =>
      rw [List.pairwise_append]
      refine ⟨ih, List.pairwise_singleton _ _, fun record hrecord later hlater => ?_⟩
      obtain rfl := List.mem_singleton.mp hlater
      exact hundecided record hrecord
  | accept _ proposal operation _ hundecided _ _ ih =>
      rw [List.pairwise_append]
      refine ⟨ih, List.pairwise_singleton _ _, fun record hrecord later hlater => ?_⟩
      obtain rfl := List.mem_singleton.mp hlater
      exact hundecided record hrecord

/-- A property of single records that both kinds of new record have holds of the whole ledger. -/
theorem Justified.forall_record (h : Justified interpreter initialState ledger state)
    {P : StoredProposalDecision Operation Rejection → Prop}
    (hreject : ∀ (proposal : ProposedOperation Intent) reason,
      proposal.toOperationSubmissionIdentity.Valid →
        P ⟨proposal.toOperationSubmissionIdentity, .rejected proposal.operationId reason⟩)
    (haccept : ∀ (proposal : ProposedOperation Intent) (length : Nat) operation,
      proposal.toOperationSubmissionIdentity.Valid →
        P ⟨proposal.toOperationSubmissionIdentity,
          .accepted proposal.operationId (length + 1) operation⟩) :
    ∀ record ∈ ledger, P record := by
  induction h with
  | empty => simp
  | reject _ proposal reason hvalid _ _ ih =>
      intro record hrecord
      rcases List.mem_append.mp hrecord with hold | hnew
      · exact ih record hold
      · obtain rfl := List.mem_singleton.mp hnew
        exact hreject proposal reason hvalid
  | accept _ proposal operation hvalid _ _ _ ih =>
      intro record hrecord
      rcases List.mem_append.mp hrecord with hold | hnew
      · exact ih record hold
      · obtain rfl := List.mem_singleton.mp hnew
        exact haccept proposal _ operation hvalid

theorem Justified.valid (h : Justified interpreter initialState ledger state) :
    ∀ record ∈ ledger, record.identity.Valid :=
  h.forall_record (fun _ _ hvalid => hvalid) fun _ _ _ hvalid => hvalid

theorem Justified.decision_operationId (h : Justified interpreter initialState ledger state) :
    ∀ record ∈ ledger, record.decision.operationId = record.identity.operationId :=
  h.forall_record (fun _ _ _ => rfl) fun _ _ _ _ => rfl

theorem Justified.operationIds_nodup (h : Justified interpreter initialState ledger state) :
    (ledger.map fun record => record.identity.operationId).Nodup :=
  List.pairwise_map.mpr (h.pairwise_identity.imp fun hne => hne.1)

theorem Justified.positions_nodup (h : Justified interpreter initialState ledger state) :
    (ledger.map fun record => record.identity.position).Nodup :=
  List.pairwise_map.mpr (h.pairwise_identity.imp fun hne => hne.2)

/-- The entry at index `i` of the canonical log has sequence `i + 1`. -/
theorem Justified.sequence_eq (h : Justified interpreter initialState ledger state) {i : Nat}
    {entry : CommittedOperation Operation} (hentry : (canonicalLog ledger)[i]? = some entry) :
    entry.sequence = i + 1 := by
  induction h with
  | empty => simp at hentry
  | reject _ _ _ _ _ _ ih =>
      rw [canonicalLog_append, canonicalLog_rejected, List.append_nil] at hentry
      exact ih hentry
  | @accept ledger _ _ _ proposal operation _ _ _ _ ih =>
      rw [canonicalLog_append, canonicalLog_accepted, List.getElem?_append] at hentry
      split at hentry
      · exact ih hentry
      · rename_i hlength
        obtain hi : i = (canonicalLog ledger).length := by
          by_contra hne
          rw [List.getElem?_eq_none (by simp; omega)] at hentry
          simp at hentry
        subst hi
        rw [Nat.sub_self] at hentry
        obtain rfl := Option.some.inj hentry
        rfl

/-- The state is the fold of `apply` over the canonical log. -/
theorem Justified.foldlM_apply (h : Justified interpreter initialState ledger state) :
    (canonicalLog ledger).foldlM (fun state entry => interpreter.apply state entry.operation)
      initialState = .ok state := by
  induction h with
  | empty => rfl
  | reject _ _ _ _ _ _ ih =>
      rw [canonicalLog_append, canonicalLog_rejected, List.append_nil]
      exact ih
  | accept _ proposal operation _ _ _ happly ih =>
      rw [canonicalLog_append, canonicalLog_accepted, List.foldlM_append, ih]
      change (interpreter.apply _ operation >>= fun state => pure state) = _
      rw [happly]
      rfl

theorem Justified.getElem?_of_committed? (h : Justified interpreter initialState ledger state)
    {record : StoredProposalDecision Operation Rejection} (hrecord : record ∈ ledger)
    {entry : CommittedOperation Operation} (hentry : record.committed? = some entry) :
    ∃ i : Nat, (canonicalLog ledger)[i]? = some entry ∧ entry.sequence = i + 1 := by
  obtain ⟨i, hi⟩ := List.getElem?_of_mem (mem_canonicalLog.mpr ⟨record, hrecord, hentry⟩)
  exact ⟨i, hi, h.sequence_eq hi⟩

theorem Justified.mem_log_iff (h : Justified interpreter initialState ledger state)
    {entry : CommittedOperation Operation} :
    entry ∈ canonicalLog ledger ↔ entry.decisionRecord ∈ ledger := by
  rw [mem_canonicalLog]
  constructor
  · intro hparts
    obtain ⟨record, hrecord, hsome⟩ := hparts
    rwa [← (StoredProposalDecision.committed?_eq_some_iff (h.decision_operationId record hrecord)).mp hsome]
  · intro hrecord
    exact ⟨entry.decisionRecord, hrecord, rfl⟩

theorem Justified.committed?_of_operationId (h : Justified interpreter initialState ledger state)
    {entry : CommittedOperation Operation} (hentry : entry ∈ canonicalLog ledger)
    {record : StoredProposalDecision Operation Rejection} (hrecord : record ∈ ledger)
    (hid : record.identity.operationId = entry.operationId) : record.committed? = some entry := by
  obtain ⟨other, hother, hsome⟩ := mem_canonicalLog.mp hentry
  obtain ⟨hotherId, -, -⟩ := StoredProposalDecision.committed?_eq_some hsome
  obtain rfl := List.inj_on_of_nodup_map h.operationIds_nodup hrecord hother (hid.trans hotherId)
  exact hsome

theorem Justified.log_distinct (h : Justified interpreter initialState ledger state) :
    (canonicalLog ledger).Pairwise fun earlier later =>
      earlier.operationId ≠ later.operationId ∧ earlier.origin.position ≠ later.origin.position :=
  canonicalLog_distinct h.pairwise_identity

theorem Justified.index_eq_of_operationId (h : Justified interpreter initialState ledger state)
    {i j : Nat} {entry entry' : CommittedOperation Operation}
    (hi : (canonicalLog ledger)[i]? = some entry) (hj : (canonicalLog ledger)[j]? = some entry')
    (hid : entry.operationId = entry'.operationId) : i = j := by
  have hnodup : ((canonicalLog ledger).map fun entry => entry.operationId).Nodup :=
    List.pairwise_map.mpr (h.log_distinct.imp fun hne => hne.1)
  obtain rfl := List.inj_on_of_nodup_map hnodup (List.mem_of_getElem? hi) (List.mem_of_getElem? hj) hid
  have hsequence := h.sequence_eq hi
  have hsequence' := h.sequence_eq hj
  omega

theorem Justified.pairwise_sequence (h : Justified interpreter initialState ledger state) :
    ledger.Pairwise fun earlier later => ∀ entry entry', earlier.committed? = some entry →
      later.committed? = some entry' → entry.sequence < entry'.sequence := by
  induction h with
  | empty => exact List.Pairwise.nil
  | reject _ _ _ _ _ _ ih =>
      rw [List.pairwise_append]
      refine ⟨ih, List.pairwise_singleton _ _, fun record _ later hlater entry entry' _ h' => ?_⟩
      obtain rfl := List.mem_singleton.mp hlater
      simp [StoredProposalDecision.committed?] at h'
  | @accept ledger _ _ hledger proposal operation _ _ _ _ ih =>
      rw [List.pairwise_append]
      refine ⟨ih, List.pairwise_singleton _ _, fun record hrecord later hlater entry entry' h h' => ?_⟩
      obtain rfl := List.mem_singleton.mp hlater
      obtain ⟨i, hi, hsequence⟩ := hledger.getElem?_of_committed? hrecord h
      obtain ⟨hlt, -⟩ := List.getElem?_eq_some_iff.mp hi
      obtain rfl := Option.some.inj h'
      change entry.sequence < ((canonicalLog ledger).length : Int) + 1
      omega

/-- The state below any record: the ledger before it is justified too. -/
theorem Justified.exists_state {first second : Ledger Operation Rejection}
    (h : Justified interpreter initialState (first ++ second) state) :
    ∃ earlier, Justified interpreter initialState first earlier := by
  generalize hledger : first ++ second = ledger at h
  induction h generalizing second with
  | empty =>
      rw [(List.append_eq_nil_iff.mp hledger).1]
      exact ⟨_, .empty⟩
  | reject hprev proposal reason hvalid hundecided hdecide ih =>
      rcases List.eq_nil_or_concat second with rfl | ⟨rest, last, rfl⟩
      · rw [List.append_nil] at hledger
        exact ⟨_, hledger ▸ hprev.reject proposal reason hvalid hundecided hdecide⟩
      · rw [List.concat_eq_append, ← List.append_assoc] at hledger
        exact ih (List.append_inj' hledger rfl).1
  | accept hprev proposal operation hvalid hundecided hdecide happly ih =>
      rcases List.eq_nil_or_concat second with rfl | ⟨rest, last, rfl⟩
      · rw [List.append_nil] at hledger
        exact ⟨_, hledger ▸ hprev.accept proposal operation hvalid hundecided hdecide happly⟩
      · rw [List.concat_eq_append, ← List.append_assoc] at hledger
        exact ih (List.append_inj' hledger rfl).1

/-- The ledger alone determines the state it leads to. -/
theorem Justified.state_unique {state' : State}
    (h : Justified interpreter initialState ledger state) {ledger' : Ledger Operation Rejection}
    (h' : Justified interpreter initialState ledger' state')
    (hlog : canonicalLog ledger = canonicalLog ledger') : state = state' := by
  have hfold := h.foldlM_apply
  rw [hlog, h'.foldlM_apply] at hfold
  exact (Except.ok.inj hfold).symm

end Justified

end SyncEngine
