import SyncEngine.Proof.Response
import SyncEngine.Spec.Knowledge

/-!
# Merging an honest response

The three passes of `mergeSyncResponse` on a replica whose outbox is the one its knowledge gives: a
decision adds an operation to the decided ones, an entry beyond the confirmed prefix lengthens it, an
entry inside the prefix changes nothing, and the final reconciliation finds nothing left to drop. A
merge can only throw where the application does, or where its equality refuses an operation that is
the same.
-/

namespace SyncEngine

open JavaScript Throwing

variable {State Intent Operation Rejection ε : Type}

/-- The application's equality accepts every operation as equal to itself. -/
def ReplicaInterpreter.Reflexive (replica : ReplicaInterpreter State Intent Operation ε) : Prop :=
  ∀ operation, replica.areCommittedOperationsEqual operation operation = true

/-- Some operation is still pending under this identifier. -/
def awaits (outbox : List (OutboxEntry Intent Operation)) (operationId : String) : Bool :=
  outbox.any fun
    | .pending proposal => proposal.operationId = operationId
    | .accepted _ _ _ => false

def announce (outbox : List (OutboxEntry Intent Operation))
    (decision : ProposalDecision Operation Rejection) : List (ProposalDecision Operation Rejection) :=
  if awaits outbox decision.operationId then [decision] else []

def CommittedOperation.decision (entry : CommittedOperation Operation) :
    ProposalDecision Operation Rejection :=
  .accepted entry.operationId entry.sequence entry.operation

theorem announce_of_awaits {outbox : List (OutboxEntry Intent Operation)}
    (decision : ProposalDecision Operation Rejection) {operationId : String}
    (hid : operationId = decision.operationId) (h : awaits outbox operationId = true) :
    announce outbox decision = [decision] := by
  rw [announce, if_pos (hid ▸ h)]

theorem announce_of_not_awaits {outbox : List (OutboxEntry Intent Operation)}
    (decision : ProposalDecision Operation Rejection) {operationId : String}
    (hid : operationId = decision.operationId) (h : awaits outbox operationId = false) :
    announce outbox decision = [] := by
  rw [announce, if_neg (by rw [← hid, h]; simp)]

def decidedIds (decisions : List (ProposalDecision Operation Rejection)) : Finset String :=
  (decisions.map ProposalDecision.operationId).toFinset

def RecordsOwn (ledger : Ledger Operation Rejection) (proposals : List (ProposedOperation Intent)) :
    Prop :=
  ∀ record ∈ ledger, ∀ proposal ∈ proposals, record.identity.operationId = proposal.operationId →
    record.identity = proposal.toOperationSubmissionIdentity

section Passes

variable {interpreter : LogInterpreter State Intent Operation Rejection ε} {initialState state : State}
  {ledger : Ledger Operation Rejection} (hledger : Justified interpreter initialState ledger state)
  (replica : ReplicaInterpreter State Intent Operation ε) {proposals : List (ProposedOperation Intent)}
  (hnodup : (proposals.map fun proposal => proposal.operationId).Nodup)

theorem awaits_outboxOf {knowledge : Knowledge} {operationId : String} :
    awaits (outboxOf ledger knowledge proposals) operationId = true ↔
      ∃ proposal ∈ proposals, proposal.operationId = operationId ∧ ¬Settled ledger knowledge proposal := by
  rw [awaits, List.any_eq_true]
  constructor
  · intro hparts
    obtain ⟨entry, hentry, hawaits⟩ := hparts
    obtain ⟨hproposal, hsettle⟩ := mem_outboxOf.mp hentry
    cases entry with
    | pending proposal =>
        exact ⟨proposal, hproposal, by simpa using hawaits, settle_eq_pending_iff.mp hsettle⟩
    | accepted => simp at hawaits
  · intro hparts
    obtain ⟨proposal, hproposal, hid, hsettled⟩ := hparts
    exact ⟨.pending proposal, mem_outboxOf.mpr ⟨hproposal, settle_of_not_settled hsettled⟩, by simpa using hid⟩

theorem awaits_congr {knowledge knowledge' : Knowledge} {operationId : String}
    (h : ∀ proposal ∈ proposals, proposal.operationId = operationId →
      (Settled ledger knowledge proposal ↔ Settled ledger knowledge' proposal)) :
    awaits (outboxOf ledger knowledge proposals) operationId =
      awaits (outboxOf ledger knowledge' proposals) operationId := by
  rw [Bool.eq_iff_iff, awaits_outboxOf, awaits_outboxOf]
  refine exists_congr fun proposal => and_congr_right fun hproposal => and_congr_right fun hid => ?_
  rw [h proposal hproposal hid]

/-! ### Decisions -/

/-- A received decision makes one more operation decided. -/
def Knowledge.learn (knowledge : Knowledge) (operationId : String) : Knowledge :=
  { knowledge with decided := insert operationId knowledge.decided }

theorem le_learn (knowledge : Knowledge) (operationId : String) : knowledge ≤ knowledge.learn operationId :=
  ⟨Nat.le_refl _, Finset.subset_insert _ _⟩

theorem settle_learn_of_ne {knowledge : Knowledge} {operationId : String}
    {proposal : ProposedOperation Intent} (hid : proposal.operationId ≠ operationId) :
    settle ledger (knowledge.learn operationId) proposal = settle ledger knowledge proposal :=
  settle_congr rfl (by simp [Knowledge.learn, hid])

theorem awaits_eq_false {outbox : List (OutboxEntry Intent Operation)} {operationId : String}
    (h : ∀ entry ∈ outbox, entry.operationId ≠ operationId) : awaits outbox operationId = false := by
  rw [awaits, List.any_eq_false]
  intro entry hentry
  cases entry with
  | pending proposal => simpa using h _ hentry
  | accepted => simp

theorem awaits_of_pending {outbox : List (OutboxEntry Intent Operation)}
    {proposal : ProposedOperation Intent} (h : .pending proposal ∈ outbox) :
    awaits outbox proposal.operationId = true :=
  List.any_eq_true.mpr ⟨_, h, by simp⟩

include hnodup in
theorem awaits_of_accepted {knowledge : Knowledge} {proposal : ProposedOperation Intent} {sequence : Int}
    {operation : Operation}
    (h : .accepted proposal sequence operation ∈ outboxOf ledger knowledge proposals) :
    awaits (outboxOf ledger knowledge proposals) proposal.operationId = false := by
  rw [Bool.eq_false_iff]
  intro hawaits
  obtain ⟨other, hother, hid, hsettled⟩ := awaits_outboxOf.mp hawaits
  obtain ⟨hproposal, hsettle⟩ := mem_outboxOf.mp h
  obtain rfl := KeyedList.eq_of_key_eq hnodup hother hproposal hid
  rw [OutboxEntry.proposal_accepted, settle_of_not_settled hsettled] at hsettle
  simp at hsettle

theorem mergeDecision_of_absent {outbox : List (OutboxEntry Intent Operation)}
    {newlyResolved : List (ProposalDecision Operation Rejection)}
    {decision : ProposalDecision Operation Rejection}
    (habsent : ∀ entry ∈ outbox, entry.operationId ≠ decision.operationId) :
    mergeDecision replica ⟨outbox, newlyResolved⟩ decision = .ok ⟨outbox, newlyResolved⟩ := by
  rw [mergeDecision, KeyedList.findIdx?_eq_none habsent]

theorem mergeDecision_of_mem {outbox : List (OutboxEntry Intent Operation)}
    (hids : (outbox.map OutboxEntry.operationId).Nodup)
    (newlyResolved : List (ProposalDecision Operation Rejection))
    (decision : ProposalDecision Operation Rejection) {entry : OutboxEntry Intent Operation}
    (hentry : entry ∈ outbox) (hid : entry.operationId = decision.operationId) :
    ∃ index, (outbox.findIdx? fun entry => entry.operationId = decision.operationId) = some index ∧
      mergeDecision replica ⟨outbox, newlyResolved⟩ decision =
        mergeDecisionInto replica ⟨outbox, newlyResolved⟩ index entry decision := by
  obtain ⟨index, hfind, hget⟩ := KeyedList.exists_findIdx? hids hentry hid
  refine ⟨index, hfind, ?_⟩
  simp only [mergeDecision, hfind, hget]

theorem mem_outboxOf_of_settle {knowledge : Knowledge} {proposal : ProposedOperation Intent}
    (hproposal : proposal ∈ proposals) {entry : OutboxEntry Intent Operation}
    (hsettle : settle ledger knowledge proposal = some entry) :
    entry ∈ outboxOf ledger knowledge proposals :=
  List.mem_filterMap.mpr ⟨proposal, hproposal, hsettle⟩

include hledger hnodup in
theorem mergeDecision_rejected {record : StoredProposalDecision Operation Rejection}
    (hrecord : record ∈ ledger) {operationId : String} {reason : Rejection}
    (hdecision : record.decision = .rejected operationId reason) {knowledge : Knowledge}
    {proposal : ProposedOperation Intent} (hproposal : proposal ∈ proposals)
    (hid : proposal.operationId = operationId)
    (hpresent : settle ledger knowledge proposal ≠ none)
    (newlyResolved : List (ProposalDecision Operation Rejection)) :
    mergeDecision (ε := ε) replica ⟨outboxOf ledger knowledge proposals, newlyResolved⟩
        (.rejected operationId reason) =
      .ok ⟨outboxOf ledger (knowledge.learn operationId) proposals,
        newlyResolved ++ announce (outboxOf ledger knowledge proposals) (.rejected operationId reason)⟩ := by
  have hown := hledger.decision_operationId record hrecord
  rw [hdecision, ProposalDecision.operationId_rejected, ← hid] at hown
  have hrecordOf : recordOf ledger proposal.operationId = some record :=
    (recordOf_eq_some_iff hledger.operationIds_nodup).mpr ⟨hrecord, hown.symm⟩
  have hsettle : settle ledger knowledge proposal = some (.pending proposal) := by
    rw [settle_of_rejected hrecordOf hdecision] at hpresent ⊢
    rw [ite_ne_left_iff] at hpresent
    exact if_neg hpresent.1
  have hentry := mem_outboxOf_of_settle hproposal hsettle
  have hremoved : ∀ other ∈ proposals, other.operationId = operationId →
      settle ledger (knowledge.learn operationId) other = none := by
    intro other hother hsame
    obtain rfl := KeyedList.eq_of_key_eq hnodup hother hproposal (hsame.trans hid.symm)
    rw [settle_of_rejected hrecordOf hdecision, if_pos]
    simp [Knowledge.learn, hsame]
  obtain ⟨index, hfind, hmerge⟩ := mergeDecision_of_mem (ε := ε) replica (outboxOf_nodup hnodup)
    newlyResolved (.rejected operationId reason) hentry hid
  rw [hmerge, mergeDecisionInto, KeyedList.eraseIdx_of_findIdx? (outboxOf_nodup hnodup) hfind,
    outboxOf_of_removed (fun _ _ hne => settle_learn_of_ne hne) hremoved,
    announce_of_awaits _ hid (awaits_of_pending hentry)]
  rfl

include hledger hnodup in
theorem mergeDecision_accepted {record : StoredProposalDecision Operation Rejection}
    (hrecord : record ∈ ledger) {operationId : String} {sequence : Int} {operation : Operation}
    (hdecision : record.decision = .accepted operationId sequence operation) {knowledge : Knowledge}
    {proposal : ProposedOperation Intent} (hproposal : proposal ∈ proposals)
    (hid : proposal.operationId = operationId)
    (hpresent : settle ledger knowledge proposal ≠ none)
    (newlyResolved : List (ProposalDecision Operation Rejection)) :
    Unless (¬replica.Reflexive)
      (mergeDecision (ε := ε) replica ⟨outboxOf ledger knowledge proposals, newlyResolved⟩
        (.accepted operationId sequence operation))
      (.ok ⟨outboxOf ledger (knowledge.learn operationId) proposals, newlyResolved ++
        announce (outboxOf ledger knowledge proposals) (.accepted operationId sequence operation)⟩) := by
  have hown := hledger.decision_operationId record hrecord
  rw [hdecision, ProposalDecision.operationId_accepted, ← hid] at hown
  have hrecordOf : recordOf ledger proposal.operationId = some record :=
    (recordOf_eq_some_iff hledger.operationIds_nodup).mpr ⟨hrecord, hown.symm⟩
  have hbeyond : ¬sequence ≤ knowledge.through := by
    intro hle
    rw [settle_of_accepted hrecordOf hdecision, if_pos hle] at hpresent
    exact hpresent rfl
  have hlearned : ∀ other ∈ proposals, other.operationId = operationId →
      settle ledger (knowledge.learn operationId) other = some (.accepted proposal sequence operation) := by
    intro other hother hsame
    obtain rfl := KeyedList.eq_of_key_eq hnodup hother hproposal (hsame.trans hid.symm)
    rw [settle_of_accepted hrecordOf hdecision, if_neg (by exact hbeyond), if_pos]
    simp [Knowledge.learn, hsame]
  by_cases hdecided : proposal.operationId ∈ knowledge.decided
  · -- The receipt is known already: only the comparison of the operation with itself can fail.
    have hsettle : settle ledger knowledge proposal = some (.accepted proposal sequence operation) := by
      rw [settle_of_accepted hrecordOf hdecision, if_neg hbeyond, if_pos hdecided]
    have hentry := mem_outboxOf_of_settle hproposal hsettle
    have hknown : knowledge.learn operationId = knowledge := by
      rw [Knowledge.learn, Finset.insert_eq_of_mem (hid ▸ hdecided)]
    obtain ⟨index, -, hmerge⟩ := mergeDecision_of_mem (ε := ε) replica (outboxOf_nodup hnodup)
      newlyResolved (.accepted operationId sequence operation) hentry hid
    rw [hmerge, mergeDecisionInto, hknown,
      announce_of_not_awaits _ hid (awaits_of_accepted hnodup hentry), List.append_nil]
    refine (Unless.throwIf ?_).bind_ok (.refl _)
    intro hcase hreflexive
    rcases hcase with hne | hunequal
    · exact hne rfl
    · rw [operationsAreEqual, hreflexive] at hunequal
      exact absurd hunequal (by simp)
  · have hsettle : settle ledger knowledge proposal = some (.pending proposal) := by
      rw [settle_of_accepted hrecordOf hdecision, if_neg hbeyond, if_neg hdecided]
    have hentry := mem_outboxOf_of_settle hproposal hsettle
    obtain ⟨index, hfind, hmerge⟩ := mergeDecision_of_mem (ε := ε) replica (outboxOf_nodup hnodup)
      newlyResolved (.accepted operationId sequence operation) hentry hid
    have hreplaced : ∀ other ∈ proposals, other.operationId = operationId →
        ∃ entry, settle ledger knowledge other = some entry ∧
          settle ledger (knowledge.learn operationId) other =
            some (.accepted proposal sequence operation) := by
      intro other hother hsame
      obtain rfl := KeyedList.eq_of_key_eq hnodup hother hproposal (hsame.trans hid.symm)
      exact ⟨_, hsettle, hlearned _ hother hsame⟩
    apply Unless.of_eq
    rw [hmerge, mergeDecisionInto, KeyedList.set_of_findIdx? (outboxOf_nodup hnodup) hfind,
      outboxOf_of_replaced (fun _ _ hne => settle_learn_of_ne hne) hreplaced,
      announce_of_awaits _ hid (awaits_of_pending hentry)]
    rfl

include hledger hnodup in
/-- The step lemma of the decision loop. -/
theorem mergeDecision_unless {record : StoredProposalDecision Operation Rejection}
    (hrecord : record ∈ ledger) (knowledge : Knowledge)
    (newlyResolved : List (ProposalDecision Operation Rejection)) :
    Unless (¬replica.Reflexive)
      (mergeDecision (ε := ε) replica ⟨outboxOf ledger knowledge proposals, newlyResolved⟩ record.decision)
      (.ok ⟨outboxOf ledger (knowledge.learn record.decision.operationId) proposals,
        newlyResolved ++ announce (outboxOf ledger knowledge proposals) record.decision⟩) := by
  by_cases hpresent : ∃ proposal ∈ proposals, proposal.operationId = record.decision.operationId ∧
      settle ledger knowledge proposal ≠ none
  · obtain ⟨proposal, hproposal, hid, hsettle⟩ := hpresent
    cases hdecision : record.decision with
    | rejected operationId reason =>
        rw [hdecision] at hid
        exact .of_eq (mergeDecision_rejected hledger replica hnodup hrecord hdecision hproposal hid
          hsettle newlyResolved)
    | accepted operationId sequence operation =>
        rw [hdecision] at hid
        exact mergeDecision_accepted hledger replica hnodup hrecord hdecision hproposal hid hsettle
          newlyResolved
  · have habsent : ∀ entry ∈ outboxOf ledger knowledge proposals,
        entry.operationId ≠ record.decision.operationId := by
      intro entry hentry hid
      obtain ⟨hproposal, hsettle⟩ := mem_outboxOf.mp hentry
      exact hpresent ⟨entry.proposal, hproposal, hid, by rw [hsettle]; simp⟩
    apply Unless.of_eq
    rw [mergeDecision_of_absent replica habsent,
      outboxOf_of_absent (le_learn _ _) (fun _ _ hne => settle_learn_of_ne hne) habsent,
      announce_of_not_awaits _ rfl (awaits_eq_false habsent), List.append_nil]

def Knowledge.learnAll (knowledge : Knowledge) (operationIds : Finset String) : Knowledge :=
  { knowledge with decided := knowledge.decided ∪ operationIds }

include hledger hnodup in
/-- The decision loop. -/
theorem mergeDecisions_unless {decisions : List (ProposalDecision Operation Rejection)}
    (hhonest : ∀ decision ∈ decisions, ∃ record ∈ ledger, record.decision = decision)
    (hdistinct : (decisions.map ProposalDecision.operationId).Nodup) (knowledge : Knowledge)
    (newlyResolved : List (ProposalDecision Operation Rejection)) :
    Unless (¬replica.Reflexive)
      (decisions.foldlM (mergeDecision (ε := ε) replica)
        ⟨outboxOf ledger knowledge proposals, newlyResolved⟩)
      (.ok ⟨outboxOf ledger (knowledge.learnAll (decidedIds decisions)) proposals,
        newlyResolved ++ decisions.flatMap (announce (outboxOf ledger knowledge proposals))⟩) := by
  induction decisions generalizing knowledge newlyResolved with
  | nil =>
      have hsame : knowledge.learnAll (decidedIds ([] : List (ProposalDecision Operation Rejection))) =
          knowledge := by simp [Knowledge.learnAll, decidedIds]
      rw [hsame]
      exact .of_eq (by simp)
  | cons decision decisions ih =>
      rw [List.forall_mem_cons] at hhonest
      rw [List.map_cons, List.nodup_cons] at hdistinct
      obtain ⟨⟨record, hrecord, rfl⟩, hrest⟩ := hhonest
      rw [List.foldlM_cons]
      refine (mergeDecision_unless hledger replica hnodup hrecord knowledge newlyResolved).bind_ok ?_
      have hnext := ih hrest hdistinct.2 (knowledge.learn record.decision.operationId)
        (newlyResolved ++ announce (outboxOf ledger knowledge proposals) record.decision)
      have hknowledge : (knowledge.learn record.decision.operationId).learnAll (decidedIds decisions) =
          knowledge.learnAll (decidedIds (record.decision :: decisions)) := by
        rw [Knowledge.learnAll, Knowledge.learnAll, Knowledge.learn, decidedIds, decidedIds,
          List.map_cons, List.toFinset_cons, Finset.insert_union, Finset.union_insert]
      -- Settling one operation does not touch the announcements of the others.
      have hannounce : ∀ later ∈ decisions,
          announce (outboxOf ledger (knowledge.learn record.decision.operationId) proposals) later =
            announce (outboxOf ledger knowledge proposals) later := by
        intro later hlater
        have hne : later.operationId ≠ record.decision.operationId :=
          fun hsame => hdistinct.1 (hsame ▸ List.mem_map_of_mem hlater)
        rw [announce, announce, awaits_congr]
        intro proposal _ hid
        exact settled_congr rfl (by simp [Knowledge.learn, hid, hne])
      rw [List.flatMap_cons, ← List.append_assoc, ← hknowledge, ← List.flatMap_congr hannounce]
      exact hnext

/-! ### Entries -/

/-- One more entry of the log is confirmed. -/
def Knowledge.advance (knowledge : Knowledge) : Knowledge :=
  { knowledge with through := knowledge.through + 1 }

theorem le_advance (knowledge : Knowledge) : knowledge ≤ knowledge.advance :=
  ⟨Nat.le_succ _, Finset.Subset.refl _⟩

theorem resolveOutboxFromCommitted_of_absent {outbox : List (OutboxEntry Intent Operation)}
    {newlyResolved : List (ProposalDecision Operation Rejection)} {committed : CommittedOperation Operation}
    (habsent : ∀ entry ∈ outbox, entry.operationId ≠ committed.operationId) :
    resolveOutboxFromCommitted replica ⟨outbox, newlyResolved⟩ committed =
      .ok ⟨outbox, newlyResolved⟩ := by
  rw [resolveOutboxFromCommitted, KeyedList.findIdx?_eq_none habsent]

theorem resolveOutboxFromCommitted_of_mem {outbox : List (OutboxEntry Intent Operation)}
    (hids : (outbox.map OutboxEntry.operationId).Nodup)
    {newlyResolved : List (ProposalDecision Operation Rejection)}
    {committed : CommittedOperation Operation} {entry : OutboxEntry Intent Operation}
    (hentry : entry ∈ outbox) (hid : entry.operationId = committed.operationId) :
    resolveOutboxFromCommitted replica ⟨outbox, newlyResolved⟩ committed = (do
      let learnedFromLog ← resolveEntry replica committed entry
      return {
        outbox := outbox.filter fun entry => entry.operationId ≠ committed.operationId
        newlyResolved := newlyResolved ++ learnedFromLog }) := by
  obtain ⟨index, hfind, hget⟩ := KeyedList.exists_findIdx? hids hentry hid
  simp only [resolveOutboxFromCommitted, hfind, hget, KeyedList.eraseIdx_of_findIdx? hids hfind]

theorem assertProposalMatchesCommitted_of_identity {proposal : ProposedOperation Intent}
    {committed : CommittedOperation Operation}
    (h : (@CommittedOperation.decisionRecord Operation Rejection committed).identity =
      proposal.toOperationSubmissionIdentity) :
    (assertProposalMatchesCommitted proposal committed : Result ε Unit) = .ok () := by
  have hid : committed.operationId = proposal.operationId := congrArg (fun i => i.operationId) h
  have hclient : committed.origin.clientId = proposal.clientId := congrArg (fun i => i.clientId) h
  have hsequence : committed.origin.clientSequence = proposal.clientSequence :=
    congrArg (fun i => i.clientSequence) h
  have hhash : committed.origin.intentHash = proposal.intentHash := congrArg (fun i => i.intentHash) h
  rw [assertProposalMatchesCommitted, proposalDifference, hid, hclient, hsequence, hhash]
  simp

include hledger in
theorem recordOf_of_mem_log {committed : CommittedOperation Operation}
    (hcommitted : committed ∈ canonicalLog ledger) :
    recordOf ledger committed.operationId = some committed.decisionRecord :=
  (recordOf_eq_some_iff hledger.operationIds_nodup).mpr ⟨hledger.mem_log_iff.mp hcommitted, rfl⟩

include hledger in
theorem settle_advance_of_ne {knowledge : Knowledge} {committed : CommittedOperation Operation}
    (hcommitted : (canonicalLog ledger)[knowledge.through]? = some committed)
    {proposal : ProposedOperation Intent} (hid : proposal.operationId ≠ committed.operationId) :
    (settle ledger knowledge.advance proposal = settle ledger knowledge proposal) ∧
      (Settled ledger knowledge.advance proposal ↔ Settled ledger knowledge proposal) := by
  -- No other operation was accepted at the sequence that is confirmed now.
  have hother : ∀ record operationId sequence operation,
      recordOf ledger proposal.operationId = some record →
      record.decision = .accepted operationId sequence operation →
        (sequence ≤ (knowledge.advance.through : Int) ↔ sequence ≤ (knowledge.through : Int)) := by
    intro record operationId sequence operation hrecordOf hdecision
    obtain ⟨hrecord, hsame⟩ := (recordOf_eq_some_iff hledger.operationIds_nodup).mp hrecordOf
    have hentry := StoredProposalDecision.committed?_of_accepted hdecision
    obtain ⟨i, hi, hsequence⟩ := hledger.getElem?_of_committed? hrecord hentry
    change sequence = i + 1 at hsequence
    have hne : i ≠ knowledge.through := by
      rintro rfl
      rw [hcommitted] at hi
      obtain rfl := Option.some.inj hi
      exact hid hsame.symm
    rw [Knowledge.advance]
    push_cast
    omega
  constructor
  · cases hrecordOf : recordOf ledger proposal.operationId with
    | none => rw [settle_of_undecided hrecordOf, settle_of_undecided hrecordOf]
    | some record =>
        cases hdecision : record.decision with
        | rejected => rw [settle_of_rejected hrecordOf hdecision, settle_of_rejected hrecordOf hdecision]; rfl
        | accepted operationId sequence operation =>
            rw [settle_of_accepted hrecordOf hdecision, settle_of_accepted hrecordOf hdecision]
            simp only [hother record _ _ _ hrecordOf hdecision]
            rfl
  · refine exists_congr fun record => and_congr_right fun hrecordOf => or_congr Iff.rfl ?_
    refine exists_congr fun operationId => exists_congr fun sequence => exists_congr fun operation => ?_
    exact and_congr_right fun hdecision => hother record _ _ _ hrecordOf hdecision

include hledger in
theorem absent_of_confirmed {knowledge : Knowledge} {committed : CommittedOperation Operation}
    (hcommitted : committed ∈ canonicalLog ledger) (hconfirmed : committed.sequence ≤ knowledge.through) :
    ∀ entry ∈ outboxOf ledger knowledge proposals, entry.operationId ≠ committed.operationId := by
  intro entry hentry hid
  obtain ⟨hproposal, hsettle⟩ := mem_outboxOf.mp hentry
  have hrecordOf : recordOf ledger entry.proposal.operationId = some committed.decisionRecord := by
    change recordOf ledger entry.operationId = _
    rw [hid]
    exact recordOf_of_mem_log hledger hcommitted
  rw [settle_of_accepted hrecordOf rfl, if_pos hconfirmed] at hsettle
  simp at hsettle

include hledger hnodup in
theorem resolveOutboxFromCommitted_unless (hown : RecordsOwn ledger proposals) {knowledge : Knowledge}
    {committed : CommittedOperation Operation}
    (hcommitted : (canonicalLog ledger)[knowledge.through]? = some committed)
    (newlyResolved : List (ProposalDecision Operation Rejection)) :
    Unless (¬replica.Reflexive)
      (resolveOutboxFromCommitted (ε := ε) replica
        ⟨outboxOf ledger knowledge proposals, newlyResolved⟩ committed)
      (.ok ⟨outboxOf ledger knowledge.advance proposals,
        newlyResolved ++ announce (outboxOf ledger knowledge proposals) committed.decision⟩) := by
  have hmem := List.mem_of_getElem? hcommitted
  have hsequence := hledger.sequence_eq hcommitted
  have hothers : ∀ proposal ∈ proposals, proposal.operationId ≠ committed.operationId →
      settle ledger knowledge.advance proposal = settle ledger knowledge proposal :=
    fun _ _ hid => (settle_advance_of_ne hledger hcommitted hid).1
  by_cases hpresent : ∃ proposal ∈ proposals, proposal.operationId = committed.operationId
  · obtain ⟨proposal, hproposal, hid⟩ := hpresent
    have hrecordOf : recordOf ledger proposal.operationId = some committed.decisionRecord :=
      hid ▸ recordOf_of_mem_log hledger hmem
    have hremoved : ∀ other ∈ proposals, other.operationId = committed.operationId →
        settle ledger knowledge.advance other = none := by
      intro other hother hsame
      obtain rfl := KeyedList.eq_of_key_eq hnodup hother hproposal (hsame.trans hid.symm)
      rw [settle_of_accepted hrecordOf rfl, if_pos]
      rw [Knowledge.advance]
      push_cast
      omega
    have hmatches := assertProposalMatchesCommitted_of_identity (ε := ε)
      (hown _ (hledger.mem_log_iff.mp hmem) proposal hproposal hid.symm)
    have hsettle : settle ledger knowledge proposal = _ := settle_of_accepted hrecordOf rfl
    rw [if_neg (by omega)] at hsettle
    by_cases hdecided : proposal.operationId ∈ knowledge.decided
    · rw [if_pos hdecided] at hsettle
      have hentry := mem_outboxOf_of_settle hproposal hsettle
      rw [resolveOutboxFromCommitted_of_mem replica (outboxOf_nodup hnodup) hentry hid,
        outboxOf_of_removed hothers hremoved,
        announce_of_not_awaits committed.decision hid (awaits_of_accepted hnodup hentry),
        resolveEntry, hmatches, ok_bind]
      refine Unless.bind_ok (a := []) ((Unless.throwIf ?_).bind_ok (.refl _)) (.of_eq rfl)
      intro hcase hreflexive
      rcases hcase with hne | hunequal
      · exact hne rfl
      · rw [operationsAreEqual, hreflexive] at hunequal
        exact absurd hunequal (by simp)
    · rw [if_neg hdecided] at hsettle
      have hentry := mem_outboxOf_of_settle hproposal hsettle
      apply Unless.of_eq
      rw [resolveOutboxFromCommitted_of_mem replica (outboxOf_nodup hnodup) hentry hid,
        outboxOf_of_removed hothers hremoved,
        announce_of_awaits committed.decision hid (awaits_of_pending hentry),
        resolveEntry, hmatches]
      rfl
  · have habsent : ∀ entry ∈ outboxOf ledger knowledge proposals,
        entry.operationId ≠ committed.operationId := by
      intro entry hentry hid
      exact hpresent ⟨entry.proposal, (mem_outboxOf.mp hentry).1, hid⟩
    apply Unless.of_eq
    rw [resolveOutboxFromCommitted_of_absent replica habsent,
      outboxOf_of_absent (le_advance _) hothers habsent,
      announce_of_not_awaits _ rfl (awaits_eq_false habsent), List.append_nil]

def progressAt (ledger : Ledger Operation Rejection) (proposals : List (ProposedOperation Intent))
    (retained : Nat) (knowledge : Knowledge)
    (newlyResolved : List (ProposalDecision Operation Rejection)) (confirmedState : State) :
    MergeProgress State Intent Operation Rejection where
  outbox := outboxOf ledger knowledge proposals
  newlyResolved := newlyResolved
  confirmedSequence := knowledge.through
  confirmedLog := ((canonicalLog ledger).take knowledge.through).drop retained
  confirmedState := confirmedState

theorem assertSameCommittedPosition_self (committed : CommittedOperation Operation) :
    Unless (¬replica.Reflexive) (assertSameCommittedPosition (ε := ε) replica committed committed)
      (.ok ()) := by
  have hsame : committedMetadataDifference committed committed = none := by
    simp [committedMetadataDifference]
  rw [assertSameCommittedPosition, hsame]
  refine Unless.throwIf ?_
  intro hcase hreflexive
  rcases hcase with hne | hunequal
  · exact hne rfl
  · rw [operationsAreEqual, hreflexive] at hunequal
    exact absurd hunequal (by simp)

section Entries

variable {knowledge : Knowledge} {retained : Nat} {committed : CommittedOperation Operation}
  (newlyResolved : List (ProposalDecision Operation Rejection)) (confirmedState : State)

include hledger in
/-- An entry of the confirmed prefix changes nothing, whether it is still retained or not. -/
theorem mergeEntry_confirmed {i : Nat} (hcommitted : (canonicalLog ledger)[i]? = some committed)
    (hconfirmed : i < knowledge.through) :
    Unless (¬replica.Reflexive)
      (mergeEntry (ε := ε) replica retained
        (progressAt ledger proposals retained knowledge newlyResolved confirmedState) committed)
      (.ok (progressAt ledger proposals retained knowledge newlyResolved confirmedState)) := by
  have hsequence := hledger.sequence_eq hcommitted
  rw [mergeEntry]
  by_cases hcompacted : committed.sequence ≤ retained
  · rw [if_pos hcompacted]
    exact .refl _
  · have hindex : committed.sequence - retained - 1 = ((i - retained : Nat) : Int) := by omega
    have hexisting : element? (((canonicalLog ledger).take knowledge.through).drop retained)
        (committed.sequence - retained - 1) = some committed := by
      rw [hindex, element?_natCast, List.getElem?_drop, List.getElem?_take,
        show retained + (i - retained) = i by omega, if_pos hconfirmed, hcommitted]
    have hle : committed.sequence ≤ (knowledge.through : Int) := by omega
    have habsent : ∀ entry ∈ outboxOf ledger knowledge proposals,
        entry.operationId ≠ committed.operationId :=
      absent_of_confirmed hledger (List.mem_of_getElem? hcommitted) hle
    simp only [progressAt, if_neg hcompacted, if_pos hle, hexisting]
    refine (assertSameCommittedPosition_self replica committed).bind_ok ?_
    rw [resolveOutboxFromCommitted_of_absent replica habsent]
    exact .refl _

include hledger hnodup in
/-- The next entry of the log is applied and confirmed. -/
theorem mergeEntry_next (hown : RecordsOwn ledger proposals) (hretained : retained ≤ knowledge.through)
    (hcommitted : (canonicalLog ledger)[knowledge.through]? = some committed) :
    Unless (¬replica.Reflexive)
      (mergeEntry (ε := ε) replica retained
        (progressAt ledger proposals retained knowledge newlyResolved confirmedState) committed)
      (do
        let nextState ← application (replica.applyCommitted confirmedState committed.operation)
        return progressAt ledger proposals retained knowledge.advance
          (newlyResolved ++ announce (outboxOf ledger knowledge proposals) committed.decision)
          nextState) := by
  have hsequence := hledger.sequence_eq hcommitted
  obtain ⟨hlt, -⟩ := List.getElem?_eq_some_iff.mp hcommitted
  have hlog : ((canonicalLog ledger).take (knowledge.through + 1)).drop retained =
      ((canonicalLog ledger).take knowledge.through).drop retained ++ [committed] := by
    rw [List.take_add_one, hcommitted, Option.toList_some, List.drop_append_of_le_length]
    rw [List.length_take]
    omega
  have hcursor : committed.sequence = ((knowledge.advance).through : Int) := by
    rw [hsequence, Knowledge.advance]
    push_cast
    rfl
  have hbeyond : ¬committed.sequence ≤
      (progressAt ledger proposals retained knowledge newlyResolved confirmedState).confirmedSequence := by
    change ¬committed.sequence ≤ (knowledge.through : Int)
    omega
  have hexpected : ¬committed.sequence ≠ (progressAt ledger proposals retained knowledge newlyResolved
      confirmedState).confirmedSequence + 1 := not_not.mpr hsequence
  rw [mergeEntry, if_neg (by omega), if_neg hbeyond]
  simp only [throwIf_neg hexpected, ok_bind]
  refine (Unless.refl _).bind fun nextState _ => ?_
  refine (resolveOutboxFromCommitted_unless hledger replica hnodup hown hcommitted
    newlyResolved).bind_ok (.of_eq ?_)
  rw [pure_eq_ok, pure_eq_ok, progressAt, progressAt, ← hcursor, Knowledge.advance, hlog]

end Entries

def Knowledge.extendTo (knowledge : Knowledge) (through : Nat) : Knowledge :=
  { knowledge with through := max knowledge.through through }

def applyEntries (confirmedState : State) (entries : List (CommittedOperation Operation)) :
    Except ε State :=
  entries.foldlM (fun state entry => replica.applyCommitted state entry.operation) confirmedState

include hledger in
/-- The entry that is confirmed next announces nothing about a later one. -/
theorem announce_advance_of_later {knowledge : Knowledge} {committed later : CommittedOperation Operation}
    (hcommitted : (canonicalLog ledger)[knowledge.through]? = some committed) {i : Nat}
    (hlater : (canonicalLog ledger)[i]? = some later) (hlt : knowledge.through < i) :
    (announce (outboxOf ledger knowledge.advance proposals) later.decision :
      List (ProposalDecision Operation Rejection)) =
        announce (outboxOf ledger knowledge proposals) later.decision := by
  have hne : later.operationId ≠ committed.operationId := by
    intro hsame
    have hindex := hledger.index_eq_of_operationId hlater hcommitted hsame
    omega
  rw [announce, announce, awaits_congr]
  intro proposal _ hid
  exact (settle_advance_of_ne hledger hcommitted (hid.trans_ne hne)).2

theorem extendTo_advance (knowledge : Knowledge) (length : Nat) :
    knowledge.advance.extendTo (knowledge.through + 1 + length) =
      knowledge.extendTo (knowledge.through + 1 + length) := by
  simp only [Knowledge.extendTo, Knowledge.advance, Knowledge.mk.injEq, and_true]
  omega

include hledger hnodup in
/-- The entry loop over a page of the log that starts inside the confirmed prefix. -/
theorem mergeEntries_unless (hown : RecordsOwn ledger proposals)
    {page : List (CommittedOperation Operation)} {base : Nat}
    (hpage : ∀ (i : Nat) (entry : CommittedOperation Operation), page[i]? = some entry →
      (canonicalLog ledger)[base + i]? = some entry)
    {knowledge : Knowledge} (hbase : base ≤ knowledge.through) {retained : Nat}
    (hretained : retained ≤ knowledge.through)
    (newlyResolved : List (ProposalDecision Operation Rejection)) (confirmedState : State) :
    Unless (¬replica.Reflexive)
      (page.foldlM (mergeEntry (ε := ε) replica retained)
        (progressAt ledger proposals retained knowledge newlyResolved confirmedState))
      (do
        let new := ((canonicalLog ledger).take (base + page.length)).drop knowledge.through
        let nextState ← application (applyEntries replica confirmedState new)
        return progressAt ledger proposals retained (knowledge.extendTo (base + page.length))
          (newlyResolved ++ new.flatMap fun entry =>
            announce (outboxOf ledger knowledge proposals) entry.decision) nextState) := by
  induction page generalizing base knowledge newlyResolved confirmedState with
  | nil =>
      have hnew : ((canonicalLog ledger).take base).drop knowledge.through = [] := by
        rw [List.drop_eq_nil_iff, List.length_take]
        omega
      have hsame : knowledge.extendTo base = knowledge := by
        rw [Knowledge.extendTo, Nat.max_eq_left hbase]
      rw [List.length_nil, Nat.add_zero, hnew, hsame]
      exact .of_eq (by simp [applyEntries])
  | cons committed page ih =>
      have hcommitted : (canonicalLog ledger)[base]? = some committed := hpage 0 committed rfl
      have hrest : ∀ (i : Nat) (entry : CommittedOperation Operation), page[i]? = some entry →
          (canonicalLog ledger)[base + 1 + i]? = some entry := by
        intro i entry hentry
        rw [show base + 1 + i = base + (i + 1) by omega]
        exact hpage (i + 1) entry hentry
      have hlength : base + (committed :: page).length = base + 1 + page.length := by
        rw [List.length_cons]
        omega
      rw [List.foldlM_cons, hlength]
      rcases Nat.lt_or_eq_of_le hbase with hlt | rfl
      · refine (mergeEntry_confirmed hledger replica newlyResolved confirmedState hcommitted
          hlt).bind_ok ?_
        exact ih hrest hlt hretained newlyResolved confirmedState
      · obtain ⟨hindex, hget⟩ := List.getElem?_eq_some_iff.mp hcommitted
        have hnew : ((canonicalLog ledger).take (knowledge.through + 1 + page.length)).drop
              knowledge.through = committed ::
            ((canonicalLog ledger).take (knowledge.through + 1 + page.length)).drop
              knowledge.advance.through := by
          rw [List.drop_eq_getElem_cons (by rw [List.length_take]; omega), List.getElem_take, hget]
          rfl
        have hannounce : ∀ later ∈ ((canonicalLog ledger).take (knowledge.through + 1 + page.length)).drop
            knowledge.advance.through,
            announce (outboxOf ledger knowledge.advance proposals) later.decision =
              @announce _ _ Rejection (outboxOf ledger knowledge proposals) later.decision := by
          intro later hlater
          obtain ⟨i, hi⟩ := List.getElem?_of_mem hlater
          rw [List.getElem?_drop] at hi
          obtain ⟨hbound, hsome⟩ := List.getElem?_eq_some_iff.mp hi
          rw [List.getElem_take] at hsome
          apply announce_advance_of_later hledger hcommitted (hsome ▸ List.getElem?_eq_getElem _)
          show knowledge.through < knowledge.through + 1 + i
          omega
        refine ((mergeEntry_next hledger replica hnodup newlyResolved confirmedState hown hretained
          hcommitted).bind fun _ _ => .refl _).trans ?_
        simp only [hnew, applyEntries, List.foldlM_cons, application_bind, bind_assoc, pure_bind,
          List.flatMap_cons]
        refine (Unless.refl _).bind fun nextState _ => ?_
        have hretained' : retained ≤ knowledge.advance.through := Nat.le_succ_of_le hretained
        have hloop := ih hrest (Nat.le_refl _) hretained'
          (newlyResolved ++ announce (outboxOf ledger knowledge proposals) committed.decision) nextState
        simp only [extendTo_advance, List.flatMap_congr hannounce, List.append_assoc] at hloop
        exact hloop

end Passes

end SyncEngine
