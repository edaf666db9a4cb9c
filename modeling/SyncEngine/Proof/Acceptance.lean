import SyncEngine.Proof.Sequential

/-!
# A batch of new operations, alone

A batch whose proposals are new and accepted as they stand, sent to a stream that no one else uses: the
authority commits it, whatever state it reads back in place of the one it has stored, as long as both lead
to the same text.
-/

namespace SyncEngine

open JavaScript Throwing

variable {State Operation Rejection ε : Type}

inductive AcceptsAll (interpreter : LogInterpreter State Operation Operation Rejection ε) :
    State → List (ProposedOperation Operation) → State → Prop
  | nil (state : State) : AcceptsAll interpreter state [] state
  | cons {state middle last : State} {proposal : ProposedOperation Operation}
      {proposals : List (ProposedOperation Operation)}
      (hdecide : interpreter.decide state proposal = .ok (.accepted proposal.intent))
      (happly : interpreter.apply state proposal.intent = .ok middle)
      (hrest : AcceptsAll interpreter middle proposals last) :
      AcceptsAll interpreter state (proposal :: proposals) last

/-- The records of proposals that are accepted from a head on. -/
def acceptedRecords (head : Nat) : List (ProposedOperation Operation) → Ledger Operation Rejection
  | [] => []
  | proposal :: proposals =>
      ⟨proposal.toOperationSubmissionIdentity, .accepted proposal.operationId (head + 1) proposal.intent⟩ ::
        acceptedRecords (head + 1) proposals

structure NewProposals (ledger : Ledger Operation Rejection) (proposals : List (ProposedOperation Operation)) :
    Prop where
  undecided : ∀ proposal ∈ proposals, Undecided ledger proposal.toOperationIdentity
  distinct : proposals.Pairwise fun earlier later =>
    earlier.operationId ≠ later.operationId ∧ earlier.position ≠ later.position

section Records

variable {proposals : List (ProposedOperation Operation)} {ledger : Ledger Operation Rejection} (head : Nat)

theorem length_acceptedRecords :
    (acceptedRecords head proposals : Ledger Operation Rejection).length = proposals.length := by
  induction proposals generalizing head with
  | nil => rfl
  | cons proposal proposals ih => rw [acceptedRecords, List.length_cons, List.length_cons, ih]

theorem acceptedRecords_append (first second : List (ProposedOperation Operation)) :
    (acceptedRecords head (first ++ second) : Ledger Operation Rejection) =
      acceptedRecords head first ++ acceptedRecords (head + first.length) second := by
  induction first generalizing head with
  | nil => rfl
  | cons proposal first ih =>
      rw [List.cons_append, acceptedRecords, acceptedRecords, ih, List.cons_append, List.length_cons,
        Nat.add_right_comm, Nat.add_assoc]

theorem identity_of_mem_acceptedRecords {record : StoredProposalDecision Operation Rejection}
    (h : record ∈ acceptedRecords head proposals) :
    ∃ proposal ∈ proposals, record.identity = proposal.toOperationSubmissionIdentity := by
  induction proposals generalizing head with
  | nil => simp [acceptedRecords] at h
  | cons proposal proposals ih =>
      cases List.mem_cons.mp h with
      | inl hfirst => exact ⟨proposal, List.mem_cons_self, congrArg _ hfirst⟩
      | inr hrest =>
          obtain ⟨later, hlater, hidentity⟩ := ih (head + 1) hrest
          exact ⟨later, List.mem_cons_of_mem _ hlater, hidentity⟩

theorem canonicalLog_acceptedRecords_cons (proposal : ProposedOperation Operation) :
    canonicalLog (acceptedRecords head (proposal :: proposals) : Ledger Operation Rejection) =
      proposal.committedAt (head + 1) proposal.intent ::
        canonicalLog (acceptedRecords (head + 1) proposals : Ledger Operation Rejection) := rfl

theorem length_canonicalLog_acceptedRecords :
    (canonicalLog (acceptedRecords head proposals : Ledger Operation Rejection)).length = proposals.length := by
  induction proposals generalizing head with
  | nil => rfl
  | cons proposal proposals ih =>
      rw [canonicalLog_acceptedRecords_cons, List.length_cons, List.length_cons, ih]

theorem operation_of_mem_canonicalLog_acceptedRecords {entry : CommittedOperation Operation}
    (h : entry ∈ canonicalLog (acceptedRecords head proposals : Ledger Operation Rejection)) :
    ∃ proposal ∈ proposals, entry.operation = proposal.intent := by
  induction proposals generalizing head with
  | nil => simp [acceptedRecords] at h
  | cons proposal proposals ih =>
      rw [canonicalLog_acceptedRecords_cons] at h
      cases List.mem_cons.mp h with
      | inl hfirst => exact ⟨proposal, List.mem_cons_self, congrArg CommittedOperation.operation hfirst⟩
      | inr hrest =>
          obtain ⟨later, hlater, hoperation⟩ := ih (head + 1) hrest
          exact ⟨later, List.mem_cons_of_mem _ hlater, hoperation⟩

theorem recorded_acceptedRecords (hledger : acceptedRecords head proposals ⊆ ledger) :
    Recorded ledger proposals ((acceptedRecords head proposals).map StoredProposalDecision.decision) := by
  induction proposals generalizing head with
  | nil => exact .nil
  | cons proposal proposals ih =>
      have hparts := List.cons_subset.mp hledger
      exact .cons hparts.1 (ih (head + 1) hparts.2)

theorem NewProposals.tail {proposal : ProposedOperation Operation} {decision : ProposalDecision Operation Rejection}
    (h : NewProposals ledger (proposal :: proposals)) :
    NewProposals (ledger ++ [⟨proposal.toOperationSubmissionIdentity, decision⟩]) proposals := by
  have hdistinct := List.pairwise_cons.mp h.distinct
  refine ⟨fun later hlater record hrecord => ?_, hdistinct.2⟩
  cases List.mem_append.mp hrecord with
  | inl hold => exact h.undecided later (List.mem_cons_of_mem _ hlater) record hold
  | inr hnew =>
      rw [List.mem_singleton.mp hnew]
      exact hdistinct.1 later hlater

/-- What the interpreter accepts, the ledger justifies. -/
theorem Justified.acceptsAll {interpreter : LogInterpreter State Operation Operation Rejection ε}
    {initialState state last : State} (h : Justified interpreter initialState ledger state)
    (haccepts : AcceptsAll interpreter state proposals last) (hnew : NewProposals ledger proposals)
    (hvalid : ∀ proposal ∈ proposals, proposal.toOperationSubmissionIdentity.Valid) :
    Justified interpreter initialState (ledger ++ acceptedRecords (canonicalLog ledger).length proposals) last := by
  induction haccepts generalizing ledger with
  | nil =>
      rw [acceptedRecords, List.append_nil]
      exact h
  | @cons state middle last proposal proposals hdecide happly _ ih =>
      rw [List.forall_mem_cons] at hvalid
      have hnext := h.accept proposal proposal.intent hvalid.1
        (hnew.undecided proposal List.mem_cons_self) hdecide happly
      have hrest := ih hnext hnew.tail hvalid.2
      rw [canonicalLog_append, canonicalLog_accepted, List.length_append, List.length_singleton,
        List.append_assoc] at hrest
      exact hrest

end Records

section Stage

variable {stream : D1StreamSettings State Operation Operation Rejection ε} {w : LoneWorld stream} {tables : D1Tables}
  (hholds : w.Holds tables)

include hholds in
theorem stageProposal_new {proposal : ProposedOperation Operation}
    (hundecided : Undecided w.ledger proposal.toOperationIdentity)
    (staging : D1Staging State Operation Rejection) :
    (stageProposal stream staging proposal).run D1Tables.answer tables =
      (stageDraft stream staging proposal, tables) := by
  have hfind : w.ledger.find? (fun record => record.identity.operationId = proposal.operationId) = none :=
    KeyedList.find?_eq_none_iff.mpr fun record hrecord => (hundecided record hrecord).1
  have hoccupant : w.occupant? proposal.position = none := by
    rw [Books.occupant?, KeyedList.find?_eq_none_iff.mpr fun record hrecord => (hundecided record hrecord).2]
    rfl
  have hread : (readStoredDecision stream proposal).run D1Tables.answer tables = (.ok none, tables) := by
    change (Program.lift (decodeDecisionFor stream (tables.decisions.find? _) proposal) :
      D1Program ε _).run D1Tables.answer tables = _
    rw [Program.run_lift, hholds.stores.find?_decision proposal.operationId, hfind]
    rfl
  have hfree := assertClientPositionAvailable_run hholds proposal
  rw [hoccupant] at hfree
  rw [stageProposal, Program.run_bind_ok _ _ hread]
  exact (Program.run_bind_ok _ _ hfree).trans (Program.run_lift _ _ _)

def D1Staging.accept (stream : D1StreamSettings State Operation Operation Rejection ε) (head : Nat)
    (staging : D1Staging State Operation Rejection) (proposals : List (ProposedOperation Operation)) (last : State) :
    D1Staging State Operation Rejection where
  headSequence := (head + proposals.length : Nat)
  state := last
  decisions := staging.decisions ++ (acceptedRecords head proposals).map StoredProposalDecision.decision
  statements := staging.statements ++ (acceptedRecords head proposals).flatMap stream.recordStatements

include hholds in
/-- The loop stages every proposal of the batch as accepted. -/
theorem stageProposals_accepts {proposals : List (ProposedOperation Operation)} {state last : State} {head : Nat}
    {staging : D1Staging State Operation Rejection} (hhead : staging.headSequence = head)
    (hstate : staging.state = state)
    (haccepts : AcceptsAll stream.interpreter state proposals last)
    (hundecided : ∀ proposal ∈ proposals, Undecided w.ledger proposal.toOperationIdentity) :
    (proposals.foldlM (stageProposal stream) staging).run D1Tables.answer tables =
      (.ok (staging.accept stream head proposals last), tables) := by
  induction haccepts generalizing head staging with
  | nil state =>
      subst hstate
      obtain ⟨headSequence, state, decisions, statements⟩ := staging
      obtain rfl : headSequence = head := hhead
      show (Except.ok _, tables) = _
      simp [D1Staging.accept, acceptedRecords]
  | @cons state middle last proposal proposals hdecide happly _ ih =>
      rw [List.forall_mem_cons] at hundecided
      have hdraft : stageDraft stream staging proposal = .ok {
          headSequence := (head + 1 : Nat)
          state := middle
          decisions := staging.decisions ++ [.accepted proposal.operationId (head + 1 : Nat) proposal.intent]
          statements := staging.statements ++ stream.recordStatements
            ⟨proposal.toOperationSubmissionIdentity,
              .accepted proposal.operationId (head + 1 : Nat) proposal.intent⟩ } := by
        rw [stageDraft, hstate, hdecide]
        simp only [application_ok, protocol_ok, ok_bind]
        rw [happly, hhead]
        rfl
      rw [List.foldlM_cons, Program.run_bind, stageProposal_new hholds hundecided.1, hdraft]
      have hlength : head + 1 + proposals.length = head + (proposals.length + 1) := by omega
      refine (ih rfl rfl hundecided.2).trans ?_
      rw [D1Staging.accept, D1Staging.accept, hlength]
      simp [acceptedRecords]

end Stage

theorem commitStaging_congr {stream : D1StreamSettings State Operation Operation Rejection ε} {head : Int}
    {staging : D1Staging State Operation Rejection} {state : State}
    (htext : stream.stateCodec.serializeJson staging.state = stream.stateCodec.serializeJson state) :
    (commitStaging stream head staging : D1Program ε Unit) = commitStaging stream head { staging with state } := by
  rw [commitStaging, commitStaging, updateStreamState, updateStreamState, htext]

section Synchronize

variable {settings : D1AuthoritySettings State Operation Operation Rejection ε} (hlimits : settings.limits.Resolved)
  (hschema : settings.schemaHash.length ≠ 0) {w : LoneWorld settings.toD1StreamSettings} {tables : D1Tables}
  (hholds : w.Holds tables) {read next last : State} {proposals : List (ProposedOperation Operation)}

include hlimits hschema hholds in
/-- A batch of new operations is committed and answered. -/
theorem synchronize_accepts (hretries : 0 ≤ settings.maximumCommitRetries)
    (hread : settings.stateCodec.ReadsAs w.state read)
    (haccepts : AcceptsAll settings.interpreter w.state proposals next)
    (hreadAccepts : AcceptsAll settings.interpreter read proposals last)
    (htext : settings.stateCodec.serializeJson last = settings.stateCodec.serializeJson next)
    (hnew : ∀ proposal ∈ proposals, Undecided w.ledger proposal.toOperationIdentity)
    (hstored : ∀ entry ∈ w.log, settings.operationCodec.ReadsAs entry.operation entry.operation)
    (hintents : ∀ proposal ∈ proposals, settings.operationCodec.ReadsAs proposal.intent proposal.intent)
    (hsafe : ((w.log.length + proposals.length : Nat) : Int) ≤ maxSafeInteger) {maximumEntries : Int}
    (hvalid : ValidRequest ⟨w.log.length, maximumEntries, proposals⟩ settings.limits) :
    ∃ (w' : LoneWorld settings.toD1StreamSettings) (tables' : D1Tables)
      (response : SyncResponse Operation Rejection), w'.Holds tables' ∧ w'.opened = true ∧
      w'.ledger = w.ledger ++ acceptedRecords w.log.length proposals ∧ w'.state = next ∧
      response.headSequence = (w.log.length + proposals.length : Nat) ∧
      response.decisions = (acceptedRecords w.log.length proposals).map StoredProposalDecision.decision ∧
      (settings.synchronize ⟨w.log.length, maximumEntries, proposals⟩).run D1Tables.answer tables =
        (.ok response, tables') := by
  have hbefore : (w.log.length : Int) ≤ maxSafeInteger := by omega
  obtain ⟨opened, hopened, hstream⟩ := readOrCreateStream_run hholds hbefore hschema hread
  have hstage : (proposals.foldlM (stageProposal settings.toD1StreamSettings) ⟨w.log.length, read, [], []⟩).run
      D1Tables.answer opened = (.ok (.accept settings.toD1StreamSettings w.log.length ⟨w.log.length, read, [], []⟩
        proposals last), opened) :=
    stageProposals_accepts hopened rfl rfl hreadAccepts hnew
  have hjustified : Justified (settings.interpreter.restrict fun _ => True) settings.initialState
      (w.ledger ++ acceptedRecords w.log.length proposals) next :=
    (w.justified.of_restrict.acceptsAll haccepts ⟨hnew, hvalid.batch.distinct⟩ hvalid.batch.valid).restrict
  have hlog : (canonicalLog (w.ledger ++ acceptedRecords w.log.length proposals)).length =
      w.log.length + proposals.length := by
    rw [canonicalLog_append, List.length_append, length_canonicalLog_acceptedRecords]
    rfl
  have hstaged : StagedAs settings.toD1StreamSettings proposals (acceptedRecords w.log.length proposals) w.toBooks
      ⟨w.ledger ++ acceptedRecords w.log.length proposals, next⟩
      { (D1Staging.accept settings.toD1StreamSettings w.log.length ⟨w.log.length, read, [], []⟩ proposals last) with
        state := next } :=
    ⟨rfl, fun record hrecord => identity_of_mem_acceptedRecords _ hrecord, rfl, congrArg Nat.cast hlog.symm,
      List.nil_append _⟩
  obtain ⟨committed, hcommitted, hcommit⟩ := commitStaging_run hopened rfl ⟨⟨_, next⟩, hjustified⟩ hstaged
  rw [← commitStaging_congr htext] at hcommit
  change (commitStaging settings.toD1StreamSettings w.log.length _ : D1Program ε Unit).run D1Tables.answer opened = _
    at hcommit
  have hrecorded : Recorded (w.ledger ++ acceptedRecords w.log.length proposals) proposals
      ((acceptedRecords w.log.length proposals).map StoredProposalDecision.decision) :=
    recorded_acceptedRecords _ (List.subset_append_right _ _)
  have hentries : ∀ entry ∈ canonicalLog (w.ledger ++ acceptedRecords w.log.length proposals),
      settings.operationCodec.ReadsAs entry.operation entry.operation := by
    intro entry hentry
    rw [canonicalLog_append] at hentry
    cases List.mem_append.mp hentry with
    | inl hold => exact hstored entry hold
    | inr hnew =>
        obtain ⟨proposal, hproposal, hoperation⟩ := operation_of_mem_canonicalLog_acceptedRecords _ hnew
        rw [hoperation]
        exact hintents proposal hproposal
  have hbase : (w.log.length : Int) ≤ (canonicalLog (w.ledger ++ acceptedRecords w.log.length proposals)).length := by
    rw [hlog]
    omega
  have hresponse := readResponse_run hlimits hcommitted ((congrArg Nat.cast hlog).trans_le hsafe) hvalid hentries
    hbase hrecorded
  have honce : (synchronizeOnce settings ⟨w.log.length, maximumEntries, proposals⟩).run D1Tables.answer tables =
      (.ok (InMemoryLogServer.respond settings.limits
        (canonicalLog (w.ledger ++ acceptedRecords w.log.length proposals))
        ⟨w.log.length, maximumEntries, proposals⟩
        ((acceptedRecords w.log.length proposals).map StoredProposalDecision.decision)), committed) := by
    rw [synchronizeOnce, (assertSyncRequest_eq_ok _ _ ()).mpr hvalid]
    simp only [protocol_ok, Program.lift_ok_bind]
    rw [Program.run_bind_ok _ _ hstream, throwIf_neg (Int.lt_irrefl _)]
    simp only [protocol_ok, Program.lift_ok_bind]
    rw [Program.run_bind_ok _ _ hstage, Program.run_bind_ok _ _ hcommit]
    rw [show (D1Staging.accept settings.toD1StreamSettings w.log.length ⟨w.log.length, read, [], []⟩ proposals
      last).headSequence = ((canonicalLog (w.ledger ++ acceptedRecords w.log.length proposals)).length : Int) from
        congrArg Nat.cast hlog.symm]
    exact hresponse
  obtain ⟨attempts, hattempts⟩ := synchronize_eq_attempts hretries ⟨w.log.length, maximumEntries, proposals⟩
  refine ⟨StreamWorld.openedAt ⟨⟨_, next⟩, hjustified⟩, committed,
    InMemoryLogServer.respond settings.limits (canonicalLog (w.ledger ++ acceptedRecords w.log.length proposals))
      ⟨w.log.length, maximumEntries, proposals⟩ _,
    hcommitted, rfl, rfl, rfl, ?_, rfl, ?_⟩
  · show ((canonicalLog _).length : Int) = _
    rw [hlog]
  · rw [hattempts, synchronizeAttempts, Program.run_handle, honce]

end Synchronize

end SyncEngine
