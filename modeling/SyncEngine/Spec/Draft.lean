import SyncEngine.Spec.Authority

/-!
# Drafts

An authority that does not hold a lock decides a batch on a state it has read before and appends the
records later. What it has prepared is a draft: records that follow each other on that state, without
a look at the ledger they will be appended to. A draft may be appended to every justified ledger with
the same canonical log as the one it started from, if nothing in it is decided there.
-/

namespace SyncEngine

open JavaScript Throwing

variable {State Intent Operation Rejection ε : Type}

/-! ### Decisions on submitted proposals only -/

open Classical in
/-- The interpreter that refuses every proposal nobody has submitted. -/
noncomputable def LogInterpreter.restrict
    (interpreter : LogInterpreter State Intent Operation Rejection ε)
    (Submitted : ProposedOperation Intent → Prop) :
    LogInterpreter State Intent Operation Rejection (Option ε) where
  decide state proposal :=
    if Submitted proposal then (interpreter.decide state proposal).mapError some else .error none
  apply state operation := (interpreter.apply state operation).mapError some

section Restrict

variable (interpreter : LogInterpreter State Intent Operation Rejection ε)
  (Submitted : ProposedOperation Intent → Prop)

@[simp] theorem LogInterpreter.restrict_decide_eq_ok {state : State}
    {proposal : ProposedOperation Intent} {draft : DecisionDraft Operation Rejection} :
    (interpreter.restrict Submitted).decide state proposal = .ok draft ↔
      Submitted proposal ∧ interpreter.decide state proposal = .ok draft := by
  by_cases hsubmitted : Submitted proposal
  · simp [restrict, hsubmitted, mapError_eq_ok]
  · simp [restrict, hsubmitted]

@[simp] theorem LogInterpreter.restrict_apply_eq_ok {state next : State} {operation : Operation} :
    (interpreter.restrict Submitted).apply state operation = .ok next ↔
      interpreter.apply state operation = .ok next :=
  mapError_eq_ok

theorem LogInterpreter.foldlM_restrict_apply {operations : List Operation} {state next : State} :
    operations.foldlM (interpreter.restrict Submitted).apply state = .ok next ↔
      operations.foldlM interpreter.apply state = .ok next := by
  induction operations generalizing state with
  | nil => simp
  | cons operation operations ih =>
      simp only [List.foldlM_cons, bind_eq_ok, restrict_apply_eq_ok, ih]

end Restrict

/-! ### What a ledger was decided on -/

section Decided

variable {interpreter : LogInterpreter State Intent Operation Rejection ε} {initialState state : State}
  {ledger : Ledger Operation Rejection}

def logOperations (ledger : Ledger Operation Rejection) : List Operation :=
  (canonicalLog ledger).map CommittedOperation.operation

@[simp] theorem logOperations_append (first second : Ledger Operation Rejection) :
    logOperations (first ++ second) = logOperations first ++ logOperations second := by
  rw [logOperations, canonicalLog_append, List.map_append]
  rfl

theorem Justified.foldlM_operations (h : Justified interpreter initialState ledger state) :
    (logOperations ledger).foldlM interpreter.apply initialState = .ok state := by
  rw [logOperations, List.foldlM_map]
  exact h.foldlM_apply

/-- What the interpreter decides on the state that the operations before the decision lead to. An
accepted operation has the sequence right after them. -/
def DecidedAfter (interpreter : LogInterpreter State Intent Operation Rejection ε) (initialState : State)
    (preceding : List Operation) (proposal : ProposedOperation Intent)
    (decision : ProposalDecision Operation Rejection) : Prop :=
  ∃ before, preceding.foldlM interpreter.apply initialState = .ok before ∧
    ((∃ operation, interpreter.decide before proposal = .ok (.accepted operation) ∧
        decision = .accepted proposal.operationId (preceding.length + 1) operation) ∨
      ∃ reason, interpreter.decide before proposal = .ok (.rejected reason) ∧
        decision = .rejected proposal.operationId reason)

theorem eq_last_or_mem_of_concat {α : Type} {list earlier later : List α} {last x : α}
    (h : list ++ [last] = earlier ++ x :: later) :
    (earlier = list ∧ x = last) ∨ ∃ rest, list = earlier ++ x :: rest := by
  rcases List.eq_nil_or_concat later with rfl | ⟨rest, _, rfl⟩
  · obtain ⟨rfl, hlast⟩ := List.append_inj' h rfl
    exact .inl ⟨rfl, (List.singleton_inj.mp hlast).symm⟩
  · rw [List.concat_eq_append, ← List.cons_append, ← List.append_assoc] at h
    exact .inr ⟨rest, (List.append_inj' h rfl).1⟩

/-- Every record of a justified ledger was decided on the log that preceded it. -/
theorem Justified.decidedAfter (h : Justified interpreter initialState ledger state)
    {earlier later : Ledger Operation Rejection} {record : StoredProposalDecision Operation Rejection}
    (hsplit : ledger = earlier ++ record :: later) :
    ∃ proposal : ProposedOperation Intent, record.identity = proposal.toOperationSubmissionIdentity ∧
      DecidedAfter interpreter initialState (logOperations earlier) proposal record.decision := by
  induction h generalizing later with
  | empty => simp at hsplit
  | @reject ledger state hledger proposal reason _ _ hdecide ih =>
      rcases eq_last_or_mem_of_concat hsplit with ⟨rfl, rfl⟩ | ⟨rest, hold⟩
      · exact ⟨proposal, rfl, state, hledger.foldlM_operations, .inr ⟨reason, hdecide, rfl⟩⟩
      · exact ih hold
  | @accept ledger state _ hledger proposal operation _ _ hdecide _ ih =>
      rcases eq_last_or_mem_of_concat hsplit with ⟨rfl, rfl⟩ | ⟨rest, hold⟩
      · refine ⟨proposal, rfl, state, hledger.foldlM_operations, .inl ⟨operation, hdecide, ?_⟩⟩
        rw [logOperations, List.length_map]
      · exact ih hold

theorem Justified.decidedAfter_of_mem (h : Justified interpreter initialState ledger state)
    {record : StoredProposalDecision Operation Rejection} (hrecord : record ∈ ledger) :
    ∃ (preceding : List Operation) (proposal : ProposedOperation Intent),
      record.identity = proposal.toOperationSubmissionIdentity ∧
      DecidedAfter interpreter initialState preceding proposal record.decision := by
  obtain ⟨earlier, later, hsplit⟩ := List.append_of_mem hrecord
  exact ⟨_, h.decidedAfter hsplit⟩

/-- An authority that rejects nothing. -/
def LogInterpreter.Accepting (interpreter : LogInterpreter State Intent Operation Rejection ε) : Prop :=
  ∀ state proposal reason, interpreter.decide state proposal ≠ .ok (.rejected reason)

theorem Justified.accepted (h : Justified interpreter initialState ledger state)
    (haccepting : interpreter.Accepting) : ∀ record ∈ ledger,
      ∃ operationId sequence operation, record.decision = .accepted operationId sequence operation := by
  intro record hrecord
  obtain ⟨_, proposal, -, before, -, hdecision⟩ := h.decidedAfter_of_mem hrecord
  rcases hdecision with ⟨operation, -, haccepted⟩ | ⟨reason, hdecide, -⟩
  · exact ⟨_, _, operation, haccepted⟩
  · exact absurd hdecide (haccepting before proposal reason)

theorem Justified.length_canonicalLog (h : Justified interpreter initialState ledger state)
    (haccepting : interpreter.Accepting) : (canonicalLog ledger).length = ledger.length := by
  rw [canonicalLog, List.length_filterMap_eq_countP, List.countP_eq_length]
  intro record hrecord
  obtain ⟨_, _, _, haccepted⟩ := h.accepted haccepting record hrecord
  rw [StoredProposalDecision.committed?_of_accepted haccepted]
  rfl

theorem DecidedAfter.of_restrict {Submitted : ProposedOperation Intent → Prop}
    {preceding : List Operation} {proposal : ProposedOperation Intent}
    {decision : ProposalDecision Operation Rejection}
    (h : DecidedAfter (interpreter.restrict Submitted) initialState preceding proposal decision) :
    Submitted proposal ∧ DecidedAfter interpreter initialState preceding proposal decision := by
  obtain ⟨before, hfold, hdecision⟩ := h
  rw [LogInterpreter.foldlM_restrict_apply] at hfold
  rcases hdecision with ⟨operation, hdecide, rfl⟩ | ⟨reason, hdecide, rfl⟩
  · obtain ⟨hsubmitted, hdecide⟩ := (interpreter.restrict_decide_eq_ok Submitted).mp hdecide
    exact ⟨hsubmitted, before, hfold, .inl ⟨operation, hdecide, rfl⟩⟩
  · obtain ⟨hsubmitted, hdecide⟩ := (interpreter.restrict_decide_eq_ok Submitted).mp hdecide
    exact ⟨hsubmitted, before, hfold, .inr ⟨reason, hdecide, rfl⟩⟩

/-- A ledger of decisions on submitted proposals is justified by the interpreter itself. -/
theorem Justified.of_restrict {Submitted : ProposedOperation Intent → Prop}
    (h : Justified (interpreter.restrict Submitted) initialState ledger state) :
    Justified interpreter initialState ledger state := by
  induction h with
  | empty => exact .empty
  | reject _ proposal reason hvalid hundecided hdecide ih =>
      exact ih.reject proposal reason hvalid hundecided
        ((interpreter.restrict_decide_eq_ok Submitted).mp hdecide).2
  | accept _ proposal operation hvalid hundecided hdecide happly ih =>
      exact ih.accept proposal operation hvalid hundecided
        ((interpreter.restrict_decide_eq_ok Submitted).mp hdecide).2
        ((interpreter.restrict_apply_eq_ok Submitted).mp happly)

theorem Justified.restrict (h : Justified interpreter initialState ledger state) :
    Justified (interpreter.restrict fun _ => True) initialState ledger state := by
  induction h with
  | empty => exact .empty
  | reject _ proposal reason hvalid hundecided hdecide ih =>
      exact ih.reject proposal reason hvalid hundecided (by simpa using hdecide)
  | accept _ proposal operation hvalid hundecided hdecide happly ih =>
      exact ih.accept proposal operation hvalid hundecided (by simpa using hdecide) (by simpa using happly)

end Decided

/-! ### Drafts -/

/-- Records that the interpreter gives one after another, from a state and a head on. -/
inductive Drafted (interpreter : LogInterpreter State Intent Operation Rejection ε) (state : State)
    (head : Nat) : Ledger Operation Rejection → State → Prop
  | empty : Drafted interpreter state head [] state
  | reject {new : Ledger Operation Rejection} {last : State}
      (hnew : Drafted interpreter state head new last)
      (proposal : ProposedOperation Intent) (reason : Rejection)
      (hvalid : proposal.toOperationSubmissionIdentity.Valid)
      (hdecide : interpreter.decide last proposal = .ok (.rejected reason)) :
      Drafted interpreter state head
        (new ++ [⟨proposal.toOperationSubmissionIdentity, .rejected proposal.operationId reason⟩]) last
  | accept {new : Ledger Operation Rejection} {last next : State}
      (hnew : Drafted interpreter state head new last)
      (proposal : ProposedOperation Intent) (operation : Operation)
      (hvalid : proposal.toOperationSubmissionIdentity.Valid)
      (hdecide : interpreter.decide last proposal = .ok (.accepted operation))
      (happly : interpreter.apply last operation = .ok next) :
      Drafted interpreter state head
        (new ++ [⟨proposal.toOperationSubmissionIdentity,
          .accepted proposal.operationId ((head + (canonicalLog new).length : Nat) + 1) operation⟩])
        next

def DistinctRecords (ledger : Ledger Operation Rejection) : Prop :=
  ledger.Pairwise fun earlier later =>
    earlier.identity.operationId ≠ later.identity.operationId ∧
      earlier.identity.position ≠ later.identity.position

theorem DistinctRecords.undecided {first second : Ledger Operation Rejection}
    {record : StoredProposalDecision Operation Rejection}
    (h : DistinctRecords (first ++ (second ++ [record]))) :
    Undecided (first ++ second) record.identity.toOperationIdentity := by
  rw [DistinctRecords, ← List.append_assoc, List.pairwise_append] at h
  exact fun earlier hearlier => h.2.2 earlier hearlier record List.mem_cons_self

theorem DistinctRecords.of_append {first second third : Ledger Operation Rejection}
    (h : DistinctRecords (first ++ (second ++ third))) : DistinctRecords (first ++ second) := by
  rw [DistinctRecords, ← List.append_assoc] at h
  exact (List.pairwise_append.mp h).1

/-- A draft that decides nothing twice may be appended where its state and its head are current. -/
theorem Drafted.justified {interpreter : LogInterpreter State Intent Operation Rejection ε}
    {initialState state last : State} {head : Nat} {ledger new : Ledger Operation Rejection}
    (h : Drafted interpreter state head new last)
    (hledger : Justified interpreter initialState ledger state)
    (hhead : (canonicalLog ledger).length = head) (hdistinct : DistinctRecords (ledger ++ new)) :
    Justified interpreter initialState (ledger ++ new) last := by
  induction h with
  | empty =>
      rw [List.append_nil]
      exact hledger
  | reject _ proposal reason hvalid hdecide ih =>
      rw [← List.append_assoc]
      exact (ih hdistinct.of_append).reject proposal reason hvalid hdistinct.undecided hdecide
  | @accept new _ _ _ proposal operation hvalid hdecide happly ih =>
      have hlength : (canonicalLog (ledger ++ new)).length = head + (canonicalLog new).length := by
        rw [canonicalLog_append, List.length_append, hhead]
      rw [← List.append_assoc, ← hlength]
      exact (ih hdistinct.of_append).accept proposal operation hvalid hdistinct.undecided hdecide happly

end SyncEngine
