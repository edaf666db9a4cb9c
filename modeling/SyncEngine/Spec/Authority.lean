import SyncEngine.Lib.KeyedList
import SyncEngine.Spec.Ledger

/-!
# Submitting proposals to a ledger

The purpose of a synchronizing authority, over one ledger and nothing else: a proposal whose operation
is decided replays the stored decision, any other is decided on the current state and appended. Both
stores of the repository implement `Books.submitAll` for the batches they accept.
-/

namespace SyncEngine

open JavaScript Throwing

variable {State Intent Operation Rejection ε : Type}

/-- A ledger and the state it leads to. -/
@[ext] structure Books (State Operation Rejection : Type) where
  ledger : Ledger Operation Rejection
  state : State

/-- Books whose ledger is justified from the initial state. -/
structure Authority (interpreter : LogInterpreter State Intent Operation Rejection ε)
    (initialState : State) extends Books State Operation Rejection where
  justified : Justified interpreter initialState ledger state

namespace Books

variable (interpreter : LogInterpreter State Intent Operation Rejection ε)
  (books : Books State Operation Rejection)

def log : List (CommittedOperation Operation) := canonicalLog books.ledger

def find? (operationId : String) : Option (StoredProposalDecision Operation Rejection) :=
  books.ledger.find? fun record => record.identity.operationId = operationId

/-- The operation that a client position is bound to. -/
def occupant? (position : String × Int) : Option String :=
  (books.ledger.find? fun record => record.identity.position = position).map fun record =>
    record.identity.operationId

def decideNext (proposal : ProposedOperation Intent) :
    Result ε (ProposalDecision Operation Rejection × Books State Operation Rejection) := do
  match ← application (interpreter.decide books.state proposal) with
  | .rejected reason =>
      let decision := .rejected proposal.operationId reason
      return (decision,
        { books with ledger := books.ledger ++ [⟨proposal.toOperationSubmissionIdentity, decision⟩] })
  | .accepted operation =>
      let decision := .accepted proposal.operationId (books.log.length + 1) operation
      let state ← application (interpreter.apply books.state operation)
      return (decision,
        ⟨books.ledger ++ [⟨proposal.toOperationSubmissionIdentity, decision⟩], state⟩)

def submit (proposal : ProposedOperation Intent) :
    Result ε (ProposalDecision Operation Rejection × Books State Operation Rejection) :=
  match books.find? proposal.operationId with
  | some existing => do return (← InMemoryLogServer.replayDecision existing proposal, books)
  | none => do
      InMemoryLogServer.assertClientPositionFree (books.occupant? proposal.position) proposal
      decideNext interpreter books proposal

def submitAll (books : Books State Operation Rejection) : List (ProposedOperation Intent) →
    Result ε (List (ProposalDecision Operation Rejection) × Books State Operation Rejection)
  | [] => .ok ([], books)
  | proposal :: proposals => do
      let (decision, books) ← submit interpreter books proposal
      let (decisions, books) ← submitAll books proposals
      return (decision :: decisions, books)

/-- One synchronization: check the request, submit its proposals, answer from the new log. -/
def synchronize (settings : LogServerSettings State Intent Operation Rejection ε)
    (books : Books State Operation Rejection) (request : SyncRequest Intent) :
    Result ε (SyncResponse Operation Rejection × Books State Operation Rejection) := do
  assertSyncRequest request (some settings.limits)
  throwIf (request.baseSequence > books.log.length)
    (.unknownBaseSequenceError request.baseSequence books.log.length)
  let (decisions, next) ← submitAll settings.interpreter books request.proposals
  let response := InMemoryLogServer.respond settings.limits next.log request decisions
  assertSyncResponse response (some settings.limits)
  return (response, next)

def Distinct : Prop :=
  books.ledger.Pairwise fun earlier later =>
    earlier.identity.operationId ≠ later.identity.operationId ∧
      earlier.identity.position ≠ later.identity.position

end Books

/-- The decisions of a batch, each on record for its proposal. -/
def Recorded (ledger : Ledger Operation Rejection) (proposals : List (ProposedOperation Intent))
    (decisions : List (ProposalDecision Operation Rejection)) : Prop :=
  List.Forall₂ (fun proposal decision => ⟨proposal.toOperationSubmissionIdentity, decision⟩ ∈ ledger)
    proposals decisions

namespace Recorded

variable {ledger : Ledger Operation Rejection} {proposals : List (ProposedOperation Intent)}
  {decisions : List (ProposalDecision Operation Rejection)}

theorem mono {ledger' : Ledger Operation Rejection} (h : Recorded ledger proposals decisions)
    (hsubset : ledger ⊆ ledger') : Recorded ledger' proposals decisions :=
  List.Forall₂.imp (fun _ _ hrecord => hsubset hrecord) h

theorem exists_record (h : Recorded ledger proposals decisions)
    {decision : ProposalDecision Operation Rejection} (hdecision : decision ∈ decisions) :
    ∃ record ∈ ledger, record.decision = decision := by
  induction h with
  | nil => simp at hdecision
  | cons hrecord _ ih =>
      rcases List.mem_cons.mp hdecision with rfl | hrest
      · exact ⟨_, hrecord, rfl⟩
      · exact ih hrest

theorem map_operationId (h : Recorded ledger proposals decisions)
    (hids : ∀ record ∈ ledger, record.decision.operationId = record.identity.operationId) :
    decisions.map ProposalDecision.operationId = proposals.map fun proposal => proposal.operationId := by
  induction h with
  | nil => rfl
  | cons hrecord _ ih => rw [List.map_cons, List.map_cons, ih, hids _ hrecord]

end Recorded

structure LogInterpreter.Total (interpreter : LogInterpreter State Intent Operation Rejection ε) : Prop where
  decide : ∀ state proposal, ∃ draft, interpreter.decide state proposal = .ok draft
  apply : ∀ state operation, ∃ next, interpreter.apply state operation = .ok next

/-- The decision is the interpreter's answer to the proposal, on some state. -/
def DecidedAs (interpreter : LogInterpreter State Intent Operation Rejection ε) (proposal : ProposedOperation Intent)
    (decision : ProposalDecision Operation Rejection) : Prop :=
  ∃ state, (∃ sequence operation, interpreter.decide state proposal = .ok (.accepted operation) ∧
      decision = .accepted proposal.operationId sequence operation) ∨
    ∃ reason, interpreter.decide state proposal = .ok (.rejected reason) ∧
      decision = .rejected proposal.operationId reason

/-! ### What a submission does -/

/-- Everything a successful submission can be: a replay, or one new record at the end. -/
inductive Submitted (interpreter : LogInterpreter State Intent Operation Rejection ε)
    (books : Books State Operation Rejection) (proposal : ProposedOperation Intent) :
    ProposalDecision Operation Rejection → Books State Operation Rejection → Prop
  | replayed (decision : ProposalDecision Operation Rejection)
      (hrecord : ⟨proposal.toOperationSubmissionIdentity, decision⟩ ∈ books.ledger) :
      Submitted interpreter books proposal decision books
  | rejected (reason : Rejection) (hundecided : Undecided books.ledger proposal.toOperationIdentity)
      (hdecide : interpreter.decide books.state proposal = .ok (.rejected reason)) :
      Submitted interpreter books proposal (.rejected proposal.operationId reason)
        ⟨books.ledger ++
          [⟨proposal.toOperationSubmissionIdentity, .rejected proposal.operationId reason⟩], books.state⟩
  | accepted (operation : Operation) (state : State)
      (hundecided : Undecided books.ledger proposal.toOperationIdentity)
      (hdecide : interpreter.decide books.state proposal = .ok (.accepted operation))
      (happly : interpreter.apply books.state operation = .ok state) :
      Submitted interpreter books proposal
        (.accepted proposal.operationId ((canonicalLog books.ledger).length + 1) operation)
        ⟨books.ledger ++ [⟨proposal.toOperationSubmissionIdentity,
          .accepted proposal.operationId ((canonicalLog books.ledger).length + 1) operation⟩], state⟩

theorem sameOperationIdentity_eq_true {left right : OperationIdentity} :
    sameOperationIdentity left right = true ↔ left = right := by
  obtain ⟨leftId, leftClient, leftSequence⟩ := left
  obtain ⟨rightId, rightClient, rightSequence⟩ := right
  simp [sameOperationIdentity, and_assoc]

/-- A decision is replayed for the identity it was stored with, and no other. -/
theorem replayDecision_eq_ok {existing : StoredProposalDecision Operation Rejection}
    {proposal : ProposedOperation Intent} {decision : ProposalDecision Operation Rejection} :
    (InMemoryLogServer.replayDecision existing proposal : Result ε _) = .ok decision ↔
      existing = ⟨proposal.toOperationSubmissionIdentity, decision⟩ := by
  obtain ⟨⟨identity, intentHash⟩, stored⟩ := existing
  obtain ⟨⟨identity', intentHash'⟩, intent⟩ := proposal
  simp only [InMemoryLogServer.replayDecision, bind_unit_eq_ok, throwIf_eq_ok, pure_eq_ok,
    Except.ok.injEq, Bool.not_eq_false, sameOperationIdentity_eq_true, ne_eq, not_not,
    StoredProposalDecision.mk.injEq, OperationSubmissionIdentity.mk.injEq, and_assoc]

theorem assertClientPositionFree_eq_ok {occupant : Option String}
    {proposal : ProposedOperation Intent} {u : Unit} :
    (InMemoryLogServer.assertClientPositionFree occupant proposal : Result ε Unit) = .ok u ↔
      ∀ operationId, occupant = some operationId → operationId = proposal.operationId := by
  cases occupant with
  | none => simp [InMemoryLogServer.assertClientPositionFree]
  | some operationId => simp [InMemoryLogServer.assertClientPositionFree]

namespace Books

variable {interpreter : LogInterpreter State Intent Operation Rejection ε}
  {books next : Books State Operation Rejection} {proposal : ProposedOperation Intent}
  {decision : ProposalDecision Operation Rejection}

theorem Distinct.operationIds (h : books.Distinct) :
    (books.ledger.map fun record => record.identity.operationId).Nodup :=
  List.pairwise_map.mpr (h.imp fun hne => hne.1)

theorem Distinct.positions (h : books.Distinct) :
    (books.ledger.map fun record => record.identity.position).Nodup :=
  List.pairwise_map.mpr (h.imp fun hne => hne.2)

theorem find?_eq_none :
    books.find? proposal.operationId = none ↔
      ∀ record ∈ books.ledger, record.identity.operationId ≠ proposal.operationId :=
  KeyedList.find?_eq_none_iff

theorem undecided_of_lookups (hfind : books.find? proposal.operationId = none)
    (hfree : ∀ operationId, books.occupant? proposal.position = some operationId →
      operationId = proposal.operationId) :
    Undecided books.ledger proposal.toOperationIdentity := by
  have hids := find?_eq_none.mp hfind
  intro record hrecord
  refine ⟨hids record hrecord, fun hposition => ?_⟩
  cases hoccupant : books.ledger.find? fun record => record.identity.position = proposal.position with
  | none => exact KeyedList.find?_eq_none_iff.mp hoccupant record hrecord hposition
  | some occupant =>
      have hsame := hfree occupant.identity.operationId (by rw [occupant?, hoccupant]; rfl)
      exact hids occupant (List.mem_of_find?_eq_some hoccupant) hsame

theorem decideNext_eq_ok (hundecided : Undecided books.ledger proposal.toOperationIdentity)
    (h : decideNext interpreter books proposal = .ok (decision, next)) :
    Submitted interpreter books proposal decision next := by
  rw [decideNext, bind_eq_ok] at h
  obtain ⟨draft, hdecide, h⟩ := h
  rw [application_eq_ok] at hdecide
  cases draft with
  | rejected reason =>
      obtain ⟨rfl, rfl⟩ := Prod.mk.inj (Except.ok.inj h)
      exact .rejected reason hundecided hdecide
  | accepted operation =>
      obtain ⟨state, happly, h⟩ := bind_eq_ok.mp h
      obtain ⟨rfl, rfl⟩ := Prod.mk.inj (Except.ok.inj h)
      exact .accepted operation state hundecided hdecide ((application_eq_ok _ _).mp happly)

theorem submit_eq_ok (h : submit interpreter books proposal = .ok (decision, next)) :
    Submitted interpreter books proposal decision next := by
  rw [submit] at h
  cases hfind : books.find? proposal.operationId with
  | some existing =>
      rw [hfind] at h
      obtain ⟨replayed, hreplay, h⟩ := bind_eq_ok.mp h
      obtain ⟨rfl, rfl⟩ := Prod.mk.inj (Except.ok.inj h)
      obtain rfl := replayDecision_eq_ok.mp hreplay
      exact .replayed _ (List.mem_of_find?_eq_some hfind)
  | none =>
      rw [hfind] at h
      obtain ⟨hfree, h⟩ := bind_unit_eq_ok.mp h
      exact decideNext_eq_ok (undecided_of_lookups hfind (assertClientPositionFree_eq_ok.mp hfree)) h

end Books

namespace Submitted

variable {interpreter : LogInterpreter State Intent Operation Rejection ε}
  {books next : Books State Operation Rejection} {proposal : ProposedOperation Intent}
  {decision : ProposalDecision Operation Rejection} {initialState : State}

theorem recorded (h : Submitted interpreter books proposal decision next) :
    ⟨proposal.toOperationSubmissionIdentity, decision⟩ ∈ next.ledger := by
  cases h with
  | replayed _ hrecord => exact hrecord
  | rejected => exact List.mem_append_right _ List.mem_cons_self
  | accepted => exact List.mem_append_right _ List.mem_cons_self

theorem extends_ledger (h : Submitted interpreter books proposal decision next) :
    ∃ new : Ledger Operation Rejection, next.ledger = books.ledger ++ new ∧
      (new.map StoredProposalDecision.identity).Sublist [proposal.toOperationSubmissionIdentity] := by
  cases h with
  | replayed => exact ⟨[], (List.append_nil _).symm, List.nil_sublist _⟩
  | rejected => exact ⟨_, rfl, List.Sublist.refl _⟩
  | accepted => exact ⟨_, rfl, List.Sublist.refl _⟩

theorem distinct (h : Submitted interpreter books proposal decision next) (hbooks : books.Distinct) :
    next.Distinct := by
  cases h with
  | replayed => exact hbooks
  | rejected _ hundecided =>
      exact List.pairwise_append.mpr ⟨hbooks, List.pairwise_singleton _ _,
        fun record hrecord new hnew => List.mem_singleton.mp hnew ▸ hundecided record hrecord⟩
  | accepted _ _ hundecided =>
      exact List.pairwise_append.mpr ⟨hbooks, List.pairwise_singleton _ _,
        fun record hrecord new hnew => List.mem_singleton.mp hnew ▸ hundecided record hrecord⟩

theorem justified (h : Submitted interpreter books proposal decision next)
    (hvalid : proposal.toOperationSubmissionIdentity.Valid)
    (hbooks : Justified interpreter initialState books.ledger books.state) :
    Justified interpreter initialState next.ledger next.state := by
  cases h with
  | replayed => exact hbooks
  | rejected reason hundecided hdecide => exact hbooks.reject proposal reason hvalid hundecided hdecide
  | accepted operation state hundecided hdecide happly =>
      exact hbooks.accept proposal operation hvalid hundecided hdecide happly

theorem decidedAs (h : Submitted interpreter books proposal decision next) :
    ∀ record ∈ next.ledger, record ∈ books.ledger ∨
      record.identity = proposal.toOperationSubmissionIdentity ∧ DecidedAs interpreter proposal record.decision := by
  intro record hrecord
  cases h with
  | replayed => exact Or.inl hrecord
  | rejected reason _ hdecide =>
      rcases List.mem_append.mp hrecord with hold | hnew
      · exact Or.inl hold
      · obtain rfl := List.mem_singleton.mp hnew
        exact Or.inr ⟨rfl, _, Or.inr ⟨reason, hdecide, rfl⟩⟩
  | accepted operation _ _ hdecide =>
      rcases List.mem_append.mp hrecord with hold | hnew
      · exact Or.inl hold
      · obtain rfl := List.mem_singleton.mp hnew
        exact Or.inr ⟨rfl, _, Or.inl ⟨_, operation, hdecide, rfl⟩⟩

end Submitted

/-! ### Batches -/

namespace Books

variable {interpreter : LogInterpreter State Intent Operation Rejection ε}
  {books next : Books State Operation Rejection} {proposals : List (ProposedOperation Intent)}
  {decisions : List (ProposalDecision Operation Rejection)} {initialState : State}

/-- The ledger only grows at its end, by identities of the batch in their order. -/
theorem submitAll_extends (h : submitAll interpreter books proposals = .ok (decisions, next)) :
    ∃ new : Ledger Operation Rejection, next.ledger = books.ledger ++ new ∧
      (new.map StoredProposalDecision.identity).Sublist
        (proposals.map ProposedOperation.toOperationSubmissionIdentity) := by
  induction proposals generalizing books decisions next with
  | nil =>
      obtain ⟨-, rfl⟩ := Prod.mk.inj (Except.ok.inj h)
      exact ⟨[], (List.append_nil _).symm, List.nil_sublist _⟩
  | cons proposal proposals ih =>
      obtain ⟨⟨decision, middle⟩, hfirst, h⟩ := bind_eq_ok.mp h
      obtain ⟨⟨rest, last⟩, hrest, h⟩ := bind_eq_ok.mp h
      obtain ⟨-, rfl⟩ := Prod.mk.inj (Except.ok.inj h)
      obtain ⟨first, hmiddle, hsublist⟩ := (submit_eq_ok hfirst).extends_ledger
      obtain ⟨second, hlast, hsublist'⟩ := ih hrest
      refine ⟨first ++ second, by rw [hlast, hmiddle, List.append_assoc], ?_⟩
      rw [List.map_append, List.map_cons]
      exact hsublist.append hsublist'

theorem submitAll_decidedAs (h : submitAll interpreter books proposals = .ok (decisions, next)) :
    ∀ record ∈ next.ledger, record ∈ books.ledger ∨ ∃ proposal ∈ proposals,
      record.identity = proposal.toOperationSubmissionIdentity ∧ DecidedAs interpreter proposal record.decision := by
  induction proposals generalizing books decisions next with
  | nil =>
      obtain ⟨-, rfl⟩ := Prod.mk.inj (Except.ok.inj h)
      exact fun record hrecord => Or.inl hrecord
  | cons proposal proposals ih =>
      obtain ⟨⟨decision, middle⟩, hfirst, h⟩ := bind_eq_ok.mp h
      obtain ⟨⟨rest, last⟩, hrest, h⟩ := bind_eq_ok.mp h
      obtain ⟨-, rfl⟩ := Prod.mk.inj (Except.ok.inj h)
      intro record hrecord
      rcases ih hrest record hrecord with hmiddle | ⟨other, hother, hdecided⟩
      · rcases (submit_eq_ok hfirst).decidedAs record hmiddle with hold | hnew
        · exact Or.inl hold
        · exact Or.inr ⟨proposal, List.mem_cons_self, hnew⟩
      · exact Or.inr ⟨other, List.mem_cons_of_mem _ hother, hdecided⟩

theorem submitAll_recorded (h : submitAll interpreter books proposals = .ok (decisions, next)) :
    Recorded next.ledger proposals decisions := by
  induction proposals generalizing books decisions next with
  | nil =>
      obtain ⟨rfl, -⟩ := Prod.mk.inj (Except.ok.inj h)
      exact .nil
  | cons proposal proposals ih =>
      obtain ⟨⟨decision, middle⟩, hfirst, h⟩ := bind_eq_ok.mp h
      obtain ⟨⟨rest, last⟩, hrest, h⟩ := bind_eq_ok.mp h
      obtain ⟨rfl, rfl⟩ := Prod.mk.inj (Except.ok.inj h)
      obtain ⟨new, hlast, -⟩ := submitAll_extends hrest
      refine .cons ?_ (ih hrest)
      rw [hlast]
      exact List.mem_append_left _ (submit_eq_ok hfirst).recorded

theorem submitAll_justified (h : submitAll interpreter books proposals = .ok (decisions, next))
    (hvalid : ∀ proposal ∈ proposals, proposal.toOperationSubmissionIdentity.Valid)
    (hbooks : Justified interpreter initialState books.ledger books.state) :
    Justified interpreter initialState next.ledger next.state := by
  induction proposals generalizing books decisions next with
  | nil =>
      obtain ⟨-, rfl⟩ := Prod.mk.inj (Except.ok.inj h)
      exact hbooks
  | cons proposal proposals ih =>
      obtain ⟨⟨decision, middle⟩, hfirst, h⟩ := bind_eq_ok.mp h
      obtain ⟨⟨rest, last⟩, hrest, h⟩ := bind_eq_ok.mp h
      obtain ⟨-, rfl⟩ := Prod.mk.inj (Except.ok.inj h)
      rw [List.forall_mem_cons] at hvalid
      exact ih hrest hvalid.2 ((submit_eq_ok hfirst).justified hvalid.1 hbooks)

theorem submit_of_recorded {proposal : ProposedOperation Intent}
    {decision : ProposalDecision Operation Rejection}
    (hnodup : (books.ledger.map fun record => record.identity.operationId).Nodup)
    (hrecord : ⟨proposal.toOperationSubmissionIdentity, decision⟩ ∈ books.ledger) :
    submit interpreter books proposal = .ok (decision, books) := by
  have hfind : books.find? proposal.operationId = some ⟨proposal.toOperationSubmissionIdentity, decision⟩ :=
    (KeyedList.find?_eq_some_iff hnodup).mpr ⟨hrecord, rfl⟩
  rw [submit, hfind]
  change (InMemoryLogServer.replayDecision _ proposal >>= fun replayed => pure (replayed, books)) = _
  rw [replayDecision_eq_ok.mpr rfl]
  rfl

theorem submitAll_of_recorded
    (hnodup : (books.ledger.map fun record => record.identity.operationId).Nodup)
    (hrecorded : Recorded books.ledger proposals decisions) :
    submitAll interpreter books proposals = .ok (decisions, books) := by
  induction hrecorded with
  | nil => rfl
  | cons hrecord _ ih =>
      simp only [submitAll, submit_of_recorded hnodup hrecord, ok_bind, ih, pure_eq_ok]

/-! ### Submissions that cannot fail -/

def Answerable (books : Books State Operation Rejection) (proposal : ProposedOperation Intent) : Prop :=
  (∃ decision, ⟨proposal.toOperationSubmissionIdentity, decision⟩ ∈ books.ledger) ∨
    Undecided books.ledger proposal.toOperationIdentity

theorem decideNext_succeeds (htotal : interpreter.Total) (proposal : ProposedOperation Intent) :
    ∃ decision next, decideNext interpreter books proposal = .ok (decision, next) := by
  obtain ⟨draft, hdecide⟩ := htotal.decide books.state proposal
  rw [decideNext, hdecide, application_ok, ok_bind]
  cases draft with
  | rejected reason => exact ⟨_, _, rfl⟩
  | accepted operation =>
      obtain ⟨state, happly⟩ := htotal.apply books.state operation
      dsimp only
      rw [happly]
      exact ⟨_, _, rfl⟩

theorem submit_succeeds (htotal : interpreter.Total) (hbooks : books.Distinct)
    {proposal : ProposedOperation Intent} (h : books.Answerable proposal) :
    ∃ decision next, submit interpreter books proposal = .ok (decision, next) := by
  rcases h with ⟨decision, hrecord⟩ | hundecided
  · exact ⟨_, _, submit_of_recorded hbooks.operationIds hrecord⟩
  · have hfind : books.find? proposal.operationId = none :=
      find?_eq_none.mpr fun record hrecord => (hundecided record hrecord).1
    have hoccupant : books.occupant? proposal.position = none := by
      rw [occupant?, KeyedList.find?_eq_none_iff.mpr fun record hrecord => (hundecided record hrecord).2]
      rfl
    rw [submit, hfind, hoccupant]
    exact decideNext_succeeds htotal proposal

theorem Answerable.submitted {proposal other : ProposedOperation Intent}
    {decision : ProposalDecision Operation Rejection} (h : books.Answerable proposal)
    (hsubmitted : Submitted interpreter books other decision next)
    (hapart : other.operationId ≠ proposal.operationId ∧ other.position ≠ proposal.position) :
    next.Answerable proposal := by
  obtain ⟨new, hnext, hsublist⟩ := hsubmitted.extends_ledger
  rw [Answerable, hnext]
  rcases h with ⟨decision, hrecord⟩ | hundecided
  · exact Or.inl ⟨decision, List.mem_append_left _ hrecord⟩
  · refine Or.inr fun record hrecord => ?_
    rcases List.mem_append.mp hrecord with hold | hnew
    · exact hundecided record hold
    · have hidentity := List.mem_singleton.mp (hsublist.subset (List.mem_map_of_mem hnew))
      rw [hidentity]
      exact hapart

theorem submitAll_succeeds (htotal : interpreter.Total) (hbooks : books.Distinct)
    (hanswerable : ∀ proposal ∈ proposals, books.Answerable proposal)
    (hapart : proposals.Pairwise fun earlier later =>
      earlier.operationId ≠ later.operationId ∧ earlier.position ≠ later.position) :
    ∃ decisions next, submitAll interpreter books proposals = .ok (decisions, next) := by
  induction proposals generalizing books with
  | nil => exact ⟨_, _, rfl⟩
  | cons proposal proposals ih =>
      rw [List.forall_mem_cons] at hanswerable
      rw [List.pairwise_cons] at hapart
      obtain ⟨decision, middle, hfirst⟩ := submit_succeeds htotal hbooks hanswerable.1
      have hsubmitted := submit_eq_ok hfirst
      obtain ⟨decisions, last, hrest⟩ := ih (hsubmitted.distinct hbooks)
        (fun later hlater => (hanswerable.2 later hlater).submitted hsubmitted (hapart.1 later hlater)) hapart.2
      rw [submitAll, hfirst, ok_bind]
      dsimp only
      rw [hrest]
      exact ⟨_, _, rfl⟩

end Books

end SyncEngine
