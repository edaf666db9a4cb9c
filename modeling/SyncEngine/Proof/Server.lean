import SyncEngine.Proof.Validation
import SyncEngine.Spec.Authority

/-!
# The in-memory authority refines the ledger

The log, the decision table and the position index of `InMemoryLogServer` are images of one ledger.
A call works on a staged overlay of the two tables; looking up in the overlay and then in the table
is looking up in the ledger that the call has reached so far. Hence `synchronize` returns and throws
exactly what submitting the batch to the ledger does.
-/

namespace SyncEngine

open JavaScript Throwing

variable {State Intent Operation Rejection ε : Type}

/-- The rows of the decision table. -/
def decisionRows (ledger : Ledger Operation Rejection) :
    List (String × StoredProposalDecision Operation Rejection) :=
  ledger.map fun record => (record.identity.operationId, record)

/-- The rows of the position index. -/
def positionRows (ledger : Ledger Operation Rejection) : List (String × String) :=
  ledger.map fun record => (record.identity.clientPositionKey, record.identity.operationId)

/-- The fields of the server are the images of one ledger. -/
structure InMemoryLogServer.Represents (server : InMemoryLogServer State Operation Rejection)
    (books : Books State Operation Rejection) : Prop where
  state : server.state = books.state
  log : server.log = books.log
  decisions : server.decisionsByOperationId.entries = decisionRows books.ledger
  positions : server.operationIdByClientPosition.entries = positionRows books.ledger

/-- A staged transition leads from some books to the next ones through the records `new`. -/
structure StagedServerTransition.Stages (staged : StagedServerTransition State Operation Rejection)
    (books : Books State Operation Rejection) (new : Ledger Operation Rejection)
    (next : Books State Operation Rejection) : Prop where
  ledger : next.ledger = books.ledger ++ new
  state : staged.state = next.state
  entries : staged.entries = canonicalLog new
  decisions : staged.decisionsByOperationId.entries = decisionRows new
  positions : staged.operationIdByClientPosition.entries = positionRows new

theorem get?_of_decisionRows {table : InsertionMap String (StoredProposalDecision Operation Rejection)}
    {ledger : Ledger Operation Rejection} (h : table.entries = decisionRows ledger)
    (operationId : String) :
    table.get? operationId =
      ledger.find? fun record => record.identity.operationId = operationId := by
  rw [table.get?_of_entries_eq_map ledger _ _ h, Option.map_id']

theorem get?_of_positionRows {table : InsertionMap String String}
    {ledger : Ledger Operation Rejection} (h : table.entries = positionRows ledger)
    (identity : OperationIdentity) :
    table.get? identity.clientPositionKey =
      (ledger.find? fun record => record.identity.position = identity.position).map fun record =>
        record.identity.operationId := by
  rw [table.get?_of_entries_eq_map ledger _ _ h]
  simp only [OperationIdentity.clientPositionKey_eq_iff]

namespace InMemoryLogServer

variable {server : InMemoryLogServer State Operation Rejection}
  {settings : LogServerSettings State Intent Operation Rejection ε}
  {books next : Books State Operation Rejection} {new : Ledger Operation Rejection}
  {staged : StagedServerTransition State Operation Rejection}

theorem initial_represents (initialState : State) :
    (initial initialState : InMemoryLogServer State Operation Rejection).Represents
      ⟨[], initialState⟩ where
  state := rfl
  log := rfl
  decisions := rfl
  positions := rfl

theorem stage_stages (hserver : server.Represents books) : server.stage.Stages books [] books where
  ledger := (List.append_nil _).symm
  state := hserver.state
  entries := rfl
  decisions := rfl
  positions := rfl

/-! ### One proposal -/

theorem lookup_decision (hserver : server.Represents books) (hstaged : staged.Stages books new next)
    (hdistinct : next.Distinct) (operationId : String) :
    (staged.decisionsByOperationId.get? operationId).or
      (server.decisionsByOperationId.get? operationId) = next.find? operationId := by
  rw [get?_of_decisionRows hstaged.decisions, get?_of_decisionRows hserver.decisions, Books.find?,
    hstaged.ledger]
  exact KeyedList.find?_append_comm (hstaged.ledger ▸ hdistinct.operationIds)

theorem lookup_position (hserver : server.Represents books) (hstaged : staged.Stages books new next)
    (hdistinct : next.Distinct) (identity : OperationIdentity) :
    (staged.operationIdByClientPosition.get? identity.clientPositionKey).or
      (server.operationIdByClientPosition.get? identity.clientPositionKey) =
        next.occupant? identity.position := by
  rw [get?_of_positionRows hstaged.positions, get?_of_positionRows hserver.positions, ← Option.map_or,
    Books.occupant?, hstaged.ledger]
  congr 1
  exact KeyedList.find?_append_comm (hstaged.ledger ▸ hdistinct.positions)

/-- Staging the decision of an undecided proposal appends its record. -/
theorem stages_stageDecision (extended : StagedServerTransition State Operation Rejection)
    (decision : ProposalDecision Operation Rejection) (hstaged : staged.Stages books new next)
    {proposal : ProposedOperation Intent}
    (hundecided : Undecided next.ledger proposal.toOperationIdentity)
    {record : StoredProposalDecision Operation Rejection}
    (hrecord : record = createStoredDecision proposal.toOperationSubmissionIdentity decision)
    (hentries : extended.entries = staged.entries ++ canonicalLog [record])
    (hdecisions : extended.decisionsByOperationId = staged.decisionsByOperationId)
    (hpositions : extended.operationIdByClientPosition = staged.operationIdByClientPosition) :
    (extended.stageDecision proposal.toOperationSubmissionIdentity decision).Stages books
      (new ++ [record]) ⟨next.ledger ++ [record], extended.state⟩ where
  ledger := by rw [hstaged.ledger, List.append_assoc]
  state := rfl
  entries := by
    rw [canonicalLog_append, ← hstaged.entries, ← hentries]
    rfl
  decisions := by
    subst hrecord
    have hfresh : staged.decisionsByOperationId.get? proposal.operationId = none := by
      rw [get?_of_decisionRows hstaged.decisions, KeyedList.find?_eq_none_iff]
      intro record hrecord
      exact (hundecided record (hstaged.ledger ▸ List.mem_append_right _ hrecord)).1
    rw [StagedServerTransition.stageDecision, hdecisions,
      InsertionMap.entries_set_of_fresh _ _ _ hfresh, hstaged.decisions, decisionRows, decisionRows,
      List.map_append]
    rfl
  positions := by
    subst hrecord
    have hfresh : staged.operationIdByClientPosition.get? proposal.clientPositionKey = none := by
      rw [get?_of_positionRows hstaged.positions, Option.map_eq_none_iff, KeyedList.find?_eq_none_iff]
      intro record hrecord
      exact (hundecided record (hstaged.ledger ▸ List.mem_append_right _ hrecord)).2
    rw [StagedServerTransition.stageDecision, hpositions,
      InsertionMap.entries_set_of_fresh _ _ _ hfresh, hstaged.positions, positionRows, positionRows,
      List.map_append]
    rfl

/-- What a call and the ledger hand on after a proposal: one decision, and books that are staged. -/
def Staging {δ : Type} (books : Books State Operation Rejection)
    (left : δ × StagedServerTransition State Operation Rejection)
    (right : δ × Books State Operation Rejection) : Prop :=
  left.1 = right.1 ∧ right.2.Distinct ∧ ∃ new, left.2.Stages books new right.2

theorem decideProposal_agree (hserver : server.Represents books)
    (hstaged : staged.Stages books new next) (hdistinct : next.Distinct)
    {proposal : ProposedOperation Intent}
    (hundecided : Undecided next.ledger proposal.toOperationIdentity) :
    Agree (Staging books) (decideProposal settings server proposal staged)
      (Books.decideNext settings.interpreter next proposal) := by
  rw [decideProposal, Books.decideNext, hstaged.state]
  apply Agree.bind_same
  intro draft hdraft
  rw [application_eq_ok] at hdraft
  cases draft with
  | rejected reason =>
      have hnext := stages_stageDecision staged (.rejected proposal.operationId reason) hstaged hundecided
        rfl (List.append_nil _).symm rfl rfl
      rw [hstaged.state] at hnext
      exact .ok ⟨rfl, (Submitted.rejected reason hundecided hdraft).distinct hdistinct, _, hnext⟩
  | accepted operation =>
      apply Agree.bind_same
      intro state hstate
      rw [application_eq_ok] at hstate
      have hsequence : (server.log.length : Int) + staged.entries.length + 1 = next.log.length + 1 := by
        rw [hserver.log, hstaged.entries, Books.log, Books.log, hstaged.ledger, canonicalLog_append,
          List.length_append]
        push_cast
        rfl
      rw [hsequence]
      have hnext := stages_stageDecision
        { staged with
          state := state
          entries := staged.entries ++ [proposal.committedAt (next.log.length + 1) operation] }
        (.accepted proposal.operationId (next.log.length + 1) operation)
        hstaged hundecided rfl rfl rfl rfl
      exact .ok ⟨rfl, (Submitted.accepted operation state hundecided hdraft hstate).distinct hdistinct,
        _, hnext⟩

theorem processProposal_agree (hserver : server.Represents books)
    (hstaged : staged.Stages books new next) (hdistinct : next.Distinct)
    (proposal : ProposedOperation Intent) :
    Agree (Staging books) (processProposal settings server proposal staged)
      (Books.submit settings.interpreter next proposal) := by
  rw [processProposal, Books.submit, lookup_decision hserver hstaged hdistinct]
  cases hfind : next.find? proposal.operationId with
  | some existing =>
      apply Agree.bind_same
      intro decision _
      exact .ok ⟨rfl, hdistinct, new, hstaged⟩
  | none =>
      simp only [lookup_position hserver hstaged hdistinct]
      apply Agree.bind_same
      intro _ hfree
      exact decideProposal_agree hserver hstaged hdistinct
        (Books.undecided_of_lookups hfind (assertClientPositionFree_eq_ok.mp hfree))

/-! ### A whole call -/

theorem processProposals_agree (hserver : server.Represents books)
    (hstaged : staged.Stages books new next) (hdistinct : next.Distinct)
    (proposals : List (ProposedOperation Intent)) :
    Agree (Staging books) (processProposals settings server proposals staged)
      (Books.submitAll settings.interpreter next proposals) := by
  induction proposals generalizing staged new next with
  | nil => exact .ok ⟨rfl, hdistinct, new, hstaged⟩
  | cons proposal proposals ih =>
      rw [processProposals, Books.submitAll]
      refine (processProposal_agree hserver hstaged hdistinct proposal).bind ?_
      rintro ⟨decision, staged'⟩ ⟨_, next'⟩ ⟨rfl, hdistinct', new', hstaged'⟩
      refine (ih hstaged' hdistinct').bind ?_
      rintro ⟨decisions, staged''⟩ ⟨_, next''⟩ ⟨rfl, hdistinct'', new'', hstaged''⟩
      exact .ok ⟨rfl, hdistinct'', new'', hstaged''⟩

/-- Publishing what was staged leads to the images of the next ledger. -/
theorem publish_represents (hserver : server.Represents books)
    (hstaged : staged.Stages books new next) (hdistinct : next.Distinct) :
    (server.publish staged).Represents next where
  state := hstaged.state
  log := by
    rw [publish, hserver.log, hstaged.entries, Books.log, Books.log, hstaged.ledger,
      canonicalLog_append]
  decisions := by
    rw [publish, hstaged.decisions, InsertionMap.entries_setAll_of_fresh, hserver.decisions,
      hstaged.ledger, decisionRows, decisionRows, decisionRows, List.map_append]
    rw [hserver.decisions, decisionRows, decisionRows, ← List.map_append, List.map_map,
      ← hstaged.ledger]
    exact hdistinct.operationIds
  positions := by
    rw [publish, hstaged.positions, InsertionMap.entries_setAll_of_fresh, hserver.positions,
      hstaged.ledger, positionRows, positionRows, positionRows, List.map_append]
    rw [hserver.positions, positionRows, positionRows, ← List.map_append, List.map_map,
      ← hstaged.ledger]
    refine List.pairwise_map.mpr (hdistinct.imp fun hne hkey => hne.2 ?_)
    exact OperationIdentity.clientPositionKey_eq_iff.mp hkey

/-- A call of the in-memory authority is a synchronization of the ledger it represents. -/
theorem synchronize_agree (settings : LogServerSettings State Intent Operation Rejection ε)
    (hserver : server.Represents books) (hdistinct : books.Distinct)
    (request : SyncRequest Intent) :
    Agree (fun left right => left.1 = right.1 ∧ right.2.Distinct ∧ left.2.Represents right.2)
      (synchronize settings server request) (Books.synchronize settings books request) := by
  rw [synchronize, Books.synchronize, headSequence, hserver.log]
  apply Agree.bind_same
  intro _ _
  apply Agree.bind_same
  intro _ _
  refine (processProposals_agree hserver (stage_stages hserver) hdistinct request.proposals).bind ?_
  rintro ⟨decisions, staged⟩ ⟨_, next⟩ ⟨rfl, hdistinct', new, hstaged⟩
  have hlog : books.log ++ staged.entries = next.log := by
    rw [hstaged.entries, Books.log, Books.log, hstaged.ledger, canonicalLog_append]
  simp only [hlog]
  apply Agree.bind_same
  intro _ _
  exact .ok ⟨rfl, hdistinct', publish_represents hserver hstaged hdistinct'⟩

end InMemoryLogServer

end SyncEngine
