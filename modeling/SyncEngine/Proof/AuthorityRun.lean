import SyncEngine.Model.Counter
import SyncEngine.Proof.Response
import SyncEngine.Proof.Server
import Mathlib.Data.Set.Function

/-!
# Runs of the in-memory authority

What one call of `synchronize` does to the ledger behind the server, and from it the invariant of
every run and the permanence of every answer.
-/

namespace SyncEngine

open JavaScript Throwing

variable {State Intent Operation Rejection ε : Type}
  {settings : LogServerSettings State Intent Operation Rejection ε} {initialState : State}

/-- What a successful call does to the ledger, and what it answers. -/
structure Synchronized (settings : LogServerSettings State Intent Operation Rejection ε)
    (before after : Books State Operation Rejection) (request : SyncRequest Intent)
    (response : SyncResponse Operation Rejection) : Prop where
  valid : ValidRequest request settings.limits
  base : request.baseSequence ≤ before.log.length
  grows : ∃ new : Ledger Operation Rejection, after.ledger = before.ledger ++ new ∧
    (new.map StoredProposalDecision.identity).Sublist
      (request.proposals.map ProposedOperation.toOperationSubmissionIdentity)
  decided : ∀ record ∈ after.ledger, record ∈ before.ledger ∨ ∃ proposal ∈ request.proposals,
    record.identity = proposal.toOperationSubmissionIdentity ∧
      DecidedAs settings.interpreter proposal record.decision
  recorded : Recorded after.ledger request.proposals response.decisions
  answered : response =
    InMemoryLogServer.respond settings.limits after.log request response.decisions
  safe : (after.log.length : Int) ≤ maxSafeInteger

theorem Synchronized.ledger_prefix {before after : Books State Operation Rejection}
    {request : SyncRequest Intent} {response : SyncResponse Operation Rejection}
    (h : Synchronized settings before after request response) : before.ledger <+: after.ledger := by
  obtain ⟨new, hnew, -⟩ := h.grows
  exact hnew ▸ List.prefix_append _ _

namespace Books

variable {books next : Books State Operation Rejection} {request : SyncRequest Intent}
  {response : SyncResponse Operation Rejection}

theorem synchronize_eq_ok :
    books.synchronize settings request = .ok (response, next) ↔
      ValidRequest request settings.limits ∧ request.baseSequence ≤ books.log.length ∧
      ∃ decisions, submitAll settings.interpreter books request.proposals = .ok (decisions, next) ∧
        ValidResponse (InMemoryLogServer.respond settings.limits next.log request decisions)
          (some settings.limits) ∧
        response = InMemoryLogServer.respond settings.limits next.log request decisions := by
  rw [synchronize, bind_unit_eq_ok, bind_unit_eq_ok, assertSyncRequest_eq_ok, throwIf_eq_ok, not_lt,
    bind_eq_ok]
  refine and_congr_right fun _ => and_congr_right fun _ => ?_
  constructor
  · intro hparts
    obtain ⟨⟨decisions, last⟩, hsubmit, h⟩ := hparts
    obtain ⟨hvalid, h⟩ := bind_unit_eq_ok.mp h
    obtain ⟨rfl, rfl⟩ := Prod.mk.inj (Except.ok.inj h)
    exact ⟨decisions, hsubmit, (assertSyncResponse_eq_ok _ _ _).mp hvalid, rfl⟩
  · intro hparts
    obtain ⟨decisions, hsubmit, hvalid, rfl⟩ := hparts
    refine ⟨(decisions, next), hsubmit, bind_unit_eq_ok.mpr ⟨?_, rfl⟩⟩
    exact (assertSyncResponse_eq_ok _ _ _).mpr hvalid

theorem synchronize_synchronized (h : books.synchronize settings request = .ok (response, next)) :
    Synchronized settings books next request response := by
  obtain ⟨hrequest, hbase, decisions, hsubmit, hvalid, rfl⟩ := synchronize_eq_ok.mp h
  exact ⟨hrequest, hbase, submitAll_extends hsubmit, submitAll_decidedAs hsubmit, submitAll_recorded hsubmit, rfl,
    hvalid.headSafe⟩

theorem synchronize_justified (h : books.synchronize settings request = .ok (response, next))
    (hbooks : Justified settings.interpreter initialState books.ledger books.state) :
    Justified settings.interpreter initialState next.ledger next.state := by
  obtain ⟨hrequest, -, decisions, hsubmit, -, -⟩ := synchronize_eq_ok.mp h
  exact submitAll_justified hsubmit hrequest.batch.valid hbooks

end Books

namespace InMemoryLogServer

variable {server next : InMemoryLogServer State Operation Rejection} {request : SyncRequest Intent}
  {response : SyncResponse Operation Rejection}

/-- The server is the image of a justified ledger with a safe head. -/
structure Holds (server : InMemoryLogServer State Operation Rejection)
    (authority : Authority settings.interpreter initialState) : Prop where
  represents : server.Represents authority.toBooks
  safe : (authority.log.length : Int) ≤ maxSafeInteger

def emptyAuthority (settings : LogServerSettings State Intent Operation Rejection ε)
    (initialState : State) : Authority settings.interpreter initialState where
  ledger := []
  state := initialState
  justified := .empty

theorem initial_holds (settings : LogServerSettings State Intent Operation Rejection ε)
    (initialState : State) :
    (initial initialState).Holds (emptyAuthority settings initialState) where
  represents := initial_represents initialState
  safe := (by decide : (0 : Int) ≤ maxSafeInteger)

/-- The step lemma: a successful call leads to the image of a longer justified ledger. -/
theorem synchronize_holds {authority : Authority settings.interpreter initialState}
    (hserver : server.Holds authority)
    (hcall : synchronize settings server request = .ok (response, next)) :
    ∃ authority' : Authority settings.interpreter initialState, next.Holds authority' ∧
      Synchronized settings authority.toBooks authority'.toBooks request response := by
  have hagree := synchronize_agree settings hserver.represents authority.justified.pairwise_identity request
  obtain ⟨⟨_, books⟩, hbooks, rfl, -, hnext⟩ := hagree.of_left_eq_ok hcall
  have hsynchronized := Books.synchronize_synchronized hbooks
  exact ⟨⟨books, Books.synchronize_justified hbooks authority.justified⟩,
    ⟨hnext, hsynchronized.safe⟩, hsynchronized⟩

theorem afterSynchronize_holds {authority : Authority settings.interpreter initialState}
    (hserver : server.Holds authority) (request : SyncRequest Intent) :
    ∃ authority' : Authority settings.interpreter initialState,
      (afterSynchronize settings server request).Holds authority' ∧
      authority.ledger <+: authority'.ledger := by
  rw [afterSynchronize]
  cases hcall : synchronize settings server request with
  | error _ => exact ⟨authority, hserver, List.prefix_refl _⟩
  | ok result =>
      obtain ⟨authority', hnext, hsynchronized⟩ := synchronize_holds hserver hcall
      exact ⟨authority', hnext, hsynchronized.ledger_prefix⟩

/-- The run lemma. -/
theorem run_holds {authority : Authority settings.interpreter initialState}
    (hserver : server.Holds authority) (requests : List (SyncRequest Intent)) :
    ∃ authority' : Authority settings.interpreter initialState,
      (run settings server requests).Holds authority' ∧ authority.ledger <+: authority'.ledger := by
  induction requests generalizing server authority with
  | nil => exact ⟨authority, hserver, List.prefix_refl _⟩
  | cons request requests ih =>
      obtain ⟨middle, hmiddle, hfirst⟩ := afterSynchronize_holds hserver request
      obtain ⟨last, hlast, hrest⟩ := ih hmiddle
      exact ⟨last, hlast, hfirst.trans hrest⟩

end InMemoryLogServer

/-! ### The invariant of every run -/

def StoredProposalDecision.IsAccepted (record : StoredProposalDecision Operation Rejection) : Prop :=
  ∃ operationId sequence operation, record.decision = .accepted operationId sequence operation

namespace InMemoryLogServer

/-- The safety invariants of an authority, on its own fields. -/
structure Invariant (interpreter : LogInterpreter State Intent Operation Rejection ε)
    (initialState : State) (server : InMemoryLogServer State Operation Rejection) : Prop where
  sequences : ∀ (i : Nat) (entry : CommittedOperation Operation), server.log[i]? = some entry →
    entry.sequence = i + 1
  operationIds : (server.log.map CommittedOperation.operationId).Nodup
  clientPositions : (server.log.map fun entry =>
    (entry.origin.clientId, entry.origin.clientSequence)).Nodup
  accepted : Set.BijOn (fun i : Fin server.log.length => server.log[i].decisionRecord) Set.univ
    {record | record ∈ server.decisionsByOperationId.values ∧ record.IsAccepted}
  rejected : ∀ record ∈ server.decisionsByOperationId.values, ∀ operationId reason,
    record.decision = .rejected operationId reason → ∀ entry ∈ server.log,
      entry.operationId ≠ operationId
  decisions : ∀ operationId record,
    server.decisionsByOperationId.get? operationId = some record ↔
      record ∈ server.decisionsByOperationId.values ∧ record.identity.operationId = operationId ∧
        record.decision.operationId = operationId
  positions : ∀ clientId clientSequence operationId,
    server.operationIdByClientPosition.get? (clientPositionKey clientId clientSequence) =
        some operationId ↔
      ∃ record ∈ server.decisionsByOperationId.values, record.identity.clientId = clientId ∧
        record.identity.clientSequence = clientSequence ∧ record.identity.operationId = operationId
  intents : ∀ left ∈ server.decisionsByOperationId.values,
    ∀ right ∈ server.decisionsByOperationId.values,
      left.identity.operationId = right.identity.operationId →
        left.identity.intentHash = right.identity.intentHash
  state : server.log.foldlM (fun state entry => interpreter.apply state entry.operation)
    initialState = .ok server.state

/-- Nothing that is stored changes; new rows come after it. -/
structure Extends (server next : InMemoryLogServer State Operation Rejection) : Prop where
  log : server.log <+: next.log
  decisions : server.decisionsByOperationId.entries <+: next.decisionsByOperationId.entries
  positions : server.operationIdByClientPosition.entries <+: next.operationIdByClientPosition.entries

variable {server next : InMemoryLogServer State Operation Rejection}

theorem Represents.values_eq {books : Books State Operation Rejection} (h : server.Represents books) :
    server.decisionsByOperationId.values = books.ledger := by
  rw [InsertionMap.values, h.decisions, decisionRows, List.map_map]
  exact List.map_id' _

theorem Represents.extends {books books' : Books State Operation Rejection}
    (h : server.Represents books) (h' : next.Represents books') (hgrows : books.ledger <+: books'.ledger) :
    server.Extends next where
  log := by
    rw [h.log, h'.log]
    exact hgrows.filterMap _
  decisions := by
    rw [h.decisions, h'.decisions]
    exact hgrows.map _
  positions := by
    rw [h.positions, h'.positions]
    exact hgrows.map _

theorem bijOn_decisionRecord (authority : Authority settings.interpreter initialState) :
    Set.BijOn (fun i : Fin authority.log.length => authority.log[i].decisionRecord) Set.univ
      {record | record ∈ authority.ledger ∧ record.IsAccepted} := by
  have hjustified := authority.justified
  refine ⟨?_, ?_, ?_⟩
  · intro i _
    exact ⟨hjustified.mem_log_iff.mp (List.getElem_mem i.isLt), _, _, _, rfl⟩
  · intro i _ j _ hsame
    have hdecisions := congrArg StoredProposalDecision.decision hsame
    obtain ⟨-, hsequence, -⟩ := ProposalDecision.accepted.inj hdecisions
    have hi := hjustified.sequence_eq (List.getElem?_eq_getElem i.isLt)
    have hj := hjustified.sequence_eq (List.getElem?_eq_getElem j.isLt)
    change authority.log[i].sequence = i + 1 at hi
    change authority.log[j].sequence = j + 1 at hj
    exact Fin.ext (by omega)
  · intro record hparts
    obtain ⟨hrecord, operationId, sequence, operation, hdecision⟩ := hparts
    have hentry := StoredProposalDecision.committed?_of_accepted hdecision
    have hown := hjustified.decision_operationId record hrecord
    obtain ⟨i, hi, -⟩ := hjustified.getElem?_of_committed? hrecord hentry
    obtain ⟨hlt, hget⟩ := List.getElem?_eq_some_iff.mp hi
    refine ⟨⟨i, hlt⟩, Set.mem_univ _, ?_⟩
    rw [(StoredProposalDecision.committed?_eq_some_iff hown).mp hentry, ← hget]
    rfl

theorem Represents.invariant {authority : Authority settings.interpreter initialState}
    (h : server.Represents authority.toBooks) :
    server.Invariant settings.interpreter initialState := by
  have hjustified := authority.justified
  have hids := hjustified.operationIds_nodup
  constructor
  case sequences =>
    intro i entry hentry
    rw [h.log] at hentry
    exact hjustified.sequence_eq hentry
  case operationIds =>
    rw [h.log]
    exact List.pairwise_map.mpr (hjustified.log_distinct.imp fun hne => hne.1)
  case clientPositions =>
    rw [h.log]
    exact List.pairwise_map.mpr (hjustified.log_distinct.imp fun hne => hne.2)
  case accepted =>
    have hlog := h.log
    have hvalues := h.values_eq
    obtain ⟨state, log, decisions, positions⟩ := server
    obtain rfl : log = authority.log := hlog
    rw [hvalues]
    exact bijOn_decisionRecord authority
  case rejected =>
    rw [h.values_eq, h.log]
    intro record hrecord operationId reason hdecision entry hentry hsame
    have hown := hjustified.decision_operationId record hrecord
    rw [hdecision] at hown
    have hsome := hjustified.committed?_of_operationId hentry hrecord (hown.symm.trans hsame.symm)
    obtain ⟨-, -, _, haccepted⟩ := StoredProposalDecision.committed?_eq_some hsome
    rw [hdecision] at haccepted
    simp at haccepted
  case decisions =>
    intro operationId record
    rw [h.values_eq, get?_of_decisionRows h.decisions, KeyedList.find?_eq_some_iff hids]
    refine and_congr_right fun hrecord => ?_
    rw [hjustified.decision_operationId record hrecord, and_self]
  case positions =>
    intro clientId clientSequence operationId
    have hposition := get?_of_positionRows h.positions ⟨operationId, clientId, clientSequence⟩
    rw [OperationIdentity.clientPositionKey] at hposition
    rw [hposition, h.values_eq, Option.map_eq_some_iff]
    refine exists_congr fun record => ?_
    rw [KeyedList.find?_eq_some_iff hjustified.positions_nodup, and_assoc]
    refine and_congr_right fun _ => ?_
    rw [OperationIdentity.position, OperationIdentity.position, Prod.mk.injEq, and_assoc]
  case intents =>
    rw [h.values_eq]
    intro left hleft right hright hsame
    rw [KeyedList.eq_of_key_eq hids hleft hright hsame]
  case state =>
    rw [h.log, h.state]
    exact hjustified.foldlM_apply

/-- Every run of a fresh server keeps the invariant, and the next call, whatever it does, only adds to
what is stored. -/
theorem run_invariant (settings : LogServerSettings State Intent Operation Rejection ε)
    (initialState : State) (requests : List (SyncRequest Intent)) (request : SyncRequest Intent) :
    let server := run settings (initial initialState) requests
    server.Invariant settings.interpreter initialState ∧
      server.Extends (afterSynchronize settings server request) := by
  obtain ⟨authority, hserver, -⟩ := run_holds (initial_holds settings initialState) requests
  obtain ⟨authority', hnext, hgrows⟩ := afterSynchronize_holds hserver request
  exact ⟨hserver.represents.invariant, hserver.represents.extends hnext.represents hgrows⟩

/-! ### Retries -/

theorem Represents.unique {books : Books State Operation Rejection} (h : server.Represents books)
    (h' : next.Represents books) : server = next := by
  obtain ⟨state, log, decisions, positions⟩ := server
  obtain ⟨state', log', decisions', positions'⟩ := next
  obtain rfl : state = state' := h.state.trans h'.state.symm
  obtain rfl : log = log' := h.log.trans h'.log.symm
  obtain rfl : decisions = decisions' := InsertionMap.ext (h.decisions.trans h'.decisions.symm)
  obtain rfl : positions = positions' := InsertionMap.ext (h.positions.trans h'.positions.symm)
  rfl

/-- The ledger is determined by the fields of the server. -/
theorem Represents.authority_unique {authority authority' : Authority settings.interpreter initialState}
    (h : server.Represents authority.toBooks) (h' : server.Represents authority'.toBooks) :
    authority = authority' := by
  obtain ⟨books, _⟩ := authority
  obtain ⟨books', _⟩ := authority'
  obtain rfl : books = books' :=
    Books.ext (h.values_eq.symm.trans h'.values_eq) (h.state.symm.trans h'.state)
  rfl

theorem synchronize_of_recorded {authority : Authority settings.interpreter initialState}
    (hserver : server.Holds authority) (hlimits : settings.limits.Resolved)
    {request : SyncRequest Intent} (hvalid : ValidRequest request settings.limits)
    (hbase : request.baseSequence ≤ authority.log.length)
    {decisions : List (ProposalDecision Operation Rejection)}
    (hrecorded : Recorded authority.ledger request.proposals decisions) :
    synchronize settings server request =
      .ok (respond settings.limits authority.log request decisions, server) := by
  have hjustified := authority.justified
  have hbooks : authority.toBooks.synchronize settings request =
      .ok (respond settings.limits authority.log request decisions, authority.toBooks) := by
    refine Books.synchronize_eq_ok.mpr ⟨hvalid, hbase, decisions, ?_, ?_, rfl⟩
    · exact Books.submitAll_of_recorded hjustified.operationIds_nodup hrecorded
    · exact (respond_valid hjustified hlimits hvalid hbase hrecorded).mpr hserver.safe
  have hagree := synchronize_agree settings hserver.represents
    hjustified.pairwise_identity request
  obtain ⟨⟨response, next⟩, hcall, hresponse, -, hnext⟩ := hagree.of_right_eq_ok hbooks
  obtain rfl : response = _ := hresponse
  rw [hcall, hserver.represents.unique hnext]

theorem respond_entries_prefix {limits : ProtocolLimits} (hlimits : limits.Resolved)
    {request : SyncRequest Intent} (hvalid : ValidRequest request limits)
    {log log' : List (CommittedOperation Operation)} (hgrows : log <+: log')
    (decisions decisions' : List (ProposalDecision Operation Rejection)) :
    (respond limits log request decisions).entries <+:
      (respond limits log' request decisions').entries := by
  rw [respond_entries _ _ hlimits hvalid, respond_entries _ _ hlimits hvalid]
  exact (hgrows.drop _).take _

/-- A request that succeeded once succeeds after every later run, with the same decisions and at least
the same entries, and changes nothing. -/
theorem synchronize_retry {options : InMemoryLogServerOptions State Intent Operation Rejection ε}
    {settings : LogServerSettings State Intent Operation Rejection ε}
    {fresh : InMemoryLogServer State Operation Rejection} (hcreate : create options = .ok (settings, fresh))
    (earlier : List (SyncRequest Intent)) {request : SyncRequest Intent}
    {response : SyncResponse Operation Rejection} {next : InMemoryLogServer State Operation Rejection}
    (hcall : synchronize settings (run settings fresh earlier) request = .ok (response, next))
    (later : List (SyncRequest Intent)) :
    ∃ response', synchronize settings (run settings next later) request =
        .ok (response', run settings next later) ∧
      response'.decisions = response.decisions ∧
      response'.requestedBaseSequence = response.requestedBaseSequence ∧
      response.entries <+: response'.entries := by
  obtain ⟨limits, hlimits, hfields⟩ := bind_eq_ok.mp hcreate
  obtain ⟨rfl, rfl⟩ := Prod.mk.inj (Except.ok.inj hfields)
  have hresolved := resolveProtocolLimits_resolved hlimits
  obtain ⟨before, hbefore, -⟩ := run_holds (initial_holds _ _) earlier
  obtain ⟨after, hafter, hsynchronized⟩ := synchronize_holds hbefore hcall
  obtain ⟨last, hlast, hgrows⟩ := run_holds hafter later
  obtain ⟨new, hnew, -⟩ := hsynchronized.grows
  have hlogs : after.log <+: last.log := hgrows.filterMap _
  have hbase : request.baseSequence ≤ (last.log.length : Int) := by
    have hfirst : (before.log.length : Int) ≤ after.log.length := by
      have hprefix : before.log <+: after.log := by
        rw [Books.log, Books.log, hnew, canonicalLog_append]
        exact List.prefix_append _ _
      exact Int.ofNat_le.mpr hprefix.length_le
    have := Int.ofNat_le.mpr hlogs.length_le
    have := hsynchronized.base
    omega
  refine ⟨_, synchronize_of_recorded hlast hresolved hsynchronized.valid hbase
    (hsynchronized.recorded.mono hgrows.subset), rfl, ?_, ?_⟩
  · rw [hsynchronized.answered]
    rfl
  · rw [hsynchronized.answered]
    exact respond_entries_prefix hresolved hsynchronized.valid hlogs _ _

theorem synchronize_retry_counter :
    let request := counterRequest 0
      [counterProposal "op-1" "client-a" 1 2, counterProposal "op-2" "client-a" 2 0]
    let later := [counterRequest 1 [counterProposal "op-3" "client-b" 1 5]]
    ∃ response next, synchronize counterSettings (initial 0) request = .ok (response, next) ∧
      ∃ response', synchronize counterSettings (run counterSettings next later) request =
          .ok (response', run counterSettings next later) ∧
        response'.decisions = response.decisions ∧
        response'.requestedBaseSequence = response.requestedBaseSequence ∧
        response.entries <+: response'.entries := by
  intro request later
  have hcreate : create counterOptions = .ok (counterSettings, initial 0) := rfl
  refine ⟨_, _, rfl, ?_⟩
  exact synchronize_retry hcreate [] (show synchronize _ _ request = _ from rfl) later

end InMemoryLogServer

end SyncEngine
