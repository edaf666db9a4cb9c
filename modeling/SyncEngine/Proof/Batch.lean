import SyncEngine.Proof.Snapshot

/-!
# Batches

When a call of `synchronize` returns, and what a batch is: the documented conditions are the only ones
a call can fail on, and a batch does what its proposals do in calls of their own, or nothing.
-/

namespace SyncEngine

open JavaScript Throwing

variable {State Intent Operation Rejection ε : Type}

def LogInterpreter.process (interpreter : LogInterpreter State Intent Operation Rejection ε) (state : State)
    (proposal : ProposedOperation Intent) : Except ε State := do
  match ← interpreter.decide state proposal with
  | .rejected _ => return state
  | .accepted operation => interpreter.apply state operation

def LogInterpreter.processAll (interpreter : LogInterpreter State Intent Operation Rejection ε)
    (state : State) (proposals : List (ProposedOperation Intent)) : Except ε State :=
  proposals.foldlM interpreter.process state

/-! ### When a batch of submissions succeeds -/

namespace Books

variable {interpreter : LogInterpreter State Intent Operation Rejection ε}
  {books next : Books State Operation Rejection} {proposal later : ProposedOperation Intent}
  {decision : ProposalDecision Operation Rejection} {proposals : List (ProposedOperation Intent)}

theorem answerable_iff_lookups (hbooks : books.Distinct) :
    books.Answerable proposal ↔
      (∀ record, books.find? proposal.operationId = some record →
        record.identity = proposal.toOperationSubmissionIdentity) ∧
      (books.find? proposal.operationId = none → ∀ operationId,
        books.occupant? proposal.position = some operationId → operationId = proposal.operationId) := by
  constructor
  · intro h
    rcases h with ⟨decision, hrecord⟩ | hundecided
    · have hfind : books.find? proposal.operationId =
          some ⟨proposal.toOperationSubmissionIdentity, decision⟩ :=
        (KeyedList.find?_eq_some_iff hbooks.operationIds).mpr ⟨hrecord, rfl⟩
      rw [hfind]
      refine ⟨fun record hsome => ?_, fun hnone => absurd hnone (by simp)⟩
      rw [← Option.some.inj hsome]
    · have hfind : books.find? proposal.operationId = none :=
        find?_eq_none.mpr fun record hrecord => (hundecided record hrecord).1
      have hoccupant : books.occupant? proposal.position = none := by
        rw [occupant?, KeyedList.find?_eq_none_iff.mpr fun record hrecord => (hundecided record hrecord).2]
        rfl
      rw [hfind, hoccupant]
      simp
  · intro hlookups
    obtain ⟨hsame, hfree⟩ := hlookups
    cases hfind : books.find? proposal.operationId with
    | none => exact Or.inr (undecided_of_lookups hfind (hfree hfind))
    | some record =>
        have hidentity := hsame record hfind
        refine Or.inl ⟨record.decision, ?_⟩
        rw [← hidentity]
        exact List.mem_of_find?_eq_some hfind

/-- A submission returns when the proposal is answerable and the application handles it if it is new. -/
theorem submit_returns_iff (hbooks : books.Distinct) :
    (∃ decision next, submit interpreter books proposal = .ok (decision, next)) ↔
      books.Answerable proposal ∧ (books.find? proposal.operationId = none →
        ∃ state, interpreter.process books.state proposal = .ok state) := by
  constructor
  · intro hreturns
    obtain ⟨decision, next, hsubmit⟩ := hreturns
    cases submit_eq_ok hsubmit with
    | replayed _ hrecord =>
        refine ⟨Or.inl ⟨decision, hrecord⟩, fun hfind => ?_⟩
        exact absurd rfl (find?_eq_none.mp hfind _ hrecord)
    | rejected reason hundecided hdecide =>
        refine ⟨Or.inr hundecided, fun _ => ⟨books.state, ?_⟩⟩
        rw [LogInterpreter.process, hdecide]
        rfl
    | accepted operation state hundecided hdecide happly =>
        refine ⟨Or.inr hundecided, fun _ => ⟨state, ?_⟩⟩
        rw [LogInterpreter.process, hdecide]
        exact happly
  · intro hparts
    obtain ⟨⟨decision, hrecord⟩ | hundecided, happlication⟩ := hparts
    · exact ⟨_, _, submit_of_recorded hbooks.operationIds hrecord⟩
    · have hfind : books.find? proposal.operationId = none :=
        find?_eq_none.mpr fun record hrecord => (hundecided record hrecord).1
      have hoccupant : books.occupant? proposal.position = none := by
        rw [occupant?, KeyedList.find?_eq_none_iff.mpr fun record hrecord => (hundecided record hrecord).2]
        rfl
      obtain ⟨state, hstate⟩ := happlication hfind
      obtain ⟨draft, hdecide, hrest⟩ := bind_eq_ok.mp hstate
      rw [submit, hfind, hoccupant]
      change ∃ decision next, decideNext interpreter books proposal = .ok (decision, next)
      rw [decideNext, hdecide, application_ok, ok_bind]
      cases draft with
      | rejected reason => exact ⟨_, _, rfl⟩
      | accepted operation =>
          change interpreter.apply books.state operation = .ok state at hrest
          dsimp only
          rw [hrest]
          exact ⟨_, _, rfl⟩

end Books

def Books.newProposals (books : Books State Operation Rejection)
    (proposals : List (ProposedOperation Intent)) : List (ProposedOperation Intent) :=
  proposals.filter fun proposal => (books.find? proposal.operationId).isNone

namespace Submitted

variable {interpreter : LogInterpreter State Intent Operation Rejection ε}
  {books next : Books State Operation Rejection} {proposal later : ProposedOperation Intent}
  {decision : ProposalDecision Operation Rejection}

theorem state_eq (h : Submitted interpreter books proposal decision next) :
    (books.find? proposal.operationId = none →
        interpreter.process books.state proposal = .ok next.state) ∧
      (books.find? proposal.operationId ≠ none → next.state = books.state) := by
  cases h with
  | replayed _ hrecord =>
      exact ⟨fun hfind => absurd rfl (Books.find?_eq_none.mp hfind _ hrecord), fun _ => rfl⟩
  | rejected reason hundecided hdecide =>
      refine ⟨fun _ => ?_, fun _ => rfl⟩
      rw [LogInterpreter.process, hdecide]
      rfl
  | accepted operation state hundecided hdecide happly =>
      refine ⟨fun _ => ?_, fun hfind => absurd ?_ hfind⟩
      · rw [LogInterpreter.process, hdecide]
        exact happly
      · exact Books.find?_eq_none.mpr fun record hrecord => (hundecided record hrecord).1

theorem answerable_iff (h : Submitted interpreter books proposal decision next)
    (hapart : proposal.operationId ≠ later.operationId ∧ proposal.position ≠ later.position) :
    next.Answerable later ↔ books.Answerable later := by
  refine ⟨fun hnext => ?_, fun hbooks => hbooks.submitted h hapart⟩
  obtain ⟨new, hledger, hsublist⟩ := h.extends_ledger
  rw [Books.Answerable, hledger] at hnext
  rcases hnext with ⟨decision, hrecord⟩ | hundecided
  · rcases List.mem_append.mp hrecord with hold | hnew
    · exact Or.inl ⟨decision, hold⟩
    · have hidentity := List.mem_singleton.mp (hsublist.subset (List.mem_map_of_mem hnew))
      have hid : later.operationId = proposal.operationId :=
        congrArg (fun identity => identity.operationId) hidentity
      exact absurd hid.symm hapart.1
  · exact Or.inr fun record hrecord => hundecided record (List.mem_append_left _ hrecord)

theorem find?_eq (h : Submitted interpreter books proposal decision next)
    (hapart : proposal.operationId ≠ later.operationId) :
    next.find? later.operationId = books.find? later.operationId := by
  obtain ⟨new, hledger, hsublist⟩ := h.extends_ledger
  have hnew : new.find? (fun record => record.identity.operationId = later.operationId) = none := by
    rw [KeyedList.find?_eq_none_iff]
    intro record hrecord
    have hidentity := List.mem_singleton.mp (hsublist.subset (List.mem_map_of_mem hrecord))
    rw [hidentity]
    exact hapart
  rw [Books.find?, Books.find?, hledger, List.find?_append, hnew, Option.or_none]

theorem processAll_newProposals (h : Submitted interpreter books proposal decision next)
    (proposals : List (ProposedOperation Intent)) :
    interpreter.processAll books.state (books.newProposals (proposal :: proposals)) =
      interpreter.processAll next.state (books.newProposals proposals) := by
  obtain ⟨hmoves, hstays⟩ := h.state_eq
  cases hfind : books.find? proposal.operationId with
  | none =>
      rw [Books.newProposals, List.filter_cons_of_pos (by rw [hfind]; rfl), LogInterpreter.processAll,
        List.foldlM_cons, hmoves hfind]
      rfl
  | some record =>
      rw [Books.newProposals, List.filter_cons_of_neg (by rw [hfind]; simp), ← hstays (by simp [hfind])]
      rfl

end Submitted

namespace Books

variable {interpreter : LogInterpreter State Intent Operation Rejection ε}
  {books : Books State Operation Rejection} {proposals : List (ProposedOperation Intent)}

theorem submitAll_returns_iff (hbooks : books.Distinct)
    (hapart : proposals.Pairwise fun earlier later =>
      earlier.operationId ≠ later.operationId ∧ earlier.position ≠ later.position) :
    (∃ decisions next, submitAll interpreter books proposals = .ok (decisions, next)) ↔
      (∀ proposal ∈ proposals, books.Answerable proposal) ∧
        ∃ state, interpreter.processAll books.state (books.newProposals proposals) = .ok state := by
  induction proposals generalizing books with
  | nil => exact ⟨fun _ => ⟨by simp, books.state, rfl⟩, fun _ => ⟨[], books, rfl⟩⟩
  | cons proposal proposals ih =>
      rw [List.pairwise_cons] at hapart
      -- once the first proposal is decided, the others stand as they stood before
      have hrest : ∀ decision next, submit interpreter books proposal = .ok (decision, next) →
          ((∃ decisions last, submitAll interpreter next proposals = .ok (decisions, last)) ↔
            (∀ later ∈ proposals, books.Answerable later) ∧
              ∃ state, interpreter.processAll books.state (books.newProposals (proposal :: proposals)) =
                .ok state) := by
        intro decision next hsubmit
        have hsubmitted := submit_eq_ok hsubmit
        have hnew : next.newProposals proposals = books.newProposals proposals :=
          List.filter_congr fun later hlater => by
            rw [hsubmitted.find?_eq (hapart.1 later hlater).1]
        rw [ih (hsubmitted.distinct hbooks) hapart.2, hnew, hsubmitted.processAll_newProposals]
        refine and_congr_left fun _ => forall₂_congr fun later hlater => ?_
        exact hsubmitted.answerable_iff (hapart.1 later hlater)
      constructor
      · intro hreturns
        obtain ⟨decisions, last, hall⟩ := hreturns
        obtain ⟨⟨decision, next⟩, hsubmit, hall⟩ := bind_eq_ok.mp hall
        obtain ⟨⟨decisions, last'⟩, htail, -⟩ := bind_eq_ok.mp hall
        obtain ⟨hanswerable, hstate⟩ := (hrest decision next hsubmit).mp ⟨_, _, htail⟩
        have hfirst := ((submit_returns_iff hbooks).mp ⟨_, _, hsubmit⟩).1
        exact ⟨List.forall_mem_cons.mpr ⟨hfirst, hanswerable⟩, hstate⟩
      · intro hparts
        obtain ⟨hanswerable, state, hstate⟩ := hparts
        rw [List.forall_mem_cons] at hanswerable
        have hfirst : books.find? proposal.operationId = none →
            ∃ middle, interpreter.process books.state proposal = .ok middle := by
          intro hfind
          rw [newProposals, List.filter_cons_of_pos (by rw [hfind]; rfl), LogInterpreter.processAll,
            List.foldlM_cons] at hstate
          obtain ⟨middle, hmiddle, -⟩ := bind_eq_ok.mp hstate
          exact ⟨middle, hmiddle⟩
        obtain ⟨decision, next, hsubmit⟩ := (submit_returns_iff hbooks).mpr ⟨hanswerable.1, hfirst⟩
        obtain ⟨decisions, last, htail⟩ := (hrest decision next hsubmit).mpr ⟨hanswerable.2, state, hstate⟩
        refine ⟨decision :: decisions, last, ?_⟩
        rw [submitAll, hsubmit, ok_bind]
        dsimp only
        rw [htail]
        rfl

end Books

/-! ### When a call returns -/

namespace InMemoryLogServer

variable {settings : LogServerSettings State Intent Operation Rejection ε} {initialState : State}
  {server : InMemoryLogServer State Operation Rejection} {request : SyncRequest Intent}

/-- The documented conditions of a call. The last one is about the proposals without a decision: the
application decides and applies them in their order without throwing. -/
structure Admits (settings : LogServerSettings State Intent Operation Rejection ε)
    (server : InMemoryLogServer State Operation Rejection) (request : SyncRequest Intent) : Prop where
  valid : (assertSyncRequest request (some settings.limits) : Result ε Unit) = .ok ()
  base : request.baseSequence ≤ server.headSequence
  decided : ∀ proposal ∈ request.proposals, ∀ record,
    server.decisionsByOperationId.get? proposal.operationId = some record →
      record.identity = proposal.toOperationSubmissionIdentity
  positions : ∀ proposal ∈ request.proposals,
    server.decisionsByOperationId.get? proposal.operationId = none → ∀ operationId,
      server.operationIdByClientPosition.get? proposal.clientPositionKey = some operationId →
        operationId = proposal.operationId
  application : ∃ state, settings.interpreter.processAll server.state
    (request.proposals.filter fun proposal =>
      (server.decisionsByOperationId.get? proposal.operationId).isNone) = .ok state

theorem Represents.get?_decision {books : Books State Operation Rejection} (h : server.Represents books)
    (operationId : String) :
    server.decisionsByOperationId.get? operationId = books.find? operationId :=
  get?_of_decisionRows h.decisions operationId

theorem Represents.get?_position {books : Books State Operation Rejection} (h : server.Represents books)
    (identity : OperationIdentity) :
    server.operationIdByClientPosition.get? identity.clientPositionKey =
      books.occupant? identity.position :=
  get?_of_positionRows h.positions identity

theorem submitAll_length {books next : Books State Operation Rejection}
    {proposals : List (ProposedOperation Intent)} {decisions : List (ProposalDecision Operation Rejection)}
    (h : Books.submitAll settings.interpreter books proposals = .ok (decisions, next)) :
    next.log.length ≤ books.log.length + proposals.length := by
  obtain ⟨new, hledger, hsublist⟩ := Books.submitAll_extends h
  have hnew := hsublist.length_le
  have hlog : (canonicalLog new).length ≤ new.length := List.length_filterMap_le _ _
  rw [List.length_map, List.length_map] at hnew
  rw [Books.log, hledger, canonicalLog_append, List.length_append]
  exact Nat.add_le_add_left (hlog.trans hnew) _

theorem assertSyncResponse_respond {authority : Authority settings.interpreter initialState}
    (hserver : server.Holds authority) (hlimits : settings.limits.Resolved)
    (hlength : (server.log.length : Int) + request.proposals.length ≤ maxSafeInteger)
    (hvalid : ValidRequest request settings.limits) (hbase : request.baseSequence ≤ server.headSequence)
    {decisions : List (ProposalDecision Operation Rejection)}
    {staged : StagedServerTransition State Operation Rejection}
    (hprocess : processProposals settings server request.proposals server.stage = .ok (decisions, staged)) :
    (assertSyncResponse (respond settings.limits (server.log ++ staged.entries) request decisions)
      (some settings.limits) : Result ε Unit) = .ok () := by
  have hrepresents := hserver.represents
  have hjustified := authority.justified
  have hagree : Agree _ (processProposals settings server request.proposals server.stage) _ :=
    processProposals_agree hrepresents (stage_stages hrepresents) hjustified.pairwise_identity _
  obtain ⟨⟨_, next⟩, hsubmit, hdecisions, -, new, hstaged⟩ := hagree.of_left_eq_ok hprocess
  obtain rfl : decisions = _ := hdecisions
  have hlog : server.log ++ staged.entries = next.log := by
    rw [hrepresents.log, hstaged.entries, Books.log, Books.log, hstaged.ledger, canonicalLog_append]
  have hgrows : server.log.length ≤ next.log.length := by
    rw [← hlog, List.length_append]
    exact Nat.le_add_right _ _
  have hbound := submitAll_length hsubmit
  rw [← hrepresents.log] at hbound
  rw [hlog, assertSyncResponse_eq_ok]
  refine (respond_valid (Books.submitAll_justified hsubmit hvalid.batch.valid hjustified) hlimits hvalid
    ?_ (Books.submitAll_recorded hsubmit)).mpr ?_
  · change request.baseSequence ≤ (next.log.length : Int)
    rw [headSequence] at hbase
    omega
  · change (next.log.length : Int) ≤ maxSafeInteger
    omega

theorem admits_iff {authority : Authority settings.interpreter initialState}
    (hserver : server.Holds authority) :
    Admits settings server request ↔
      ValidRequest request settings.limits ∧ request.baseSequence ≤ server.headSequence ∧
      (∀ proposal ∈ request.proposals, authority.Answerable proposal) ∧
      ∃ state, settings.interpreter.processAll authority.state
        (authority.newProposals request.proposals) = .ok state := by
  have hrepresents := hserver.represents
  have hdistinct : authority.Distinct := authority.justified.pairwise_identity
  have hanswerable : ∀ proposal : ProposedOperation Intent, authority.Answerable proposal ↔ _ :=
    fun proposal => Books.answerable_iff_lookups hdistinct
  simp only [hanswerable, Books.newProposals, ← hrepresents.get?_decision, ← hrepresents.get?_position,
    ← hrepresents.state]
  constructor
  · intro h
    refine ⟨(assertSyncRequest_eq_ok _ _ _).mp h.valid, h.base, fun proposal hproposal => ?_, h.application⟩
    exact ⟨h.decided proposal hproposal, h.positions proposal hproposal⟩
  · intro hparts
    obtain ⟨hvalid, hbase, hproposals, happlication⟩ := hparts
    exact {
      valid := (assertSyncRequest_eq_ok _ _ _).mpr hvalid
      base := hbase
      decided := fun proposal hproposal => (hproposals proposal hproposal).1
      positions := fun proposal hproposal => (hproposals proposal hproposal).2
      application := happlication }

/-- A call returns when its request is admitted, on a server that holds a justified ledger. -/
theorem Holds.returns_iff_admits {authority : Authority settings.interpreter initialState}
    (hserver : server.Holds authority) (hlimits : settings.limits.Resolved)
    (hlength : (server.log.length : Int) + request.proposals.length ≤ maxSafeInteger) :
    (∃ response next, synchronize settings server request = .ok (response, next)) ↔
      Admits settings server request := by
  have hrepresents := hserver.represents
  have hdistinct : authority.Distinct := authority.justified.pairwise_identity
  have hagree : Agree _ (processProposals settings server request.proposals server.stage) _ :=
    processProposals_agree hrepresents (stage_stages hrepresents) hdistinct _
  rw [admits_iff hserver]
  constructor
  · intro hreturns
    obtain ⟨response, next, hcall⟩ := hreturns
    obtain ⟨⟨_, books⟩, hbooks, -⟩ :=
      (synchronize_agree settings hrepresents hdistinct request).of_left_eq_ok hcall
    obtain ⟨hvalid, hbase, decisions, hsubmit, -⟩ := Books.synchronize_eq_ok.mp hbooks
    rw [headSequence, hrepresents.log]
    refine ⟨hvalid, hbase, ?_⟩
    exact (Books.submitAll_returns_iff hdistinct hvalid.batch.distinct).mp ⟨_, _, hsubmit⟩
  · intro hparts
    obtain ⟨hvalid, hbase, hbatch⟩ := hparts
    obtain ⟨decisions, books, hsubmit⟩ :=
      (Books.submitAll_returns_iff hdistinct hvalid.batch.distinct).mpr hbatch
    obtain ⟨⟨decisions', staged⟩, hprocess, -⟩ := hagree.of_right_eq_ok hsubmit
    have hresponse := assertSyncResponse_respond hserver hlimits hlength hvalid hbase hprocess
    refine ⟨respond settings.limits (server.log ++ staged.entries) request decisions',
      server.publish staged, ?_⟩
    rw [synchronize, (assertSyncRequest_eq_ok _ _ ()).mpr hvalid, ok_bind,
      throwIf_neg (not_lt.mpr hbase), ok_bind, hprocess, ok_bind]
    dsimp only
    rw [hresponse]
    rfl

theorem Synchronized.entries_length {before after : Books State Operation Rejection}
    {response : SyncResponse Operation Rejection} (hlimits : settings.limits.Resolved)
    (h : Synchronized settings before after request response) :
    (response.entries.length : Int) = min request.maximumEntries
      (min settings.limits.maximumEntriesPerResponse (after.log.length - request.baseSequence)) := by
  have hgrows := (h.ledger_prefix.filterMap StoredProposalDecision.committed?).length_le
  have hentries := respond_entries after.log response.decisions hlimits h.valid
  have hpage : 1 ≤ min request.maximumEntries settings.limits.maximumEntriesPerResponse :=
    le_min h.valid.entries hlimits.entries
  have hnonneg := h.valid.baseNonneg
  have hbase : request.baseSequence ≤ after.log.length :=
    h.base.trans (Int.ofNat_le.mpr hgrows)
  rw [h.answered, hentries, List.length_take, List.length_drop]
  omega

/-- A call on a reachable server returns exactly under the documented conditions, its own validation
never refuses the response, and the response has a decision for each proposal and a full page. -/
theorem synchronize_returns_iff
    {options : InMemoryLogServerOptions State Intent Operation Rejection ε}
    {settings : LogServerSettings State Intent Operation Rejection ε}
    {fresh : InMemoryLogServer State Operation Rejection} (hcreate : create options = .ok (settings, fresh))
    (earlier : List (SyncRequest Intent)) (request : SyncRequest Intent)
    (hlength : ((run settings fresh earlier).log.length : Int) + request.proposals.length ≤
      maxSafeInteger) :
    let server := run settings fresh earlier
    ((∃ response next, synchronize settings server request = .ok (response, next)) ↔
      Admits settings server request) ∧
    (∀ decisions staged, (assertSyncRequest request (some settings.limits) : Result ε Unit) = .ok () →
      request.baseSequence ≤ server.headSequence →
      processProposals settings server request.proposals server.stage = .ok (decisions, staged) →
        (assertSyncResponse (respond settings.limits (server.log ++ staged.entries) request decisions)
          (some settings.limits) : Result ε Unit) = .ok ()) ∧
    ∀ response next, synchronize settings server request = .ok (response, next) →
      response.decisions.map ProposalDecision.operationId =
        request.proposals.map (fun proposal => proposal.operationId) ∧
      (response.entries.length : Int) = min request.maximumEntries
        (min settings.limits.maximumEntriesPerResponse (next.headSequence - request.baseSequence)) := by
  intro server
  have hlimits : settings.limits.Resolved := create_resolved hcreate
  obtain ⟨authority, hserver, -⟩ := run_holds (create_holds hcreate) earlier
  refine ⟨hserver.returns_iff_admits hlimits hlength, ?_, ?_⟩
  · intro decisions staged hvalid hbase hprocess
    exact assertSyncResponse_respond hserver hlimits hlength ((assertSyncRequest_eq_ok _ _ _).mp hvalid)
      hbase hprocess
  · intro response next hcall
    obtain ⟨authority', hnext, hsynchronized⟩ := synchronize_holds hserver hcall
    refine ⟨?_, ?_⟩
    · exact hsynchronized.recorded.map_operationId authority'.justified.decision_operationId
    · rw [headSequence, hnext.represents.log]
      exact Synchronized.entries_length hlimits hsynchronized

theorem synchronize_returns_iff_counter :
    let request := counterRequest 0
      [counterProposal "op-1" "client-a" 1 2, counterProposal "op-2" "client-b" 1 0]
    Admits counterSettings (initial 0) request ∧
      ∃ response next, synchronize counterSettings (initial 0) request = .ok (response, next) ∧
        response.decisions.map ProposalDecision.operationId = ["op-1", "op-2"] ∧
        (response.entries.length : Int) = min 256 (min 256 (next.headSequence - 0)) := by
  intro request
  have hcreate : create counterOptions = .ok (counterSettings, initial 0) := rfl
  obtain ⟨hreturns, -, hresponse⟩ := synchronize_returns_iff hcreate [] request (by decide)
  obtain ⟨response, next, hcall⟩ : ∃ response next,
      synchronize counterSettings (initial 0) request = .ok (response, next) := ⟨_, _, rfl⟩
  exact ⟨hreturns.mp ⟨response, next, hcall⟩, response, next, hcall, hresponse response next hcall⟩

end InMemoryLogServer

/-! ### A batch and its proposals -/

def SyncRequest.single (request : SyncRequest Intent) (proposal : ProposedOperation Intent) :
    SyncRequest Intent :=
  { request with proposals := [proposal] }

theorem ValidRequest.single {request : SyncRequest Intent} {limits : ProtocolLimits}
    (h : ValidRequest request limits) {proposal : ProposedOperation Intent}
    (hproposal : proposal ∈ request.proposals) : ValidRequest (request.single proposal) limits where
  baseNonneg := h.baseNonneg
  baseSafe := h.baseSafe
  entries := h.entries
  entriesSafe := h.entriesSafe
  withinLimit := by
    have hpositive := List.length_pos_of_mem hproposal
    have hlimit := h.withinLimit
    change ((1 : Nat) : Int) ≤ _
    omega
  batch := ⟨fun other hother => List.mem_singleton.mp hother ▸ h.batch.valid proposal hproposal,
    List.pairwise_singleton _ _⟩

namespace InMemoryLogServer

variable {settings : LogServerSettings State Intent Operation Rejection ε} {initialState : State}
  {server : InMemoryLogServer State Operation Rejection} {request : SyncRequest Intent}
  {authority : Authority settings.interpreter initialState} {proposal : ProposedOperation Intent}
  {proposals : List (ProposedOperation Intent)} {decision : ProposalDecision Operation Rejection}
  {decisions : List (ProposalDecision Operation Rejection)} {next : Books State Operation Rejection}

/-- A call of its own for each proposal, with the decisions of all calls. -/
def synchronizeEach (settings : LogServerSettings State Intent Operation Rejection ε)
    (request : SyncRequest Intent) (server : InMemoryLogServer State Operation Rejection) :
    List (ProposedOperation Intent) →
    Result ε (List (ProposalDecision Operation Rejection) × InMemoryLogServer State Operation Rejection)
  | [] => .ok ([], server)
  | proposal :: proposals => do
      let (response, server) ← synchronize settings server (request.single proposal)
      let (decisions, server) ← synchronizeEach settings request server proposals
      return (response.decisions ++ decisions, server)

theorem Holds.synchronize_single (hserver : server.Holds authority) (hlimits : settings.limits.Resolved)
    (hvalid : ValidRequest (request.single proposal) settings.limits)
    (hbase : request.baseSequence ≤ authority.log.length)
    (hsubmit : Books.submit settings.interpreter authority.toBooks proposal = .ok (decision, next))
    (hsafe : (next.log.length : Int) ≤ maxSafeInteger) :
    ∃ response server', synchronize settings server (request.single proposal) = .ok (response, server') ∧
      response.decisions = [decision] ∧
      ∃ authority' : Authority settings.interpreter initialState, server'.Holds authority' ∧
        authority'.toBooks = next := by
  have hjustified := authority.justified
  have hall : Books.submitAll settings.interpreter authority.toBooks [proposal] = .ok ([decision], next) := by
    rw [Books.submitAll, hsubmit]
    rfl
  have hnext := Books.submitAll_justified hall hvalid.batch.valid hjustified
  have hgrows : authority.log.length ≤ next.log.length := by
    obtain ⟨new, hledger, -⟩ := Books.submitAll_extends hall
    rw [Books.log, Books.log, hledger, canonicalLog_append, List.length_append]
    exact Nat.le_add_right _ _
  have hresponse := (respond_valid hnext hlimits hvalid (hbase.trans (Int.ofNat_le.mpr hgrows))
    (Books.submitAll_recorded hall)).mpr hsafe
  have hbooks := Books.synchronize_eq_ok.mpr ⟨hvalid, hbase, _, hall, hresponse, rfl⟩
  obtain ⟨⟨response, server'⟩, hcall, rfl, -, hrepresents⟩ :=
    (synchronize_agree settings hserver.represents hjustified.pairwise_identity _).of_right_eq_ok hbooks
  exact ⟨_, server', hcall, rfl, ⟨next, hnext⟩, ⟨hrepresents, hsafe⟩, rfl⟩

theorem Holds.synchronize_single_error (hserver : server.Holds authority)
    (hvalid : ValidRequest (request.single proposal) settings.limits)
    (hbase : request.baseSequence ≤ authority.log.length) {error : SyncEngineError ε}
    (hsubmit : Books.submit settings.interpreter authority.toBooks proposal = .error error) :
    synchronize settings server (request.single proposal) = .error error := by
  have hknown : ¬(request.single proposal).baseSequence > authority.log.length := not_lt.mpr hbase
  have hbooks : Books.synchronize settings authority.toBooks (request.single proposal) = .error error := by
    rw [Books.synchronize, (assertSyncRequest_eq_ok _ _ ()).mpr hvalid, ok_bind, throwIf_neg hknown,
      ok_bind]
    change (Books.submit settings.interpreter authority.toBooks proposal >>= _) >>= _ = _
    rw [hsubmit]
    rfl
  exact (synchronize_agree settings hserver.represents authority.justified.pairwise_identity _
    ).of_right_eq_error hbooks

/-- Calls for the proposals of a batch, one after the other, lead where the batch leads. -/
theorem Holds.synchronizeEach_returns (hserver : server.Holds authority) (hlimits : settings.limits.Resolved)
    (hvalid : ∀ proposal ∈ proposals, ValidRequest (request.single proposal) settings.limits)
    (hbase : request.baseSequence ≤ authority.log.length)
    (hall : Books.submitAll settings.interpreter authority.toBooks proposals = .ok (decisions, next))
    (hsafe : (next.log.length : Int) ≤ maxSafeInteger) :
    ∃ server', synchronizeEach settings request server proposals =
        .ok (decisions, server') ∧
      ∃ authority' : Authority settings.interpreter initialState, server'.Holds authority' ∧
        authority'.toBooks = next := by
  induction proposals generalizing server authority decisions with
  | nil =>
      obtain ⟨rfl, rfl⟩ := Prod.mk.inj (Except.ok.inj hall)
      exact ⟨server, rfl, authority, hserver, rfl⟩
  | cons proposal proposals ih =>
      rw [List.forall_mem_cons] at hvalid
      obtain ⟨⟨decision, middle⟩, hfirst, hall⟩ := bind_eq_ok.mp hall
      obtain ⟨⟨rest, last⟩, hrest, hall⟩ := bind_eq_ok.mp hall
      obtain ⟨rfl, rfl⟩ := Prod.mk.inj (Except.ok.inj hall)
      have hgrows : authority.log.length ≤ middle.log.length ∧ middle.log.length ≤ last.log.length := by
        obtain ⟨new, hmiddle, -⟩ := (Books.submit_eq_ok hfirst).extends_ledger
        obtain ⟨later, hlast, -⟩ := Books.submitAll_extends hrest
        simp only [Books.log, hlast, hmiddle, canonicalLog_append, List.length_append]
        omega
      obtain ⟨response, server₁, hcall, hdecisions, authority₁, hserver₁, rfl⟩ :=
        hserver.synchronize_single hlimits hvalid.1 hbase hfirst (by omega)
      obtain ⟨server₂, heach, hlast⟩ := ih hserver₁ hvalid.2 (by omega) hrest
      refine ⟨server₂, ?_, hlast⟩
      rw [synchronizeEach, hcall, ok_bind]
      dsimp only
      rw [heach, hdecisions]
      rfl

theorem processProposals_eq_error {staged : StagedServerTransition State Operation Rejection}
    {error : SyncEngineError ε} :
    processProposals settings server proposals staged = .error error ↔
      ∃ done proposal rest decisions staged', proposals = done ++ proposal :: rest ∧
        processProposals settings server done staged = .ok (decisions, staged') ∧
        processProposal settings server proposal staged' = .error error := by
  induction proposals generalizing staged with
  | nil => simp [processProposals]
  | cons first proposals ih =>
      rw [processProposals, bind_eq_error]
      constructor
      · intro herror
        rcases herror with hfirst | ⟨⟨decision, middle⟩, hfirst, hrest⟩
        · exact ⟨[], first, proposals, [], staged, rfl, rfl, hfirst⟩
        · rcases bind_eq_error.mp hrest with hrest | ⟨_, -, hreturn⟩
          · obtain ⟨done, proposal, rest, decisions, staged', rfl, hdone, hproposal⟩ := ih.mp hrest
            refine ⟨first :: done, proposal, rest, decision :: decisions, staged', rfl, ?_, hproposal⟩
            rw [processProposals, hfirst, ok_bind]
            dsimp only
            rw [hdone]
            rfl
          · exact absurd hreturn (by simp)
      · intro hparts
        obtain ⟨done, proposal, rest, decisions, staged', hsplit, hdone, hproposal⟩ := hparts
        cases done with
        | nil =>
            obtain ⟨rfl, rfl⟩ := List.cons.inj hsplit
            obtain ⟨-, rfl⟩ := Prod.mk.inj (Except.ok.inj hdone)
            exact Or.inl hproposal
        | cons first' done =>
            obtain ⟨rfl, rfl⟩ := List.cons.inj hsplit
            obtain ⟨⟨decision, middle⟩, hfirst, htail⟩ := bind_eq_ok.mp hdone
            obtain ⟨⟨decisions', last⟩, hrest, hreturn⟩ := bind_eq_ok.mp htail
            obtain ⟨-, rfl⟩ := Prod.mk.inj (Except.ok.inj hreturn)
            refine Or.inr ⟨(decision, middle), hfirst, bind_eq_error.mpr (Or.inl ?_)⟩
            exact ih.mpr ⟨done, proposal, rest, decisions', last, rfl, hrest, hproposal⟩

/-- What becomes of a batch one of whose proposals throws. -/
structure Interrupted (settings : LogServerSettings State Intent Operation Rejection ε)
    (server : InMemoryLogServer State Operation Rejection) (request : SyncRequest Intent)
    (done : List (ProposedOperation Intent)) (proposal : ProposedOperation Intent)
    (decisions : List (ProposalDecision Operation Rejection)) (error : SyncEngineError ε) : Prop where
  single : ∃ middle, synchronizeEach settings request server done = .ok (decisions, middle) ∧
    synchronize settings middle (request.single proposal) = .error error
  batch : synchronize settings server request = .error error
  unchanged : afterSynchronize settings server request = server

/-- A batch that throws has changed nothing; alone, the proposals before the one that throws succeed,
and that one throws the same. -/
theorem Holds.interrupted (hserver : server.Holds authority) (hlimits : settings.limits.Resolved)
    (hvalid : ValidRequest request settings.limits) (hbase : request.baseSequence ≤ server.headSequence)
    (hlength : (server.log.length : Int) + request.proposals.length ≤ maxSafeInteger)
    {done rest : List (ProposedOperation Intent)} (hsplit : request.proposals = done ++ proposal :: rest)
    {staged : StagedServerTransition State Operation Rejection} {error : SyncEngineError ε}
    (hdone : processProposals settings server done server.stage = .ok (decisions, staged))
    (hproposal : processProposal settings server proposal staged = .error error) :
    Interrupted settings server request done proposal decisions error := by
  have hrepresents := hserver.represents
  have hdistinct : authority.Distinct := authority.justified.pairwise_identity
  have hcall : synchronize settings server request = .error error := by
    have hprocess : processProposals settings server request.proposals server.stage = .error error :=
      processProposals_eq_error.mpr ⟨done, proposal, rest, decisions, staged, hsplit, hdone, hproposal⟩
    rw [synchronize, (assertSyncRequest_eq_ok _ _ ()).mpr hvalid, ok_bind,
      throwIf_neg (not_lt.mpr hbase), ok_bind, hprocess]
    rfl
  refine ⟨?_, hcall, by rw [afterSynchronize, hcall]⟩
  -- the staged view after `done` and the server after the calls for `done` show the same books
  have hagree : Agree _ (processProposals settings server done server.stage) _ :=
    processProposals_agree hrepresents (stage_stages hrepresents) hdistinct done
  obtain ⟨⟨_, middle⟩, hsubmit, hdecisions, hmiddle, new, hstaged⟩ := hagree.of_left_eq_ok hdone
  obtain rfl : decisions = _ := hdecisions
  have herror : Books.submit settings.interpreter middle proposal = .error error :=
    (processProposal_agree hrepresents hstaged hmiddle proposal).of_left_eq_error hproposal
  have hmem : ∀ other ∈ done, other ∈ request.proposals := by
    intro other hother
    rw [hsplit]
    exact List.mem_append_left _ hother
  have hsafe : (middle.log.length : Int) ≤ maxSafeInteger := by
    have hbound := submitAll_length hsubmit
    rw [← hrepresents.log] at hbound
    rw [hsplit, List.length_append] at hlength
    omega
  rw [headSequence, hrepresents.log] at hbase
  obtain ⟨server', heach, authority', hserver', rfl⟩ := hserver.synchronizeEach_returns hlimits
    (fun other hother => hvalid.single (hmem other hother)) hbase hsubmit hsafe
  refine ⟨server', heach, hserver'.synchronize_single_error (hvalid.single ?_) (hbase.trans ?_) herror⟩
  · rw [hsplit]
    exact List.mem_append_right _ List.mem_cons_self
  · obtain ⟨new, hledger, -⟩ := Books.submitAll_extends hsubmit
    rw [Books.log, Books.log, hledger, canonicalLog_append, List.length_append]
    exact Int.ofNat_le.mpr (Nat.le_add_right _ _)

/-- A batch is the sequence of its proposals, or nothing. A call that returns leaves the server that the
calls for the single proposals leave, with their decisions. A call whose batch throws at a proposal
changes nothing, and it throws there only. (An array never has 2^32 elements, so the bound on the lengths
holds of every server.) -/
theorem synchronize_batch {options : InMemoryLogServerOptions State Intent Operation Rejection ε}
    {settings : LogServerSettings State Intent Operation Rejection ε}
    {fresh : InMemoryLogServer State Operation Rejection} (hcreate : create options = .ok (settings, fresh))
    (earlier : List (SyncRequest Intent)) (request : SyncRequest Intent)
    (hvalid : (assertSyncRequest request (some settings.limits) : Result ε Unit) = .ok ())
    (hbase : request.baseSequence ≤ (run settings fresh earlier).headSequence) :
    let server := run settings fresh earlier
    (∀ response next, synchronize settings server request = .ok (response, next) →
      synchronizeEach settings request server request.proposals = .ok (response.decisions, next)) ∧
    ((server.log.length : Int) + request.proposals.length ≤ maxSafeInteger →
      (∀ done proposal rest decisions staged error, request.proposals = done ++ proposal :: rest →
        processProposals settings server done server.stage = .ok (decisions, staged) →
        processProposal settings server proposal staged = .error error →
          Interrupted settings server request done proposal decisions error) ∧
      ∀ error, synchronize settings server request = .error error →
        ∃ done proposal rest decisions staged, request.proposals = done ++ proposal :: rest ∧
          processProposals settings server done server.stage = .ok (decisions, staged) ∧
          processProposal settings server proposal staged = .error error) := by
  intro server
  have hlimits : settings.limits.Resolved := create_resolved hcreate
  obtain ⟨authority, hserver, -⟩ := run_holds (create_holds hcreate) earlier
  rw [assertSyncRequest_eq_ok] at hvalid
  refine ⟨fun response next hcall => ?_, fun hlength => ⟨?_, fun error hcall => ?_⟩⟩
  · obtain ⟨⟨_, books⟩, hbooks, rfl, -, hnext⟩ := (synchronize_agree settings hserver.represents
      authority.justified.pairwise_identity request).of_left_eq_ok hcall
    obtain ⟨-, hlog, decisions, hsubmit, hresponse, hanswer⟩ := Books.synchronize_eq_ok.mp hbooks
    obtain ⟨server', heach, authority', hserver', rfl⟩ := hserver.synchronizeEach_returns hlimits
      (fun proposal hproposal => hvalid.single hproposal) hlog hsubmit hresponse.headSafe
    obtain rfl : response = _ := hanswer
    rw [heach, hserver'.represents.unique hnext]
    rfl
  · intro done proposal rest decisions staged error hsplit hdone hproposal
    exact hserver.interrupted hlimits hvalid hbase hlength hsplit hdone hproposal
  · rw [synchronize, (assertSyncRequest_eq_ok _ _ ()).mpr hvalid, ok_bind,
      throwIf_neg (not_lt.mpr hbase), ok_bind] at hcall
    obtain hprocess | ⟨⟨decisions, staged⟩, hprocess, hcall⟩ := bind_eq_error.mp hcall
    · obtain ⟨done, proposal, rest, decisions, staged, hparts⟩ := processProposals_eq_error.mp hprocess
      exact ⟨done, proposal, rest, decisions, staged, hparts⟩
    · have hresponse := assertSyncResponse_respond hserver hlimits hlength hvalid hbase hprocess
      dsimp only at hcall
      rw [hresponse] at hcall
      exact absurd hcall (by simp)

def explodingOptions : InMemoryLogServerOptions Int Int Int String String where
  initialState := 0
  interpreter := {
    decide := fun _ proposal =>
      if proposal.intent = 0 then .ok (.rejected "expected-rejection") else .ok (.accepted proposal.intent)
    apply := fun value delta =>
      if value + delta > 10 then .error "unexpected interpreter failure" else .ok (value + delta) }
  limits := {}

def explodingSettings : LogServerSettings Int Int Int String String where
  interpreter := explodingOptions.interpreter
  limits := defaultProtocolLimits

theorem synchronize_batch_exploding :
    let first := counterProposal "accepted-first" "client-a" 1 4
    let second := counterProposal "failing-second" "client-a" 2 9
    Interrupted explodingSettings (initial 0) (counterRequest 0 [first, second]) [first] second
      [.accepted "accepted-first" 1 4] (.applicationError "unexpected interpreter failure") := by
  intro first second
  have hcreate : create explodingOptions = .ok (explodingSettings, initial 0) := rfl
  have hvalid : (assertSyncRequest (counterRequest 0 [first, second]) (some explodingSettings.limits) :
      Result String Unit) = .ok () := by decide
  obtain ⟨-, hbatch⟩ := synchronize_batch hcreate [] _ hvalid (by decide)
  exact (hbatch (by decide)).1 [first] second [] _ _ _ rfl rfl rfl

end InMemoryLogServer

end SyncEngine
