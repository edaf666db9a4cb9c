import SyncEngine.Model.Switch
import SyncEngine.Proof.Concurrency
import Mathlib.Data.Set.Function

/-!
# Runs of concurrent deliveries

Every reachable pool of deliveries has a world, by the run lemma of the program logic. What the world
knows is read back here in terms of the tables: the safety of every interleaving, and which calls can
fail although nothing is wrong with their requests.
-/

namespace SyncEngine

open JavaScript Throwing

variable {State Intent Operation Rejection ε : Type}

def D1Pool.Submitted (pool : D1Pool Intent Operation Rejection ε) (proposal : ProposedOperation Intent) : Prop :=
  ∃ thread ∈ pool.threads, proposal ∈ thread.input.request.proposals

def D1StreamSettings.storedHead (stream : D1StreamSettings State Intent Operation Rejection ε)
    (tables : D1Tables) : Int :=
  ((tables.streamsOf stream.streamId).head?.map D1StreamRow.headSequence).getD 0

variable {stream : D1StreamSettings State Intent Operation Rejection ε}

theorem StreamWorld.Holds.storedHead {Submitted : ProposedOperation Intent → Prop}
    {w : StreamWorld stream Submitted} {tables : D1Tables} (h : w.Holds tables) :
    stream.storedHead tables = w.log.length := by
  rw [D1StreamSettings.storedHead, h.streams]
  cases hopened : w.opened with
  | true => rfl
  | false =>
      rw [Books.log, w.blank hopened]
      rfl

/-- Every reachable pool has a world, and every thread of it is secure there. -/
theorem deliveries_secure {admits : D1Tables → D1Delivery Intent → Prop} (hcodecs : RoundTripCodecs stream)
    (hlimits : ∀ tables delivery, admits tables delivery → delivery.limits.Resolved)
    {pool : D1Pool Intent Operation Rejection ε} (hpool : (stream.system admits).Reachable pool)
    {assumed : Prop} (hbenign : assumed → Benign stream pool.Submitted)
    (hvalid : assumed → ∀ tables delivery, admits tables delivery →
      ValidRequest delivery.request delivery.limits ∧
        delivery.request.baseSequence ≤ stream.storedHead tables) :
    ∃ w : StreamWorld stream pool.Submitted, w.Holds pool.store ∧ ∀ thread ∈ pool.threads,
      thread.program.Secure D1Tables.answer (fun tables w => w.Holds tables)
        (Answered thread.input.request) (Failed assumed) w thread.trace := by
  have hinputs := Pool.reachable_of_inputs
    (P := fun delivery => ∀ proposal ∈ delivery.request.proposals, pool.Submitted proposal) hpool
    fun thread hthread proposal hproposal => ⟨thread, hthread, hproposal⟩
  have hstart : ∀ tables, stream.Unopened tables →
      ∃ w : StreamWorld stream pool.Submitted, w.Holds tables :=
    fun tables htables => ⟨_, StreamWorld.unopened_holds htables⟩
  have hbody : ∀ delivery tables (w : StreamWorld stream pool.Submitted),
      (admits tables delivery ∧ ∀ proposal ∈ delivery.request.proposals, pool.Submitted proposal) →
      w.Holds tables → (stream.deliver delivery).Secure D1Tables.answer (fun tables w => w.Holds tables)
        (Answered delivery.request) (Failed assumed) w [] := by
    intro delivery tables w hadmits hholds
    obtain ⟨hadmits, hsubmitted⟩ := hadmits
    apply synchronize_secure (stream.authority delivery) hcodecs (hlimits _ _ hadmits) hsubmitted hbenign
      (fun hassumed => (hvalid hassumed _ _ hadmits).1)
    intro hassumed
    rw [← hholds.storedHead]
    exact (hvalid hassumed _ _ hadmits).2
  exact Program.secure_of_reachable hstart hbody hinputs

/-! ### Safety -/

def D1LogEntryRow.decisionRow (row : D1LogEntryRow) : D1DecisionRow where
  streamId := row.streamId
  operationId := row.operationId
  clientId := row.clientId
  clientSequence := row.clientSequence
  intentHash := row.intentHash
  status := "accepted"
  sequence := row.sequence
  operationJson := row.operationJson
  reasonJson := none

/-- The safety invariants of a stream, on its rows, in the order in which they were inserted. The log is
written from `operations`. Every decision is the interpreter's own for a submitted proposal, on the log
that preceded it: on as many operations as there were accepted decisions before its own row. -/
structure StreamInvariant (stream : D1StreamSettings State Intent Operation Rejection ε)
    (Submitted : ProposedOperation Intent → Prop) (tables : D1Tables) (operations : List Operation)
    (state : State) : Prop where
  head : stream.storedHead tables = operations.length
  sequences : (tables.logOf stream.streamId).map D1LogEntryRow.sequence =
    (List.range operations.length).map fun i : Nat => (i : Int) + 1
  operationJson : (tables.logOf stream.streamId).map D1LogEntryRow.operationJson =
    operations.map stream.operationCodec.serializeJson
  accepted : Set.BijOn D1LogEntryRow.decisionRow {row | row ∈ tables.logOf stream.streamId}
    {row | row ∈ tables.decisionsOf stream.streamId ∧ row.status = "accepted"}
  fold : operations.foldlM stream.interpreter.apply stream.initialState = .ok state
  materialized : ∀ row ∈ tables.streamsOf stream.streamId,
    row.materializedStateJson = stream.stateCodec.serializeJson state
  decided : ∀ earlier row later, tables.decisionsOf stream.streamId = earlier ++ row :: later →
    ∃ proposal decision, Submitted proposal ∧
      row = stream.decisionRow ⟨proposal.toOperationSubmissionIdentity, decision⟩ ∧
      DecidedAfter stream.interpreter stream.initialState
        (operations.take (earlier.countP fun row => row.status = "accepted")) proposal decision

/-- A response that says nothing the tables do not bear out. -/
structure HonestAnswer (stream : D1StreamSettings State Intent Operation Rejection ε) (tables : D1Tables)
    (request : SyncRequest Intent) (response : SyncResponse Operation Rejection) : Prop where
  base : response.requestedBaseSequence = request.baseSequence
  through : response.throughSequence = response.requestedBaseSequence + response.entries.length
  entries : response.entries.map stream.logEntryRow <+:
    sliceFrom (tables.logOf stream.streamId) response.requestedBaseSequence
  head : response.headSequence ≤ stream.storedHead tables
  decisions : List.Forall₂ (fun proposal decision =>
    stream.decisionRow ⟨proposal.toOperationSubmissionIdentity, decision⟩ ∈
      tables.decisionsOf stream.streamId) request.proposals response.decisions

section Safety

variable {Submitted : ProposedOperation Intent → Prop} {w : StreamWorld stream Submitted}
  {tables : D1Tables}

theorem decisionRow_status (record : StoredProposalDecision Operation Rejection) :
    (stream.decisionRow record).status = "accepted" ↔ record.committed?.isSome := by
  obtain ⟨identity, decision⟩ := record
  cases decision with
  | accepted => simp [D1StreamSettings.decisionRow, StoredProposalDecision.committed?]
  | rejected => simp [D1StreamSettings.decisionRow, StoredProposalDecision.committed?]

theorem countP_decisionRow (ledger : Ledger Operation Rejection) :
    (ledger.map stream.decisionRow).countP (fun row => row.status = "accepted") =
      (logOperations ledger).length := by
  rw [logOperations, List.length_map, canonicalLog, List.length_filterMap_eq_countP, List.countP_map]
  congr 1
  funext record
  rw [Function.comp_apply, Bool.eq_iff_iff, decide_eq_true_iff]
  exact decisionRow_status record

theorem StreamWorld.Holds.bijOn (h : w.Holds tables) :
    Set.BijOn D1LogEntryRow.decisionRow {row | row ∈ tables.logOf stream.streamId}
      {row | row ∈ tables.decisionsOf stream.streamId ∧ row.status = "accepted"} := by
  have hjustified := w.justified
  rw [h.stores.logEntries, h.stores.decisions]
  refine ⟨?_, ?_, ?_⟩
  · intro row hrow
    obtain ⟨entry, hentry, rfl⟩ := List.mem_map.mp hrow
    exact ⟨List.mem_map.mpr ⟨_, hjustified.mem_log_iff.mp hentry, rfl⟩, rfl⟩
  · intro left _ right _ hsame
    have hfields := D1DecisionRow.mk.inj hsame
    obtain ⟨hstream, hid, hclient, hposition, hhash, -, hsequence, hjson, -⟩ := hfields
    exact D1LogEntryRow.ext hstream (Option.some.inj hsequence) hid hclient hposition hhash
      (Option.some.inj hjson)
  · intro row hrow
    obtain ⟨hrow, hstatus⟩ := hrow
    obtain ⟨record, hrecord, rfl⟩ := List.mem_map.mp hrow
    obtain ⟨entry, hentry⟩ := Option.isSome_iff_exists.mp ((decisionRow_status record).mp hstatus)
    have hown := hjustified.decision_operationId record hrecord
    refine ⟨stream.logEntryRow entry, ?_, ?_⟩
    · exact List.mem_map.mpr ⟨entry, mem_canonicalLog.mpr ⟨record, hrecord, hentry⟩, rfl⟩
    · rw [(StoredProposalDecision.committed?_eq_some_iff hown).mp hentry]
      rfl

theorem StreamWorld.Holds.invariant (h : w.Holds tables) :
    StreamInvariant stream Submitted tables (logOperations w.ledger) w.state := by
  have hjustified := w.justified
  have hlength : (logOperations w.ledger).length = w.log.length := List.length_map _
  constructor
  case head => rw [h.storedHead, hlength]
  case sequences =>
    rw [h.stores.logEntries, List.map_map, hlength]
    apply List.ext_getElem
    · simp [Books.log]
    · intro i hi _
      rw [List.getElem_map, List.getElem_map, List.getElem_range]
      exact hjustified.sequence_eq (List.getElem?_eq_getElem _)
  case operationJson =>
    rw [h.stores.logEntries, logOperations, List.map_map, List.map_map]
    rfl
  case accepted => exact h.bijOn
  case fold => exact (LogInterpreter.foldlM_restrict_apply _ _).mp hjustified.foldlM_operations
  case materialized =>
    intro row hrow
    rw [h.streams] at hrow
    split at hrow
    · obtain rfl := List.mem_singleton.mp hrow
      rfl
    · simp at hrow
  case decided =>
    intro earlierRows row laterRows hrows
    rw [h.stores.decisions] at hrows
    obtain ⟨earlier, rest, hledger, rfl, hrest⟩ := List.map_eq_append_iff.mp hrows
    obtain ⟨record, later, rfl, rfl, -⟩ := List.map_eq_cons_iff.mp hrest
    obtain ⟨proposal, hidentity, hdecided⟩ := hjustified.decidedAfter hledger
    obtain ⟨hsubmitted, hdecided⟩ := hdecided.of_restrict
    refine ⟨proposal, record.decision, hsubmitted, by rw [← hidentity], ?_⟩
    rw [countP_decisionRow, hledger, logOperations_append, List.take_left]
    exact hdecided

theorem Answered.honestAnswer {request : SyncRequest Intent} {trace : List (Event D1Interface)}
    {response : SyncResponse Operation Rejection} (h : Answered request w trace response)
    (hholds : w.Holds tables) : HonestAnswer stream tables request response where
  base := h.base
  through := h.honest.through
  entries := by
    have hentries := h.honest.entries
    rw [sliceFrom_of_nonneg _ h.honest.baseNonneg] at hentries ⊢
    rw [hholds.stores.logEntries, ← List.map_drop]
    exact hentries.map _
  head := by
    rw [hholds.storedHead]
    exact h.honest.head
  decisions := by
    rw [hholds.stores.decisions]
    exact List.Forall₂.imp (fun _ _ hrecord => List.mem_map_of_mem hrecord) h.recorded

end Safety

/-- In every interleaving of deliveries the tables satisfy the invariants of the stream, and every
response that was returned is honest. -/
theorem deliveries_safe (hcodecs : RoundTripCodecs stream) {pool : D1Pool Intent Operation Rejection ε}
    (hpool : (stream.system fun _ delivery => delivery.limits.Resolved).Reachable pool) :
    (∃ operations state, StreamInvariant stream pool.Submitted pool.store operations state) ∧
      ∀ thread ∈ pool.threads, ∀ response, thread.program = .pure response →
        HonestAnswer stream pool.store thread.input.request response := by
  obtain ⟨w, hholds, hthreads⟩ := deliveries_secure hcodecs (fun _ _ hlimits => hlimits) hpool
    (fun h : False => h.elim) False.elim
  refine ⟨⟨_, _, hholds.invariant⟩, fun thread hthread response hresponse => ?_⟩
  have hsecure := hthreads thread hthread
  rw [hresponse] at hsecure
  exact hsecure.returns_of_pure.honestAnswer hholds

theorem switchStream_codecs : RoundTripCodecs switchStream where
  state := ⟨fun enabled => by cases enabled <;> decide, fun enabled => by cases enabled <;> rfl⟩
  operation := ⟨fun intent => by cases intent <;> decide, fun intent => by cases intent <;> rfl⟩
  rejection := ⟨fun _ => show "\"disabled\"".length ≠ 0 by decide, fun _ => rfl⟩

theorem defaultProtocolLimits_resolved : defaultProtocolLimits.Resolved := ⟨by decide, by decide⟩

/-- A write whose first commit is rolled back because the switch was enabled in between. -/
theorem deliveries_safe_switch :
    (∃ operations state, StreamInvariant switchStream guardedPool.Submitted guardedPool.store operations
        state) ∧
      ∀ thread ∈ guardedPool.threads, ∀ response, thread.program = .pure response →
        HonestAnswer switchStream guardedPool.store thread.input.request response :=
  deliveries_safe switchStream_codecs
    (switchPool_reachable defaultProtocolLimits_resolved defaultProtocolLimits_resolved guardedSchedule)

/-! ### Failing calls -/

/-- A well-formed request whose base is not beyond the head that is stored when the call starts. -/
structure D1StreamSettings.Admits (stream : D1StreamSettings State Intent Operation Rejection ε)
    (tables : D1Tables) (delivery : D1Delivery Intent) : Prop where
  limits : delivery.limits.Resolved
  valid : ValidRequest delivery.request delivery.limits
  base : delivery.request.baseSequence ≤ stream.storedHead tables

/-- A finished call has returned a response or failed with a conflict, unless its last attempt has found
all proposals decided and one of them accepted beyond the head it had read. -/
theorem finished_iff_not_stale (hcodecs : RoundTripCodecs stream)
    {pool : D1Pool Intent Operation Rejection ε} (hpool : (stream.system stream.Admits).Reachable pool)
    (hbenign : Benign stream pool.Submitted) (hsafe : stream.storedHead pool.store ≤ maxSafeInteger)
    {thread : Thread D1Interface (D1SyncError ε) (SyncResponse Operation Rejection) (D1Delivery Intent)}
    (hthread : thread ∈ pool.threads)
    {outcome : Except (D1SyncError ε) (SyncResponse Operation Rejection)}
    (hfinished : thread.program = Program.lift outcome) :
    ((∃ response, outcome = .ok response) ∨ outcome = .error .d1SyncConflictError) ↔
      ¬Stale thread.trace := by
  obtain ⟨w, hholds, hthreads⟩ := deliveries_secure hcodecs (fun _ _ hadmits => hadmits.limits) hpool
    (fun _ : True => hbenign) fun _ _ _ hadmits => ⟨hadmits.valid, hadmits.base⟩
  have hsecure := hthreads thread hthread
  rw [hfinished] at hsecure
  cases outcome with
  | ok response => exact iff_of_true (.inl ⟨response, rfl⟩) hsecure.returns_of_pure.current
  | error error =>
      rw [hholds.storedHead] at hsafe
      rcases hsecure.throws_of_throw trivial hsafe with ⟨rfl, hcurrent⟩ | ⟨⟨e, rfl⟩, hstale⟩
      · exact iff_of_true (.inr rfl) hcurrent
      · exact iff_of_false (by simp) (not_not.mpr hstale)

/-! ### A duplicate delivery -/

theorem duplicatePool_reachable : (switchStream.system switchStream.Admits).Reachable duplicatePool := by
  have hadmits : switchStream.Admits ⟨[], [], []⟩ (switchDelivery "enable" "winner" .enable) := by
    refine ⟨defaultProtocolLimits_resolved, ?_, le_refl 0⟩
    have hvalid : (assertSyncRequest (switchDelivery "enable" "winner" .enable).request
        (some defaultProtocolLimits) : Result Empty Unit) = .ok () := rfl
    exact (assertSyncRequest_eq_ok _ _ ()).mp hvalid
  exact switchPool_reachable hadmits hadmits duplicateSchedule

theorem duplicatePool_submitted {proposal : ProposedOperation SwitchIntent}
    (h : duplicatePool.Submitted proposal) :
    (switchDelivery "enable" "winner" .enable).request.proposals = [proposal] := by
  obtain ⟨thread, hthread, hproposal⟩ := h
  have hinputs : duplicatePool.threads.map Thread.input =
      List.replicate 2 (switchDelivery "enable" "winner" .enable) := rfl
  have hinput := List.eq_of_mem_replicate (hinputs ▸ List.mem_map_of_mem hthread)
  rw [hinput] at hproposal
  exact congrArg (fun proposal => [proposal]) (List.mem_singleton.mp hproposal).symm

theorem duplicatePool_benign : Benign switchStream duplicatePool.Submitted where
  schemaHash := by decide
  decides state proposal := by
    obtain ⟨identity, intent⟩ := proposal
    cases intent <;> cases state <;> exact ⟨_, rfl⟩
  applies state proposal operation _ := by cases operation <;> exact ⟨_, rfl⟩
  operations left right hleft hright _ := by
    have hsame := (duplicatePool_submitted hleft).symm.trans (duplicatePool_submitted hright)
    rw [List.singleton_injective hsame]
  positions left right hleft hright _ := by
    have hsame := (duplicatePool_submitted hleft).symm.trans (duplicatePool_submitted hright)
    rw [List.singleton_injective hsame]

/-- A well-formed request that is delivered twice, and a call that fails with a protocol error. -/
theorem duplicate_delivery_fails :
    RoundTripCodecs switchStream ∧ (switchStream.system switchStream.Admits).Reachable duplicatePool ∧
      Benign switchStream duplicatePool.Submitted ∧
      ∃ thread ∈ duplicatePool.threads, thread.program =
        .throw (.syncEngineError (.malformedSyncResponseError
          "accepted decision enable is beyond response head")) :=
  ⟨switchStream_codecs, duplicatePool_reachable, duplicatePool_benign, _, List.mem_cons_self, rfl⟩

theorem finished_iff_not_stale_switch :
    ∃ thread ∈ duplicatePool.threads, ∃ outcome, thread.program = Program.lift outcome ∧
      (((∃ response, outcome = .ok response) ∨ outcome = .error .d1SyncConflictError) ↔
        ¬Stale thread.trace) := by
  refine ⟨_, List.mem_cons_of_mem _ List.mem_cons_self, .ok _, rfl, ?_⟩
  exact finished_iff_not_stale switchStream_codecs duplicatePool_reachable duplicatePool_benign (by decide)
    (List.mem_cons_of_mem _ List.mem_cons_self) rfl

end SyncEngine
