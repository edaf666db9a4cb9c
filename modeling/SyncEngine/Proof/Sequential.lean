import SyncEngine.Model.Switch
import SyncEngine.Proof.AuthorityRun
import SyncEngine.Proof.Concurrency

/-!
# The D1 authority, one request after another

A call that runs alone finds in the tables what the ledger holds, decides as the ledger does and
commits without a conflict. So it decides a batch exactly as `Books.submitAll`, like the in-memory
authority, with which it also shares the outcome as long as the head is a safe integer.
-/

namespace SyncEngine

open JavaScript Throwing

variable {State Intent Operation Rejection ε : Type}

abbrev LoneWorld (stream : D1StreamSettings State Intent Operation Rejection ε) :=
  StreamWorld stream fun _ => True

theorem StreamWorld.Holds.length_logOf {stream : D1StreamSettings State Intent Operation Rejection ε}
    {w : LoneWorld stream} {tables : D1Tables} (h : w.Holds tables) :
    (tables.logOf stream.streamId).length = w.log.length := by
  rw [h.stores.logEntries, List.length_map]
  rfl

def Books.decideRequest (settings : LogServerSettings State Intent Operation Rejection ε)
    (books : Books State Operation Rejection) (request : SyncRequest Intent) :
    Result ε (List (ProposalDecision Operation Rejection) × Books State Operation Rejection) := do
  assertSyncRequest request (some settings.limits)
  throwIf (request.baseSequence > books.log.length)
    (.unknownBaseSequenceError request.baseSequence books.log.length)
  submitAll settings.interpreter books request.proposals

theorem Books.synchronize_eq (settings : LogServerSettings State Intent Operation Rejection ε)
    (books : Books State Operation Rejection) (request : SyncRequest Intent) :
    books.synchronize settings request = do
      let (decisions, next) ← books.decideRequest settings request
      let response := InMemoryLogServer.respond settings.limits next.log request decisions
      assertSyncResponse response (some settings.limits)
      return (response, next) := by
  simp only [synchronize, decideRequest, bind_assoc]

section Reads

variable {stream : D1StreamSettings State Intent Operation Rejection ε}
  (hcodecs : RoundTripCodecs stream) {w : LoneWorld stream} {tables : D1Tables}
  (hholds : w.Holds tables) (hsafe : (w.log.length : Int) ≤ maxSafeInteger)

/-! ### Reads -/

include hholds hsafe in
theorem readOrCreateStream_run (hschema : stream.schemaHash.length ≠ 0) {read : State}
    (hread : stream.stateCodec.ReadsAs w.state read) :
    ∃ tables', (StreamWorld.openedAt w.toAuthority).Holds tables' ∧
      (readOrCreateStream stream).run D1Tables.answer tables =
        (.ok ⟨w.log.length, read⟩, tables') := by
  have hopened := hholds.insertStream
  refine ⟨_, hopened, ?_⟩
  generalize hinserted : tables.insertStream stream.streamId stream.schemaHash
    (stream.stateCodec.serializeJson stream.initialState) = inserted at hopened ⊢
  have hrow : (inserted.streams.find? fun row => row.streamId = stream.streamId) =
      some (stream.streamRow w.log.length w.state) := hopened.find?_stream rfl
  have hrecord := (readStreamRecord_unless stream w.log.length hread).eq_of_not (by omega)
  change (Program.lift (readStreamRecord stream ((tables.insertStream _ _ _).streams.find? _)) :
    D1Program ε _).run D1Tables.answer (tables.insertStream _ _ _) = _
  rw [hinserted, hrow, hrecord]
  rfl

include hcodecs hholds hsafe in
theorem readStoredDecision_run (proposal : ProposedOperation Intent) :
    (readStoredDecision stream proposal).run D1Tables.answer tables =
      (protocol (match w.find? proposal.operationId with
        | some record => some <$> InMemoryLogServer.replayDecision record proposal
        | none => .ok none), tables) := by
  change (Program.lift (decodeDecisionFor stream (tables.decisions.find? _) proposal) :
    D1Program ε _).run D1Tables.answer tables = _
  rw [Program.run_lift]
  congr 1
  rw [hholds.stores.find?_decision proposal.operationId, ← Books.find?]
  cases hfind : w.find? proposal.operationId with
  | none => rfl
  | some record =>
      have hrecord := List.mem_of_find?_eq_some hfind
      have hid : record.identity.operationId = proposal.operationId :=
        of_decide_eq_true (List.find?_some hfind :)
      exact (w.justified.decodeDecisionFor hcodecs.operation hcodecs.rejection hrecord hid).eq_of_not
        (Int.not_lt.mpr hsafe)

include hholds in
theorem assertClientPositionAvailable_run (proposal : ProposedOperation Intent) :
    (assertClientPositionAvailable stream proposal).run D1Tables.answer tables =
      (protocol (InMemoryLogServer.assertClientPositionFree (w.occupant? proposal.position) proposal),
        tables) := by
  change (Program.lift (assertOccupantIs ((tables.decisions.find? _).map _) proposal) :
    D1Program ε _).run D1Tables.answer tables = _
  rw [Program.run_lift]
  congr 1
  rw [hholds.stores.find?_clientPosition proposal.clientId proposal.clientSequence]
  change assertOccupantIs (w.occupant? proposal.position) proposal = _
  cases hoccupant : w.occupant? proposal.position with
  | none => rfl
  | some operationId =>
      obtain ⟨record, hrecord, rfl⟩ := Option.map_eq_some_iff.mp hoccupant
      have hvalid := w.justified.valid record (List.mem_of_find?_eq_some hrecord)
      rw [assertOccupantIs, readString_of_nonEmpty _ hvalid.operationId, ok_bind,
        InMemoryLogServer.assertClientPositionFree]
      by_cases hsame : record.identity.operationId = proposal.operationId
      · rw [throwIf_neg (not_not.mpr hsame), throwIf_neg (not_not.mpr hsame)]
        rfl
      · rw [throwIf_pos hsame, throwIf_pos hsame]
        rfl

/-! ### The batch -/

/-- What the loop has staged after the proposals `done`: the records `new`, which lead from the books in
the tables to the next ones. -/
structure StagedAs (stream : D1StreamSettings State Intent Operation Rejection ε)
    (done : List (ProposedOperation Intent)) (new : Ledger Operation Rejection)
    (books next : Books State Operation Rejection) (staging : D1Staging State Operation Rejection) :
    Prop where
  ledger : next.ledger = books.ledger ++ new
  identities : ∀ record ∈ new, ∃ proposal ∈ done, record.identity = proposal.toOperationSubmissionIdentity
  state : staging.state = next.state
  headSequence : staging.headSequence = next.log.length
  statements : staging.statements = new.flatMap stream.recordStatements

variable {books next : Books State Operation Rejection} {done : List (ProposedOperation Intent)}
  {new : Ledger Operation Rejection} {staging : D1Staging State Operation Rejection}
  {proposal : ProposedOperation Intent}

def StagedNext (stream : D1StreamSettings State Intent Operation Rejection ε)
    (done : List (ProposedOperation Intent)) (books : Books State Operation Rejection)
    (earlier : List (ProposalDecision Operation Rejection))
    (staging : D1Staging State Operation Rejection)
    (result : ProposalDecision Operation Rejection × Books State Operation Rejection) : Prop :=
  staging.decisions = earlier ++ [result.1] ∧ ∃ new, StagedAs stream done new books result.2 staging

theorem StagedAs.lookups (h : StagedAs stream done new books next staging)
    (hfresh : ∀ earlier ∈ done, earlier.operationId ≠ proposal.operationId ∧
      earlier.position ≠ proposal.position) :
    next.find? proposal.operationId = books.find? proposal.operationId ∧
      next.occupant? proposal.position = books.occupant? proposal.position := by
  have hnew : ∀ record ∈ new, record.identity.operationId ≠ proposal.operationId ∧
      record.identity.position ≠ proposal.position := by
    intro record hrecord
    obtain ⟨earlier, hearlier, hidentity⟩ := h.identities record hrecord
    rw [hidentity]
    exact hfresh earlier hearlier
  have hid : new.find? (fun record => record.identity.operationId = proposal.operationId) = none :=
    KeyedList.find?_eq_none_iff.mpr fun record hrecord => (hnew record hrecord).1
  have hposition : new.find? (fun record => record.identity.position = proposal.position) = none :=
    KeyedList.find?_eq_none_iff.mpr fun record hrecord => (hnew record hrecord).2
  refine ⟨?_, ?_⟩
  · rw [Books.find?, Books.find?, h.ledger, List.find?_append, hid, Option.or_none]
  · rw [Books.occupant?, Books.occupant?, h.ledger, List.find?_append, hposition, Option.or_none]

theorem StagedAs.stageDraft_agree (h : StagedAs stream done new books next staging)
    (proposal : ProposedOperation Intent) :
    Agree (StagedNext stream (done ++ [proposal]) books staging.decisions)
      (stageDraft stream staging proposal)
      (protocol (Books.decideNext stream.interpreter next proposal)) := by
  have hidentities : ∀ decision, ∀ record ∈ new ++
      [⟨proposal.toOperationSubmissionIdentity, decision⟩], ∃ earlier ∈ done ++ [proposal],
        record.identity = earlier.toOperationSubmissionIdentity := by
    intro decision record hrecord
    rcases List.mem_append.mp hrecord with hold | hnew
    · obtain ⟨earlier, hearlier, hidentity⟩ := h.identities record hold
      exact ⟨earlier, List.mem_append_left _ hearlier, hidentity⟩
    · obtain rfl := List.mem_singleton.mp hnew
      exact ⟨proposal, List.mem_append_right _ List.mem_cons_self, rfl⟩
  rw [stageDraft, Books.decideNext, h.state]
  cases hdecide : stream.interpreter.decide next.state proposal with
  | error e => exact .error _
  | ok draft =>
      cases draft with
      | rejected reason =>
          refine .ok ⟨rfl, _, ?_, hidentities (.rejected proposal.operationId reason), rfl, ?_, ?_⟩
          · rw [h.ledger, List.append_assoc]
          · rw [Books.log, canonicalLog_append, canonicalLog_rejected, List.append_nil]
            exact h.headSequence
          · rw [h.statements, List.flatMap_append, List.flatMap_singleton]
            rfl
      | accepted operation =>
          simp only [application_ok, protocol, ok_bind]
          cases happly : stream.interpreter.apply next.state operation with
          | error e => exact .error _
          | ok state =>
              rw [h.headSequence]
              refine .ok ⟨rfl, _, ?_,
                hidentities (.accepted proposal.operationId (next.log.length + 1) operation), rfl, ?_, ?_⟩
              · rw [h.ledger, List.append_assoc]
              · show (next.log.length : Int) + 1 = (canonicalLog (next.ledger ++ [_])).length
                rw [canonicalLog_append, canonicalLog_accepted, List.length_append, List.length_singleton]
                push_cast
                rfl
              · rw [h.statements, List.flatMap_append, List.flatMap_singleton]
                rfl

include hcodecs hholds hsafe in
theorem stageProposal_run (h : StagedAs stream done new w.toBooks next staging)
    (hfresh : ∀ earlier ∈ done, earlier.operationId ≠ proposal.operationId ∧
      earlier.position ≠ proposal.position) :
    ∃ x, (stageProposal stream staging proposal).run D1Tables.answer tables = (x, tables) ∧
      Agree (StagedNext stream (done ++ [proposal]) w.toBooks staging.decisions) x
        (protocol (Books.submit stream.interpreter next proposal)) := by
  obtain ⟨hfind, hoccupant⟩ := h.lookups hfresh
  have hread := readStoredDecision_run hcodecs hholds hsafe proposal
  rw [← hfind] at hread
  rw [stageProposal, Books.submit]
  cases hfound : next.find? proposal.operationId with
  | some record =>
      rw [hfound] at hread
      cases hreplay : (InMemoryLogServer.replayDecision record proposal : Result ε _) with
      | error e =>
          simp only [hreplay] at hread ⊢
          exact ⟨_, Program.run_bind_error _ _ hread, .error _⟩
      | ok decision =>
          simp only [hreplay] at hread ⊢
          refine ⟨_, Program.run_bind_ok _ _ hread, .ok ⟨rfl, new, ?_⟩⟩
          have hdone : ∀ record ∈ new, ∃ earlier ∈ done ++ [proposal],
              record.identity = earlier.toOperationSubmissionIdentity := by
            intro record hrecord
            obtain ⟨earlier, hearlier, hidentity⟩ := h.identities record hrecord
            exact ⟨earlier, List.mem_append_left _ hearlier, hidentity⟩
          exact ⟨h.ledger, hdone, h.state, h.headSequence, h.statements⟩
  | none =>
      rw [hfound] at hread
      have hfree := assertClientPositionAvailable_run hholds proposal
      rw [← hoccupant] at hfree
      rw [Program.run_bind_ok _ _ hread]
      cases hposition : (InMemoryLogServer.assertClientPositionFree
          (next.occupant? proposal.position) proposal : Result ε Unit) with
      | error e =>
          rw [hposition] at hfree
          exact ⟨_, Program.run_bind_error _ _ hfree, .error _⟩
      | ok _ =>
          rw [hposition] at hfree
          refine ⟨_, (Program.run_bind_ok _ _ hfree).trans (Program.run_lift _ _ _), ?_⟩
          exact h.stageDraft_agree proposal

include hcodecs hholds hsafe in
theorem stageProposals_run {proposals : List (ProposedOperation Intent)}
    (h : StagedAs stream done new w.toBooks next staging)
    (hdistinct : (done ++ proposals).Pairwise fun earlier later =>
      earlier.operationId ≠ later.operationId ∧ earlier.position ≠ later.position) :
    ∃ x, (proposals.foldlM (stageProposal stream) staging).run D1Tables.answer tables = (x, tables) ∧
      Agree (fun staging' result => staging'.decisions = staging.decisions ++ result.1 ∧
          ∃ new, StagedAs stream (done ++ proposals) new w.toBooks result.2 staging') x
        (protocol (Books.submitAll stream.interpreter next proposals)) := by
  induction proposals generalizing done new next staging with
  | nil =>
      refine ⟨_, rfl, .ok ⟨(List.append_nil _).symm, new, ?_⟩⟩
      rw [List.append_nil]
      exact h
  | cons proposal proposals ih =>
      have hfresh : ∀ earlier ∈ done, earlier.operationId ≠ proposal.operationId ∧
          earlier.position ≠ proposal.position := fun earlier hearlier =>
        (List.pairwise_append.mp hdistinct).2.2 earlier hearlier proposal List.mem_cons_self
      obtain ⟨x, hrun, hagree⟩ := stageProposal_run hcodecs hholds hsafe h hfresh
      rw [List.foldlM_cons, Books.submitAll]
      cases hsubmit : Books.submit stream.interpreter next proposal with
      | error e =>
          rw [hsubmit] at hagree
          cases hagree with
          | error => exact ⟨_, Program.run_bind_error _ _ hrun, .error _⟩
      | ok result =>
          obtain ⟨decision, middle⟩ := result
          rw [hsubmit] at hagree
          obtain ⟨staging', rfl, hdecisions, new', hstaged⟩ := hagree.of_right_eq_ok rfl
          rw [show done ++ proposal :: proposals = (done ++ [proposal]) ++ proposals by simp] at hdistinct ⊢
          obtain ⟨y, hrest, hagree'⟩ := ih hstaged hdistinct
          refine ⟨y, (Program.run_bind_ok _ _ hrun).trans hrest, ?_⟩
          simp only [ok_bind]
          cases hall : Books.submitAll stream.interpreter middle proposals with
          | error e =>
              rw [hall] at hagree'
              cases hagree' with
              | error => exact .error _
          | ok result =>
              rw [hall] at hagree'
              obtain ⟨last, rfl, hlast, hrecords⟩ := hagree'.of_right_eq_ok rfl
              refine .ok ⟨?_, hrecords⟩
              rw [hlast, hdecisions, List.append_assoc]
              rfl

end Reads

/-! ### The commit -/

theorem commitD1Statements_run {tables tables' : D1Tables} {statements : List D1Write} {changes : List Nat}
    (hbatch : tables.batch statements = (.ok changes, tables')) (hlast : changes.getLast? = some 1) :
    (commitD1Statements statements : D1Program ε Unit).run D1Tables.answer tables = (.ok (), tables') := by
  have hask : (Program.ask (I := D1Interface) (.batch statements) : D1Program ε _).run D1Tables.answer tables =
      (.ok (.ok changes), tables') := by
    show (Except.ok (tables.batch statements).1, (tables.batch statements).2) = _
    rw [hbatch]
    rfl
  refine (Program.run_bind_ok _ _ hask).trans ?_
  show (Program.lift (throwIf (changes.getLast? = some 0) .d1SyncConflictError) :
    D1Program ε Unit).run D1Tables.answer tables' = _
  rw [hlast, throwIf_neg (by decide)]
  rfl

theorem commitStaging_run {stream : D1StreamSettings State Intent Operation Rejection ε} {w : LoneWorld stream}
    {tables : D1Tables} (hholds : w.Holds tables) (hopened : w.opened = true)
    (authority : Authority (stream.interpreter.restrict fun _ => True) stream.initialState)
    {done : List (ProposedOperation Intent)} {new : Ledger Operation Rejection}
    {staging : D1Staging State Operation Rejection}
    (h : StagedAs stream done new w.toBooks authority.toBooks staging) :
    ∃ tables', (StreamWorld.openedAt authority).Holds tables' ∧
      (commitStaging stream w.log.length staging : D1Program ε Unit).run D1Tables.answer tables =
        (.ok (), tables') := by
  have hrow := hholds.row hopened
  rw [commitStaging]
  split
  · have hjustified := authority.justified
    rw [h.ledger, ← h.state] at hjustified
    obtain ⟨changes, tables', hbatch, hlast, hstores, hstreams⟩ := batch_of_justified hholds.stores
      w.justified.pairwise_identity hrow hjustified staging.headSequence
    rw [← h.ledger] at hstores
    rw [h.headSequence, h.state] at hstreams
    refine ⟨tables', ⟨hstores, hstreams⟩, ?_⟩
    rw [← h.statements] at hbatch
    exact commitD1Statements_run hbatch hlast
  · rename_i hnothing
    rw [h.statements, stream.flatMap_recordStatements_length, not_not] at hnothing
    subst hnothing
    have hledger : authority.ledger = w.ledger := by
      rw [h.ledger, List.append_nil]
    have hlog : authority.log = w.log := congrArg canonicalLog hledger
    have hstate : authority.state = w.state := authority.justified.state_unique w.justified hlog
    refine ⟨tables, ⟨?_, ?_⟩, rfl⟩
    · show tables.Stores stream authority.ledger
      rw [hledger]
      exact hholds.stores
    · show tables.streamsOf stream.streamId = [stream.streamRow authority.log.length authority.state]
      rw [hlog, hstate]
      exact hrow

/-! ### The answer -/

section Answer

variable {settings : D1AuthoritySettings State Intent Operation Rejection ε} (hlimits : settings.limits.Resolved)
  {w : LoneWorld settings.toD1StreamSettings} {tables : D1Tables} (hholds : w.Holds tables)
  (hsafe : (w.log.length : Int) ≤ maxSafeInteger) {request : SyncRequest Intent}
  (hrequest : ValidRequest request settings.limits)

omit hholds hsafe in
theorem readLogPage_eq (stream : D1StreamSettings State Intent Operation Rejection ε)
    (baseSequence headSequence maximumEntries : Int) (tables : D1Tables) :
    (readLogPage stream baseSequence headSequence maximumEntries : D1Program ε _).run D1Tables.answer tables =
      ((tables.selectLogPage stream.streamId baseSequence headSequence maximumEntries).mapM
        (decodeLogEntry stream.operationCodec), tables) :=
  Program.run_lift _ _ _

include hholds hsafe in
theorem readLogPage_run {baseSequence maximumEntries : Int} (hbase : 0 ≤ baseSequence)
    (hmaximum : 0 ≤ maximumEntries)
    (hoperations : ∀ entry ∈ w.log, settings.operationCodec.ReadsAs entry.operation entry.operation) :
    (readLogPage settings.toD1StreamSettings baseSequence w.log.length maximumEntries :
      D1Program ε _).run D1Tables.answer tables =
        (.ok ((w.log.drop baseSequence.toNat).take maximumEntries.toNat), tables) := by
  have hpage := hholds.stores.selectLogPage w.justified w.log.length hbase hmaximum
  have hmem : ∀ entry ∈ (w.log.drop baseSequence.toNat).take maximumEntries.toNat, entry ∈ w.log :=
    fun entry hentry => List.mem_of_mem_drop (List.mem_of_mem_take hentry)
  change tables.selectLogPage _ _ _ _ = (((w.log.take w.log.length).drop _).take _).map _ at hpage
  rw [List.take_length] at hpage
  rw [readLogPage_eq, hpage, (w.justified.decodeLogPage (fun entry hentry => hoperations entry (hmem entry hentry))
    hmem).eq_of_not (Int.not_lt.mpr hsafe)]

include hlimits hsafe hrequest in
theorem assertSyncResponse_respond {decisions : List (ProposalDecision Operation Rejection)}
    (hbase : request.baseSequence ≤ w.log.length)
    (hrecorded : Recorded w.ledger request.proposals decisions) :
    (assertSyncResponse (InMemoryLogServer.respond settings.limits w.log request decisions)
      (some settings.limits) : Result ε Unit) = .ok () := by
  apply (assertSyncResponse_eq_ok _ _ _).mpr
  exact (respond_valid w.justified hlimits hrequest hbase hrecorded).mpr hsafe

include hlimits hholds hsafe hrequest in
theorem readResponse_run {decisions : List (ProposalDecision Operation Rejection)}
    (hoperations : ∀ entry ∈ w.log, settings.operationCodec.ReadsAs entry.operation entry.operation)
    (hbase : request.baseSequence ≤ w.log.length)
    (hrecorded : Recorded w.ledger request.proposals decisions) :
    (readResponse settings request w.log.length decisions).run D1Tables.answer tables =
      (.ok (InMemoryLogServer.respond settings.limits w.log request decisions), tables) := by
  have hmaximum : 0 ≤ min request.maximumEntries settings.limits.maximumEntriesPerResponse := by
    have := hrequest.entries
    have := hlimits.entries
    omega
  have hread := readLogPage_run hholds hsafe hrequest.baseNonneg hmaximum hoperations
  have hresponse := assertSyncResponse_respond hlimits hsafe hrequest hbase hrecorded
  rw [readResponse]
  refine (Program.run_bind_ok _ _ hread).trans ?_
  rw [← respond_entries _ decisions hlimits hrequest]
  show ((Program.lift (protocol (assertSyncResponse (InMemoryLogServer.respond settings.limits w.log request
      decisions) (some settings.limits))) : D1Program ε Unit) >>= fun _ =>
    pure (InMemoryLogServer.respond settings.limits w.log request decisions)).run D1Tables.answer tables = _
  rw [hresponse]
  rfl

end Answer

/-! ### A whole call -/

/-- The same interpreter and the same limits, in memory. -/
def D1AuthoritySettings.inMemory (settings : D1AuthoritySettings State Intent Operation Rejection ε) :
    LogServerSettings State Intent Operation Rejection ε where
  interpreter := settings.interpreter
  limits := settings.limits

/-- What one attempt does alone: the request is refused and the tables keep their books, or it is decided
and the next books are in the tables. -/
inductive Attempted (settings : D1AuthoritySettings State Intent Operation Rejection ε)
    (w : LoneWorld settings.toD1StreamSettings) (request : SyncRequest Intent) :
    Result ε (List (ProposalDecision Operation Rejection) × Books State Operation Rejection) →
    Except (D1SyncError ε) (SyncResponse Operation Rejection) × D1Tables → Prop
  | refused (e : SyncEngineError ε) (w' : LoneWorld settings.toD1StreamSettings) (tables : D1Tables)
      (hholds : w'.Holds tables) (hsame : w'.toBooks = w.toBooks) :
      Attempted settings w request (.error e) (.error (.syncEngineError e), tables)
  | decided (decisions : List (ProposalDecision Operation Rejection))
      (w' : LoneWorld settings.toD1StreamSettings) (tables : D1Tables) (hholds : w'.Holds tables)
      (hvalid : ValidRequest request settings.limits) (hbase : request.baseSequence ≤ w'.log.length)
      (hrecorded : Recorded w'.ledger request.proposals decisions) :
      Attempted settings w request (.ok (decisions, w'.toBooks))
        ((readResponse settings request w'.log.length decisions).run D1Tables.answer tables)

section Call

variable {settings : D1AuthoritySettings State Intent Operation Rejection ε}
  (hcodecs : RoundTripCodecs settings.toD1StreamSettings) (hlimits : settings.limits.Resolved)
  (hschema : settings.schemaHash.length ≠ 0) {w : LoneWorld settings.toD1StreamSettings} {tables : D1Tables}
  (hholds : w.Holds tables) (request : SyncRequest Intent)

theorem stagedAs_nil (stream : D1StreamSettings State Intent Operation Rejection ε)
    (books : Books State Operation Rejection) :
    StagedAs stream [] [] books books ⟨books.log.length, books.state, [], []⟩ :=
  ⟨(List.append_nil _).symm, by simp, rfl, rfl, rfl⟩

include hcodecs hschema hholds in
/-- One attempt alone decides the request as the ledger does. -/
theorem synchronizeOnce_run (hsafe : (w.log.length : Int) ≤ maxSafeInteger) :
    Attempted settings w request (w.toBooks.decideRequest settings.inMemory request)
      ((synchronizeOnce settings request).run D1Tables.answer tables) := by
  rw [synchronizeOnce, Books.decideRequest]
  show Attempted settings w request ((assertSyncRequest request (some settings.limits) : Result ε Unit) >>= _) _
  cases hvalid : (assertSyncRequest request (some settings.limits) : Result ε Unit) with
  | error e => exact .refused e w tables hholds rfl
  | ok u =>
      have hrequest := (assertSyncRequest_eq_ok _ _ u).mp hvalid
      obtain ⟨opened, hopened, hread⟩ := readOrCreateStream_run hholds hsafe hschema (hcodecs.state.readsAs w.state)
      simp only [protocol_ok, Program.lift_ok_bind, ok_bind]
      rw [Program.run_bind_ok _ _ hread]
      by_cases hbase : request.baseSequence > w.log.length
      · rw [throwIf_pos hbase]
        exact .refused _ (StreamWorld.openedAt w.toAuthority) opened hopened rfl
      rw [throwIf_neg hbase, ok_bind, protocol_ok, Program.lift_ok_bind]
      obtain ⟨x, hstage, hagree⟩ := stageProposals_run hcodecs hopened hsafe (stagedAs_nil _ _)
        hrequest.batch.distinct
      change Agree _ x (protocol (Books.submitAll settings.interpreter w.toBooks request.proposals)) at hagree
      change (request.proposals.foldlM (stageProposal settings.toD1StreamSettings)
        ⟨w.log.length, w.state, [], []⟩).run D1Tables.answer opened = _ at hstage
      show Attempted settings w request (Books.submitAll settings.interpreter w.toBooks request.proposals) _
      cases hall : Books.submitAll settings.interpreter w.toBooks request.proposals with
      | error e =>
          rw [hall] at hagree
          cases hagree with
          | error =>
              rw [Program.run_bind_error _ _ hstage]
              exact .refused e (StreamWorld.openedAt w.toAuthority) opened hopened rfl
      | ok result =>
          obtain ⟨decisions, next⟩ := result
          rw [hall] at hagree
          obtain ⟨staging, rfl, hdecisions, new, hstaged⟩ := hagree.of_right_eq_ok rfl
          have hjustified := (Books.submitAll_justified hall hrequest.batch.valid w.justified.of_restrict).restrict
          obtain ⟨committed, hcommitted, hcommit⟩ := commitStaging_run hopened rfl ⟨next, hjustified⟩ hstaged
          change (commitStaging settings.toD1StreamSettings w.log.length staging :
            D1Program ε Unit).run D1Tables.answer opened = _ at hcommit
          rw [Program.run_bind_ok _ _ hstage, Program.run_bind_ok _ _ hcommit, hdecisions, hstaged.headSequence]
          refine .decided decisions (StreamWorld.openedAt ⟨next, hjustified⟩) committed hcommitted hrequest ?_
            (Books.submitAll_recorded hall)
          obtain ⟨new, hledger, -⟩ := Books.submitAll_extends hall
          have hlength : w.log.length ≤ next.log.length := by
            rw [Books.log, Books.log, hledger, canonicalLog_append, List.length_append]
            omega
          show request.baseSequence ≤ next.log.length
          omega

variable (settings) in
omit request in
theorem readResponse_tables (request : SyncRequest Intent) (headSequence : Int)
    (decisions : List (ProposalDecision Operation Rejection)) (tables : D1Tables) :
    ((readResponse settings request headSequence decisions).run D1Tables.answer tables).2 = tables := by
  rw [readResponse, Program.run_bind, readLogPage_eq]
  cases (tables.selectLogPage settings.streamId request.baseSequence headSequence _).mapM
      (decodeLogEntry (ε := ε) settings.operationCodec) with
  | error e => rfl
  | ok entries =>
      simp only [Program.run_bind, Program.run_lift]
      split
      · rename_i hchecked
        exact (congrArg Prod.snd hchecked).symm
      · rename_i hchecked
        exact (congrArg Prod.snd hchecked).symm

include hcodecs hlimits hholds in
theorem synchronizeAttempts_grows (attempts : Nat) :
    ∃ w', w ≤ w' ∧ w'.Holds ((synchronizeAttempts settings request attempts).run D1Tables.answer tables).2 := by
  have hsecure : (synchronizeAttempts settings request attempts).Secure D1Tables.answer
      (fun tables (w : LoneWorld settings.toD1StreamSettings) => w.Holds tables) (Answered request)
      (Failed False) w [] :=
    synchronizeAttempts_secure hcodecs hlimits (fun _ _ => trivial) False.elim False.elim attempts
      (fun h => h.elim) False.elim
  exact hsecure.run hholds

/-- The books after a call, returned or thrown. -/
def Books.afterSynchronize (settings : LogServerSettings State Intent Operation Rejection ε)
    (books : Books State Operation Rejection) (request : SyncRequest Intent) : Books State Operation Rejection :=
  match books.synchronize settings request with
  | .ok (_, next) => next
  | .error _ => books

omit request in
/-- A number of retries that is not negative leaves a first attempt. -/
theorem synchronize_eq_attempts (hretries : 0 ≤ settings.maximumCommitRetries)
    (request : SyncRequest Intent) :
    ∃ attempts, settings.synchronize request = synchronizeAttempts settings request (attempts + 1) := by
  refine ⟨settings.maximumCommitRetries.toNat, ?_⟩
  rw [D1AuthoritySettings.synchronize]
  congr 1
  omega

include hcodecs hlimits hschema hholds in
theorem synchronize_commits (hretries : 0 ≤ settings.maximumCommitRetries)
    (hsafe : (w.log.length : Int) ≤ maxSafeInteger) {decisions : List (ProposalDecision Operation Rejection)}
    {next : Books State Operation Rejection}
    (hdecide : w.toBooks.decideRequest settings.inMemory request = .ok (decisions, next)) :
    next.log.length ≤ (((settings.synchronize request).run D1Tables.answer tables).2.logOf
      settings.streamId).length := by
  obtain ⟨attempts, hattempts⟩ := synchronize_eq_attempts hretries request
  have hattempted := synchronizeOnce_run hcodecs hschema hholds request hsafe
  rw [hattempts, synchronizeAttempts, Program.run_handle]
  generalize (synchronizeOnce settings request).run D1Tables.answer tables = first at hattempted ⊢
  generalize w.toBooks.decideRequest settings.inMemory request = decided at hattempted hdecide
  cases hattempted with
  | refused => simp at hdecide
  | decided decisions w' tables' hholds' =>
      obtain ⟨-, rfl⟩ := Prod.mk.inj (Except.ok.inj hdecide)
      have hcommitted := hholds'.length_logOf
      have htables := readResponse_tables settings request w'.log.length decisions tables'
      generalize (readResponse settings request w'.log.length decisions).run D1Tables.answer tables' =
        answer at htables ⊢
      obtain ⟨result, last⟩ := answer
      obtain rfl : last = tables' := htables
      cases result with
      | ok response => exact hcommitted.ge
      | error e =>
          simp only
          split
          · obtain ⟨final, hle, hfinal⟩ := synchronizeAttempts_grows hcodecs hlimits hholds' request attempts
            rw [hfinal.length_logOf]
            exact StreamWorld.length_le hle
          · exact hcommitted.ge

include hcodecs hlimits hschema hholds in
/-- A call alone has the outcome of the ledger, and the tables then hold the ledger's next books. -/
theorem synchronize_run (hretries : 0 ≤ settings.maximumCommitRetries)
    (hsafe : ((((settings.synchronize request).run D1Tables.answer tables).2.logOf
      settings.streamId).length : Int) ≤ maxSafeInteger) :
    ∃ w' : LoneWorld settings.toD1StreamSettings,
      w'.Holds ((settings.synchronize request).run D1Tables.answer tables).2 ∧
      w'.toBooks = w.toBooks.afterSynchronize settings.inMemory request ∧
      ((settings.synchronize request).run D1Tables.answer tables).1 =
        protocol (Prod.fst <$> w.toBooks.synchronize settings.inMemory request) := by
  have hbefore : (w.log.length : Int) ≤ maxSafeInteger := by
    obtain ⟨final, hle, hfinal⟩ := synchronizeAttempts_grows hcodecs hlimits hholds request
      (settings.maximumCommitRetries + 1).toNat
    have := StreamWorld.length_le hle
    have hlength := hfinal.length_logOf
    change (((settings.synchronize request).run D1Tables.answer tables).2.logOf settings.streamId).length = _
      at hlength
    omega
  have hattempted := synchronizeOnce_run hcodecs hschema hholds request hbefore
  have hcommits : ∀ decisions next, w.toBooks.decideRequest settings.inMemory request = .ok (decisions, next) →
      next.log.length ≤ (((settings.synchronize request).run D1Tables.answer tables).2.logOf
        settings.streamId).length :=
    fun _ _ => synchronize_commits hcodecs hlimits hschema hholds request hretries hbefore
  obtain ⟨attempts, hattempts⟩ := synchronize_eq_attempts hretries request
  rw [Books.afterSynchronize, Books.synchronize_eq]
  generalize w.toBooks.decideRequest settings.inMemory request = decided at hattempted hcommits ⊢
  generalize hfirst : (synchronizeOnce settings request).run D1Tables.answer tables = first at hattempted
  cases hattempted with
  | refused e w' tables' hholds' hsame =>
      have hthrow : (if attempts > 0 ∧ isRetryableD1CommitConflict (.syncEngineError e) = true then
          synchronizeAttempts settings request attempts else .throw (.syncEngineError e)) =
            Program.throw (.syncEngineError e) :=
        if_neg fun hretry => absurd hretry.2 (by simp [isRetryableD1CommitConflict])
      rw [hattempts, synchronizeAttempts, Program.run_handle, hfirst]
      simp only [hthrow]
      exact ⟨w', hholds', hsame, rfl⟩
  | decided decisions w' tables' hholds' hvalid hbase hrecorded =>
      have hafter : (w'.log.length : Int) ≤ maxSafeInteger := (Int.ofNat_le.mpr (hcommits _ _ rfl)).trans hsafe
      have hresponse : (assertSyncResponse (InMemoryLogServer.respond settings.inMemory.limits w'.toBooks.log
          request decisions) (some settings.inMemory.limits) : Result ε Unit) = .ok () :=
        assertSyncResponse_respond hlimits hafter hvalid hbase hrecorded
      rw [readResponse_run hlimits hholds' hafter hvalid
        (fun entry _ => hcodecs.operation.readsAs entry.operation) hbase hrecorded] at hfirst
      rw [hattempts, synchronizeAttempts, Program.run_handle, hfirst]
      simp only [ok_bind, hresponse]
      exact ⟨w', hholds', rfl, rfl⟩

end Call

end SyncEngine
