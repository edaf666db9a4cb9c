import SyncEngine.Proof.Response
import SyncEngine.Proof.Tables

/-!
# Concurrent deliveries

The program logic of `Lib.Program` at the D1 authority. A world is the justified ledger the tables
store; it grows when a guarded batch commits, and at no other statement. What a call has read before is
true of an earlier ledger, and the lemmas below say for each function of the authority what that is
worth when the call goes on.
-/

namespace SyncEngine

open JavaScript Throwing

variable {State Intent Operation Rejection ε : Type}

/-! ### Worlds -/

/-- The ledger that the tables store for a stream, and whether the stream has its row. Its decisions
are all taken on submitted proposals. -/
structure StreamWorld (stream : D1StreamSettings State Intent Operation Rejection ε)
    (Submitted : ProposedOperation Intent → Prop) extends
    Authority (stream.interpreter.restrict Submitted) stream.initialState where
  opened : Bool
  blank : opened = false → ledger = []

variable {stream : D1StreamSettings State Intent Operation Rejection ε}
  {Submitted : ProposedOperation Intent → Prop}

namespace StreamWorld

instance : Preorder (StreamWorld stream Submitted) where
  le w w' := w.ledger <+: w'.ledger ∧ (w.opened = true → w'.opened = true)
  le_refl w := ⟨List.prefix_refl _, id⟩
  le_trans _ _ _ h h' := ⟨h.1.trans h'.1, h'.2 ∘ h.2⟩

variable {w w' : StreamWorld stream Submitted}

theorem log_grows (h : w ≤ w') : w.log <+: w'.log := h.1.filterMap _

theorem length_le (h : w ≤ w') : w.log.length ≤ w'.log.length := (log_grows h).length_le

def unopened (stream : D1StreamSettings State Intent Operation Rejection ε)
    (Submitted : ProposedOperation Intent → Prop) : StreamWorld stream Submitted where
  ledger := []
  state := stream.initialState
  justified := .empty
  opened := false
  blank _ := rfl

def openedAt (authority : Authority (stream.interpreter.restrict Submitted) stream.initialState) :
    StreamWorld stream Submitted where
  toAuthority := authority
  opened := true
  blank h := absurd h (by decide)

structure Holds (tables : D1Tables) (w : StreamWorld stream Submitted) : Prop where
  stores : tables.Stores stream w.ledger
  streams : tables.streamsOf stream.streamId =
    if w.opened then [stream.streamRow w.log.length w.state] else []

theorem Holds.row {tables : D1Tables} (h : w.Holds tables) (hopened : w.opened = true) :
    tables.streamsOf stream.streamId = [stream.streamRow w.log.length w.state] := by
  rw [h.streams, if_pos hopened]

theorem Holds.find?_stream {tables : D1Tables} (h : w.Holds tables) (hopened : w.opened = true) :
    (tables.streams.find? fun row => row.streamId = stream.streamId) =
      some (stream.streamRow w.log.length w.state) := by
  rw [← List.head?_filter]
  exact congrArg List.head? (h.row hopened)

theorem unopened_holds {tables : D1Tables} (h : stream.Unopened tables) :
    (unopened stream Submitted).Holds tables where
  stores := by
    refine ⟨?_, ?_⟩
    · exact List.filter_eq_nil_iff.mpr fun row hrow => by simpa using h.logEntries row hrow
    · exact List.filter_eq_nil_iff.mpr fun row hrow => by simpa using h.decisions row hrow
  streams := List.filter_eq_nil_iff.mpr fun row hrow => by simpa using h.streams row hrow

theorem submitted (w : StreamWorld stream Submitted) :
    ∀ record ∈ w.ledger, ∃ proposal, Submitted proposal ∧
      record.identity = proposal.toOperationSubmissionIdentity := by
  intro record hrecord
  obtain ⟨_, proposal, hidentity, hdecided⟩ := w.justified.decidedAfter_of_mem hrecord
  exact ⟨proposal, hdecided.of_restrict.1, hidentity⟩

theorem Holds.insertStream {tables : D1Tables} (h : w.Holds tables) :
    (openedAt w.toAuthority).Holds (tables.insertStream stream.streamId stream.schemaHash
      (stream.stateCodec.serializeJson stream.initialState)) := by
  have hstreams := h.streams
  rw [D1Tables.insertStream]
  cases hopened : w.opened with
  | true =>
      rw [hopened, if_pos rfl] at hstreams
      rw [if_pos]
      · exact ⟨h.stores, hstreams⟩
      · have hmem : stream.streamRow w.log.length w.state ∈ tables.streamsOf stream.streamId := by
          rw [hstreams]
          exact List.mem_cons_self
        exact ⟨_, (List.mem_filter.mp hmem).1, rfl⟩
  | false =>
      rw [hopened, if_neg (by decide)] at hstreams
      rw [if_neg]
      · have hledger := w.blank hopened
        have hstate : w.state = stream.initialState := by
          have hjustified := w.justified
          rw [hledger] at hjustified
          exact hjustified.state_unique .empty rfl
        refine ⟨⟨h.stores.logEntries, h.stores.decisions⟩, ?_⟩
        show (tables.streams ++ [_]).filter _ = [stream.streamRow w.log.length w.state]
        rw [List.filter_append, show tables.streams.filter _ = [] from hstreams, hstate, Books.log, hledger]
        simp [D1StreamSettings.streamRow]
      · intro hrow
        obtain ⟨row, hrow, hid⟩ := hrow
        have hmem : row ∈ tables.streamsOf stream.streamId :=
          List.mem_filter.mpr ⟨hrow, decide_eq_true hid⟩
        rw [hstreams] at hmem
        simp at hmem

theorem le_openedAt (w : StreamWorld stream Submitted) : w ≤ openedAt w.toAuthority :=
  ⟨List.prefix_refl _, fun _ => rfl⟩

end StreamWorld

/-! ### What an attempt has read -/

/-- The head an attempt has read at its start, whether it has found a proposal undecided, and whether
it has found one accepted beyond that head. -/
structure AttemptReadings where
  head : Int
  undecided : Bool
  beyond : Bool

def AttemptReadings.read (readings : AttemptReadings) : Event D1Interface → AttemptReadings
  | ⟨.selectStream _, (some row : Option D1StreamRow)⟩ => ⟨row.headSequence, false, false⟩
  | ⟨.selectDecision _ _, (none : Option D1DecisionRow)⟩ => { readings with undecided := true }
  | ⟨.selectDecision _ _, (some row : Option D1DecisionRow)⟩ =>
      { readings with beyond := readings.beyond || row.sequence.any fun sequence => readings.head < sequence }
  | _ => readings

def lastReadings (trace : List (Event D1Interface)) : AttemptReadings :=
  trace.foldl AttemptReadings.read ⟨0, false, false⟩

/-- The last attempt has found all proposals decided, and one accepted beyond the head it had read. -/
def Stale (trace : List (Event D1Interface)) : Prop :=
  (lastReadings trace).undecided = false ∧ (lastReadings trace).beyond = true

instance (trace : List (Event D1Interface)) : Decidable (Stale trace) :=
  inferInstanceAs (Decidable (_ ∧ _))

theorem lastReadings_append (trace : List (Event D1Interface)) (event : Event D1Interface) :
    lastReadings (trace ++ [event]) = (lastReadings trace).read event := by
  rw [lastReadings, List.foldl_append]
  rfl

/-! ### The functions of an attempt -/

/-- How a call may fail. What is assumed of it does not exclude a conflict and a stale attempt. -/
def Failed (assumed : Prop) (w : StreamWorld stream Submitted) (trace : List (Event D1Interface))
    (error : D1SyncError ε) : Prop :=
  assumed → (w.log.length : Int) ≤ maxSafeInteger →
    error = .d1SyncConflictError ∧ ¬Stale trace ∨ (∃ e, error = .syncEngineError e) ∧ Stale trace

theorem Failed.mono {assumed : Prop} {w w' : StreamWorld stream Submitted} {trace : List (Event D1Interface)}
    {error : D1SyncError ε} (h : Failed assumed w trace error) (hle : w ≤ w') :
    Failed assumed w' trace error := by
  intro hassumed hsafe
  have := StreamWorld.length_le hle
  exact h hassumed (by omega)

/-- A call has read the row of the stream when its ledger was an earlier one. -/
def ReadAt (w : StreamWorld stream Submitted) (record : StreamRecord State) : Prop :=
  w.opened = true ∧
    ∃ earlier : Authority (stream.interpreter.restrict Submitted) stream.initialState,
      earlier.ledger <+: w.ledger ∧ record = ⟨earlier.log.length, earlier.state⟩

theorem ReadAt.mono {w w' : StreamWorld stream Submitted} {record : StreamRecord State}
    (h : ReadAt w record) (hle : w ≤ w') : ReadAt w' record := by
  obtain ⟨hopened, earlier, hearlier, hrecord⟩ := h
  exact ⟨hle.2 hopened, earlier, hearlier.trans hle.1, hrecord⟩

/-- What the application, the stored values and the submitted proposals have to satisfy for a call not
to fail by them. -/
structure Benign (stream : D1StreamSettings State Intent Operation Rejection ε)
    (Submitted : ProposedOperation Intent → Prop) : Prop where
  schemaHash : stream.schemaHash.length ≠ 0
  decides : ∀ state proposal, ∃ draft, stream.interpreter.decide state proposal = .ok draft
  applies : ∀ state proposal operation,
    stream.interpreter.decide state proposal = .ok (.accepted operation) →
      ∃ next, stream.interpreter.apply state operation = .ok next
  operations : ∀ left right, Submitted left → Submitted right → left.operationId = right.operationId →
    left.toOperationSubmissionIdentity = right.toOperationSubmissionIdentity
  positions : ∀ left right, Submitted left → Submitted right →
    left.position = right.position → left.operationId = right.operationId

structure RoundTripCodecs (stream : D1StreamSettings State Intent Operation Rejection ε) : Prop where
  state : stream.stateCodec.RoundTrips
  operation : stream.operationCodec.RoundTrips
  rejection : stream.rejectionCodec.RoundTrips

section Attempt

variable (hcodecs : RoundTripCodecs stream) {assumed : Prop} (hbenign : assumed → Benign stream Submitted)
  {w : StreamWorld stream Submitted} {trace : List (Event D1Interface)}

/-- The row of the stream is read back, unless its head is not safe or its schema hash is empty. -/
theorem readStreamRecord_unless (stream : D1StreamSettings State Intent Operation Rejection ε)
    (head : Nat) {state read : State} (hcodec : stream.stateCodec.ReadsAs state read) :
    Unless (maxSafeInteger < head ∨ stream.schemaHash.length = 0)
      (readStreamRecord stream (some (stream.streamRow head state))) (.ok ⟨head, read⟩) := by
  rw [readStreamRecord]
  refine (Unless.bind_ok (Unless.bind_ok (.throwIf fun hempty => .inr hempty) (.refl _)) ?_)
  refine (Unless.throwIf fun hdiffers => absurd rfl hdiffers).bind_ok ?_
  refine (readInteger_unless _ fun hunsafe => .inl ?_).bind_ok (.of_eq ?_)
  · show (readJson (some (stream.stateCodec.serializeJson state)) _ _ >>= _) = _
    rw [readJson_of_readsAs hcodec]
    rfl
  · show maxSafeInteger < (head : Int)
    simp only [D1StreamSettings.streamRow, IsSafeInteger, maxSafeInteger] at hunsafe ⊢
    omega

include hcodecs hbenign in
theorem readOrCreateStream_secure :
    (readOrCreateStream stream).Secure D1Tables.answer (fun tables w => w.Holds tables)
      (fun w' trace record => ReadAt w' record ∧ (w.log.length : Int) ≤ record.headSequence ∧
        lastReadings trace = ⟨record.headSequence, false, false⟩)
      (Failed assumed) w trace := by
  rw [readOrCreateStream]
  apply Program.Secure.bind (Q := fun w _ _ => w.opened = true)
  · apply Program.Secure.ask (I := D1Interface) (c := .insertStream _ _ _)
    intro w' tables _ hholds
    refine ⟨_, w'.le_openedAt, hholds.insertStream, fun later hle => hle.2 rfl⟩
  intro w₁ trace₁ _ hle₁ hopened
  apply Program.Secure.bind (Q := fun w' trace row => ∃ (head : Nat) (state : State),
    row = some (stream.streamRow head state) ∧ ReadAt w' ⟨head, state⟩ ∧
      w.log.length ≤ head ∧ head ≤ w'.log.length ∧ lastReadings trace = ⟨head, false, false⟩)
  · apply Program.Secure.ask (I := D1Interface) (c := .selectStream _)
    intro w' tables hle hholds
    refine ⟨w', le_refl w', hholds, fun later hlater => ?_⟩
    have hrow : (D1Tables.answer (.selectStream stream.streamId) tables).1 =
        some (stream.streamRow w'.log.length w'.state) := hholds.find?_stream (hle.2 hopened)
    refine ⟨w'.log.length, w'.state, hrow, ?_, StreamWorld.length_le (hle₁.trans hle),
      StreamWorld.length_le hlater, ?_⟩
    · exact ⟨hlater.2 (hle.2 hopened), w'.toAuthority, hlater.1, rfl⟩
    · rw [lastReadings_append, hrow]
      rfl
  intro w₂ trace₂ row _ hrow
  obtain ⟨head, state, rfl, hread, hgrows, hlength, hreadings⟩ := hrow
  have hunless := readStreamRecord_unless stream head (hcodecs.state.readsAs state)
  apply Program.Secure.lift
  · intro record hrecord later hlater
    obtain rfl := Except.ok.inj (hunless.eq_ok hrecord)
    exact ⟨hread.mono hlater, Int.ofNat_le.mpr hgrows, hreadings⟩
  · intro error herror later hlater hassumed hsafe
    have hfails : ¬(maxSafeInteger < head ∨ stream.schemaHash.length = 0) := by
      have := StreamWorld.length_le hlater
      have := (hbenign hassumed).schemaHash
      omega
    rw [hunless.eq_of_not hfails] at herror
    simp at herror

/-- What the lookup of a decision is worth, and what it adds to the readings of the attempt. -/
def Found (w : StreamWorld stream Submitted) (readings : AttemptReadings) (trace : List (Event D1Interface))
    (proposal : ProposedOperation Intent) : Option (ProposalDecision Operation Rejection) → Prop
  | none => lastReadings trace = { readings with undecided := true }
  | some decision =>
      ⟨proposal.toOperationSubmissionIdentity, decision⟩ ∈ w.ledger ∧
      (lastReadings trace).head = readings.head ∧ (lastReadings trace).undecided = readings.undecided ∧
      ((lastReadings trace).beyond = true ↔ readings.beyond = true ∨ decision.IsBeyond readings.head)

theorem read_decisionRow (stream : D1StreamSettings State Intent Operation Rejection ε)
    (readings : AttemptReadings) (streamId operationId : String)
    (record : StoredProposalDecision Operation Rejection) :
    let next := readings.read ⟨.selectDecision streamId operationId, some (stream.decisionRow record)⟩
    next.head = readings.head ∧ next.undecided = readings.undecided ∧
      (next.beyond = true ↔ readings.beyond = true ∨ record.decision.IsBeyond readings.head) := by
  obtain ⟨identity, decision⟩ := record
  cases decision with
  | accepted => simp [AttemptReadings.read, D1StreamSettings.decisionRow, ProposalDecision.IsBeyond]
  | rejected => simp [AttemptReadings.read, D1StreamSettings.decisionRow, ProposalDecision.IsBeyond]

include hcodecs hbenign in
theorem readStoredDecision_secure {proposal : ProposedOperation Intent} (hsubmitted : Submitted proposal) :
    (readStoredDecision stream proposal).Secure D1Tables.answer (fun tables w => w.Holds tables)
      (fun w trace' => Found w (lastReadings trace) trace' proposal) (Failed assumed) w trace := by
  rw [readStoredDecision]
  apply Program.Secure.bind (Q := fun w trace' row =>
    ∃ found : Option (StoredProposalDecision Operation Rejection), row = found.map stream.decisionRow ∧
      (∀ record, found = some record → record ∈ w.ledger ∧
        record.identity.operationId = proposal.operationId) ∧
      lastReadings trace' = (lastReadings trace).read
        ⟨.selectDecision stream.streamId proposal.operationId, row⟩)
  · apply Program.Secure.ask (I := D1Interface) (c := .selectDecision _ _)
    intro w' tables _ hholds
    refine ⟨w', le_refl w', hholds, fun later hlater => ?_⟩
    have hrow := hholds.stores.find?_decision proposal.operationId
    refine ⟨_, hrow, fun record hrecord => ⟨?_, ?_⟩, lastReadings_append _ _⟩
    · exact hlater.1.subset (List.mem_of_find?_eq_some hrecord)
    · simpa using List.find?_some hrecord
  intro w₁ trace₁ row _ hread
  obtain ⟨found, rfl, hfound, hreadings⟩ := hread
  cases found with
  | none =>
      intro later _
      exact hreadings
  | some record =>
      obtain ⟨hrecord, hid⟩ := hfound record rfl
      have hunless := w₁.justified.decodeDecisionFor hcodecs.operation hcodecs.rejection hrecord hid
      apply Program.Secure.lift
      · intro decision hdecision later hlater
        have hreplay := hunless.eq_ok hdecision
        cases hreplayed : (InMemoryLogServer.replayDecision record proposal : Result ε _) with
        | error e =>
            rw [hreplayed] at hreplay
            simp [protocol] at hreplay
        | ok replayed =>
            rw [hreplayed] at hreplay
            obtain rfl := Except.ok.inj hreplay
            obtain rfl := replayDecision_eq_ok.mp hreplayed
            have hnext := read_decisionRow stream (lastReadings trace) stream.streamId
              proposal.operationId ⟨proposal.toOperationSubmissionIdentity, replayed⟩
            refine ⟨hlater.1.subset hrecord, ?_⟩
            rw [hreadings]
            exact hnext
      · intro error herror later hlater hassumed hsafe
        have hlength : ¬maxSafeInteger < ((canonicalLog w₁.ledger).length : Int) := by
          have := StreamWorld.length_le hlater
          rw [Books.log, Books.log] at this
          rw [Books.log] at hsafe
          omega
        obtain ⟨other, hother, hidentity⟩ := w₁.submitted record hrecord
        have hsame : record = ⟨proposal.toOperationSubmissionIdentity, record.decision⟩ := by
          have := (hbenign hassumed).operations other proposal hother hsubmitted
            ((congrArg (fun identity => identity.operationId) hidentity).symm.trans hid)
          rw [← this, ← hidentity]
        have hreplay : (InMemoryLogServer.replayDecision record proposal : Result ε _) =
            .ok record.decision := replayDecision_eq_ok.mpr hsame
        rw [Option.map_some, hunless.eq_of_not hlength, hreplay] at herror
        simp [protocol] at herror

include hbenign in
theorem assertClientPositionAvailable_secure {proposal : ProposedOperation Intent}
    (hsubmitted : Submitted proposal) :
    (assertClientPositionAvailable stream proposal).Secure D1Tables.answer (fun tables w => w.Holds tables)
      (fun _ trace' _ => lastReadings trace' = lastReadings trace) (Failed assumed) w trace := by
  rw [assertClientPositionAvailable]
  apply Program.Secure.bind (Q := fun w trace' row =>
    (∀ operationId, row = some operationId → ∃ record ∈ w.ledger,
      record.identity.position = proposal.position ∧ record.identity.operationId = operationId) ∧
    lastReadings trace' = lastReadings trace)
  · apply Program.Secure.ask (I := D1Interface) (c := .selectClientPosition _ _ _)
    intro w' tables _ hholds
    refine ⟨w', le_refl w', hholds, fun later hlater => ⟨fun operationId hrow => ?_, ?_⟩⟩
    · have hfind := hholds.stores.find?_clientPosition proposal.clientId proposal.clientSequence
      obtain ⟨record, hrecord, hid⟩ := Option.map_eq_some_iff.mp (hfind.symm.trans hrow)
      exact ⟨record, hlater.1.subset (List.mem_of_find?_eq_some hrecord),
        of_decide_eq_true (List.find?_some hrecord :), hid⟩
    · exact lastReadings_append _ _
  intro w₁ trace₁ row _ hread
  obtain ⟨hrow, hreadings⟩ := hread
  apply Program.Secure.lift
  · intro _ _ later _
    exact hreadings
  · intro error herror later hlater hassumed _
    cases row with
    | none => simp [assertOccupantIs] at herror
    | some operationId =>
        obtain ⟨record, hrecord, hposition, rfl⟩ := hrow operationId rfl
        obtain ⟨other, hother, hidentity⟩ := w₁.submitted record hrecord
        have hsame : record.identity.operationId = proposal.operationId := by
          rw [hidentity] at hposition ⊢
          exact (hbenign hassumed).positions other proposal hother hsubmitted hposition
        rw [assertOccupantIs, readString_of_nonEmpty _ (w₁.justified.valid record hrecord).operationId,
          ok_bind, throwIf_neg (not_not.mpr hsame)] at herror
        simp at herror

/-! ### The proposal loop -/

theorem stageDraft_eq_ok {staging next : D1Staging State Operation Rejection}
    {proposal : ProposedOperation Intent} :
    stageDraft stream staging proposal = .ok next ↔
      (∃ reason, stream.interpreter.decide staging.state proposal = .ok (.rejected reason) ∧
        next = { staging with
          decisions := staging.decisions ++ [.rejected proposal.operationId reason]
          statements := staging.statements ++ [insertRejectedDecision stream proposal reason] }) ∨
      ∃ operation state, stream.interpreter.decide staging.state proposal = .ok (.accepted operation) ∧
        stream.interpreter.apply staging.state operation = .ok state ∧
        next = {
          headSequence := staging.headSequence + 1
          state := state
          decisions := staging.decisions ++
            [.accepted proposal.operationId (staging.headSequence + 1) operation]
          statements := staging.statements ++
            [insertAcceptedDecision stream proposal (staging.headSequence + 1) operation,
              insertLogEntry stream (proposal.committedAt (staging.headSequence + 1) operation)] } := by
  rw [stageDraft]
  cases hdecide : stream.interpreter.decide staging.state proposal with
  | error e => simp [protocol]
  | ok draft =>
      cases draft with
      | rejected reason => simp [protocol, eq_comm]
      | accepted operation =>
          cases happly : stream.interpreter.apply staging.state operation with
          | error e => simp [protocol, happly]
          | ok state => simp [protocol, happly, eq_comm]

theorem Benign.stageDraft (h : Benign stream Submitted) (staging : D1Staging State Operation Rejection)
    (proposal : ProposedOperation Intent) : ∃ next, stageDraft stream staging proposal = .ok next := by
  obtain ⟨draft, hdecide⟩ := h.decides staging.state proposal
  cases draft with
  | rejected reason => exact ⟨_, stageDraft_eq_ok.mpr (.inl ⟨reason, hdecide, rfl⟩)⟩
  | accepted operation =>
      obtain ⟨state, happly⟩ := h.applies staging.state proposal operation hdecide
      exact ⟨_, stageDraft_eq_ok.mpr (.inr ⟨operation, state, hdecide, happly, rfl⟩)⟩

/-- What the loop has staged after the proposals `done`: a draft on the record that was read, whose
decisions are on record in the ledger or in the draft. As long as the draft is empty, the readings tell
whether a decision is beyond the head. -/
structure StagedBy (record : StreamRecord State) (new : Ledger Operation Rejection)
    (done : List (ProposedOperation Intent)) (w : StreamWorld stream Submitted)
    (trace : List (Event D1Interface)) (staging : D1Staging State Operation Rejection) : Prop where
  drafted : Drafted (stream.interpreter.restrict Submitted) record.state record.headSequence.toNat new
    staging.state
  headSequence : staging.headSequence = record.headSequence + (canonicalLog new).length
  statements : staging.statements = new.flatMap stream.recordStatements
  recorded : Recorded (w.ledger ++ new) done staging.decisions
  head : (lastReadings trace).head = record.headSequence
  undecided : (lastReadings trace).undecided = true ↔ new ≠ []
  beyond : new = [] → ((lastReadings trace).beyond = true ↔
    ∃ decision ∈ staging.decisions, decision.IsBeyond record.headSequence)

def Staged (record : StreamRecord State) (done : List (ProposedOperation Intent))
    (w : StreamWorld stream Submitted) (trace : List (Event D1Interface))
    (staging : D1Staging State Operation Rejection) : Prop :=
  ReadAt w record ∧ ∃ new, StagedBy record new done w trace staging

theorem StagedBy.mono {record : StreamRecord State} {new : Ledger Operation Rejection}
    {done : List (ProposedOperation Intent)} {w' : StreamWorld stream Submitted}
    {staging : D1Staging State Operation Rejection} (h : StagedBy record new done w trace staging)
    (hle : w ≤ w') : StagedBy record new done w' trace staging := by
  refine { h with recorded := h.recorded.mono ?_ }
  apply List.append_subset.mpr
  exact ⟨fun record hrecord => List.mem_append_left _ (hle.1.subset hrecord), List.subset_append_right _ _⟩

theorem Staged.mono {record : StreamRecord State} {done : List (ProposedOperation Intent)}
    {w' : StreamWorld stream Submitted} {staging : D1Staging State Operation Rejection}
    (h : Staged record done w trace staging) (hle : w ≤ w') : Staged record done w' trace staging := by
  obtain ⟨hread, new, hnew⟩ := h
  exact ⟨hread.mono hle, new, hnew.mono hle⟩

theorem staged_nil {record : StreamRecord State} (hread : ReadAt w record)
    (hreadings : lastReadings trace = ⟨record.headSequence, false, false⟩) :
    Staged record [] w trace ⟨record.headSequence, record.state, [], []⟩ := by
  refine ⟨hread, [], ?_⟩
  constructor
  case drafted => exact .empty
  case headSequence => simp
  case statements => rfl
  case recorded => exact .nil
  case head => rw [hreadings]
  case undecided => simp [hreadings]
  case beyond => simp [hreadings]

theorem StagedBy.existing {record : StreamRecord State} {new : Ledger Operation Rejection}
    {done : List (ProposedOperation Intent)} {staging : D1Staging State Operation Rejection}
    {proposal : ProposedOperation Intent} {decision : ProposalDecision Operation Rejection}
    {trace' : List (Event D1Interface)} (h : StagedBy record new done w trace staging)
    (hfound : Found w (lastReadings trace) trace' proposal (some decision)) :
    StagedBy record new (done ++ [proposal]) w trace'
      { staging with decisions := staging.decisions ++ [decision] } := by
  obtain ⟨hrecord, hhead, hundecided, hbeyond⟩ := hfound
  constructor
  case drafted => exact h.drafted
  case headSequence => exact h.headSequence
  case statements => exact h.statements
  case recorded =>
    exact List.rel_append h.recorded (.cons (List.mem_append_left _ hrecord) .nil)
  case head => rw [hhead, h.head]
  case undecided => rw [hundecided, h.undecided]
  case beyond =>
    intro hnil
    rw [hbeyond, h.beyond hnil, h.head]
    simp [or_and_right, exists_or]

theorem Staged.existing {record : StreamRecord State} {done : List (ProposedOperation Intent)}
    {staging : D1Staging State Operation Rejection} {proposal : ProposedOperation Intent}
    {decision : ProposalDecision Operation Rejection} {w' : StreamWorld stream Submitted}
    {trace' : List (Event D1Interface)} (h : Staged record done w trace staging) (hle : w ≤ w')
    (hfound : Found w' (lastReadings trace) trace' proposal (some decision)) :
    Staged record (done ++ [proposal]) w' trace'
      { staging with decisions := staging.decisions ++ [decision] } := by
  obtain ⟨hread, new, hnew⟩ := h.mono hle
  exact ⟨hread, new, hnew.existing hfound⟩

theorem StagedBy.append {record : StreamRecord State} {new : Ledger Operation Rejection}
    {done : List (ProposedOperation Intent)} {staging next : D1Staging State Operation Rejection}
    {proposal : ProposedOperation Intent} {decision : ProposalDecision Operation Rejection}
    {trace' : List (Event D1Interface)} (h : StagedBy record new done w trace staging)
    (hreadings : lastReadings trace' = { lastReadings trace with undecided := true })
    (hdrafted : Drafted (stream.interpreter.restrict Submitted) record.state record.headSequence.toNat
      (new ++ [⟨proposal.toOperationSubmissionIdentity, decision⟩]) next.state)
    (hhead : next.headSequence = staging.headSequence +
      (canonicalLog [(⟨proposal.toOperationSubmissionIdentity, decision⟩ :
        StoredProposalDecision Operation Rejection)]).length)
    (hstatements : next.statements = staging.statements ++
      stream.recordStatements ⟨proposal.toOperationSubmissionIdentity, decision⟩)
    (hdecisions : next.decisions = staging.decisions ++ [decision]) :
    StagedBy record (new ++ [⟨proposal.toOperationSubmissionIdentity, decision⟩]) (done ++ [proposal]) w
      trace' next where
  drafted := hdrafted
  headSequence := by
    rw [hhead, h.headSequence, canonicalLog_append, List.length_append]
    omega
  statements := by
    rw [hstatements, h.statements, List.flatMap_append, List.flatMap_singleton]
  recorded := by
    rw [hdecisions, ← List.append_assoc]
    exact List.rel_append (h.recorded.mono (List.subset_append_left _ _))
      (.cons (List.mem_append_right _ List.mem_cons_self) .nil)
  head := by rw [hreadings, h.head]
  undecided := by simp [hreadings]
  beyond := by simp

theorem StagedBy.draft {record : StreamRecord State} {new : Ledger Operation Rejection}
    {done : List (ProposedOperation Intent)} {staging next : D1Staging State Operation Rejection}
    {proposal : ProposedOperation Intent} {trace' : List (Event D1Interface)}
    (h : StagedBy record new done w trace staging) (hread : ReadAt w record)
    (hreadings : lastReadings trace' = { lastReadings trace with undecided := true })
    (hsubmitted : Submitted proposal) (hvalid : proposal.toOperationSubmissionIdentity.Valid)
    (hstage : stageDraft stream staging proposal = .ok next) :
    ∃ added : StoredProposalDecision Operation Rejection,
      StagedBy record (new ++ [added]) (done ++ [proposal]) w trace' next ∧
      next.decisions = staging.decisions ++ [added.decision] := by
  rcases stageDraft_eq_ok.mp hstage with ⟨reason, hdecide, rfl⟩ | ⟨operation, state, hdecide, happly, rfl⟩
  · have hdrafted := h.drafted.reject proposal reason hvalid (by simp [hsubmitted, hdecide])
    exact ⟨_, h.append hreadings hdrafted (Int.add_zero _).symm rfl rfl, rfl⟩
  · have hsequence : staging.headSequence + 1 =
        ((record.headSequence.toNat + (canonicalLog new).length : Nat) : Int) + 1 := by
      obtain ⟨_, earlier, _, rfl⟩ := hread
      rw [h.headSequence]
      rfl
    have hdrafted := h.drafted.accept proposal operation hvalid (by simp [hsubmitted, hdecide])
      (by simpa using happly)
    rw [hsequence]
    exact ⟨_, h.append hreadings hdrafted hsequence.symm rfl rfl, rfl⟩

theorem Staged.draft {record : StreamRecord State} {done : List (ProposedOperation Intent)}
    {staging next : D1Staging State Operation Rejection} {proposal : ProposedOperation Intent}
    {trace' : List (Event D1Interface)} (h : Staged record done w trace staging)
    (hreadings : lastReadings trace' = { lastReadings trace with undecided := true })
    (hsubmitted : Submitted proposal) (hvalid : proposal.toOperationSubmissionIdentity.Valid)
    (hstage : stageDraft stream staging proposal = .ok next) :
    Staged record (done ++ [proposal]) w trace' next := by
  obtain ⟨hread, new, hnew⟩ := h
  obtain ⟨added, hadded, -⟩ := hnew.draft hread hreadings hsubmitted hvalid hstage
  exact ⟨hread, _, hadded⟩

include hcodecs hbenign in
/-- The step lemma of the loop. -/
theorem stageProposal_secure {record : StreamRecord State} {done : List (ProposedOperation Intent)}
    {staging : D1Staging State Operation Rejection} {proposal : ProposedOperation Intent}
    (hsubmitted : Submitted proposal) (hvalid : proposal.toOperationSubmissionIdentity.Valid)
    (h : Staged record done w trace staging) :
    (stageProposal stream staging proposal).Secure D1Tables.answer (fun tables w => w.Holds tables)
      (Staged record (done ++ [proposal])) (Failed assumed) w trace := by
  rw [stageProposal]
  apply (readStoredDecision_secure hcodecs hbenign hsubmitted).bind
  intro w₁ trace₁ existing hle hfound
  cases existing with
  | some decision =>
      intro later hlater
      exact (h.existing hle hfound).mono hlater
  | none =>
      apply (assertClientPositionAvailable_secure hbenign hsubmitted).bind
      intro w₂ trace₂ _ hle' hreadings
      apply Program.Secure.lift
      · intro next hnext later hlater
        have hundecided := hreadings.trans hfound
        exact ((h.mono (hle.trans hle')).draft hundecided hsubmitted hvalid hnext).mono hlater
      · intro error herror _ _ hassumed _
        obtain ⟨next, hnext⟩ := (hbenign hassumed).stageDraft staging proposal
        rw [hnext] at herror
        simp at herror

/-! ### Commit and response -/

/-- Every constraint violation counts as a conflict. -/
theorem storageOrConflictError_message (constraint : SqliteConstraint) :
    (storageOrConflictError constraint.message : D1SyncError ε) = .d1SyncConflictError := by
  cases constraint <;> rfl

/-- What a call has in hand before it reads its page: decisions that are on record, and a head that was
current once. It is stale if and only if a decision is beyond that head. -/
structure Ready (request : SyncRequest Intent) (w : StreamWorld stream Submitted)
    (trace : List (Event D1Interface)) (head : Int)
    (decisions : List (ProposalDecision Operation Rejection)) : Prop where
  log : ∃ earlier : Ledger Operation Rejection, earlier <+: w.ledger ∧ head = (canonicalLog earlier).length
  recorded : Recorded w.ledger request.proposals decisions
  stale : Stale trace ↔ ∃ decision ∈ decisions, decision.IsBeyond head

theorem Ready.of_readings {request : SyncRequest Intent} {head : Int} {trace' : List (Event D1Interface)}
    {decisions : List (ProposalDecision Operation Rejection)} (h : Ready request w trace head decisions)
    (hreadings : lastReadings trace' = lastReadings trace) : Ready request w trace' head decisions := by
  refine ⟨h.log, h.recorded, ?_⟩
  rw [Stale, hreadings]
  exact h.stale

theorem Ready.mono {request : SyncRequest Intent} {head : Int} {w' : StreamWorld stream Submitted}
    {decisions : List (ProposalDecision Operation Rejection)} (h : Ready request w trace head decisions)
    (hle : w ≤ w') : Ready request w' trace head decisions := by
  obtain ⟨earlier, hearlier, hhead⟩ := h.log
  exact ⟨⟨earlier, hearlier.trans hle.1, hhead⟩, h.recorded.mono hle.1.subset, h.stale⟩

theorem StagedBy.ready {record : StreamRecord State} {request : SyncRequest Intent}
    {staging : D1Staging State Operation Rejection} {new : Ledger Operation Rejection}
    (h : StagedBy record new request.proposals w trace staging) (hread : ReadAt w record)
    (hnothing : ¬staging.statements.length > 0) :
    Ready request w trace staging.headSequence staging.decisions := by
  have hnil : new = [] := by
    rw [h.statements, stream.flatMap_recordStatements_length, not_not] at hnothing
    exact hnothing
  obtain ⟨-, earlier, hearlier, rfl⟩ := hread
  subst hnil
  have hhead : staging.headSequence = (canonicalLog earlier.ledger).length := by
    rw [h.headSequence]
    exact Int.add_zero _
  refine ⟨⟨earlier.ledger, hearlier, hhead⟩, ?_, ?_⟩
  · have hrecorded := h.recorded
    rwa [List.append_nil] at hrecorded
  · have hundecided : (lastReadings trace).undecided = false := by
      rw [← Bool.not_eq_true, h.undecided]
      exact fun hne => hne rfl
    rw [Stale, hundecided, h.beyond rfl, hhead]
    exact and_iff_right rfl

/-- A draft that is committed where the head is the one it was made on extends the ledger. -/
theorem StagedBy.commit {record : StreamRecord State} {new : Ledger Operation Rejection}
    {done : List (ProposedOperation Intent)} {staging : D1Staging State Operation Rejection}
    (h : StagedBy record new done w trace staging) (hread : ReadAt w record)
    (hhead : (w.log.length : Int) = record.headSequence) (hdistinct : DistinctRecords (w.ledger ++ new)) :
    Justified (stream.interpreter.restrict Submitted) stream.initialState (w.ledger ++ new) staging.state ∧
      staging.headSequence = (canonicalLog (w.ledger ++ new)).length := by
  obtain ⟨-, earlier, hearlier, rfl⟩ := hread
  have hlog : canonicalLog earlier.ledger = canonicalLog w.ledger := by
    apply (hearlier.filterMap _).eq_of_length
    exact (Int.ofNat_inj.mp hhead).symm
  have hstate : w.state = earlier.state := w.justified.state_unique earlier.justified hlog.symm
  have hdrafted := h.drafted
  rw [← hstate] at hdrafted
  refine ⟨hdrafted.justified w.justified ?_ hdistinct, ?_⟩
  · rw [← hlog]
    rfl
  · rw [h.headSequence, ← hhead, canonicalLog_append, List.length_append]
    rfl

/-- The batch of a draft leads to a world with the draft at its end, or is rolled back. -/
theorem StagedBy.batch {record : StreamRecord State} {new : Ledger Operation Rejection}
    {done : List (ProposedOperation Intent)} {staging : D1Staging State Operation Rejection}
    {tables : D1Tables} (h : StagedBy record new done w trace staging) (hread : ReadAt w record)
    (hholds : w.Holds tables) :
    let statements := staging.statements ++
      [updateStreamState stream record.headSequence staging.headSequence staging.state]
    (∃ constraint, tables.batch statements = (.error constraint, tables)) ∨
    ∃ (changes : List Nat) (tables' : D1Tables) (w' : StreamWorld stream Submitted),
      tables.batch statements = (.ok changes, tables') ∧ changes.getLast? = some 1 ∧ w ≤ w' ∧
      w'.Holds tables' ∧ w'.ledger = w.ledger ++ new ∧ staging.headSequence = w'.log.length := by
  have hcases := batch_cases new hholds.stores w.justified.pairwise_identity
    (hholds.row hread.1) record.headSequence staging.headSequence staging.state
  rw [← h.statements] at hcases
  rcases hcases with ⟨changes, tables', hbatch, hlast, hhead, hdistinct, hstores, hstreams⟩ | hrolledBack
  · obtain ⟨hjustified, hlength⟩ := h.commit hread hhead hdistinct
    rw [hlength] at hstreams
    refine .inr ⟨changes, tables', .openedAt ⟨⟨w.ledger ++ new, staging.state⟩, hjustified⟩, hbatch, hlast,
      ⟨List.prefix_append _ _, fun _ => rfl⟩, ⟨hstores, hstreams⟩, rfl, hlength⟩
  · exact .inl hrolledBack

theorem StagedBy.committed {record : StreamRecord State} {request : SyncRequest Intent}
    {staging : D1Staging State Operation Rejection} {new : Ledger Operation Rejection}
    {w' : StreamWorld stream Submitted} {trace' : List (Event D1Interface)}
    (h : StagedBy record new request.proposals w trace staging) (hledger : w'.ledger = w.ledger ++ new)
    (hlength : staging.headSequence = w'.log.length) (hcurrent : ¬Stale trace') :
    Ready request w' trace' staging.headSequence staging.decisions := by
  refine ⟨⟨_, List.prefix_refl _, hlength⟩, ?_, iff_of_false hcurrent ?_⟩
  · rw [hledger]
    exact h.recorded
  · intro hbeyond
    obtain ⟨decision, hdecision, hbeyond⟩ := hbeyond
    obtain ⟨stored, hstored, rfl⟩ := h.recorded.exists_record hdecision
    rw [hlength] at hbeyond
    exact w'.justified.not_beyond (hledger ▸ hstored) hbeyond

/-- The commit of a draft either appends it to the ledger, or fails with a conflict. -/
theorem commitD1Statements_secure {record : StreamRecord State} {request : SyncRequest Intent}
    {staging : D1Staging State Operation Rejection} {new : Ledger Operation Rejection}
    (hread : ReadAt w record) (hstaged : StagedBy record new request.proposals w trace staging)
    (hnew : new ≠ []) :
    (commitD1Statements (staging.statements ++
        [updateStreamState stream record.headSequence staging.headSequence staging.state]) :
      D1Program ε Unit).Secure D1Tables.answer (fun tables w => w.Holds tables)
      (fun w trace' _ => Ready request w trace' staging.headSequence staging.decisions)
      (Failed assumed) w trace := by
  have hfresh : ∀ event, lastReadings (trace ++ [⟨.batch (staging.statements ++ [updateStreamState
      stream record.headSequence staging.headSequence staging.state]), event⟩]) = lastReadings trace :=
    fun event => lastReadings_append _ _
  have hundecided : ∀ trace', lastReadings trace' = lastReadings trace → ¬Stale trace' := by
    intro trace' hreadings hstale
    rw [Stale, hreadings, hstaged.undecided.mpr hnew] at hstale
    simp at hstale
  rw [commitD1Statements]
  apply Program.Secure.bind (Q := fun w trace' results => lastReadings trace' = lastReadings trace ∧
    ∀ changes, results = .ok changes →
      changes.getLast? = some 1 ∧ Ready request w trace' staging.headSequence staging.decisions)
  · apply Program.Secure.ask (I := D1Interface) (c := .batch _)
    intro w' tables hle hholds
    rcases (hstaged.mono hle).batch (hread.mono hle) hholds with ⟨constraint, hbatch⟩ |
      ⟨changes, tables', w'', hbatch, hlast, hle', hholds', hledger, hlength⟩
    · refine ⟨w', le_refl w', ?_, fun later _ => ⟨hfresh _, fun changes hchanges => ?_⟩⟩
      · show StreamWorld.Holds (tables.batch _).2 _
        rw [hbatch]
        exact hholds
      · change (tables.batch _).1 = _ at hchanges
        rw [hbatch] at hchanges
        simp at hchanges
    · refine ⟨w'', hle', ?_, fun later hlater => ⟨hfresh _, fun other hother => ?_⟩⟩
      · show StreamWorld.Holds (tables.batch _).2 _
        rw [hbatch]
        exact hholds'
      · change (tables.batch _).1 = _ at hother
        rw [hbatch] at hother
        obtain rfl := Except.ok.inj hother
        exact ⟨hlast, ((hstaged.mono hle).committed hledger hlength (hundecided _ (hfresh _))).mono hlater⟩
  intro w₁ trace₁ results _ hresults
  obtain ⟨hreadings, hcommitted⟩ := hresults
  cases results with
  | error constraint =>
      intro later _ _ _
      exact .inl ⟨storageOrConflictError_message constraint, hundecided _ hreadings⟩
  | ok changes =>
      obtain ⟨hlast, hready⟩ := hcommitted changes rfl
      apply Program.Secure.lift
      · intro _ _ later hlater
        exact hready.mono hlater
      · intro error herror
        change throwIf (changes.getLast? = some 0) _ = _ at herror
        rw [hlast, throwIf_neg (by decide)] at herror
        simp at herror

theorem commitStaging_secure {record : StreamRecord State} {request : SyncRequest Intent}
    {staging : D1Staging State Operation Rejection} {new : Ledger Operation Rejection}
    (hread : ReadAt w record) (hstaged : StagedBy record new request.proposals w trace staging) :
    (commitStaging stream record.headSequence staging : D1Program ε Unit).Secure D1Tables.answer
      (fun tables w => w.Holds tables)
      (fun w trace' _ => Ready request w trace' staging.headSequence staging.decisions)
      (Failed assumed) w trace := by
  rw [commitStaging]
  split
  · rename_i hlength
    apply commitD1Statements_secure hread hstaged
    intro hnil
    rw [hstaged.statements, hnil] at hlength
    simp at hlength
  · rename_i hlength
    exact fun later hlater => (hstaged.ready hread hlength).mono hlater

include hcodecs in
theorem readLogPage_secure {earlier : Ledger Operation Rejection} (hearlier : earlier <+: w.ledger)
    {baseSequence maximumEntries : Int} (hbase : 0 ≤ baseSequence) (hmaximum : 0 ≤ maximumEntries) :
    (readLogPage stream baseSequence (canonicalLog earlier).length maximumEntries :
      D1Program ε (List (CommittedOperation Operation))).Secure D1Tables.answer
      (fun tables w => w.Holds tables)
      (fun _ trace' entries => lastReadings trace' = lastReadings trace ∧
        entries = ((canonicalLog earlier).drop baseSequence.toNat).take maximumEntries.toNat)
      (Failed assumed) w trace := by
  rw [readLogPage]
  apply Program.Secure.bind (Q := fun w trace' rows => lastReadings trace' = lastReadings trace ∧
    rows = (((canonicalLog earlier).drop baseSequence.toNat).take maximumEntries.toNat).map
      stream.logEntryRow)
  · apply Program.Secure.ask (I := D1Interface) (c := .selectLogPage _ _ _ _)
    intro w' tables hle hholds
    refine ⟨w', le_refl w', hholds, fun later _ => ⟨lastReadings_append _ _, ?_⟩⟩
    have hprefix : canonicalLog earlier <+: canonicalLog w'.ledger := (hearlier.trans hle.1).filterMap _
    have hpage := hholds.stores.selectLogPage w'.justified (canonicalLog earlier).length hbase hmaximum
    rw [← List.prefix_iff_eq_take.mp hprefix] at hpage
    exact hpage
  intro w₁ trace₁ rows hle hrows
  obtain ⟨hreadings, rfl⟩ := hrows
  have hmem : ∀ entry ∈ ((canonicalLog earlier).drop baseSequence.toNat).take maximumEntries.toNat,
      entry ∈ canonicalLog w₁.ledger := by
    intro entry hentry
    exact ((hearlier.trans hle.1).filterMap _).subset (List.mem_of_mem_drop (List.mem_of_mem_take hentry))
  have hunless := w₁.justified.decodeLogPage (fun entry _ => hcodecs.operation.readsAs entry.operation) hmem
  apply Program.Secure.lift
  · intro entries hentries later _
    exact ⟨hreadings, Except.ok.inj (hunless.eq_ok hentries).symm⟩
  · intro error herror later hlater hassumed hsafe
    have hlength : ¬maxSafeInteger < (w₁.log.length : Int) := by
      have := StreamWorld.length_le hlater
      omega
    rw [hunless.eq_of_not hlength] at herror
    simp at herror

/-- What a response of the authority is worth from then on. -/
structure Answered (request : SyncRequest Intent) (w : StreamWorld stream Submitted)
    (trace : List (Event D1Interface)) (response : SyncResponse Operation Rejection) : Prop where
  base : response.requestedBaseSequence = request.baseSequence
  honest : HonestResponse w.ledger response
  recorded : Recorded w.ledger request.proposals response.decisions
  current : ¬Stale trace

theorem Answered.mono {request : SyncRequest Intent} {response : SyncResponse Operation Rejection}
    {w' : StreamWorld stream Submitted} (h : Answered request w trace response) (hle : w ≤ w') :
    Answered request w' trace response := by
  obtain ⟨new, hnew⟩ := hle.1
  exact ⟨h.base, hnew ▸ h.honest.mono new, h.recorded.mono hle.1.subset, h.current⟩

end Attempt

/-! ### Whole calls -/

section Call

variable {settings : D1AuthoritySettings State Intent Operation Rejection ε}
  (hcodecs : RoundTripCodecs settings.toD1StreamSettings) (hlimits : settings.limits.Resolved)
  {request : SyncRequest Intent} (hsubmitted : ∀ proposal ∈ request.proposals, Submitted proposal)
  {assumed : Prop} (hbenign : assumed → Benign settings.toD1StreamSettings Submitted)
  (hvalid : assumed → ValidRequest request settings.limits)
  {w : StreamWorld settings.toD1StreamSettings Submitted} {trace : List (Event D1Interface)}

include hcodecs hlimits hsubmitted hbenign hvalid

omit hsubmitted hbenign hvalid in
/-- The response passes its validation, unless it is stale or its head is not safe. -/
theorem readResponse_secure (hrequest : ValidRequest request settings.limits) {head : Int}
    {decisions : List (ProposalDecision Operation Rejection)} (hbase : request.baseSequence ≤ head)
    (hready : Ready request w trace head decisions) :
    (readResponse settings request head decisions).Secure D1Tables.answer (fun tables w => w.Holds tables)
      (Answered request) (Failed assumed) w trace := by
  obtain ⟨earlier, hearlier, rfl⟩ := hready.log
  have hmaximum : 0 ≤ min request.maximumEntries settings.limits.maximumEntriesPerResponse := by
    have := hrequest.entries
    have := hlimits.entries
    omega
  rw [readResponse]
  apply (readLogPage_secure hcodecs hearlier hrequest.baseNonneg hmaximum).bind
  intro w₁ trace₁ entries hle hentries
  obtain ⟨hreadings, hpage⟩ := hentries
  replace hready := (hready.mono hle).of_readings hreadings
  replace hearlier := hearlier.trans hle.1
  have hresponse : InMemoryLogServer.respond settings.limits (canonicalLog earlier) request decisions = {
      requestedBaseSequence := request.baseSequence
      throughSequence := request.baseSequence + entries.length
      headSequence := (canonicalLog earlier).length
      entries := entries
      decisions := decisions } := by
    rw [hpage, ← respond_entries _ decisions hlimits hrequest]
    rfl
  simp only [← hresponse]
  have hiff := respond_valid_iff hearlier w₁.justified hlimits hrequest hbase hready.recorded
  apply Program.Secure.bind (Q := fun w trace _ => Answered request w trace
    (InMemoryLogServer.respond settings.limits (canonicalLog earlier) request decisions))
  · apply Program.Secure.lift
    · intro _ hok later hlater
      have hresponseValid := (assertSyncResponse_eq_ok _ _ _).mp (protocol_eq_ok.mp hok)
      obtain ⟨-, hcovered⟩ := hiff.mp hresponseValid
      refine ⟨rfl, respond_honest (hearlier.trans hlater.1) hlimits hrequest hbase
        (hready.mono hlater).recorded, (hready.mono hlater).recorded, ?_⟩
      rw [hready.stale]
      exact fun hbeyond => hbeyond.elim fun decision hdecision => hcovered decision hdecision.1 hdecision.2
    · intro error herror later hlater _ hsafe
      obtain ⟨e, hrefused, rfl⟩ := protocol_eq_error.mp herror
      refine .inr ⟨⟨e, rfl⟩, hready.stale.mpr ?_⟩
      by_contra hcovered
      push Not at hcovered
      have hlength := (hearlier.filterMap StoredProposalDecision.committed?).length_le
      have hlength' := StreamWorld.length_le hlater
      have hresponseValid := hiff.mpr ⟨(Int.ofNat_le.mpr (hlength.trans hlength')).trans hsafe, hcovered⟩
      rw [(assertSyncResponse_eq_ok _ _ ()).mpr hresponseValid] at hrefused
      simp at hrefused
  intro w₂ trace₂ _ _ hanswered later hlater
  exact hanswered.mono hlater

omit hlimits hvalid in
/-- The run lemma of the loop. -/
theorem stageProposals_secure {record : StreamRecord State} (hbatch : ValidBatch request.proposals)
    (hread : ReadAt w record) (hreadings : lastReadings trace = ⟨record.headSequence, false, false⟩) :
    (request.proposals.foldlM (stageProposal settings.toD1StreamSettings)
        ⟨record.headSequence, record.state, [], []⟩).Secure D1Tables.answer
      (fun tables w => w.Holds tables) (Staged record request.proposals) (Failed assumed) w trace := by
  have hloop := Program.Secure.foldlM (P := Staged record)
    (fun _ _ _ _ _ hle h => Staged.mono h hle)
    (fun proposal hproposal _ _ _ _ h => stageProposal_secure hcodecs hbenign
      (hsubmitted proposal hproposal) (hbatch.valid proposal hproposal) h) (staged_nil hread hreadings)
  exact hloop

theorem synchronizeOnce_secure (hbase : assumed → request.baseSequence ≤ w.log.length) :
    (synchronizeOnce settings request).Secure D1Tables.answer (fun tables w => w.Holds tables)
      (Answered request) (Failed assumed) w trace := by
  rw [synchronizeOnce]
  apply Program.Secure.bind (Q := fun _ _ _ => ValidRequest request settings.limits)
  · apply Program.Secure.lift
    · intro _ hrequest _ _
      exact (assertSyncRequest_eq_ok _ _ _).mp (protocol_eq_ok.mp hrequest)
    · intro error herror _ _ hassumed
      rw [(assertSyncRequest_eq_ok _ _ ()).mpr (hvalid hassumed)] at herror
      simp [protocol] at herror
  intro w₁ trace₁ _ hle₁ hrequest
  apply (readOrCreateStream_secure hcodecs hbenign).bind
  intro w₂ trace₂ record hle₂ hread
  obtain ⟨hread, hgrows, hreadings⟩ := hread
  apply Program.Secure.bind (Q := fun _ trace' _ =>
    trace' = trace₂ ∧ request.baseSequence ≤ record.headSequence)
  · apply Program.Secure.lift
    · intro _ hknown _ _
      exact ⟨rfl, Int.not_lt.mp ((throwIf_eq_ok _ _ _).mp (protocol_eq_ok.mp hknown))⟩
    · intro error herror _ _ hassumed
      have hlength := StreamWorld.length_le hle₁
      have := hbase hassumed
      rw [throwIf_neg (by omega)] at herror
      simp [protocol] at herror
  intro w₃ trace₃ _ hle₃ hknown
  obtain ⟨rfl, hknown⟩ := hknown
  apply (stageProposals_secure hcodecs hsubmitted hbenign hrequest.batch (hread.mono hle₃) hreadings).bind
  intro w₄ trace₄ staging hle₄ hstaged
  obtain ⟨hread, new, hstaged⟩ := hstaged
  apply (commitStaging_secure hread hstaged).bind
  intro w₅ trace₅ _ hle₅ hready
  apply readResponse_secure hcodecs hlimits hrequest _ hready
  have hlength := hstaged.headSequence
  omega

theorem synchronizeAttempts_secure (attempts : Nat)
    (hstart : Failed assumed w trace (.d1SyncConflictError : D1SyncError ε))
    (hbase : assumed → request.baseSequence ≤ w.log.length) :
    (synchronizeAttempts settings request attempts).Secure D1Tables.answer (fun tables w => w.Holds tables)
      (Answered request) (Failed assumed) w trace := by
  induction attempts generalizing w trace with
  | zero =>
      intro later hlater
      exact hstart.mono hlater
  | succ attempts ih =>
      rw [synchronizeAttempts]
      apply (synchronizeOnce_secure hcodecs hlimits hsubmitted hbenign hvalid hbase).handle
      intro w' trace' error hle hfailed
      split
      · rename_i hretry
        apply ih
        · intro hassumed hsafe
          rcases hfailed hassumed hsafe with ⟨-, hstale⟩ | ⟨⟨e, rfl⟩, -⟩
          · exact .inl ⟨rfl, hstale⟩
          · simp [isRetryableD1CommitConflict] at hretry
        · intro hassumed
          have := StreamWorld.length_le hle
          have := hbase hassumed
          omega
      · intro later hlater
        exact hfailed.mono hlater

variable (settings) in
theorem synchronize_secure (hbase : assumed → request.baseSequence ≤ w.log.length) :
    (settings.synchronize request).Secure D1Tables.answer (fun tables w => w.Holds tables)
      (Answered request) (Failed assumed) w [] :=
  synchronizeAttempts_secure hcodecs hlimits hsubmitted hbenign hvalid _
    (fun _ _ => .inl ⟨rfl, by decide⟩) hbase

end Call

end SyncEngine
