import SyncEngine.Model.D1
import SyncEngine.Proof.Validation
import SyncEngine.Spec.Draft

/-!
# The tables as a stored ledger

The rows of one stream in the three tables are the images of one ledger. The queries of the authority
are lookups in that ledger, and a batch of its statements either appends the records it was built
from, under the guard and the unique constraints, or changes nothing.
-/

namespace SyncEngine

open JavaScript Throwing

variable {State Intent Operation Rejection ε : Type}

/-! ### Rows -/

namespace D1Tables

variable (tables : D1Tables) (streamId : String)

def streamsOf : List D1StreamRow := tables.streams.filter fun row => row.streamId = streamId

def logOf : List D1LogEntryRow := tables.logEntries.filter fun row => row.streamId = streamId

def decisionsOf : List D1DecisionRow := tables.decisions.filter fun row => row.streamId = streamId

end D1Tables

namespace D1StreamSettings

variable (stream : D1StreamSettings State Intent Operation Rejection ε)

def streamRow (headSequence : Int) (state : State) : D1StreamRow where
  streamId := stream.streamId
  schemaHash := stream.schemaHash
  headSequence := headSequence
  materializedStateJson := stream.stateCodec.serializeJson state

def logEntryRow (entry : CommittedOperation Operation) : D1LogEntryRow where
  streamId := stream.streamId
  sequence := entry.sequence
  operationId := entry.operationId
  clientId := entry.origin.clientId
  clientSequence := entry.origin.clientSequence
  intentHash := entry.origin.intentHash
  operationJson := stream.operationCodec.serializeJson entry.operation

def decisionRow : StoredProposalDecision Operation Rejection → D1DecisionRow
  | ⟨identity, .accepted _ sequence operation⟩ => {
      streamId := stream.streamId
      operationId := identity.operationId
      clientId := identity.clientId
      clientSequence := identity.clientSequence
      intentHash := identity.intentHash
      status := "accepted"
      sequence := sequence
      operationJson := stream.operationCodec.serializeJson operation
      reasonJson := none }
  | ⟨identity, .rejected _ reason⟩ => {
      streamId := stream.streamId
      operationId := identity.operationId
      clientId := identity.clientId
      clientSequence := identity.clientSequence
      intentHash := identity.intentHash
      status := "rejected"
      sequence := none
      operationJson := none
      reasonJson := stream.rejectionCodec.serializeJson reason }

/-- The statements that store a record. -/
def recordStatements (record : StoredProposalDecision Operation Rejection) : List D1Write :=
  .insertDecision (stream.decisionRow record) ::
    (record.committed?.map fun entry => .insertLogEntry (stream.logEntryRow entry)).toList

/-- Every record has its statements. -/
theorem flatMap_recordStatements_length (new : Ledger Operation Rejection) :
    (new.flatMap stream.recordStatements).length > 0 ↔ new ≠ [] := by
  cases new with
  | nil => simp
  | cons record new => simp [recordStatements]

variable (record : StoredProposalDecision Operation Rejection)

@[simp] theorem decisionRow_streamId : (stream.decisionRow record).streamId = stream.streamId := by
  obtain ⟨identity, _ | _⟩ := record <;> rfl

@[simp] theorem decisionRow_operationId :
    (stream.decisionRow record).operationId = record.identity.operationId := by
  obtain ⟨identity, _ | _⟩ := record <;> rfl

@[simp] theorem decisionRow_clientId :
    (stream.decisionRow record).clientId = record.identity.clientId := by
  obtain ⟨identity, _ | _⟩ := record <;> rfl

@[simp] theorem decisionRow_clientSequence :
    (stream.decisionRow record).clientSequence = record.identity.clientSequence := by
  obtain ⟨identity, _ | _⟩ := record <;> rfl

@[simp] theorem decisionRow_intentHash :
    (stream.decisionRow record).intentHash = record.identity.intentHash := by
  obtain ⟨identity, _ | _⟩ := record <;> rfl

/-- What the authority writes satisfies the checks of the decision table. -/
theorem decisionRow_allowed : (stream.decisionRow record).Allowed := by
  obtain ⟨identity, _ | _⟩ := record
  · exact Or.inl ⟨rfl, rfl, rfl, rfl⟩
  · exact Or.inr ⟨rfl, rfl, rfl, rfl⟩

end D1StreamSettings

/-- The rows of the stream are the images of a ledger. -/
structure D1Tables.Stores (tables : D1Tables)
    (stream : D1StreamSettings State Intent Operation Rejection ε)
    (ledger : Ledger Operation Rejection) : Prop where
  logEntries : tables.logOf stream.streamId = (canonicalLog ledger).map stream.logEntryRow
  decisions : tables.decisionsOf stream.streamId = ledger.map stream.decisionRow

variable {stream : D1StreamSettings State Intent Operation Rejection ε} {initialState state : State}
  {tables tables' : D1Tables} {ledger new : Ledger Operation Rejection}

/-! ### Queries -/

namespace D1Tables.Stores

variable (h : tables.Stores stream ledger)

include h

theorem find?_decision (operationId : String) :
    (tables.decisions.find? fun row => row.streamId = stream.streamId ∧ row.operationId = operationId) =
      (ledger.find? fun record => record.identity.operationId = operationId).map stream.decisionRow := by
  have hfind : tables.decisions.find? (fun row =>
      row.streamId = stream.streamId ∧ row.operationId = operationId) =
        (tables.decisionsOf stream.streamId).find? fun row => row.operationId = operationId := by
    rw [decisionsOf, List.find?_filter]
    simp
  rw [hfind, h.decisions, List.find?_map]
  congr 2
  funext record
  simp

theorem find?_clientPosition (clientId : String) (clientSequence : Int) :
    ((tables.decisions.find? fun row => row.streamId = stream.streamId ∧ row.clientId = clientId ∧
        row.clientSequence = clientSequence).map D1DecisionRow.operationId) =
      (ledger.find? fun record => record.identity.position = (clientId, clientSequence)).map
        fun record => record.identity.operationId := by
  have hfind : tables.decisions.find? (fun row => row.streamId = stream.streamId ∧
      row.clientId = clientId ∧ row.clientSequence = clientSequence) =
        (tables.decisionsOf stream.streamId).find? fun row =>
          row.clientId = clientId ∧ row.clientSequence = clientSequence := by
    rw [decisionsOf, List.find?_filter]
    simp
  rw [hfind, h.decisions, List.find?_map, Option.map_map]
  congr 1
  · funext record
    simp
  · congr 1
    funext record
    simp [OperationIdentity.position]

end D1Tables.Stores

/-- What is taken from a list stands in the list, below the bound. -/
theorem getElem?_of_take {α : Type} {l : List α} {n i : Nat} {a : α} (h : (l.take n)[i]? = some a) :
    i < n ∧ l[i]? = some a := by
  rw [List.getElem?_take] at h
  split at h
  · exact ⟨by assumption, h⟩
  · simp at h

/-- Selecting by a key that counts from one is taking a slice. -/
theorem filter_between {α : Type} {l : List α} {key : α → Int}
    (hkey : ∀ (i : Nat) (a : α), l[i]? = some a → key a = i + 1) {low : Int} {high : Nat}
    (hlow : 0 ≤ low) :
    (l.filter fun a => decide (key a > low ∧ key a ≤ high)) = (l.take high).drop low.toNat := by
  have hsplit : l = (l.take high).take low.toNat ++ (l.take high).drop low.toNat ++ l.drop high := by
    rw [List.take_append_drop, List.take_append_drop]
  have hfront : ((l.take high).take low.toNat).filter
      (fun a => decide (key a > low ∧ key a ≤ high)) = [] := by
    rw [List.filter_eq_nil_iff]
    intro a ha
    obtain ⟨i, hi⟩ := List.getElem?_of_mem ha
    obtain ⟨hlt, hi⟩ := getElem?_of_take hi
    have := hkey i a (getElem?_of_take hi).2
    rw [decide_eq_true_eq]
    omega
  have hmiddle : ((l.take high).drop low.toNat).filter
      (fun a => decide (key a > low ∧ key a ≤ high)) = (l.take high).drop low.toNat := by
    rw [List.filter_eq_self]
    intro a ha
    obtain ⟨i, hi⟩ := List.getElem?_of_mem ha
    rw [List.getElem?_drop] at hi
    obtain ⟨hlt, hi⟩ := getElem?_of_take hi
    have := hkey _ a hi
    rw [decide_eq_true_eq]
    omega
  have hback : (l.drop high).filter (fun a => decide (key a > low ∧ key a ≤ high)) = [] := by
    rw [List.filter_eq_nil_iff]
    intro a ha
    obtain ⟨i, hi⟩ := List.getElem?_of_mem ha
    rw [List.getElem?_drop] at hi
    have := hkey _ a hi
    rw [decide_eq_true_eq]
    omega
  rw [show l.filter (fun a => decide (key a > low ∧ key a ≤ high)) = ((l.take high).take low.toNat ++
      (l.take high).drop low.toNat ++ l.drop high).filter _ from congrArg _ hsplit,
    List.filter_append, List.filter_append, hfront, hmiddle, hback, List.nil_append, List.append_nil]

/-- The page of the log that a range query gives. -/
theorem D1Tables.Stores.selectLogPage {ε' : Type}
    {interpreter : LogInterpreter State Intent Operation Rejection ε'}
    (h : tables.Stores stream ledger) (hledger : Justified interpreter initialState ledger state)
    {baseSequence maximumEntries : Int} (head : Nat) (hbase : 0 ≤ baseSequence)
    (hmaximum : 0 ≤ maximumEntries) :
    tables.selectLogPage stream.streamId baseSequence head maximumEntries =
      ((((canonicalLog ledger).take head).drop baseSequence.toNat).take maximumEntries.toNat).map
        stream.logEntryRow := by
  have hfilter : (tables.logEntries.filter fun row => decide (row.streamId = stream.streamId ∧
      row.sequence > baseSequence ∧ row.sequence ≤ (head : Int))) =
        (((canonicalLog ledger).take head).drop baseSequence.toNat).map stream.logEntryRow := by
    have hrows : (tables.logEntries.filter fun row => decide (row.streamId = stream.streamId ∧
        row.sequence > baseSequence ∧ row.sequence ≤ (head : Int))) =
          (tables.logOf stream.streamId).filter fun row =>
            decide (row.sequence > baseSequence ∧ row.sequence ≤ (head : Int)) := by
      rw [logOf, List.filter_filter]
      simp [Bool.and_comm]
    rw [hrows, h.logEntries, List.filter_map]
    congr 1
    exact filter_between (fun i entry hentry => hledger.sequence_eq hentry) hbase
  have hsorted : ((((canonicalLog ledger).take head).drop baseSequence.toNat).map
      stream.logEntryRow).Pairwise fun left right => left.sequence ≤ right.sequence := by
    rw [List.pairwise_map]
    refine List.Pairwise.sublist ((List.drop_sublist _ _).trans (List.take_sublist _ _)) ?_
    rw [List.pairwise_iff_getElem]
    intro i j hi hj hij
    have hleft := hledger.sequence_eq (List.getElem?_eq_getElem hi)
    have hright := hledger.sequence_eq (List.getElem?_eq_getElem hj)
    show (canonicalLog ledger)[i].sequence ≤ (canonicalLog ledger)[j].sequence
    omega
  simp only [D1Tables.selectLogPage]
  rw [hfilter, hsorted.insertionSort_eq, if_neg (by omega), List.map_take]

/-! ### Cells -/

section Cells

variable {ε' : Type} {interpreter : LogInterpreter State Intent Operation Rejection ε'} {P : Prop}

@[simp] theorem protocol_ok {α : Type} (a : α) : (protocol (.ok a) : Except (D1SyncError ε) α) = .ok a := rfl

theorem protocol_eq_ok {α : Type} {x : Result ε α} {a : α} : protocol x = .ok a ↔ x = .ok a := by
  cases x with
  | error e => simp [protocol]
  | ok b => simp [protocol]

theorem protocol_eq_error {α : Type} {x : Result ε α} {error : D1SyncError ε} :
    protocol x = .error error ↔ ∃ e, x = .error e ∧ error = .syncEngineError e := by
  cases x with
  | error e => simp [protocol, eq_comm]
  | ok b => simp [protocol]

theorem readString_of_nonEmpty {text : String} (label : String) (h : text.length ≠ 0) :
    (readString (some text) label : Except (D1SyncError ε) String) = .ok text := by
  rw [readString, throwIf_neg h]
  rfl

theorem readInteger_unless {value : Int} (label : String) (h : ¬IsSafeInteger value → P) :
    Unless P (readInteger (some value) label : Except (D1SyncError ε) Int) (.ok value) :=
  (Unless.throwIf h).bind_ok (.refl _)

theorem readInteger_of_safe {value : Int} (label : String) (h : IsSafeInteger value) :
    (readInteger (some value) label : Except (D1SyncError ε) Int) = .ok value := by
  rw [readInteger, throwIf_neg (not_not.mpr h)]
  rfl

/-- What the codec writes for one value, it reads as another. -/
structure JsonCodec.ReadsAs {Value : Type} (codec : JsonCodec Value ε) (value read : Value) : Prop where
  nonEmpty : (codec.serializeJson value).length ≠ 0
  inverse : codec.deserializeJson (codec.serializeJson value) = .ok read

theorem JsonCodec.RoundTrips.readsAs {Value : Type} {codec : JsonCodec Value ε} (h : codec.RoundTrips)
    (value : Value) : codec.ReadsAs value value := ⟨h.nonEmpty value, h.inverse value⟩

theorem readJson_of_readsAs {Value : Type} {codec : JsonCodec Value ε} {value read : Value}
    (hcodec : codec.ReadsAs value read) (label : String) :
    readJson (some (codec.serializeJson value)) label codec = .ok read := by
  rw [readJson, readString_of_nonEmpty label hcodec.nonEmpty, ok_bind, hcodec.inverse]
  rfl

/-- The authority reads back the entries it has stored. -/
theorem Justified.decodeLogEntry (h : Justified interpreter initialState ledger state)
    {entry : CommittedOperation Operation} (hcodec : stream.operationCodec.ReadsAs entry.operation entry.operation)
    (hentry : entry ∈ canonicalLog ledger) :
    Unless (maxSafeInteger < entry.sequence)
      (SyncEngine.decodeLogEntry stream.operationCodec (stream.logEntryRow entry)) (.ok entry) := by
  obtain ⟨i, hi⟩ := List.getElem?_of_mem hentry
  have hsequence := h.sequence_eq hi
  obtain ⟨record, hrecord, hsome⟩ := mem_canonicalLog.mp hentry
  obtain ⟨hid, horigin, -⟩ := StoredProposalDecision.committed?_eq_some hsome
  have hvalid := h.valid record hrecord
  rw [SyncEngine.decodeLogEntry]
  refine (readInteger_unless _ fun hunsafe => ?_).bind_ok (.of_eq ?_)
  · change ¬(-maxSafeInteger ≤ entry.sequence ∧ entry.sequence ≤ maxSafeInteger) at hunsafe
    simp only [maxSafeInteger] at hunsafe ⊢
    omega
  · obtain ⟨sequence, operationId, origin, operation⟩ := entry
    obtain rfl : operationId = _ := hid
    obtain rfl : origin = _ := horigin
    simp only [D1StreamSettings.logEntryRow]
    rw [readString_of_nonEmpty _ hvalid.operationId, ok_bind, readString_of_nonEmpty _ hvalid.clientId,
      ok_bind, readInteger_of_safe _ ?_, ok_bind, readString_of_nonEmpty _ hvalid.intentHash, ok_bind,
      readJson_of_readsAs hcodec]
    · rfl
    · have := hvalid.clientSequence
      have := hvalid.safe
      simp only [IsSafeInteger, maxSafeInteger] at *
      omega

theorem Justified.decodeLogPage (h : Justified interpreter initialState ledger state)
    {entries : List (CommittedOperation Operation)}
    (hcodec : ∀ entry ∈ entries, stream.operationCodec.ReadsAs entry.operation entry.operation)
    (hentries : ∀ entry ∈ entries, entry ∈ canonicalLog ledger) :
    Unless (maxSafeInteger < (canonicalLog ledger).length)
      ((entries.map stream.logEntryRow).mapM (SyncEngine.decodeLogEntry stream.operationCodec))
      (.ok entries) := by
  apply Unless.mapM
  intro entry hentry
  obtain ⟨i, hi⟩ := List.getElem?_of_mem (hentries entry hentry)
  obtain ⟨hlt, -⟩ := List.getElem?_eq_some_iff.mp hi
  have hsequence := h.sequence_eq hi
  apply (h.decodeLogEntry (hcodec entry hentry) (hentries entry hentry)).mono
  intro hunsafe
  omega

theorem Justified.decodeStoredDecision (h : Justified interpreter initialState ledger state)
    (hoperation : stream.operationCodec.RoundTrips) (hrejection : stream.rejectionCodec.RoundTrips)
    {record : StoredProposalDecision Operation Rejection} (hrecord : record ∈ ledger) :
    Unless (maxSafeInteger < (canonicalLog ledger).length)
      (SyncEngine.decodeStoredDecision (stream.decisionRow record) stream.operationCodec
        stream.rejectionCodec) (.ok record.decision) := by
  have hvalid := h.valid record hrecord
  have hown := h.decision_operationId record hrecord
  rw [SyncEngine.decodeStoredDecision, stream.decisionRow_operationId,
    readString_of_nonEmpty _ hvalid.operationId, ok_bind]
  obtain ⟨identity, decision⟩ := record
  cases decision with
  | accepted operationId sequence operation =>
      obtain rfl : operationId = identity.operationId := hown
      obtain ⟨i, hi, hsequence⟩ := h.getElem?_of_committed? hrecord rfl
      obtain ⟨hlt, -⟩ := List.getElem?_eq_some_iff.mp hi
      simp only [D1StreamSettings.decisionRow]
      rw [readString_of_nonEmpty _ (show "accepted".length ≠ 0 by decide), ok_bind, if_pos rfl]
      refine (readInteger_unless _ fun hunsafe => ?_).bind_ok (.of_eq ?_)
      · change sequence = i + 1 at hsequence
        simp only [IsSafeInteger, maxSafeInteger] at hunsafe ⊢
        omega
      · rw [readJson_of_readsAs (hoperation.readsAs _)]
        rfl
  | rejected operationId reason =>
      obtain rfl : operationId = identity.operationId := hown
      simp only [D1StreamSettings.decisionRow]
      rw [readString_of_nonEmpty _ (show "rejected".length ≠ 0 by decide), ok_bind,
        if_neg (show "rejected" ≠ "accepted" by decide), if_pos rfl, readJson_of_readsAs (hrejection.readsAs _)]
      exact .refl _

/-- Reading a stored decision makes the checks of a replay, in the same order. -/
theorem Justified.decodeDecisionFor (h : Justified interpreter initialState ledger state)
    (hoperation : stream.operationCodec.RoundTrips) (hrejection : stream.rejectionCodec.RoundTrips)
    {record : StoredProposalDecision Operation Rejection} (hrecord : record ∈ ledger)
    {proposal : ProposedOperation Intent} (hid : record.identity.operationId = proposal.operationId) :
    Unless (maxSafeInteger < (canonicalLog ledger).length)
      (SyncEngine.decodeDecisionFor stream (some (stream.decisionRow record)) proposal)
      (protocol (some <$> InMemoryLogServer.replayDecision record proposal)) := by
  have hvalid := h.valid record hrecord
  have hsafe : IsSafeInteger record.identity.clientSequence := by
    have := hvalid.clientSequence
    have := hvalid.safe
    simp only [IsSafeInteger, maxSafeInteger] at *
    omega
  simp only [SyncEngine.decodeDecisionFor, InMemoryLogServer.replayDecision,
    stream.decisionRow_clientId, stream.decisionRow_clientSequence, stream.decisionRow_intentHash]
  rw [readString_of_nonEmpty _ hvalid.clientId, ok_bind]
  by_cases hsame : record.identity.toOperationIdentity = proposal.toOperationIdentity
  · have hclient : record.identity.clientId = proposal.clientId :=
      congrArg OperationIdentity.clientId hsame
    have hsequence : record.identity.clientSequence = proposal.clientSequence :=
      congrArg OperationIdentity.clientSequence hsame
    rw [if_neg (not_not.mpr hclient), readInteger_of_safe _ hsafe, ok_bind, pure_eq_ok, ok_bind,
      throwIf_neg (by simp [hsequence]), ok_bind, readString_of_nonEmpty _ hvalid.intentHash, ok_bind,
      sameOperationIdentity_eq_true.mpr hsame, throwIf_neg (show ¬true = false by decide), ok_bind]
    by_cases hhash : record.identity.intentHash = proposal.intentHash
    · rw [throwIf_neg (not_not.mpr hhash), throwIf_neg (not_not.mpr hhash)]
      exact (h.decodeStoredDecision hoperation hrejection hrecord).bind_ok (.refl _)
    · rw [throwIf_pos hhash, throwIf_pos hhash]
      exact .refl _
  · have hdiffers : sameOperationIdentity record.identity.toOperationIdentity
        proposal.toOperationIdentity = false := by
      rw [← Bool.not_eq_true, sameOperationIdentity_eq_true]
      exact hsame
    rw [hdiffers, throwIf_pos rfl]
    refine .of_eq ?_
    by_cases hclient : record.identity.clientId = proposal.clientId
    · have hsequence : record.identity.clientSequence ≠ proposal.clientSequence := by
        intro hsequence
        obtain ⟨⟨⟨operationId, clientId, clientSequence⟩, intentHash⟩, decision⟩ := record
        obtain rfl : operationId = proposal.operationId := hid
        obtain rfl : clientId = proposal.clientId := hclient
        obtain rfl : clientSequence = proposal.clientSequence := hsequence
        exact hsame rfl
      rw [if_neg (not_not.mpr hclient), readInteger_of_safe _ hsafe, ok_bind, pure_eq_ok, ok_bind,
        throwIf_pos (by simp [hsequence])]
      rfl
    · rw [if_pos hclient, pure_eq_ok, ok_bind, throwIf_pos rfl]
      rfl

end Cells

/-! ### Commits -/

namespace D1Tables

theorem insertDecision_eq_ok {row : D1DecisionRow} :
    tables.insertDecision row = .ok tables' ↔
      (∀ stored ∈ tables.decisionsOf row.streamId, stored.operationId ≠ row.operationId ∧
        (stored.clientId, stored.clientSequence) ≠ (row.clientId, row.clientSequence)) ∧
      row.Allowed ∧ tables' = { tables with decisions := tables.decisions ++ [row] } := by
  rw [insertDecision, bind_unit_eq_ok, bind_unit_eq_ok, bind_unit_eq_ok, throwIf_eq_ok, throwIf_eq_ok,
    throwIf_eq_ok, not_not, pure_eq_ok, Except.ok.injEq]
  constructor
  · intro hparts
    obtain ⟨hids, hpositions, hallowed, rfl⟩ := hparts
    refine ⟨fun stored hstored => ?_, hallowed, rfl⟩
    rw [decisionsOf, List.mem_filter, decide_eq_true_eq] at hstored
    refine ⟨fun hid => hids ⟨stored, hstored.1, hstored.2, hid⟩, fun hposition => ?_⟩
    exact hpositions ⟨stored, hstored.1, hstored.2, Prod.mk.inj hposition⟩
  · intro hparts
    obtain ⟨hfresh, hallowed, rfl⟩ := hparts
    have hmem : ∀ stored ∈ tables.decisions, stored.streamId = row.streamId →
        stored ∈ tables.decisionsOf row.streamId := by
      intro stored hstored hstream
      exact List.mem_filter.mpr ⟨hstored, decide_eq_true hstream⟩
    refine ⟨?_, ?_, hallowed, rfl⟩
    · intro hparts
      obtain ⟨stored, hstored, hstream, hid⟩ := hparts
      exact (hfresh stored (hmem stored hstored hstream)).1 hid
    · intro hparts
      obtain ⟨stored, hstored, hstream, hclient, hsequence⟩ := hparts
      exact (hfresh stored (hmem stored hstored hstream)).2 (Prod.ext hclient hsequence)

theorem insertLogEntry_eq_ok {row : D1LogEntryRow} :
    tables.insertLogEntry row = .ok tables' ↔
      (∀ stored ∈ tables.logOf row.streamId, stored.sequence ≠ row.sequence ∧
        stored.operationId ≠ row.operationId ∧
        (stored.clientId, stored.clientSequence) ≠ (row.clientId, row.clientSequence)) ∧
      tables' = { tables with logEntries := tables.logEntries ++ [row] } := by
  rw [insertLogEntry, bind_unit_eq_ok, bind_unit_eq_ok, bind_unit_eq_ok, throwIf_eq_ok, throwIf_eq_ok,
    throwIf_eq_ok, pure_eq_ok, Except.ok.injEq]
  constructor
  · intro hparts
    obtain ⟨hsequences, hids, hpositions, rfl⟩ := hparts
    refine ⟨fun stored hstored => ?_, rfl⟩
    rw [logOf, List.mem_filter, decide_eq_true_eq] at hstored
    refine ⟨fun hsequence => hsequences ⟨stored, hstored.1, hstored.2, hsequence⟩,
      fun hid => hids ⟨stored, hstored.1, hstored.2, hid⟩, fun hposition => ?_⟩
    exact hpositions ⟨stored, hstored.1, hstored.2, Prod.mk.inj hposition⟩
  · intro hparts
    obtain ⟨hfresh, rfl⟩ := hparts
    have hmem : ∀ stored ∈ tables.logEntries, stored.streamId = row.streamId →
        stored ∈ tables.logOf row.streamId := by
      intro stored hstored hstream
      exact List.mem_filter.mpr ⟨hstored, decide_eq_true hstream⟩
    refine ⟨?_, ?_, ?_, rfl⟩
    · intro hparts
      obtain ⟨stored, hstored, hstream, hsequence⟩ := hparts
      exact (hfresh stored (hmem stored hstored hstream)).1 hsequence
    · intro hparts
      obtain ⟨stored, hstored, hstream, hid⟩ := hparts
      exact (hfresh stored (hmem stored hstored hstream)).2.1 hid
    · intro hparts
      obtain ⟨stored, hstored, hstream, hclient, hsequence⟩ := hparts
      exact (hfresh stored (hmem stored hstored hstream)).2.2 (Prod.ext hclient hsequence)

theorem executeAll_append (first second : List D1Write) :
    tables.executeAll (first ++ second) = do
      let (changes, tables) ← tables.executeAll first
      let (rest, tables) ← tables.executeAll second
      return (changes ++ rest, tables) := by
  induction first generalizing tables with
  | nil =>
      simp only [List.nil_append, executeAll, ok_bind]
      cases tables.executeAll second <;> rfl
  | cons statement first ih =>
      simp only [List.cons_append, executeAll, ih, bind_assoc, pure_eq_ok, ok_bind, List.cons_append]

end D1Tables

namespace D1Tables.Stores

variable {record : StoredProposalDecision Operation Rejection}

/-- Storing a record's decision succeeds for an undecided identity only. -/
theorem insertDecision_eq_ok (h : tables.Stores stream ledger) :
    tables.insertDecision (stream.decisionRow record) = .ok tables' ↔
      Undecided ledger record.identity.toOperationIdentity ∧
      tables' = { tables with decisions := tables.decisions ++ [stream.decisionRow record] } := by
  rw [D1Tables.insertDecision_eq_ok, stream.decisionRow_streamId, h.decisions, List.forall_mem_map]
  simp only [stream.decisionRow_operationId, stream.decisionRow_clientId,
    stream.decisionRow_clientSequence, stream.decisionRow_allowed, true_and]
  rfl

theorem append_decision (h : tables.Stores stream ledger) :
    ({ tables with decisions := tables.decisions ++ [stream.decisionRow record] } : D1Tables).decisionsOf
      stream.streamId = (ledger ++ [record]).map stream.decisionRow := by
  rw [decisionsOf, List.filter_append, List.map_append]
  congr 1
  · exact h.decisions
  · simp

theorem append_logEntry {log : List (CommittedOperation Operation)} {entry : CommittedOperation Operation}
    (h : tables.logOf stream.streamId = log.map stream.logEntryRow) :
    ({ tables with logEntries := tables.logEntries ++ [stream.logEntryRow entry] } : D1Tables).logOf
      stream.streamId = (log ++ [entry]).map stream.logEntryRow := by
  have hnew : [stream.logEntryRow entry].filter (fun row => row.streamId = stream.streamId) =
      [stream.logEntryRow entry] := by
    simp [D1StreamSettings.logEntryRow]
  rw [logOf, List.filter_append, List.map_append, hnew]
  exact congrArg (· ++ _) h

/-- The statements of a record append it to the ledger, if they succeed. -/
theorem executeAll_record (h : tables.Stores stream ledger) {changes : List Nat}
    (hexecute : tables.executeAll (stream.recordStatements record) = .ok (changes, tables')) :
    Undecided ledger record.identity.toOperationIdentity ∧
      tables'.Stores stream (ledger ++ [record]) ∧ tables'.streams = tables.streams := by
  rw [D1StreamSettings.recordStatements, executeAll, bind_eq_ok] at hexecute
  obtain ⟨⟨_, middle⟩, hfirst, hexecute⟩ := hexecute
  obtain ⟨_, hdecision, hfirst⟩ := bind_eq_ok.mp hfirst
  obtain ⟨-, rfl⟩ := Prod.mk.inj (Except.ok.inj hfirst)
  obtain ⟨hundecided, rfl⟩ := h.insertDecision_eq_ok.mp hdecision
  refine ⟨hundecided, ?_⟩
  obtain ⟨⟨_, last⟩, hrest, hexecute⟩ := bind_eq_ok.mp hexecute
  obtain ⟨-, rfl⟩ := Prod.mk.inj (Except.ok.inj hexecute)
  cases hentry : record.committed? with
  | none =>
      rw [hentry] at hrest
      obtain ⟨-, rfl⟩ := Prod.mk.inj (Except.ok.inj hrest)
      refine ⟨⟨?_, h.append_decision⟩, rfl⟩
      rw [canonicalLog_append, canonicalLog, canonicalLog, List.filterMap_cons_none hentry,
        List.filterMap_nil, List.append_nil]
      exact h.logEntries
  | some entry =>
      rw [hentry] at hrest
      obtain ⟨⟨_, stored⟩, hlog, hrest⟩ := bind_eq_ok.mp hrest
      obtain ⟨-, rfl⟩ := Prod.mk.inj (Except.ok.inj hrest)
      obtain ⟨_, hinsert, hlog⟩ := bind_eq_ok.mp hlog
      obtain ⟨-, rfl⟩ := Prod.mk.inj (Except.ok.inj hlog)
      obtain ⟨-, rfl⟩ := D1Tables.insertLogEntry_eq_ok.mp hinsert
      refine ⟨⟨?_, h.append_decision⟩, rfl⟩
      rw [canonicalLog_append, show canonicalLog [record] = [entry] from
        List.filterMap_cons_some hentry]
      exact append_logEntry h.logEntries

/-- The statements of a draft append it to the ledger, if they succeed. -/
theorem executeAll_records (h : tables.Stores stream ledger) (hdistinct : DistinctRecords ledger)
    {changes : List Nat}
    (hexecute : tables.executeAll (new.flatMap stream.recordStatements) = .ok (changes, tables')) :
    DistinctRecords (ledger ++ new) ∧ tables'.Stores stream (ledger ++ new) ∧
      tables'.streams = tables.streams := by
  induction new generalizing tables ledger changes with
  | nil =>
      obtain ⟨-, rfl⟩ := Prod.mk.inj (Except.ok.inj hexecute)
      rw [List.append_nil]
      exact ⟨hdistinct, h, rfl⟩
  | cons record new ih =>
      rw [List.flatMap_cons, executeAll_append, bind_eq_ok] at hexecute
      obtain ⟨⟨_, middle⟩, hfirst, hexecute⟩ := hexecute
      obtain ⟨⟨_, last⟩, hrest, hexecute⟩ := bind_eq_ok.mp hexecute
      obtain ⟨-, rfl⟩ := Prod.mk.inj (Except.ok.inj hexecute)
      obtain ⟨hundecided, hmiddle, hstreams⟩ := h.executeAll_record hfirst
      have hdistinct' : DistinctRecords (ledger ++ [record]) := by
        refine List.pairwise_append.mpr ⟨hdistinct, List.pairwise_singleton _ _, ?_⟩
        intro earlier hearlier later hlater
        obtain rfl := List.mem_singleton.mp hlater
        exact hundecided earlier hearlier
      obtain ⟨hall, hlast, hstreams'⟩ := ih hmiddle hdistinct' hrest
      rw [List.append_assoc] at hall hlast
      exact ⟨hall, hlast, hstreams'.trans hstreams⟩

/-- The statements of a record succeed where the record is justified. -/
theorem executeAll_of_record {ε' : Type} {interpreter : LogInterpreter State Intent Operation Rejection ε'}
    (h : tables.Stores stream ledger)
    (hjustified : Justified interpreter initialState (ledger ++ [record]) state) :
    ∃ changes tables', tables.executeAll (stream.recordStatements record) = .ok (changes, tables') := by
  have hundecided : Undecided ledger record.identity.toOperationIdentity := by
    have hdistinct := (List.pairwise_append.mp hjustified.pairwise_identity).2.2
    exact fun earlier hearlier => hdistinct earlier hearlier record List.mem_cons_self
  have hdecision := h.insertDecision_eq_ok.mpr ⟨hundecided, rfl⟩
  cases hentry : record.committed? with
  | none =>
      simp only [D1StreamSettings.recordStatements, hentry, Option.map_none, Option.toList_none, executeAll,
        execute, hdecision, ok_bind, pure_eq_ok]
      exact ⟨_, _, rfl⟩
  | some entry =>
      have hlog : canonicalLog (ledger ++ [record]) = canonicalLog ledger ++ [entry] := by
        rw [canonicalLog_append]
        exact congrArg _ (List.filterMap_cons_some hentry)
      have hsequence : entry.sequence = (canonicalLog ledger).length + 1 :=
        hjustified.sequence_eq (by rw [hlog]; simp)
      have hdistinct := hjustified.log_distinct
      rw [hlog, List.pairwise_append] at hdistinct
      have hfresh : ∀ row ∈ tables.logOf stream.streamId, row.sequence ≠ entry.sequence ∧
          row.operationId ≠ entry.operationId ∧
          (row.clientId, row.clientSequence) ≠ (entry.origin.clientId, entry.origin.clientSequence) := by
        intro row hrow
        rw [h.logEntries] at hrow
        obtain ⟨other, hother, rfl⟩ := List.mem_map.mp hrow
        obtain ⟨hid, hposition⟩ := hdistinct.2.2 other hother entry List.mem_cons_self
        refine ⟨?_, hid, hposition⟩
        obtain ⟨i, hi⟩ := List.getElem?_of_mem hother
        obtain ⟨hlt, -⟩ := List.getElem?_eq_some_iff.mp hi
        have hearlier := hjustified.sequence_eq (by rw [hlog, List.getElem?_append_left hlt, hi])
        show other.sequence ≠ entry.sequence
        omega
      have hinsert : (D1Tables.mk tables.streams tables.logEntries
          (tables.decisions ++ [stream.decisionRow record])).insertLogEntry (stream.logEntryRow entry) =
            .ok ⟨tables.streams, tables.logEntries ++ [stream.logEntryRow entry],
              tables.decisions ++ [stream.decisionRow record]⟩ :=
        D1Tables.insertLogEntry_eq_ok.mpr ⟨hfresh, rfl⟩
      simp only [D1StreamSettings.recordStatements, hentry, Option.map_some, Option.toList_some, executeAll,
        execute, hdecision, ok_bind, pure_eq_ok, hinsert]
      exact ⟨_, _, rfl⟩

/-- The statements of a draft succeed where the draft is justified. -/
theorem executeAll_of_records {ε' : Type} {interpreter : LogInterpreter State Intent Operation Rejection ε'}
    (h : tables.Stores stream ledger)
    (hjustified : Justified interpreter initialState (ledger ++ new) state) :
    ∃ changes tables', tables.executeAll (new.flatMap stream.recordStatements) = .ok (changes, tables') := by
  induction new generalizing tables ledger with
  | nil => exact ⟨_, _, rfl⟩
  | cons record new ih =>
      rw [show ledger ++ record :: new = (ledger ++ [record]) ++ new by simp] at hjustified
      obtain ⟨earlier, hearlier⟩ := hjustified.exists_state
      obtain ⟨changes, middle, hfirst⟩ := h.executeAll_of_record hearlier
      obtain ⟨rest, last, hrest⟩ := ih (h.executeAll_record hfirst).2.1 hjustified
      refine ⟨changes ++ rest, last, ?_⟩
      rw [List.flatMap_cons, executeAll_append, hfirst]
      simp only [ok_bind, hrest, pure_eq_ok]

end D1Tables.Stores

/-! ### The guarded commit -/

/-- The guarded update, on the one row of the stream. -/
theorem execute_guardedUpdate {head : Int}
    (hstream : tables.streamsOf stream.streamId = [stream.streamRow head state])
    (previousHeadSequence headSequence : Int) (next : State) :
    tables.execute (updateStreamState stream previousHeadSequence headSequence next) =
      if head = previousHeadSequence then
        .ok (1, tables.updateStreams (fun row => row.streamId = stream.streamId) headSequence
          (stream.stateCodec.serializeJson next))
      else .error .notNull := by
  have hmem : ∀ row, row ∈ tables.streams ∧ row.streamId = stream.streamId ↔
      row = stream.streamRow head state := by
    intro row
    rw [← List.mem_singleton (b := stream.streamRow head state), ← hstream, D1Tables.streamsOf,
      List.mem_filter, decide_eq_true_eq]
  have hcount : tables.streams.countP (fun row => row.streamId = stream.streamId) = 1 := by
    rw [List.countP_eq_length_filter]
    exact congrArg List.length hstream
  change (do
    throwIf (∃ row ∈ tables.streams, row.streamId = stream.streamId ∧
      row.headSequence ≠ previousHeadSequence) SqliteConstraint.notNull
    return (tables.streams.countP (fun row : D1StreamRow => row.streamId = stream.streamId),
      tables.updateStreams (fun row => row.streamId = stream.streamId) headSequence
        (stream.stateCodec.serializeJson next))) = _
  rw [hcount]
  by_cases hhead : head = previousHeadSequence
  · rw [if_pos hhead, throwIf_neg]
    · rfl
    · intro hparts
      obtain ⟨row, hrow, hid, hne⟩ := hparts
      obtain rfl := (hmem row).mp ⟨hrow, hid⟩
      exact hne hhead
  · rw [if_neg hhead, throwIf_pos]
    · rfl
    · obtain ⟨hrow, hid⟩ := (hmem _).mpr rfl
      exact ⟨_, hrow, hid, hhead⟩

theorem streamsOf_updateStreams {head : Int}
    (hstream : tables.streamsOf stream.streamId = [stream.streamRow head state])
    (headSequence : Int) (next : State) :
    (tables.updateStreams (fun row => row.streamId = stream.streamId) headSequence
      (stream.stateCodec.serializeJson next)).streamsOf stream.streamId =
        [stream.streamRow headSequence next] := by
  have hfilter : (fun row : D1StreamRow => decide (row.streamId = stream.streamId)) ∘
      (fun row : D1StreamRow => if decide (row.streamId = stream.streamId) = true then
        { row with headSequence, materializedStateJson := stream.stateCodec.serializeJson next }
        else row) = fun row => decide (row.streamId = stream.streamId) := by
    funext row
    by_cases hrow : row.streamId = stream.streamId <;> simp [hrow]
  rw [D1Tables.streamsOf, D1Tables.updateStreams, List.filter_map, hfilter]
  change ((tables.streamsOf stream.streamId).map _) = _
  rw [hstream]
  simp [D1StreamSettings.streamRow]

/-- A batch that stores a draft either appends it at the head it was drafted on, or changes nothing. -/
theorem batch_cases (new : Ledger Operation Rejection) {head : Int} (h : tables.Stores stream ledger)
    (hdistinct : DistinctRecords ledger)
    (hstream : tables.streamsOf stream.streamId = [stream.streamRow head state])
    (previousHeadSequence headSequence : Int) (next : State) :
    (∃ changes tables', tables.batch (new.flatMap stream.recordStatements ++
        [updateStreamState stream previousHeadSequence headSequence next]) = (.ok changes, tables') ∧
      changes.getLast? = some 1 ∧ head = previousHeadSequence ∧ DistinctRecords (ledger ++ new) ∧
      tables'.Stores stream (ledger ++ new) ∧
      tables'.streamsOf stream.streamId = [stream.streamRow headSequence next]) ∨
    ∃ constraint, tables.batch (new.flatMap stream.recordStatements ++
        [updateStreamState stream previousHeadSequence headSequence next]) = (.error constraint, tables) := by
  rw [D1Tables.batch, D1Tables.executeAll_append]
  cases hrecords : tables.executeAll (new.flatMap stream.recordStatements) with
  | error constraint => exact .inr ⟨constraint, rfl⟩
  | ok result =>
      obtain ⟨changes, middle⟩ := result
      obtain ⟨hdistinct', hmiddle, hstreams⟩ := h.executeAll_records hdistinct hrecords
      have hstream' : middle.streamsOf stream.streamId = [stream.streamRow head state] := by
        rw [D1Tables.streamsOf, hstreams]
        exact hstream
      simp only [ok_bind, D1Tables.executeAll, execute_guardedUpdate hstream']
      by_cases hhead : head = previousHeadSequence
      · rw [if_pos hhead]
        refine .inl ⟨changes ++ [1], _, rfl, by simp, hhead, hdistinct', ?_, ?_⟩
        · exact ⟨hmiddle.logEntries, hmiddle.decisions⟩
        · exact streamsOf_updateStreams hstream' _ _
      · rw [if_neg hhead]
        exact .inr ⟨.notNull, rfl⟩

/-- A justified draft is committed where the head is the one it was made on. -/
theorem batch_of_justified {ε' : Type} {interpreter : LogInterpreter State Intent Operation Rejection ε'}
    {head : Int} {next : State} (h : tables.Stores stream ledger) (hdistinct : DistinctRecords ledger)
    (hstream : tables.streamsOf stream.streamId = [stream.streamRow head state])
    (hjustified : Justified interpreter initialState (ledger ++ new) next) (headSequence : Int) :
    ∃ changes tables', tables.batch (new.flatMap stream.recordStatements ++
        [updateStreamState stream head headSequence next]) = (.ok changes, tables') ∧
      changes.getLast? = some 1 ∧ tables'.Stores stream (ledger ++ new) ∧
      tables'.streamsOf stream.streamId = [stream.streamRow headSequence next] := by
  rcases batch_cases new h hdistinct hstream head headSequence next with
    ⟨changes, tables', hbatch, hlast, -, -, hstores, hstreams⟩ | ⟨constraint, hbatch⟩
  · exact ⟨changes, tables', hbatch, hlast, hstores, hstreams⟩
  · obtain ⟨changes, middle, hrecords⟩ := h.executeAll_of_records hjustified
    have hstream' : middle.streamsOf stream.streamId = [stream.streamRow head state] := by
      rw [D1Tables.streamsOf, (h.executeAll_records hdistinct hrecords).2.2]
      exact hstream
    rw [D1Tables.batch, D1Tables.executeAll_append, hrecords] at hbatch
    simp only [ok_bind, D1Tables.executeAll, execute_guardedUpdate hstream', if_pos, pure_eq_ok] at hbatch
    simp at hbatch

end SyncEngine
