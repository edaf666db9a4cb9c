import SyncEngine.Model.RowAuthority
import SyncEngine.Proof.Acceptance
import SyncEngine.Proof.Projection

/-!
# What the row authority stores

The authority keeps its states as canonical texts and reads back states with sorted keys. Such a state has
the rows of the one it was written from, an operation leads from both to states with one text, and so the
authority works on what it reads back as on what it has computed.
-/

namespace SyncEngine

open JavaScript JavaScript.JsonValue Throwing

variable {ν : Type}

/-! ### Stored values -/

section Stored

variable {ε Value : Type} {numbers : NumberFormat ν} {codec : Wire.JsonCodec ν ε Value} {value : Value}
  {json : JsonValue ν}

theorem serializeJson_stored (hencode : codec.encode value = .ok (some json)) (hjson : json.Valid numbers) :
    (codec.stored numbers).serializeJson value = ofUtf16Units (json.print numbers) := by
  show ofUtf16Units ((codec.encode value >>= canonicalizeUnknown numbers).toOption.getD []) = _
  rw [hencode, ok_bind, canonicalizeUnknown_of_valid hjson]
  rfl

/-- A stored value is read as what the codec makes of its JSON value with sorted keys. -/
theorem stored_readsAs (hlawful : numbers.Lawful) (hencode : codec.encode value = .ok (some json))
    (hjson : json.Valid numbers) {read : Value} (hdecode : codec.decode (some json.sorted) = .ok read) :
    (codec.stored numbers).ReadsAs value read := by
  have htext := serializeJson_stored hencode hjson
  constructor
  · rw [htext, Ne, length_ofUtf16Units]
    obtain ⟨unit, text, hprint, -⟩ := print_eq_cons hlawful hjson
    rw [hprint]
    exact List.cons_ne_nil _ _
  · have hparse : parse numbers (utf16Units ((codec.stored numbers).serializeJson value)) = some json.sorted := by
      rw [htext, (wellFormed_print hlawful hjson).utf16Units_ofUtf16Units, parse_print hlawful hjson]
    dsimp only [Wire.JsonCodec.stored] at hparse ⊢
    rw [hparse]
    exact hdecode

section Operations

variable {runtime : RowRuntime ν} {schema : ReplicaSchemaContract} {operation : RowOperation ν}
  (h : operation.Normal runtime schema)

include h

theorem RowOperation.Normal.encode_eq :
    (createRowOperationCodec runtime schema).encode operation = .ok (some operation.toJson) :=
  bind_eq_ok.mpr ⟨operation, mapError_eq_ok.mpr (normalizeRowOperation_toJson h), rfl⟩

theorem RowOperation.Normal.serializeJson_eq :
    ((createRowOperationCodec runtime schema).stored runtime.toNumberFormat).serializeJson operation =
      ofUtf16Units (operation.toJson.print runtime.toNumberFormat) :=
  serializeJson_stored h.encode_eq h.valid_toJson

/-- The authority reads back the operations it has stored. -/
theorem RowOperation.Normal.readsAs (hlawful : runtime.toNumberFormat.Lawful) :
    ((createRowOperationCodec runtime schema).stored runtime.toNumberFormat).ReadsAs operation operation :=
  stored_readsAs hlawful h.encode_eq h.valid_toJson (mapError_eq_ok.mpr (normalizeRowOperation_sorted h))

end Operations

end Stored

/-! ### States with sorted keys -/

def ReplicaDatabaseState.sorted (state : ReplicaDatabaseState (RowRecord ν)) : ReplicaDatabaseState (RowRecord ν) where
  schemaHash := state.schemaHash
  tables := sortedRecord (sortedRecord (sortedRecord JsonValue.sorted)) state.tables

/-- Sorting an object sorts the record that it is. -/
theorem sorted_object_record {α : Type} (write : α → JsonValue ν) (sort : α → α)
    (hsort : ∀ value, (write value).sorted = write (sort value)) (record : JsRecord α) :
    (JsonValue.object (record.entries.map fun entry => (entry.1, write entry.2))).sorted =
      .object ((sortedRecord sort record).entries.map fun entry => (entry.1, write entry.2)) := by
  have hmap : record.entries.map (Prod.map id JsonValue.sorted ∘ fun entry => (entry.1, write entry.2)) =
      record.entries.map (Prod.map id write ∘ Prod.map id sort) :=
    List.map_congr_left fun entry _ => Prod.ext rfl (hsort entry.2)
  rw [sorted_object, List.map_map, hmap, ← List.map_map, ← map_sortByKey]
  rfl

theorem sorted_toJson (state : ReplicaDatabaseState (RowRecord ν)) : state.toJson.sorted = state.sorted.toJson := by
  have hrows := sorted_object_record (fun row : RowRecord ν => .object row.entries) (sortedRecord JsonValue.sorted)
    fun row => sorted_object row.entries
  have htables := sorted_object_record _ _ hrows state.tables
  have hkeys : [ascii "schemaHash", ascii "tables"].Pairwise (· ≤ ·) := by decide
  rw [ReplicaDatabaseState.toJson, sorted_object, List.map_cons, List.map_cons, List.map_nil]
  simp only [Prod.map_apply, htables]
  exact congrArg JsonValue.object (List.Pairwise.insertionSort_eq (List.pairwise_map.mp hkeys))

theorem mapM_map_option {α β : Type} {entries : List α} {write : α → β} {read : β → Option α}
    (h : ∀ entry ∈ entries, read (write entry) = some entry) : (entries.map write).mapM read = some entries := by
  induction entries with
  | nil => rfl
  | cons entry entries ih =>
      rw [List.forall_mem_cons] at h
      rw [List.map_cons, List.mapM_cons, h.1, ih h.2]
      rfl

/-- A record is read back from the object that it is. -/
theorem recordOfJson_object {α : Type} (write : α → JsonValue ν) {read : JsonValue ν → Option α} {record : JsRecord α}
    (h : ∀ entry ∈ record.entries, read (write entry.2) = some entry.2) :
    recordOfJson read (.object (record.entries.map fun entry => (entry.1, write entry.2))) = some record := by
  have hentries : (record.entries.map fun entry => (entry.1, write entry.2)).mapM
      (fun field => do return (field.1, ← read field.2)) = some record.entries := by
    refine mapM_map_option fun entry hentry => ?_
    rw [h entry hentry]
    rfl
  have hrecord : InsertionMap.empty.setAll record.entries = record :=
    InsertionMap.ext (InsertionMap.entries_setAll_of_fresh _ _ record.nodupKeys)
  change ((record.entries.map fun entry => (entry.1, write entry.2)).mapM
    (fun field => do return (field.1, ← read field.2)) >>= fun entries => some (InsertionMap.empty.setAll entries)) = _
  rw [hentries]
  exact congrArg some hrecord

/-- A state is read back from the object that it is. -/
theorem ofJson_toJson (state : ReplicaDatabaseState (RowRecord ν)) :
    ReplicaDatabaseState.ofJson state.toJson = some state := by
  have hrow : ∀ row : RowRecord ν, recordOfJson some (.object row.entries) = some row := by
    intro row
    have hread : recordOfJson some (.object (row.entries.map fun entry => (entry.1, id entry.2))) = some row :=
      recordOfJson_object id fun entry _ => rfl
    rwa [show (row.entries.map fun entry => (entry.1, id entry.2)) = row.entries from List.map_id _] at hread
  have hrows : ∀ rows : JsRecord (RowRecord ν), recordOfJson (recordOfJson some)
      (.object (rows.entries.map fun row => (row.1, JsonValue.object row.2.entries))) = some rows :=
    fun rows => recordOfJson_object (fun row : RowRecord ν => .object row.entries) fun row _ => hrow row.2
  have htables : recordOfJson _ (.object (state.tables.entries.map _)) = some state.tables :=
    recordOfJson_object (fun rows : JsRecord (RowRecord ν) => JsonValue.object
      (rows.entries.map fun row => (row.1, .object row.2.entries))) fun table _ => hrows table.2
  change (recordOfJson (recordOfJson (recordOfJson some)) (JsonValue.object (state.tables.entries.map fun table =>
    (table.1, JsonValue.object (table.2.entries.map fun row => (row.1, JsonValue.object row.2.entries))))) >>=
      fun tables => some (ReplicaDatabaseState.mk state.schemaHash tables)) = some state
  rw [htables]
  rfl

theorem toJson_injective : Function.Injective
    (ReplicaDatabaseState.toJson : ReplicaDatabaseState (RowRecord ν) → JsonValue ν) := by
  intro state state' hsame
  have hread := ofJson_toJson state
  rw [hsame, ofJson_toJson] at hread
  exact (Option.some.inj hread).symm

/-- Sorting a state that is sorted changes nothing. -/
theorem ReplicaDatabaseState.sorted_sorted (state : ReplicaDatabaseState (RowRecord ν)) :
    state.sorted.sorted = state.sorted := by
  apply toJson_injective
  rw [← sorted_toJson, ← sorted_toJson, JsonValue.sorted_sorted]

theorem get?_sorted (state : ReplicaDatabaseState (RowRecord ν)) (name : Text) :
    state.sorted.tables.get? name = (state.tables.get? name).map (sortedRecord (sortedRecord JsonValue.sorted)) :=
  get?_sortedRecord _ _ _

theorem rows_sorted (state : ReplicaDatabaseState (RowRecord ν)) (name : Text) :
    state.sorted.rows name = sortedRecord (sortedRecord JsonValue.sorted) (state.rows name) := by
  rw [ReplicaDatabaseState.rows, get?_sorted, ReplicaDatabaseState.rows]
  cases state.tables.get? name <;> rfl

section States

variable {runtime : RowRuntime ν} {schema : ReplicaSchemaContract} {state state' : ReplicaDatabaseState (RowRecord ν)}

/-- What can be stored for a schema: a state of it that is a JSON value. -/
structure StorableState (runtime : RowRuntime ν) (schema : ReplicaSchemaContract)
    (state : ReplicaDatabaseState (RowRecord ν)) : Prop where
  schemaHash : state.schemaHash = schema.schemaHash
  valid : state.toJson.Valid runtime.toNumberFormat

theorem StorableState.schema_eq (h : StorableState runtime schema state) :
    (assertDatabaseStateSchema schema state).mapError
      (WireException.applicationError (ν := ν) ∘ RowError.schemaMismatchError) = .ok () := by
  rw [assertDatabaseStateSchema, throwIf_neg (not_not.mpr h.schemaHash)]
  rfl

theorem StorableState.encode_eq (h : StorableState runtime schema state) :
    (createReplicaDatabaseStateCodec runtime.toNumberFormat schema).encode state = .ok (some state.toJson) :=
  bind_unit_eq_ok.mpr ⟨h.schema_eq, rfl⟩

theorem StorableState.sorted (h : StorableState runtime schema state) : StorableState runtime schema state.sorted :=
  ⟨h.schemaHash, sorted_toJson state ▸ valid_sorted h.valid⟩

theorem StorableState.serializeJson_eq (h : StorableState runtime schema state) :
    ((createReplicaDatabaseStateCodec runtime.toNumberFormat schema).stored runtime.toNumberFormat).serializeJson
      state =
      ofUtf16Units (state.toJson.print runtime.toNumberFormat) :=
  serializeJson_stored h.encode_eq h.valid

/-- A stored state is read with its keys sorted. -/
theorem StorableState.readsAs (hlawful : runtime.toNumberFormat.Lawful) (h : StorableState runtime schema state) :
    ((createReplicaDatabaseStateCodec runtime.toNumberFormat schema).stored runtime.toNumberFormat).ReadsAs state
      state.sorted := by
  refine stored_readsAs hlawful h.encode_eq h.valid (bind_eq_ok.mpr ⟨state.sorted.toJson, ?_, ?_⟩)
  · rw [toJsonValue_of_valid hlawful (valid_sorted h.valid), JsonValue.sorted_sorted, sorted_toJson]
  · rw [ofJson_toJson]
    exact bind_unit_eq_ok.mpr ⟨h.sorted.schema_eq, rfl⟩

/-- States that are equal up to the order of their keys have one text. -/
theorem StorableState.serializeJson_congr (h : StorableState runtime schema state)
    (h' : StorableState runtime schema state')
    (hsame : state.sorted = state'.sorted) :
    ((createReplicaDatabaseStateCodec runtime.toNumberFormat schema).stored runtime.toNumberFormat).serializeJson
      state =
      ((createReplicaDatabaseStateCodec runtime.toNumberFormat schema).stored runtime.toNumberFormat).serializeJson
        state' := by
  rw [h.serializeJson_eq, h'.serializeJson_eq, ← print_sorted, sorted_toJson, hsame, ← sorted_toJson, print_sorted]

/-! ### What operations do -/

section Operations

variable {operation : RowOperation ν} {table : ReplicaTableContract}

theorem valid_set {α : Type} (write : α → JsonValue ν) {format : NumberFormat ν} {record : JsRecord α}
    (hrecord : (JsonValue.object (record.entries.map fun entry => (entry.1, write entry.2))).Valid format) (key : Text)
    {value : α} (hvalue : (write value).Valid format) :
    (JsonValue.object ((record.set key value).entries.map fun entry => (entry.1, write entry.2))).Valid format := by
  cases hrecord with
  | object _ hvalues =>
      rw [List.forall_mem_map] at hvalues
      refine .object ?_ (List.forall_mem_map.mpr fun entry hentry => ?_)
      · rw [List.map_map]
        exact (record.set key value).nodupKeys
      · cases (record.mem_entries_set key value).mp hentry with
        | inl hnew =>
            rw [hnew]
            exact hvalue
        | inr hold => exact hvalues entry hold.1

/-- What an operation does to a table depends on what the table has under each key. -/
theorem sorted_onRows (operation : RowOperation ν) (encoded : Text) {rows rows' : JsRecord (RowRecord ν)}
    (hsame : sortedRecord (sortedRecord JsonValue.sorted) rows = sortedRecord (sortedRecord JsonValue.sorted) rows') :
    sortedRecord (sortedRecord JsonValue.sorted) (operation.onRows encoded rows) =
      sortedRecord (sortedRecord JsonValue.sorted) (operation.onRows encoded rows') := by
  have hget : ∀ key, (rows.get? key).map (sortedRecord JsonValue.sorted) =
      (rows'.get? key).map (sortedRecord JsonValue.sorted) := by
    intro key
    rw [← get?_sortedRecord, ← get?_sortedRecord, hsame]
  apply sortedRecord_congr
  intro key
  cases operation with
  | putRow name row =>
      rw [RowOperation.onRows, RowOperation.onRows, InsertionMap.get?_set, InsertionMap.get?_set]
      split
      · rfl
      · exact hget key
  | deleteRow name primaryKey =>
      rw [RowOperation.onRows, RowOperation.onRows, InsertionMap.get?_erase, InsertionMap.get?_erase]
      split
      · rfl
      · exact hget key

/-- An operation leads from states that are equal up to the order of their keys to such states. -/
theorem sorted_after (hsame : state.sorted = state'.sorted) :
    (state.after runtime table operation).sorted = (state'.after runtime table operation).sorted := by
  have hrows := rows_sorted state operation.tableName
  rw [hsame, rows_sorted] at hrows
  have hhash : state.sorted.schemaHash = state'.sorted.schemaHash := congrArg ReplicaDatabaseState.schemaHash hsame
  rw [ReplicaDatabaseState.sorted, ReplicaDatabaseState.sorted, ReplicaDatabaseState.mk.injEq]
  refine ⟨hhash, sortedRecord_congr fun name => ?_⟩
  rw [ReplicaDatabaseState.after, ReplicaDatabaseState.after, InsertionMap.get?_set, InsertionMap.get?_set]
  split
  · exact congrArg some (sorted_onRows operation _ hrows.symm)
  · rw [← get?_sorted, ← get?_sorted, hsame]

theorem valid_toJson_iff {format : NumberFormat ν} : state.toJson.Valid format ↔
    ∀ table ∈ state.tables.entries,
      (JsonValue.object (table.2.entries.map fun row => (row.1, .object row.2.entries))).Valid format := by
  constructor
  · intro hvalid
    cases hvalid with
    | object _ hfields =>
        simp only [List.forall_mem_cons] at hfields
        cases hfields.2.1 with
        | object _ htables => exact fun table htable => htables _ (List.mem_map_of_mem htable)
  · intro htables
    have hkeys : ((state.tables.entries.map fun table => (table.1, JsonValue.object (table.2.entries.map fun row =>
        (row.1, JsonValue.object row.2.entries)))).map Prod.fst).Nodup := by
      rw [List.map_map]
      exact state.tables.nodupKeys
    refine .object (by simp only [List.map_cons, List.map_nil]; decide) ?_
    simp only [List.forall_mem_cons]
    exact ⟨.string _, .object hkeys (List.forall_mem_map.mpr htables), by simp⟩

theorem valid_rows {format : NumberFormat ν} (h : state.toJson.Valid format) (name : Text) :
    (JsonValue.object ((state.rows name).entries.map fun row => (row.1, .object row.2.entries))).Valid format := by
  rw [ReplicaDatabaseState.rows]
  cases hget : state.tables.get? name with
  | none => exact .object List.nodup_nil (by simp [InsertionMap.empty])
  | some rows => exact valid_toJson_iff.mp h _ (state.tables.mem_of_get?_eq_some hget)

/-- The step lemma: an operation leads from a state that can be stored to another. -/
theorem StorableState.after (h : StorableState runtime schema state) (table : ReplicaTableContract)
    (hnormal : operation.Normal runtime schema) :
    StorableState runtime schema (state.after runtime table operation) := by
  refine ⟨h.schemaHash, valid_toJson_iff.mpr fun entry hentry => ?_⟩
  cases (state.tables.mem_entries_set _ _).mp hentry with
  | inr hold => exact valid_toJson_iff.mp h.valid entry hold.1
  | inl hnew =>
      have hrows := valid_rows h.valid operation.tableName
      rw [hnew]
      cases operation with
      | putRow name row =>
          exact valid_set (fun row : RowRecord ν => .object row.entries) hrows _ hnormal.putRow_accepts.valid
      | deleteRow name key =>
          cases hrows with
          | object _ hvalues =>
              rw [List.forall_mem_map] at hvalues
              refine .object ?_ (List.forall_mem_map.mpr fun row hrow => hvalues row (List.mem_of_mem_filter hrow))
              rw [List.map_map]
              exact ((state.rows name).erase _).nodupKeys

theorem storableState_initial {initial : ReplicaDatabaseState (RowRecord ν)}
    (hinitial : createInitialDatabaseState schema = .ok initial) : StorableState runtime schema initial := by
  refine ⟨(rowState_initial hinitial : RowState runtime schema initial).schemaHash,
    valid_toJson_iff.mpr fun table htable => ?_⟩
  have hrows := rows_initial hinitial table.1
  rw [ReplicaDatabaseState.rows, initial.tables.get?_eq_some_iff.mpr htable, Option.getD_some] at hrows
  rw [hrows]
  exact .object List.nodup_nil (by simp [InsertionMap.empty])

end Operations

end States

/-! ### The authority -/

section Authority

variable (runtime : RowRuntime ν) (schema : ReplicaSchemaContract)

/-- What all row authorities on one stream share. -/
def rowStream (streamId : String) (initial : ReplicaDatabaseState (RowRecord ν))
    (interpreter : LogInterpreter (ReplicaDatabaseState (RowRecord ν)) (RowOperation ν) (RowOperation ν) (JsonValue ν)
      RowError) :
    D1StreamSettings (ReplicaDatabaseState (RowRecord ν)) (RowOperation ν) (RowOperation ν) (JsonValue ν)
      (WireException ν RowError) where
  streamId := streamId
  schemaHash := ofUtf16Units schema.schemaHash
  initialState := initial
  interpreter := interpreter.mapError .applicationError
  stateCodec := (createReplicaDatabaseStateCodec runtime.toNumberFormat schema).stored runtime.toNumberFormat
  operationCodec := (createRowOperationCodec runtime schema).stored runtime.toNumberFormat
  rejectionCodec := (jsonValueCodec runtime.toNumberFormat).stored runtime.toNumberFormat

/-- A row authority on the stream. -/
def rowSettings (streamId : String) (initial : ReplicaDatabaseState (RowRecord ν))
    (interpreter : LogInterpreter (ReplicaDatabaseState (RowRecord ν)) (RowOperation ν) (RowOperation ν) (JsonValue ν)
      RowError) (limits : ProtocolLimits) (maximumCommitRetries : Int) : D1RowSettings ν where
  toD1StreamSettings := rowStream runtime schema streamId initial interpreter
  limits := limits
  maximumCommitRetries := maximumCommitRetries

variable {runtime schema} {streamId : String} {initial : ReplicaDatabaseState (RowRecord ν)}
  {interpreter : LogInterpreter (ReplicaDatabaseState (RowRecord ν)) (RowOperation ν) (RowOperation ν) (JsonValue ν)
    RowError}
  (hinterpreter : createRowLogInterpreter runtime schema {
    rejectInvalidOperation := none
    ofRowRejection := RowRejection.toJson } = .ok interpreter)

include hinterpreter

theorem createD1RowSyncAuthority_eq (hinitial : createInitialDatabaseState schema = .ok initial)
    {overrides : ProtocolLimitOverrides} {limits : ProtocolLimits}
    (hlimits : (resolveProtocolLimits overrides : Result (WireException ν RowError) ProtocolLimits) = .ok limits)
    (maximumCommitRetries : Option Int) :
    createD1RowSyncAuthority runtime { streamId, schema, limits := overrides, maximumCommitRetries } =
      .ok (rowSettings runtime schema streamId initial interpreter limits (maximumCommitRetries.getD 4)) := by
  rw [createD1RowSyncAuthority, hinitial, hinterpreter]
  simp only [createD1LogSyncAuthority, hlimits, ok_bind]
  rfl

theorem decide_of_normal {state : ReplicaDatabaseState (RowRecord ν)} {proposal : ProposedOperation (RowOperation ν)}
    (hnormal : proposal.intent.Normal runtime schema) :
    interpreter.decide state proposal = .ok (.accepted proposal.intent) := by
  obtain ⟨-, hcreated⟩ := bind_unit_eq_ok.mp hinterpreter
  rw [← Except.ok.inj hcreated]
  dsimp only
  rw [normalizeRowOperation_toJson hnormal]

theorem apply_eq_applyRowOperation : interpreter.apply = applyRowOperation runtime schema := by
  obtain ⟨-, hcreated⟩ := bind_unit_eq_ok.mp hinterpreter
  rw [← Except.ok.inj hcreated]

variable (hkeys : schema.NonNullKeys)

include hkeys

variable (streamId initial) in
/-- The interpreter accepts normal operations as they stand, and leads from states that are equal up to the
order of their keys to such states. -/
theorem acceptsAll_of_normal {state state' : ReplicaDatabaseState (RowRecord ν)}
    {proposals : List (ProposedOperation (RowOperation ν))}
    (hnormal : ∀ proposal ∈ proposals, proposal.intent.Normal runtime schema)
    (hstate : StorableState runtime schema state) (hstate' : StorableState runtime schema state')
    (hsame : state.sorted = state'.sorted) :
    ∃ next next', (proposals.map ProposedOperation.intent).foldlM (applyRowOperation runtime schema) state = .ok next ∧
      AcceptsAll (rowStream runtime schema streamId initial interpreter).interpreter state proposals next ∧
      AcceptsAll (rowStream runtime schema streamId initial interpreter).interpreter state' proposals next' ∧
      StorableState runtime schema next ∧ StorableState runtime schema next' ∧ next.sorted = next'.sorted := by
  induction proposals generalizing state state' with
  | nil => exact ⟨state, state', rfl, .nil state, .nil state', hstate, hstate', hsame⟩
  | cons proposal proposals ih =>
      rw [List.forall_mem_cons] at hnormal
      obtain ⟨table, htable⟩ := hnormal.1.exists_table
      have happly := hnormal.1.apply_eq hkeys htable hstate.schemaHash
      have happly' := hnormal.1.apply_eq hkeys htable hstate'.schemaHash
      have hdecide : ∀ state,
          (rowStream runtime schema streamId initial interpreter).interpreter.decide state proposal =
          .ok (.accepted proposal.intent) :=
        fun state => mapError_eq_ok.mpr (decide_of_normal hinterpreter hnormal.1)
      obtain ⟨next, next', hfold, haccepts, haccepts', hnext, hnext', hnextSame⟩ :=
        ih hnormal.2 (hstate.after table hnormal.1) (hstate'.after table hnormal.1) (sorted_after hsame)
      refine ⟨next, next', ?_, .cons (hdecide state) ?_ haccepts, .cons (hdecide state') ?_ haccepts', hnext, hnext',
        hnextSame⟩
      · rw [List.map_cons, List.foldlM_cons, happly]
        exact hfold
      · exact mapError_eq_ok.mpr ((congrFun (congrFun (apply_eq_applyRowOperation hinterpreter) _) _).trans happly)
      · exact mapError_eq_ok.mpr ((congrFun (congrFun (apply_eq_applyRowOperation hinterpreter) _) _).trans happly')

omit hinterpreter hkeys

variable (runtime schema streamId initial interpreter)

/-- The tables of a stream that has taken in proposals, all of them as they stood. -/
def HoldsAccepted (opened : Bool) (done : List (ProposedOperation (RowOperation ν))) (tables : D1Tables) : Prop :=
  ∃ w : LoneWorld (rowStream runtime schema streamId initial interpreter), w.Holds tables ∧ w.opened = opened ∧
    w.ledger = acceptedRecords 0 done ∧
    (done.map ProposedOperation.intent).foldlM (applyRowOperation runtime schema) initial = .ok w.state ∧
    StorableState runtime schema w.state

variable {runtime schema streamId initial interpreter}

include hinterpreter hkeys

/-- A batch of new normal operations is taken in. -/
theorem HoldsAccepted.synchronize {opened : Bool} {done proposals : List (ProposedOperation (RowOperation ν))}
    {tables : D1Tables} (h : HoldsAccepted runtime schema streamId initial interpreter opened done tables)
    (hlawful : runtime.toNumberFormat.Lawful) (hhash : schema.schemaHash ≠ [])
    (hbatch : ValidBatch (done ++ proposals))
    (hnormal : ∀ proposal ∈ done ++ proposals, proposal.intent.Normal runtime schema)
    (hsafe : ((done ++ proposals).length : Int) ≤ maxSafeInteger) {limits : ProtocolLimits} (hlimits : limits.Resolved)
    {retries : Int} (hretries : 0 ≤ retries) {maximumEntries : Int} (hentries : 1 ≤ maximumEntries)
    (hentriesSafe : maximumEntries ≤ maxSafeInteger)
    (hwithin : (proposals.length : Int) ≤ limits.maximumProposalsPerRequest) :
    ∃ tables' response, HoldsAccepted runtime schema streamId initial interpreter true (done ++ proposals) tables' ∧
      response.headSequence = ((done.length + proposals.length : Nat) : Int) ∧
      response.decisions = (acceptedRecords done.length proposals).map StoredProposalDecision.decision ∧
      ((rowSettings runtime schema streamId initial interpreter limits retries).synchronize
        ⟨done.length, maximumEntries, proposals⟩).run D1Tables.answer tables = (.ok response, tables') := by
  obtain ⟨w, hholds, -, hledger, hfold, hstate⟩ := h
  have hlength : w.log.length = done.length := by
    rw [Books.log, hledger]
    exact length_canonicalLog_acceptedRecords 0
  have hdistinct := List.pairwise_append.mp hbatch.distinct
  rw [List.length_append] at hsafe
  have hnew : ∀ proposal ∈ proposals, Undecided w.ledger proposal.toOperationIdentity := by
    intro proposal hproposal record hrecord
    rw [hledger] at hrecord
    obtain ⟨earlier, hearlier, hidentity⟩ := identity_of_mem_acceptedRecords 0 hrecord
    rw [hidentity]
    exact hdistinct.2.2 earlier hearlier proposal hproposal
  have hstored : ∀ entry ∈ w.log, entry.operation.Normal runtime schema := by
    intro entry hentry
    rw [Books.log, hledger] at hentry
    obtain ⟨earlier, hearlier, hoperation⟩ := operation_of_mem_canonicalLog_acceptedRecords 0 hentry
    rw [hoperation]
    exact hnormal earlier (List.mem_append_left _ hearlier)
  have hnormal' : ∀ proposal ∈ proposals, proposal.intent.Normal runtime schema :=
    fun proposal hproposal => hnormal proposal (List.mem_append_right _ hproposal)
  obtain ⟨next, next', hnext, haccepts, haccepts', hstorable, hstorable', hsame⟩ :=
    acceptsAll_of_normal streamId initial hinterpreter hkeys hnormal' hstate hstate.sorted w.state.sorted_sorted.symm
  have hvalid : ValidRequest ⟨w.log.length, maximumEntries, proposals⟩ limits := by
    refine ⟨Int.natCast_nonneg _, ?_, hentries, hentriesSafe, hwithin, ⟨?_, ?_⟩⟩
    · show (w.log.length : Int) ≤ maxSafeInteger
      omega
    · exact fun proposal hproposal => hbatch.valid proposal (List.mem_append_right _ hproposal)
    · exact (List.pairwise_append.mp hbatch.ordered).2.1
  have hread : (rowSettings runtime schema streamId initial interpreter limits retries).stateCodec.ReadsAs w.state
      w.state.sorted := hstate.readsAs hlawful
  have htext : (rowSettings runtime schema streamId initial interpreter limits retries).stateCodec.serializeJson next' =
      (rowSettings runtime schema streamId initial interpreter limits retries).stateCodec.serializeJson next :=
    hstorable'.serializeJson_congr hstorable hsame.symm
  have hschema : (rowSettings runtime schema streamId initial interpreter limits retries).schemaHash.length ≠ 0 :=
    fun hempty => hhash ((length_ofUtf16Units _).mp hempty)
  have hoperation : ∀ operation : RowOperation ν, operation.Normal runtime schema →
      (rowSettings runtime schema streamId initial interpreter limits retries).operationCodec.ReadsAs
        operation operation :=
    fun operation hoperation => hoperation.readsAs hlawful
  obtain ⟨w', tables', response, hholds', hopened, hledger', hstate', hhead, hdecisions, hrun⟩ :=
    synchronize_accepts (w := w) hlimits hschema hholds hretries hread haccepts haccepts' htext hnew
      (fun entry hentry => hoperation _ (hstored entry hentry))
      (fun proposal hproposal => hoperation _ (hnormal' proposal hproposal)) (by omega) hvalid
  refine ⟨tables', response, ⟨w', hholds', hopened, ?_, ?_, hstate' ▸ hstorable⟩, ?_, ?_, ?_⟩
  · rw [hledger', hledger, hlength, acceptedRecords_append, Nat.zero_add]
  · rw [List.map_append, List.foldlM_append, hfold, hstate']
    exact hnext
  · rw [← hlength]
    exact hhead
  · rw [← hlength]
    exact hdecisions
  · rw [← hlength]
    exact hrun

end Authority

end SyncEngine
