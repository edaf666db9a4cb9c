import SyncEngine.Lib.Decimal
import SyncEngine.Lib.Utf16
import SyncEngine.Proof.Rows
import SyncEngine.Proof.Wire

/-!
# The codec of row operations

A normal row operation is a JSON value whose rows and keys hold nothing that has keys of its own. Sorting
the keys rearranges its fields, which normalization does not see.
-/

namespace SyncEngine

open JavaScript JavaScript.JsonValue Throwing

variable {ν ε Intent Operation Rejection : Type} {runtime : RowRuntime ν} {schema : ReplicaSchemaContract}

/-- A value that a column takes has no keys to sort. -/
theorem sorted_of_accepts {column : ReplicaColumnContract} {value : JsonValue ν} (h : column.Accepts runtime value) :
    value.sorted = value := by
  cases value with
  | null | number | string => rfl
  | array items =>
      rw [sorted_array]
      refine congrArg array ((List.map_congr_left fun item hitem => ?_).trans (List.map_id items))
      obtain ⟨byte, rfl, -⟩ := h.2 item hitem
      rfl
  | boolean | object => exact h.elim

/-- The values of a row or key are taken by columns. -/
def RecordAccepts (runtime : RowRuntime ν) (record : JsRecord (JsonValue ν)) : Prop :=
  ∀ entry ∈ record.entries, ∃ column : ReplicaColumnContract, column.Accepts runtime entry.2

theorem RecordAccepts.valid {record : JsRecord (JsonValue ν)} (h : RecordAccepts runtime record) :
    (JsonValue.object record.entries).Valid runtime.toNumberFormat := by
  refine .object record.nodupKeys fun entry hentry => ?_
  obtain ⟨column, haccepts⟩ := h entry hentry
  exact valid_of_accepts haccepts

theorem RecordAccepts.sorted_eq {record : JsRecord (JsonValue ν)} (h : RecordAccepts runtime record) :
    ∃ fields, (JsonValue.object record.entries).sorted = .object fields ∧ fields.Perm record.entries := by
  refine ⟨_, sorted_object _, ?_⟩
  have hsame : record.entries.map (Prod.map id sorted) = record.entries := by
    refine (List.map_congr_left fun entry hentry => ?_).trans (List.map_id _)
    obtain ⟨column, haccepts⟩ := h entry hentry
    exact Prod.ext rfl (sorted_of_accepts haccepts)
  rw [hsame]
  exact sortByKey_perm _

theorem RowOperation.Normal.putRow_accepts {table : Text} {row : RowRecord ν}
    (h : (RowOperation.putRow table row).Normal runtime schema) : RecordAccepts runtime row := by
  obtain ⟨contract, -, -, hall⟩ := h
  intro entry hentry
  obtain ⟨column, -, -, haccepts⟩ := exists_of_forall₂ hall.flip hentry
  exact ⟨column.2, haccepts⟩

theorem RowOperation.Normal.deleteRow_accepts {table : Text} {key : PrimaryKeyRecord ν}
    (h : (RowOperation.deleteRow table key).Normal runtime schema) : RecordAccepts runtime key := by
  obtain ⟨contract, -, -, hall⟩ := h
  intro entry hentry
  obtain ⟨name, -, -, column, -, -, haccepts⟩ := exists_of_forall₂ hall.flip hentry
  exact ⟨column, haccepts⟩

theorem RowOperation.Normal.valid_toJson {operation : RowOperation ν} (h : operation.Normal runtime schema) :
    operation.toJson.Valid runtime.toNumberFormat := by
  cases operation with
  | putRow table row =>
      refine .object (by simp only [List.map_cons, List.map_nil]; decide) ?_
      simp only [List.forall_mem_cons]
      exact ⟨.string _, .string _, h.putRow_accepts.valid, by simp⟩
  | deleteRow table key =>
      refine .object (by simp only [List.map_cons, List.map_nil]; decide) ?_
      simp only [List.forall_mem_cons]
      exact ⟨.string _, .string _, h.deleteRow_accepts.valid, by simp⟩

/-- With its keys sorted, a normal operation is still normalized to itself. -/
theorem normalizeRowOperation_sorted {operation : RowOperation ν} (h : operation.Normal runtime schema) :
    normalizeRowOperation runtime schema operation.toJson.sorted = .ok operation := by
  have hvalid := h.valid_toJson
  cases operation with
  | putRow table row =>
      obtain ⟨columns, hcolumns, hperm⟩ := h.putRow_accepts.sorted_eq
      rw [RowOperation.toJson] at hvalid ⊢
      cases hvalid with
      | object hkeys _ =>
          rw [sorted_object]
          refine normalizeRowOperation_of_writes h ⟨?_, ?_, columns, ?_, hperm⟩
          · exact (ownField_sorted hkeys _).trans rfl
          · exact (ownField_sorted hkeys _).trans rfl
          · rw [ownField_sorted hkeys, ← hcolumns]
            rfl
  | deleteRow table key =>
      obtain ⟨columns, hcolumns, hperm⟩ := h.deleteRow_accepts.sorted_eq
      rw [RowOperation.toJson] at hvalid ⊢
      cases hvalid with
      | object hkeys _ =>
          rw [sorted_object]
          refine normalizeRowOperation_of_writes h ⟨?_, ?_, columns, ?_, hperm⟩
          · exact (ownField_sorted hkeys _).trans rfl
          · exact (ownField_sorted hkeys _).trans rfl
          · rw [ownField_sorted hkeys, ← hcolumns]
            rfl

/-- The row codec can send every normal operation. -/
theorem createRowOperationCodec_roundTrips (hlawful : runtime.toNumberFormat.Lawful) {operation : RowOperation ν}
    (h : operation.Normal runtime schema) :
    (createRowOperationCodec runtime schema).RoundTrips runtime.toNumberFormat operation := by
  refine ⟨operation.toJson, operation.toJson.sorted, ?_, h.valid_toJson, ?_, ?_⟩
  · exact bind_eq_ok.mpr ⟨operation, mapError_eq_ok.mpr (normalizeRowOperation_toJson h), rfl⟩
  · exact toJsonValue_of_valid hlawful h.valid_toJson
  · exact mapError_eq_ok.mpr (normalizeRowOperation_sorted h)

/-- The wire codecs are inverse to each other and agree with the validators. What an encoder accepts survives
its text; what a decoder accepts is valid, can be encoded again, and is decoded again as it was. Row
operations that have been normalized have the law of payloads, where no primary key has the name of an
inherited member. -/
theorem wire_codecs {runtime : WireRuntime ν} (hlawful : runtime.Lawful) (limitOverrides : ProtocolLimitOverrides)
    {intentCodec : Wire.JsonCodec ν ε Intent} {operationCodec : Wire.JsonCodec ν ε Operation}
    {rejectionCodec : Wire.JsonCodec ν ε Rejection}
    (hintent : ∀ intent, intentCodec.RoundTrips runtime.toNumberFormat intent)
    (hoperation : ∀ operation, operationCodec.RoundTrips runtime.toNumberFormat operation)
    (hrejection : ∀ rejection, rejectionCodec.RoundTrips runtime.toNumberFormat rejection) :
    (∀ envelope json, encodeSyncRequestEnvelope runtime envelope intentCodec limitOverrides = .ok json →
      ∃ read, parse runtime.toNumberFormat (json.stringify runtime.toNumberFormat) = some read ∧
        decodeSyncRequestEnvelope runtime (some read) intentCodec limitOverrides = .ok envelope) ∧
    (∀ envelope json,
      encodeSyncResponseEnvelope runtime envelope operationCodec rejectionCodec limitOverrides = .ok json →
      ∃ read, parse runtime.toNumberFormat (json.stringify runtime.toNumberFormat) = some read ∧
        decodeSyncResponseEnvelope runtime (some read) operationCodec rejectionCodec limitOverrides =
          .ok envelope) ∧
    (∀ value envelope, decodeSyncRequestEnvelope runtime (some value) intentCodec limitOverrides = .ok envelope →
      ∃ limits, (resolveProtocolLimits limitOverrides : Result ε ProtocolLimits) = .ok limits ∧
        (assertSyncRequest envelope.request (some limits) : Result ε Unit) = .ok () ∧
        ∃ json, encodeSyncRequestEnvelope runtime envelope intentCodec limitOverrides = .ok json ∧
          decodeSyncRequestEnvelope runtime (some json) intentCodec limitOverrides = .ok envelope) ∧
    (∀ value envelope,
      decodeSyncResponseEnvelope runtime (some value) operationCodec rejectionCodec limitOverrides = .ok envelope →
      ∃ limits, (resolveProtocolLimits limitOverrides : Result ε ProtocolLimits) = .ok limits ∧
        (assertSyncResponse envelope.response (some limits) : Result ε Unit) = .ok () ∧
        ∃ json, encodeSyncResponseEnvelope runtime envelope operationCodec rejectionCodec limitOverrides = .ok json ∧
          decodeSyncResponseEnvelope runtime (some json) operationCodec rejectionCodec limitOverrides =
            .ok envelope) ∧
    ∀ (rows : RowRuntime ν), rows.toNumberFormat = runtime.toNumberFormat → ∀ (schema : ReplicaSchemaContract)
      (numbers : NumberFormat ν) (value : JsonValue ν) (operation : RowOperation ν),
      (∀ table ∈ schema.tables.entries, ∀ name ∈ table.2.primaryKey, name ∉ objectPrototypeMembers) →
      value.Valid numbers → normalizeRowOperation rows schema value = .ok operation →
        (createRowOperationCodec rows schema).RoundTrips runtime.toNumberFormat operation := by
  have hdecisions : ∀ (response : SyncResponse Operation Rejection), ∀ decision ∈ response.decisions,
      DecisionRoundTrips runtime.toNumberFormat operationCodec rejectionCodec decision := by
    intro response decision _
    cases decision with
    | accepted operationId sequence operation => exact hoperation operation
    | rejected operationId reason => exact hrejection reason
  have hrequest : ∀ (limits : ProtocolLimits) (envelope : SyncRequestEnvelope Intent),
      (resolveProtocolLimits limitOverrides : Result ε ProtocolLimits) = .ok limits → envelope.Valid limits → _ :=
    fun limits envelope hlimits hvalid =>
      encodeSyncRequestEnvelope_returns hlawful hlimits hvalid fun proposal _ => hintent proposal.intent
  have hresponse : ∀ (limits : ProtocolLimits) (envelope : SyncResponseEnvelope Operation Rejection),
      (resolveProtocolLimits limitOverrides : Result ε ProtocolLimits) = .ok limits → envelope.Valid limits → _ :=
    fun limits envelope hlimits hvalid =>
      encodeSyncResponseEnvelope_returns hlawful hlimits hvalid (fun entry _ => hoperation entry.operation)
        (hdecisions envelope.response)
  refine ⟨?_, ?_, ?_, ?_, ?_⟩
  · intro envelope json h
    obtain ⟨limits, hlimits, hvalid⟩ := SyncRequestEnvelope.valid_of_encode h
    obtain ⟨tree, hencode, htree, hdecode⟩ := hrequest limits envelope hlimits hvalid
    obtain rfl := Except.ok.inj (h.symm.trans hencode)
    exact ⟨tree.sorted, parse_stringify_sorted hlawful.format htree, hdecode⟩
  · intro envelope json h
    obtain ⟨limits, hlimits, hvalid⟩ := SyncResponseEnvelope.valid_of_encode h
    obtain ⟨tree, hencode, htree, hdecode⟩ := hresponse limits envelope hlimits hvalid
    obtain rfl := Except.ok.inj (h.symm.trans hencode)
    exact ⟨tree.sorted, parse_stringify_sorted hlawful.format htree, hdecode⟩
  · intro value envelope h
    obtain ⟨limits, hlimits, hvalid⟩ := SyncRequestEnvelope.valid_of_decode hlawful h
    obtain ⟨tree, hencode, -, hdecode⟩ := hrequest limits envelope hlimits hvalid
    exact ⟨limits, hlimits, (assertSyncRequest_eq_ok _ _ _).mpr hvalid.request, tree.sorted, hencode, hdecode⟩
  · intro value envelope h
    obtain ⟨limits, hlimits, hvalid⟩ := SyncResponseEnvelope.valid_of_decode hlawful h
    obtain ⟨tree, hencode, -, hdecode⟩ := hresponse limits envelope hlimits hvalid
    exact ⟨limits, hlimits, (assertSyncResponse_eq_ok _ _ _).mpr hvalid.response, tree.sorted, hencode, hdecode⟩
  · intro rows hrows schema numbers value operation hplain hvalue h
    rw [← hrows]
    exact createRowOperationCodec_roundTrips (hrows ▸ hlawful.format)
      (normalizeRowOperation_normal_of_valid hvalue hplain h)

/-- Integers as numbers, and strings as their UTF-16 units. -/
def integerRuntime : WireRuntime Int where
  toNumberFormat := integerFormat
  ofInteger := id
  toInteger := id
  units := utf16Units
  ofUnits := ofUtf16Units

theorem integerRuntime_lawful : integerRuntime.Lawful where
  format := integerFormat_lawful
  isFinite_ofInteger _ _ := rfl
  toInteger_ofInteger _ _ := rfl
  ofInteger_toInteger _ _ := rfl
  ofUnits_units := ofUtf16Units_utf16Units
  ofUnits_length := length_ofUtf16Units

def integerRows : RowRuntime Int where
  toNumberFormat := integerFormat
  isByte number := 0 ≤ number ∧ number ≤ 255
  isFinite_of_isByte _ _ := rfl
  typeErrorMessage _ := ascii "Cannot read properties of undefined"

/-- Deltas as numbers. -/
def deltaCodec : Wire.JsonCodec Int Empty Int where
  encode delta := .ok (some (.number delta))
  decode value :=
    match value with
    | some (.number delta) => .ok delta
    | _ => .error (.wireDecodeError "$" "must be a number" none)

def reasonCodec : Wire.JsonCodec Int Empty Text where
  encode reason := .ok (some (.string reason))
  decode value :=
    match value with
    | some (.string reason) => .ok reason
    | _ => .error (.wireDecodeError "$" "must be a string" none)

theorem deltaCodec_roundTrips (delta : Int) : deltaCodec.RoundTrips integerFormat delta :=
  ⟨.number delta, .number delta, rfl, .number rfl, toJsonValue_of_valid integerFormat_lawful (.number rfl), rfl⟩

theorem reasonCodec_roundTrips (reason : Text) : reasonCodec.RoundTrips integerFormat reason :=
  ⟨.string reason, .string reason, rfl, .string reason, toJsonValue_of_valid integerFormat_lawful (.string reason), rfl⟩

/-- A push of one delta as JSON, with a key that no decoder reads. -/
def pushJson : JsonValue Int :=
  .object [
    (ascii "streamId", .string (ascii "notes/user-1")),
    (ascii "protocolVersion", .number 1),
    (ascii "request", .object [
      (ascii "baseSequence", .number 4),
      (ascii "proposals", .array [.object [
        (ascii "operationId", .string (ascii "op-5")),
        (ascii "clientId", .string (ascii "browser-1")),
        (ascii "comment", .null),
        (ascii "clientSequence", .number 5),
        (ascii "intentHash", .string (ascii "sha256:abc")),
        (ascii "intent", .number 2)]]),
      (ascii "maximumEntries", .number 32)])]

def pushEnvelope : SyncRequestEnvelope Int where
  protocolVersion := 1
  streamId := "notes/user-1"
  request := {
    baseSequence := 4
    maximumEntries := 32
    proposals := [{
      operationId := "op-5"
      clientId := "browser-1"
      clientSequence := 5
      intentHash := "sha256:abc"
      intent := 2 }] }

theorem wire_codecs_push :
    decodeSyncRequestEnvelope integerRuntime (some pushJson) deltaCodec {} = .ok pushEnvelope ∧
    ∃ json read, encodeSyncRequestEnvelope integerRuntime pushEnvelope deltaCodec {} = .ok json ∧
      parse integerFormat (json.stringify integerFormat) = some read ∧
      decodeSyncRequestEnvelope integerRuntime (some read) deltaCodec {} = .ok pushEnvelope := by
  have hdecode : decodeSyncRequestEnvelope integerRuntime (some pushJson) deltaCodec {} = .ok pushEnvelope := rfl
  obtain ⟨hencoded, -, hdecoded, -⟩ :=
    wire_codecs integerRuntime_lawful {} deltaCodec_roundTrips deltaCodec_roundTrips reasonCodec_roundTrips
  obtain ⟨limits, -, -, json, hjson, -⟩ := hdecoded pushJson pushEnvelope hdecode
  obtain ⟨read, hread, hsame⟩ := hencoded pushEnvelope json hjson
  exact ⟨hdecode, json, read, hjson, hread, hsame⟩

end SyncEngine
