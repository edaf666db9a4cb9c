import SyncEngine.Model.Wire
import SyncEngine.Proof.Fingerprint
import SyncEngine.Proof.Validation

/-!
# The wire codecs are inverse to each other

What an encoder produces is a JSON tree with sorted keys, which survives being written as a text. For every
record of the protocol, reading the record as it was written gives it back, and so for lists of records and
for whole envelopes. A decoder checks what the encoder checks, so that what it accepts can be encoded again.
-/

namespace SyncEngine

open JavaScript JavaScript.JsonValue Throwing

variable {ν ε Intent Operation Rejection Value : Type}

/-- The runtime keeps safe integers, the units of strings, and emptiness. -/
structure WireRuntime.Lawful (runtime : WireRuntime ν) : Prop where
  format : runtime.toNumberFormat.Lawful
  isFinite_ofInteger : ∀ value, IsSafeInteger value → runtime.isFinite (runtime.ofInteger value)
  toInteger_ofInteger : ∀ value, IsSafeInteger value → runtime.toInteger (runtime.ofInteger value) = value
  ofInteger_toInteger : ∀ number, IsSafeInteger (runtime.toInteger number) →
    runtime.ofInteger (runtime.toInteger number) = number
  ofUnits_units : ∀ value, runtime.ofUnits (runtime.units value) = value
  ofUnits_length : ∀ text, (runtime.ofUnits text).length = 0 ↔ text = []

/-- A codec encodes a value as a JSON value, from which it decodes that value. -/
def Wire.JsonCodec.RoundTrips (format : NumberFormat ν) (codec : Wire.JsonCodec ν ε Value) (value : Value) : Prop :=
  ∃ encoded json, codec.encode value = .ok (some encoded) ∧ encoded.Valid format ∧
    (toJsonValue format (some encoded) : Except (WireException ν ε) (JsonValue ν)) = .ok json ∧
    codec.decode (some json) = .ok value

/-- A codec encodes a value as a JSON value. -/
def Wire.JsonCodec.Encodes (format : NumberFormat ν) (codec : Wire.JsonCodec ν ε Value) (value : Value) : Prop :=
  ∃ encoded, codec.encode value = .ok (some encoded) ∧ encoded.Valid format

theorem Wire.JsonCodec.RoundTrips.encodes {format : NumberFormat ν} {codec : Wire.JsonCodec ν ε Value}
    {value : Value} (h : codec.RoundTrips format value) : codec.Encodes format value := by
  obtain ⟨encoded, -, hencode, hvalid, -⟩ := h
  exact ⟨encoded, hencode, hvalid⟩

/-! ### Payloads -/

section Payloads

variable {format : NumberFormat ν}

theorem canonicalizeUnknown_of_valid {json : JsonValue ν} (hjson : json.Valid format) :
    (canonicalizeUnknown format (some json) : Except (WireException ν ε) Text) = .ok (json.print format) := by
  rw [canonicalizeUnknown, mapError_eq_ok, canonicalizeJsonTree, canonicalizeTree_of_valid hjson]

theorem toJsonValue_of_valid (hlawful : format.Lawful) {json : JsonValue ν} (hjson : json.Valid format) :
    (toJsonValue format (some json) : Except (WireException ν ε) (JsonValue ν)) = .ok json.sorted := by
  rw [toJsonValue, canonicalizeUnknown_of_valid hjson, ok_bind, parse_print hlawful hjson]
  rfl

/-- A computation that returns a JSON value. -/
def Writes (format : NumberFormat ν) (encoded : Except (WireException ν ε) (JsonValue ν)) : Prop :=
  ∃ json, encoded = .ok json ∧ json.Valid format

theorem encodePayload_writes (hlawful : format.Lawful) {codec : Wire.JsonCodec ν ε Value} {value : Value}
    (hencodes : codec.Encodes format value) (path : String) :
    Writes format (encodePayload format codec value path) := by
  obtain ⟨encoded, hencode, hvalid⟩ := hencodes
  refine ⟨encoded.sorted, ?_, valid_sorted hvalid⟩
  rw [encodePayload, mapError_eq_ok, hencode, ok_bind, toJsonValue_of_valid hlawful hvalid]

theorem mapM_writes {α : Type} {encode : α → Except (WireException ν ε) (JsonValue ν)} {items : List α}
    (h : ∀ item ∈ items, Writes format (encode item)) :
    ∃ jsons, items.mapM encode = .ok jsons ∧ ∀ json ∈ jsons, json.Valid format := by
  induction items with
  | nil => exact ⟨[], rfl, by simp⟩
  | cons item items ih =>
      rw [List.forall_mem_cons] at h
      obtain ⟨json, hencode, hvalid⟩ := h.1
      obtain ⟨jsons, hencodes, hvalids⟩ := ih h.2
      refine ⟨json :: jsons, ?_, List.forall_mem_cons.mpr ⟨hvalid, hvalids⟩⟩
      rw [List.mapM_cons, hencode, ok_bind, hencodes]
      rfl

/-- A value is written as a JSON value that is read, with its keys sorted, as the value. -/
def Transmits (format : NumberFormat ν) (encoded : Except (WireException ν ε) (JsonValue ν))
    (decode : Unknown ν → String → Except (WireException ν ε) Value) (value : Value) : Prop :=
  ∃ json, encoded = .ok json ∧ json.Valid format ∧ ∀ path, decode (some json.sorted) path = .ok value

theorem encodePayload_transmits (hlawful : format.Lawful) {codec : Wire.JsonCodec ν ε Value} {value : Value}
    (hround : codec.RoundTrips format value) (path : String) :
    Transmits format (encodePayload format codec value path) (decodePayload format codec) value := by
  obtain ⟨encoded, json, hencode, hvalid, hjson, hdecode⟩ := hround
  have hsorted := toJsonValue_of_valid (ε := ε) hlawful hvalid
  obtain rfl := Except.ok.inj (hjson.symm.trans hsorted)
  refine ⟨encoded.sorted, ?_, valid_sorted hvalid, fun path => ?_⟩
  · rw [encodePayload, mapError_eq_ok, hencode, ok_bind, hsorted]
  · rw [decodePayload, mapError_eq_ok, sorted_sorted, canonicalizeUnknown_of_valid (valid_sorted hvalid), ok_bind,
      hdecode]

/-- Lists are written and read item by item. -/
theorem mapM_transmits {α : Type} {encode : α → Except (WireException ν ε) (JsonValue ν)}
    {decode : Unknown ν → String → Except (WireException ν ε) α} {items : List α}
    (h : ∀ item ∈ items, Transmits format (encode item) decode item) :
    ∃ jsons, items.mapM encode = .ok jsons ∧ (∀ json ∈ jsons, json.Valid format) ∧ jsons.length = items.length ∧
      ∀ (path : Nat → String) (start : Nat),
        ((jsons.map sorted).zipIdx start).mapM (fun json => decode (some json.1) (path json.2)) = .ok items := by
  induction items with
  | nil => exact ⟨[], rfl, by simp, rfl, fun _ _ => rfl⟩
  | cons item items ih =>
      rw [List.forall_mem_cons] at h
      obtain ⟨json, hencode, hvalid, hdecode⟩ := h.1
      obtain ⟨jsons, hencodes, hvalids, hlength, hdecodes⟩ := ih h.2
      refine ⟨json :: jsons, ?_, List.forall_mem_cons.mpr ⟨hvalid, hvalids⟩, congrArg Nat.succ hlength, ?_⟩
      · rw [List.mapM_cons, hencode, ok_bind, hencodes]
        rfl
      · intro path start
        rw [List.map_cons, List.zipIdx_cons, List.mapM_cons, hdecode, ok_bind, hdecodes]
        rfl

end Payloads

/-! ### Records -/

section Records

variable {runtime : WireRuntime ν}

theorem isSafeInteger_of_nonneg {value : Int} (hnonneg : 0 ≤ value) (hsafe : value ≤ maxSafeInteger) :
    IsSafeInteger value :=
  ⟨by rw [maxSafeInteger]; omega, hsafe⟩

theorem isSafeInteger_of_positive {value : Int} (hpositive : 1 ≤ value) (hsafe : value ≤ maxSafeInteger) :
    IsSafeInteger value :=
  isSafeInteger_of_nonneg (by omega) hsafe

theorem readRecord_sorted {fields : List (Text × JsonValue ν)}
    (hvalid : (JsonValue.object fields).Valid runtime.toNumberFormat) (path : String) :
    ∃ record, (Wire.readRecord (some (JsonValue.object fields).sorted) path :
        Except (WireException ν ε) (List (Text × JsonValue ν))) = .ok record ∧
      ∀ key, ownField record key = (ownField fields key).map sorted := by
  cases hvalid with
  | object hkeys _ => exact ⟨_, by rw [sorted_object]; rfl, ownField_sorted hkeys⟩

/-- Objects are written and read field by field. -/
theorem transmits_object {fields : List (Text × JsonValue ν)} {encoded : Except (WireException ν ε) (JsonValue ν)}
    {decode : Unknown ν → String → Except (WireException ν ε) Value} {value : Value}
    (hencoded : encoded = .ok (.object fields))
    (hvalid : (JsonValue.object fields).Valid runtime.toNumberFormat)
    (hdecode : ∀ path record, Wire.readRecord (some (JsonValue.object fields).sorted) path =
        (.ok record : Except (WireException ν ε) (List (Text × JsonValue ν))) →
      (∀ key, ownField record key = (ownField fields key).map sorted) →
        decode (some (JsonValue.object fields).sorted) path = .ok value) :
    Transmits runtime.toNumberFormat encoded decode value := by
  refine ⟨.object fields, hencoded, hvalid, fun path => ?_⟩
  obtain ⟨record, hrecord, hfield⟩ := readRecord_sorted (ε := ε) hvalid path
  exact hdecode path record hrecord hfield

theorem readArray_sorted (items : List (JsonValue ν)) (path : String) :
    (Wire.readArray (some (JsonValue.array items).sorted) path : Except (WireException ν ε) (List (JsonValue ν))) =
      .ok (items.map sorted) := by
  rw [sorted_array]
  rfl

theorem readNumber_number (hlawful : runtime.Lawful) {value : Int} (hsafe : IsSafeInteger value) (path : String) :
    (Wire.readNumber runtime (some (runtime.number value)) path : Except (WireException ν ε) Int) = .ok value :=
  congrArg Except.ok (hlawful.toInteger_ofInteger value hsafe)

theorem readNonEmptyString_string (hlawful : runtime.Lawful) {value : String} (hvalue : value.length ≠ 0)
    (path : String) :
    (Wire.readNonEmptyString runtime (some (runtime.string value)) path : Except (WireException ν ε) String) =
      .ok value := by
  have hunits : (runtime.units value).length ≠ 0 := by
    intro hempty
    rw [List.length_eq_zero_iff, ← hlawful.ofUnits_length, hlawful.ofUnits_units] at hempty
    exact hvalue hempty
  refine bind_unit_eq_ok.mpr ⟨throwIf_neg hunits, ?_⟩
  exact congrArg Except.ok (hlawful.ofUnits_units value)

theorem valid_number (hlawful : runtime.Lawful) {value : Int} (hsafe : IsSafeInteger value) :
    (runtime.number value).Valid runtime.toNumberFormat :=
  .number (hlawful.isFinite_ofInteger value hsafe)

theorem valid_string (value : String) : (runtime.string value).Valid runtime.toNumberFormat := .string _

theorem encodeProposal_transmits (hlawful : runtime.Lawful) {codec : Wire.JsonCodec ν ε Intent}
    {proposal : ProposedOperation Intent} (hvalid : proposal.toOperationSubmissionIdentity.Valid)
    (hround : codec.RoundTrips runtime.toNumberFormat proposal.intent) :
    Transmits runtime.toNumberFormat (encodeProposal runtime codec proposal)
      (fun value path => decodeProposal runtime value path codec) proposal := by
  obtain ⟨intent, hencode, hintent, hdecode⟩ :=
    encodePayload_transmits hlawful.format hround "$.request.proposals[].intent"
  have hsafe := isSafeInteger_of_positive hvalid.clientSequence hvalid.safe
  refine transmits_object (by rw [encodeProposal, hencode, ok_bind]; rfl) ?_ ?_
  · refine .object (by simp only [List.map_cons, List.map_nil]; decide) ?_
    simp only [List.forall_mem_cons]
    exact ⟨valid_string _, valid_string _, valid_number hlawful hsafe, valid_string _, hintent, by simp⟩
  · intro path record hrecord hfield
    refine bind_eq_ok.mpr ⟨record, hrecord, ?_⟩
    simp only [hfield]
    refine bind_eq_ok.mpr ⟨_, readNonEmptyString_string hlawful hvalid.operationId _, ?_⟩
    refine bind_eq_ok.mpr ⟨_, readNonEmptyString_string hlawful hvalid.clientId _, ?_⟩
    refine bind_eq_ok.mpr ⟨_, readNumber_number hlawful hsafe _, ?_⟩
    refine bind_eq_ok.mpr ⟨_, readNonEmptyString_string hlawful hvalid.intentHash _, ?_⟩
    exact bind_eq_ok.mpr ⟨_, hdecode _, rfl⟩

/-- An entry is written when its operation is. -/
theorem encodeCommittedOperation_eq (hlawful : runtime.Lawful) {codec : Wire.JsonCodec ν ε Operation}
    {entry : CommittedOperation Operation} (hvalid : entry.Valid) {operation : JsonValue ν}
    (hencode : encodePayload runtime.toNumberFormat codec entry.operation "$.response.entries[].operation" =
      .ok operation) (hoperation : operation.Valid runtime.toNumberFormat) :
    let origin : JsonValue ν := .object [
      (ascii "clientId", runtime.string entry.origin.clientId),
      (ascii "clientSequence", runtime.number entry.origin.clientSequence),
      (ascii "intentHash", runtime.string entry.origin.intentHash)]
    let json : JsonValue ν := .object [
      (ascii "sequence", runtime.number entry.sequence),
      (ascii "operationId", runtime.string entry.operationId),
      (ascii "origin", origin),
      (ascii "operation", operation)]
    encodeCommittedOperation runtime codec entry = .ok json ∧ json.Valid runtime.toNumberFormat ∧
      origin.Valid runtime.toNumberFormat := by
  intro origin json
  have hsequence := isSafeInteger_of_positive hvalid.sequence hvalid.sequenceSafe
  have hclientSequence := isSafeInteger_of_positive hvalid.clientSequence hvalid.clientSequenceSafe
  have horigin : origin.Valid runtime.toNumberFormat := by
    refine .object (by simp only [List.map_cons, List.map_nil]; decide) ?_
    simp only [List.forall_mem_cons]
    exact ⟨valid_string _, valid_number hlawful hclientSequence, valid_string _, by simp⟩
  refine ⟨by rw [encodeCommittedOperation, hencode, ok_bind]; rfl, ?_, horigin⟩
  refine .object (by simp only [List.map_cons, List.map_nil]; decide) ?_
  simp only [List.forall_mem_cons]
  exact ⟨valid_number hlawful hsequence, valid_string _, horigin, hoperation, by simp⟩

theorem encodeCommittedOperation_writes (hlawful : runtime.Lawful) {codec : Wire.JsonCodec ν ε Operation}
    {entry : CommittedOperation Operation} (hvalid : entry.Valid)
    (hencodes : codec.Encodes runtime.toNumberFormat entry.operation) :
    Writes runtime.toNumberFormat (encodeCommittedOperation runtime codec entry) := by
  obtain ⟨operation, hencode, hoperation⟩ :=
    encodePayload_writes hlawful.format hencodes "$.response.entries[].operation"
  obtain ⟨hentry, hjson, -⟩ := encodeCommittedOperation_eq hlawful hvalid hencode hoperation
  exact ⟨_, hentry, hjson⟩

theorem encodeCommittedOperation_transmits (hlawful : runtime.Lawful) {codec : Wire.JsonCodec ν ε Operation}
    {entry : CommittedOperation Operation} (hvalid : entry.Valid)
    (hround : codec.RoundTrips runtime.toNumberFormat entry.operation) :
    Transmits runtime.toNumberFormat (encodeCommittedOperation runtime codec entry)
      (fun value path => decodeCommittedOperation runtime value path codec) entry := by
  obtain ⟨operation, hencode, hoperation, hdecode⟩ :=
    encodePayload_transmits hlawful.format hround "$.response.entries[].operation"
  obtain ⟨hentry, hjson, horigin⟩ := encodeCommittedOperation_eq hlawful hvalid hencode hoperation
  have hsequence := isSafeInteger_of_positive hvalid.sequence hvalid.sequenceSafe
  have hclientSequence := isSafeInteger_of_positive hvalid.clientSequence hvalid.clientSequenceSafe
  refine transmits_object hentry hjson fun path record hrecord hfield => ?_
  obtain ⟨origin, hreadOrigin, horiginField⟩ := readRecord_sorted (ε := ε) horigin s!"{path}.origin"
  refine bind_eq_ok.mpr ⟨record, hrecord, ?_⟩
  simp only [hfield]
  refine bind_eq_ok.mpr ⟨origin, hreadOrigin, ?_⟩
  simp only [horiginField]
  refine bind_eq_ok.mpr ⟨_, readNumber_number hlawful hsequence _, ?_⟩
  refine bind_eq_ok.mpr ⟨_, readNonEmptyString_string hlawful hvalid.operationId _, ?_⟩
  refine bind_eq_ok.mpr ⟨_, readNonEmptyString_string hlawful hvalid.clientId _, ?_⟩
  refine bind_eq_ok.mpr ⟨_, readNumber_number hlawful hclientSequence _, ?_⟩
  refine bind_eq_ok.mpr ⟨_, readNonEmptyString_string hlawful hvalid.intentHash _, ?_⟩
  exact bind_eq_ok.mpr ⟨_, hdecode _, rfl⟩

/-- The payload of a decision can be sent. -/
def DecisionRoundTrips (format : NumberFormat ν) (operationCodec : Wire.JsonCodec ν ε Operation)
    (rejectionCodec : Wire.JsonCodec ν ε Rejection) : ProposalDecision Operation Rejection → Prop
  | .accepted _ _ operation => operationCodec.RoundTrips format operation
  | .rejected _ reason => rejectionCodec.RoundTrips format reason

/-- The payload of a decision can be written. -/
def DecisionEncodes (format : NumberFormat ν) (operationCodec : Wire.JsonCodec ν ε Operation)
    (rejectionCodec : Wire.JsonCodec ν ε Rejection) : ProposalDecision Operation Rejection → Prop
  | .accepted _ _ operation => operationCodec.Encodes format operation
  | .rejected _ reason => rejectionCodec.Encodes format reason

section Decisions

variable {operationCodec : Wire.JsonCodec ν ε Operation} {rejectionCodec : Wire.JsonCodec ν ε Rejection}

theorem encodeDecision_accepted (hlawful : runtime.Lawful) {operationId : String} {sequence : Int}
    {operation : Operation} (hsequence : IsSafeInteger sequence) {payload : JsonValue ν}
    (hencode : encodePayload runtime.toNumberFormat operationCodec operation "$.response.decisions[].operation" =
      .ok payload) (hpayload : payload.Valid runtime.toNumberFormat) :
    let json : JsonValue ν := .object [
      (ascii "operationId", runtime.string operationId),
      (ascii "status", .string (ascii "accepted")),
      (ascii "sequence", runtime.number sequence),
      (ascii "operation", payload)]
    encodeDecision runtime operationCodec rejectionCodec (.accepted operationId sequence operation) = .ok json ∧
      json.Valid runtime.toNumberFormat := by
  intro json
  refine ⟨by rw [encodeDecision, hencode, ok_bind]; rfl, ?_⟩
  refine .object (by simp only [List.map_cons, List.map_nil]; decide) ?_
  simp only [List.forall_mem_cons]
  exact ⟨valid_string _, .string _, valid_number hlawful hsequence, hpayload, by simp⟩

theorem encodeDecision_rejected {operationId : String} {reason : Rejection} {payload : JsonValue ν}
    (hencode : encodePayload runtime.toNumberFormat rejectionCodec reason "$.response.decisions[].reason" =
      .ok payload) (hpayload : payload.Valid runtime.toNumberFormat) :
    let json : JsonValue ν := .object [
      (ascii "operationId", runtime.string operationId),
      (ascii "status", .string (ascii "rejected")),
      (ascii "reason", payload)]
    encodeDecision runtime operationCodec rejectionCodec (.rejected operationId reason) = .ok json ∧
      json.Valid runtime.toNumberFormat := by
  intro json
  refine ⟨by rw [encodeDecision, hencode, ok_bind]; rfl, ?_⟩
  refine .object (by simp only [List.map_cons, List.map_nil]; decide) ?_
  simp only [List.forall_mem_cons]
  exact ⟨valid_string _, .string _, hpayload, by simp⟩

theorem encodeDecision_writes (hlawful : runtime.Lawful) {headSequence : Int}
    {entries : List (CommittedOperation Operation)} {decision : ProposalDecision Operation Rejection}
    (hsafe : headSequence ≤ maxSafeInteger) (hfits : DecisionFits headSequence entries decision)
    (hencodes : DecisionEncodes runtime.toNumberFormat operationCodec rejectionCodec decision) :
    Writes runtime.toNumberFormat (encodeDecision runtime operationCodec rejectionCodec decision) := by
  cases decision with
  | accepted operationId sequence operation =>
      obtain ⟨payload, hencode, hpayload⟩ :=
        encodePayload_writes hlawful.format hencodes "$.response.decisions[].operation"
      have hsequence := isSafeInteger_of_positive hfits.1 (hfits.2.1.trans hsafe)
      exact ⟨_, encodeDecision_accepted hlawful hsequence hencode hpayload⟩
  | rejected operationId reason =>
      obtain ⟨payload, hencode, hpayload⟩ :=
        encodePayload_writes hlawful.format hencodes "$.response.decisions[].reason"
      exact ⟨_, encodeDecision_rejected hencode hpayload⟩

theorem encodeDecision_transmits (hlawful : runtime.Lawful) {headSequence : Int}
    {entries : List (CommittedOperation Operation)} {decision : ProposalDecision Operation Rejection}
    (hsafe : headSequence ≤ maxSafeInteger) (hid : decision.operationId.length ≠ 0)
    (hfits : DecisionFits headSequence entries decision)
    (hround : DecisionRoundTrips runtime.toNumberFormat operationCodec rejectionCodec decision) :
    Transmits runtime.toNumberFormat (encodeDecision runtime operationCodec rejectionCodec decision)
      (fun value path => decodeDecision runtime value path operationCodec rejectionCodec) decision := by
  cases decision with
  | accepted operationId sequence operation =>
      obtain ⟨payload, hencode, hpayload, hdecode⟩ :=
        encodePayload_transmits hlawful.format hround "$.response.decisions[].operation"
      have hsequence := isSafeInteger_of_positive hfits.1 (hfits.2.1.trans hsafe)
      obtain ⟨hjson, hvalid⟩ := encodeDecision_accepted hlawful hsequence hencode hpayload
      refine transmits_object hjson hvalid fun path record hrecord hfield => ?_
      refine bind_eq_ok.mpr ⟨record, hrecord, ?_⟩
      simp only [hfield]
      refine bind_eq_ok.mpr ⟨_, readNonEmptyString_string hlawful hid _, ?_⟩
      refine bind_eq_ok.mpr ⟨_, readNumber_number hlawful hsequence _, ?_⟩
      exact bind_eq_ok.mpr ⟨_, hdecode _, rfl⟩
  | rejected operationId reason =>
      obtain ⟨payload, hencode, hpayload, hdecode⟩ :=
        encodePayload_transmits hlawful.format hround "$.response.decisions[].reason"
      obtain ⟨hjson, hvalid⟩ := encodeDecision_rejected hencode hpayload
      refine transmits_object hjson hvalid fun path record hrecord hfield => ?_
      refine bind_eq_ok.mpr ⟨record, hrecord, ?_⟩
      simp only [hfield]
      refine bind_eq_ok.mpr ⟨_, readNonEmptyString_string hlawful hid _, ?_⟩
      exact bind_eq_ok.mpr ⟨_, hdecode _, rfl⟩

end Decisions

theorem assertEnvelope_eq_ok {protocolVersion : Int} {streamId : String} {u : Unit} :
    (assertEnvelope runtime protocolVersion streamId : Except (WireException ν ε) Unit) = .ok u ↔
      protocolVersion = syncProtocolVersion ∧ streamId.length ≠ 0 := by
  rw [assertEnvelope, bind_unit_eq_ok, throwIf_eq_ok, not_not, mapError_eq_ok, assertNonEmptyString_eq_ok]

theorem isSafeInteger_syncProtocolVersion : IsSafeInteger syncProtocolVersion := by decide

theorem assertVersion_number (hlawful : runtime.Lawful) :
    (Wire.assertVersion runtime (some (runtime.number syncProtocolVersion)) :
      Except (WireException ν ε) Unit) = .ok () :=
  throwIf_neg (not_not.mpr (hlawful.toInteger_ofInteger _ isSafeInteger_syncProtocolVersion))

end Records

/-! ### Envelopes -/

section Envelopes

variable {runtime : WireRuntime ν} {limitOverrides : ProtocolLimitOverrides} {limits : ProtocolLimits}

/-- The checks of an encoder. -/
structure SyncRequestEnvelope.Valid (envelope : SyncRequestEnvelope Intent) (limits : ProtocolLimits) : Prop where
  version : envelope.protocolVersion = syncProtocolVersion
  streamId : envelope.streamId.length ≠ 0
  request : ValidRequest envelope.request limits

/-- A valid envelope whose payloads can be sent is encoded, and what it is encoded as is decoded. -/
theorem encodeSyncRequestEnvelope_returns (hlawful : runtime.Lawful)
    (hlimits : (resolveProtocolLimits limitOverrides : Result ε ProtocolLimits) = .ok limits)
    {codec : Wire.JsonCodec ν ε Intent} {envelope : SyncRequestEnvelope Intent} (hvalid : envelope.Valid limits)
    (hround : ∀ proposal ∈ envelope.request.proposals, codec.RoundTrips runtime.toNumberFormat proposal.intent) :
    ∃ json : JsonValue ν, encodeSyncRequestEnvelope runtime envelope codec limitOverrides = .ok json.sorted ∧
      json.Valid runtime.toNumberFormat ∧
      decodeSyncRequestEnvelope runtime (some json.sorted) codec limitOverrides = .ok envelope := by
  obtain ⟨protocolVersion, streamId, request⟩ := envelope
  obtain ⟨hversion, hstream, hrequest⟩ := hvalid
  obtain rfl : protocolVersion = syncProtocolVersion := hversion
  have hbase := isSafeInteger_of_nonneg hrequest.baseNonneg hrequest.baseSafe
  have hmaximum := isSafeInteger_of_positive hrequest.entries hrequest.entriesSafe
  have hassert := (assertSyncRequest_eq_ok (ε := ε) request limits ()).mpr hrequest
  obtain ⟨proposals, hencodes, hproposals, hlength, hdecodes⟩ := mapM_transmits fun proposal hproposal =>
    encodeProposal_transmits hlawful (hrequest.batch.valid proposal hproposal) (hround proposal hproposal)
  have hwithin : (assertWithinLimit "proposals" (proposals.map sorted).length limits.maximumProposalsPerRequest :
      Result ε Unit) = .ok () := by
    rw [assertWithinLimit_eq_ok, List.length_map, hlength]
    exact hrequest.withinLimit
  have hrecord : (JsonValue.object [
      (ascii "baseSequence", runtime.number request.baseSequence),
      (ascii "maximumEntries", runtime.number request.maximumEntries),
      (ascii "proposals", .array proposals)]).Valid runtime.toNumberFormat := by
    refine .object (by simp only [List.map_cons, List.map_nil]; decide) ?_
    simp only [List.forall_mem_cons]
    exact ⟨valid_number hlawful hbase, valid_number hlawful hmaximum, .array hproposals, by simp⟩
  have hroot : (JsonValue.object [
      (ascii "protocolVersion", runtime.number syncProtocolVersion),
      (ascii "streamId", runtime.string streamId),
      (ascii "request", .object [
        (ascii "baseSequence", runtime.number request.baseSequence),
        (ascii "maximumEntries", runtime.number request.maximumEntries),
        (ascii "proposals", .array proposals)])]).Valid runtime.toNumberFormat := by
    refine .object (by simp only [List.map_cons, List.map_nil]; decide) ?_
    simp only [List.forall_mem_cons]
    exact ⟨valid_number hlawful isSafeInteger_syncProtocolVersion, valid_string _, hrecord, by simp⟩
  refine ⟨_, ?_, hroot, ?_⟩
  · refine bind_eq_ok.mpr ⟨limits, mapError_eq_ok.mpr hlimits, ?_⟩
    refine bind_unit_eq_ok.mpr ⟨assertEnvelope_eq_ok.mpr ⟨rfl, hstream⟩, ?_⟩
    refine bind_unit_eq_ok.mpr ⟨mapError_eq_ok.mpr hassert, ?_⟩
    exact bind_eq_ok.mpr ⟨proposals, hencodes, toJsonValue_of_valid hlawful.format hroot⟩
  · obtain ⟨root, hreadRoot, hrootField⟩ := readRecord_sorted (ε := ε) hroot "$"
    obtain ⟨record, hreadRecord, hfield⟩ := readRecord_sorted (ε := ε) hrecord "$.request"
    refine bind_eq_ok.mpr ⟨limits, mapError_eq_ok.mpr hlimits, ?_⟩
    refine bind_eq_ok.mpr ⟨root, hreadRoot, ?_⟩
    simp only [hrootField]
    refine bind_unit_eq_ok.mpr ⟨assertVersion_number hlawful, ?_⟩
    refine bind_eq_ok.mpr ⟨streamId, readNonEmptyString_string hlawful hstream _, ?_⟩
    refine bind_eq_ok.mpr ⟨record, hreadRecord, ?_⟩
    simp only [hfield]
    refine bind_eq_ok.mpr ⟨proposals.map sorted, readArray_sorted proposals _, ?_⟩
    refine bind_unit_eq_ok.mpr ⟨mapError_eq_ok.mpr hwithin, ?_⟩
    refine bind_eq_ok.mpr ⟨request.proposals, hdecodes (fun index => s!"$.request.proposals[{index}]") 0, ?_⟩
    refine bind_eq_ok.mpr ⟨_, readNumber_number hlawful hbase _, ?_⟩
    refine bind_eq_ok.mpr ⟨_, readNumber_number hlawful hmaximum _, ?_⟩
    exact bind_unit_eq_ok.mpr ⟨mapError_eq_ok.mpr hassert, rfl⟩

theorem SyncRequestEnvelope.valid_of_encode {codec : Wire.JsonCodec ν ε Intent}
    {envelope : SyncRequestEnvelope Intent} {json : JsonValue ν}
    (h : encodeSyncRequestEnvelope runtime envelope codec limitOverrides = .ok json) :
    ∃ limits, (resolveProtocolLimits limitOverrides : Result ε ProtocolLimits) = .ok limits ∧
      envelope.Valid limits := by
  obtain ⟨limits, hlimits, h⟩ := bind_eq_ok.mp h
  obtain ⟨henvelope, h⟩ := bind_unit_eq_ok.mp h
  obtain ⟨hrequest, -⟩ := bind_unit_eq_ok.mp h
  obtain ⟨hversion, hstream⟩ := assertEnvelope_eq_ok.mp henvelope
  exact ⟨limits, mapError_eq_ok.mp hlimits, hversion, hstream,
    (assertSyncRequest_eq_ok _ _ _).mp (mapError_eq_ok.mp hrequest)⟩

theorem length_of_readNonEmptyString (hlawful : runtime.Lawful) {value : Unknown ν} {path text : String}
    (h : (Wire.readNonEmptyString runtime value path : Except (WireException ν ε) String) = .ok text) :
    text.length ≠ 0 := by
  match value with
  | some (.string units) =>
      obtain ⟨hunits, htext⟩ := bind_unit_eq_ok.mp h
      rw [throwIf_eq_ok] at hunits
      obtain rfl := Except.ok.inj htext
      rw [Ne, hlawful.ofUnits_length]
      exact fun hempty => hunits (congrArg List.length hempty)
  | none | some .null | some (.boolean _) | some (.number _) | some (.array _) | some (.object _) => cases h

theorem SyncRequestEnvelope.valid_of_decode (hlawful : runtime.Lawful) {codec : Wire.JsonCodec ν ε Intent}
    {envelope : SyncRequestEnvelope Intent} {value : Unknown ν}
    (h : decodeSyncRequestEnvelope runtime value codec limitOverrides = .ok envelope) :
    ∃ limits, (resolveProtocolLimits limitOverrides : Result ε ProtocolLimits) = .ok limits ∧
      envelope.Valid limits := by
  obtain ⟨limits, hlimits, h⟩ := bind_eq_ok.mp h
  obtain ⟨root, -, h⟩ := bind_eq_ok.mp h
  obtain ⟨-, h⟩ := bind_unit_eq_ok.mp h
  obtain ⟨streamId, hstream, h⟩ := bind_eq_ok.mp h
  obtain ⟨record, -, h⟩ := bind_eq_ok.mp h
  obtain ⟨values, -, h⟩ := bind_eq_ok.mp h
  obtain ⟨-, h⟩ := bind_unit_eq_ok.mp h
  obtain ⟨proposals, -, h⟩ := bind_eq_ok.mp h
  obtain ⟨baseSequence, -, h⟩ := bind_eq_ok.mp h
  obtain ⟨maximumEntries, -, h⟩ := bind_eq_ok.mp h
  obtain ⟨hrequest, h⟩ := bind_unit_eq_ok.mp h
  obtain rfl := Except.ok.inj h
  exact ⟨limits, mapError_eq_ok.mp hlimits, rfl, length_of_readNonEmptyString hlawful hstream,
    (assertSyncRequest_eq_ok _ _ _).mp (mapError_eq_ok.mp hrequest)⟩

/-- The checks of an encoder. -/
structure SyncResponseEnvelope.Valid (envelope : SyncResponseEnvelope Operation Rejection)
    (limits : ProtocolLimits) : Prop where
  version : envelope.protocolVersion = syncProtocolVersion
  streamId : envelope.streamId.length ≠ 0
  response : ValidResponse envelope.response (some limits)

/-- The response of an envelope, as JSON. -/
def responseRecord (runtime : WireRuntime ν) (response : SyncResponse Operation Rejection)
    (entries decisions : List (JsonValue ν)) : JsonValue ν := .object [
  (ascii "requestedBaseSequence", runtime.number response.requestedBaseSequence),
  (ascii "throughSequence", runtime.number response.throughSequence),
  (ascii "headSequence", runtime.number response.headSequence),
  (ascii "entries", .array entries),
  (ascii "decisions", .array decisions)]

/-- The envelope of a response, as JSON. -/
def responseTree (runtime : WireRuntime ν) (streamId : String) (record : JsonValue ν) : JsonValue ν := .object [
  (ascii "protocolVersion", runtime.number syncProtocolVersion),
  (ascii "streamId", runtime.string streamId),
  (ascii "response", record)]

/-- A valid envelope is written when its entries and decisions are. -/
theorem encodeSyncResponseEnvelope_eq (hlawful : runtime.Lawful)
    (hlimits : (resolveProtocolLimits limitOverrides : Result ε ProtocolLimits) = .ok limits)
    {operationCodec : Wire.JsonCodec ν ε Operation} {rejectionCodec : Wire.JsonCodec ν ε Rejection}
    {envelope : SyncResponseEnvelope Operation Rejection} (hvalid : envelope.Valid limits)
    {entries decisions : List (JsonValue ν)}
    (hentries : envelope.response.entries.mapM (encodeCommittedOperation runtime operationCodec) = .ok entries)
    (hentryValues : ∀ json ∈ entries, json.Valid runtime.toNumberFormat)
    (hdecisions : envelope.response.decisions.mapM (encodeDecision runtime operationCodec rejectionCodec) =
      .ok decisions) (hdecisionValues : ∀ json ∈ decisions, json.Valid runtime.toNumberFormat) :
    let record := responseRecord runtime envelope.response entries decisions
    let tree := responseTree runtime envelope.streamId record
    encodeSyncResponseEnvelope runtime envelope operationCodec rejectionCodec limitOverrides = .ok tree.sorted ∧
      tree.Valid runtime.toNumberFormat ∧ record.Valid runtime.toNumberFormat := by
  intro record tree
  have hresponse := hvalid.response
  have hheadSafe := hresponse.headSafe
  have hthroughLe := hresponse.throughLe
  have hbaseLe := hresponse.baseLe
  have hbaseNonneg := hresponse.baseNonneg
  have hrecord : record.Valid runtime.toNumberFormat := by
    refine .object (by simp only [List.map_cons, List.map_nil]; decide) ?_
    simp only [List.forall_mem_cons]
    exact ⟨valid_number hlawful (isSafeInteger_of_nonneg hbaseNonneg (by omega)),
      valid_number hlawful (isSafeInteger_of_nonneg (by omega) (by omega)),
      valid_number hlawful (isSafeInteger_of_nonneg (by omega) hheadSafe),
      .array hentryValues, .array hdecisionValues, by simp⟩
  have htree : tree.Valid runtime.toNumberFormat := by
    refine .object (by simp only [List.map_cons, List.map_nil]; decide) ?_
    simp only [List.forall_mem_cons]
    exact ⟨valid_number hlawful isSafeInteger_syncProtocolVersion, valid_string _, hrecord, by simp⟩
  refine ⟨?_, htree, hrecord⟩
  refine bind_eq_ok.mpr ⟨limits, mapError_eq_ok.mpr hlimits, ?_⟩
  refine bind_unit_eq_ok.mpr ⟨assertEnvelope_eq_ok.mpr ⟨hvalid.version, hvalid.streamId⟩, ?_⟩
  refine bind_unit_eq_ok.mpr ⟨mapError_eq_ok.mpr ((assertSyncResponse_eq_ok _ _ _).mpr hresponse), ?_⟩
  refine bind_eq_ok.mpr ⟨entries, hentries, ?_⟩
  exact bind_eq_ok.mpr ⟨decisions, hdecisions, toJsonValue_of_valid hlawful.format htree⟩

/-- A valid envelope is written when its payloads can be. -/
theorem encodeSyncResponseEnvelope_writes (hlawful : runtime.Lawful)
    (hlimits : (resolveProtocolLimits limitOverrides : Result ε ProtocolLimits) = .ok limits)
    {operationCodec : Wire.JsonCodec ν ε Operation} {rejectionCodec : Wire.JsonCodec ν ε Rejection}
    {envelope : SyncResponseEnvelope Operation Rejection} (hvalid : envelope.Valid limits)
    (hentries : ∀ entry ∈ envelope.response.entries, operationCodec.Encodes runtime.toNumberFormat entry.operation)
    (hdecisions : ∀ decision ∈ envelope.response.decisions,
      DecisionEncodes runtime.toNumberFormat operationCodec rejectionCodec decision) :
    ∃ json, encodeSyncResponseEnvelope runtime envelope operationCodec rejectionCodec limitOverrides = .ok json := by
  have hresponse := hvalid.response
  obtain ⟨entries, hencodes, hentryValues⟩ := mapM_writes fun entry hentry =>
    encodeCommittedOperation_writes hlawful (hresponse.page.valid entry hentry) (hentries entry hentry)
  obtain ⟨decisions, hencodes', hdecisionValues⟩ := mapM_writes fun decision hdecision =>
    encodeDecision_writes hlawful hresponse.headSafe (hresponse.decisions.fits decision hdecision)
      (hdecisions decision hdecision)
  exact ⟨_, (encodeSyncResponseEnvelope_eq hlawful hlimits hvalid hencodes hentryValues hencodes'
    hdecisionValues).1⟩

theorem encodeSyncResponseEnvelope_returns (hlawful : runtime.Lawful)
    (hlimits : (resolveProtocolLimits limitOverrides : Result ε ProtocolLimits) = .ok limits)
    {operationCodec : Wire.JsonCodec ν ε Operation} {rejectionCodec : Wire.JsonCodec ν ε Rejection}
    {envelope : SyncResponseEnvelope Operation Rejection} (hvalid : envelope.Valid limits)
    (hentries : ∀ entry ∈ envelope.response.entries,
      operationCodec.RoundTrips runtime.toNumberFormat entry.operation)
    (hdecisions : ∀ decision ∈ envelope.response.decisions,
      DecisionRoundTrips runtime.toNumberFormat operationCodec rejectionCodec decision) :
    ∃ json : JsonValue ν,
      encodeSyncResponseEnvelope runtime envelope operationCodec rejectionCodec limitOverrides = .ok json.sorted ∧
      json.Valid runtime.toNumberFormat ∧
      decodeSyncResponseEnvelope runtime (some json.sorted) operationCodec rejectionCodec limitOverrides =
        .ok envelope := by
  have hresponse := hvalid.response
  have hheadSafe := hresponse.headSafe
  have hthroughLe := hresponse.throughLe
  have hbaseLe := hresponse.baseLe
  have hbaseNonneg := hresponse.baseNonneg
  have hassert := (assertSyncResponse_eq_ok (ε := ε) envelope.response (some limits) ()).mpr hresponse
  have hwithin := hresponse.withinLimits limits rfl
  obtain ⟨entries, hencodes, hentryValues, hlength, hdecodes⟩ := mapM_transmits fun entry hentry =>
    encodeCommittedOperation_transmits hlawful (hresponse.page.valid entry hentry) (hentries entry hentry)
  obtain ⟨decisions, hencodes', hdecisionValues, hlength', hdecodes'⟩ := mapM_transmits fun decision hdecision =>
    encodeDecision_transmits hlawful hheadSafe (hresponse.decisions.nonEmpty decision hdecision)
      (hresponse.decisions.fits decision hdecision) (hdecisions decision hdecision)
  obtain ⟨hencode, htree, hrecord⟩ :=
    encodeSyncResponseEnvelope_eq hlawful hlimits hvalid hencodes hentryValues hencodes' hdecisionValues
  refine ⟨_, hencode, htree, ?_⟩
  have hentriesWithin : (assertWithinLimit "entries" (entries.map sorted).length limits.maximumEntriesPerResponse :
      Result ε Unit) = .ok () := by
    rw [assertWithinLimit_eq_ok, List.length_map, hlength]
    exact hwithin.1
  have hdecisionsWithin : (assertWithinLimit "decisions" (decisions.map sorted).length
      limits.maximumProposalsPerRequest : Result ε Unit) = .ok () := by
    rw [assertWithinLimit_eq_ok, List.length_map, hlength']
    exact hwithin.2
  obtain ⟨root, hreadRoot, hrootField⟩ := readRecord_sorted (ε := ε) htree "$"
  obtain ⟨record, hreadRecord, hfield⟩ := readRecord_sorted (ε := ε) hrecord "$.response"
  refine bind_eq_ok.mpr ⟨limits, mapError_eq_ok.mpr hlimits, ?_⟩
  refine bind_eq_ok.mpr ⟨root, hreadRoot, ?_⟩
  simp only [hrootField]
  refine bind_unit_eq_ok.mpr ⟨assertVersion_number hlawful, ?_⟩
  refine bind_eq_ok.mpr ⟨envelope.streamId, readNonEmptyString_string hlawful hvalid.streamId _, ?_⟩
  refine bind_eq_ok.mpr ⟨record, hreadRecord, ?_⟩
  simp only [hfield]
  refine bind_eq_ok.mpr ⟨entries.map sorted, readArray_sorted entries _, ?_⟩
  refine bind_eq_ok.mpr ⟨decisions.map sorted, readArray_sorted decisions _, ?_⟩
  refine bind_unit_eq_ok.mpr ⟨mapError_eq_ok.mpr hentriesWithin, ?_⟩
  refine bind_unit_eq_ok.mpr ⟨mapError_eq_ok.mpr hdecisionsWithin, ?_⟩
  refine bind_eq_ok.mpr ⟨envelope.response.entries, hdecodes (fun index => s!"$.response.entries[{index}]") 0, ?_⟩
  refine bind_eq_ok.mpr ⟨envelope.response.decisions,
    hdecodes' (fun index => s!"$.response.decisions[{index}]") 0, ?_⟩
  refine bind_eq_ok.mpr
    ⟨_, readNumber_number hlawful (isSafeInteger_of_nonneg hbaseNonneg (by omega)) _, ?_⟩
  refine bind_eq_ok.mpr ⟨_, readNumber_number hlawful (isSafeInteger_of_nonneg (by omega) (by omega)) _, ?_⟩
  refine bind_eq_ok.mpr ⟨_, readNumber_number hlawful (isSafeInteger_of_nonneg (by omega) hheadSafe) _, ?_⟩
  refine bind_unit_eq_ok.mpr ⟨mapError_eq_ok.mpr hassert, ?_⟩
  rw [← hvalid.version]
  rfl

theorem SyncResponseEnvelope.valid_of_encode {operationCodec : Wire.JsonCodec ν ε Operation}
    {rejectionCodec : Wire.JsonCodec ν ε Rejection} {envelope : SyncResponseEnvelope Operation Rejection}
    {json : JsonValue ν}
    (h : encodeSyncResponseEnvelope runtime envelope operationCodec rejectionCodec limitOverrides = .ok json) :
    ∃ limits, (resolveProtocolLimits limitOverrides : Result ε ProtocolLimits) = .ok limits ∧
      envelope.Valid limits := by
  obtain ⟨limits, hlimits, h⟩ := bind_eq_ok.mp h
  obtain ⟨henvelope, h⟩ := bind_unit_eq_ok.mp h
  obtain ⟨hresponse, -⟩ := bind_unit_eq_ok.mp h
  obtain ⟨hversion, hstream⟩ := assertEnvelope_eq_ok.mp henvelope
  exact ⟨limits, mapError_eq_ok.mp hlimits, hversion, hstream,
    (assertSyncResponse_eq_ok _ _ _).mp (mapError_eq_ok.mp hresponse)⟩

theorem SyncResponseEnvelope.valid_of_decode (hlawful : runtime.Lawful)
    {operationCodec : Wire.JsonCodec ν ε Operation} {rejectionCodec : Wire.JsonCodec ν ε Rejection}
    {envelope : SyncResponseEnvelope Operation Rejection} {value : Unknown ν}
    (h : decodeSyncResponseEnvelope runtime value operationCodec rejectionCodec limitOverrides = .ok envelope) :
    ∃ limits, (resolveProtocolLimits limitOverrides : Result ε ProtocolLimits) = .ok limits ∧
      envelope.Valid limits := by
  obtain ⟨limits, hlimits, h⟩ := bind_eq_ok.mp h
  obtain ⟨root, -, h⟩ := bind_eq_ok.mp h
  obtain ⟨-, h⟩ := bind_unit_eq_ok.mp h
  obtain ⟨streamId, hstream, h⟩ := bind_eq_ok.mp h
  obtain ⟨record, -, h⟩ := bind_eq_ok.mp h
  obtain ⟨entryValues, -, h⟩ := bind_eq_ok.mp h
  obtain ⟨decisionValues, -, h⟩ := bind_eq_ok.mp h
  obtain ⟨-, h⟩ := bind_unit_eq_ok.mp h
  obtain ⟨-, h⟩ := bind_unit_eq_ok.mp h
  obtain ⟨entries, -, h⟩ := bind_eq_ok.mp h
  obtain ⟨decisions, -, h⟩ := bind_eq_ok.mp h
  obtain ⟨requestedBaseSequence, -, h⟩ := bind_eq_ok.mp h
  obtain ⟨throughSequence, -, h⟩ := bind_eq_ok.mp h
  obtain ⟨headSequence, -, h⟩ := bind_eq_ok.mp h
  obtain ⟨hresponse, h⟩ := bind_unit_eq_ok.mp h
  obtain rfl := Except.ok.inj h
  exact ⟨limits, mapError_eq_ok.mp hlimits, rfl, length_of_readNonEmptyString hlawful hstream,
    (assertSyncResponse_eq_ok _ _ _).mp (mapError_eq_ok.mp hresponse)⟩

end Envelopes

end SyncEngine
