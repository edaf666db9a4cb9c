import SyncEngine.Model.Fingerprint
import SyncEngine.Model.Invariants

/-!
# The wire codecs

The envelopes of `wire.ts` as JSON, with payloads that the application converts. What a decoder is given,
and what an application codec produces, is a JSON tree or `undefined`. What is thrown carries its causes.
-/

namespace SyncEngine

open JavaScript Throwing

variable {ν ε Intent Operation Rejection : Type}

/-- How the numbers and strings of the protocol stand in JSON. A `String` of the protocol stands for a
JavaScript string, which is its UTF-16 units. -/
structure WireRuntime (ν : Type) extends NumberFormat ν where
  ofInteger : Int → ν
  /-- The integer that a number is. For any other number, an integer that is not safe and stands for it. -/
  toInteger : ν → Int
  units : String → Text
  ofUnits : Text → String

/-- A value of type `unknown`. -/
abbrev Unknown (ν : Type) := Option (JsonValue ν)

/-- What the codecs throw, and what application codecs may throw. -/
inductive WireException (ν ε : Type) where
  | syncEngineError (error : SyncEngineError ε)
  | unsupportedProtocolVersionError (received : Unknown ν)
  | wireEncodeError (path message : String) (cause : WireException ν ε)
  | wireDecodeError (path message : String) (cause : Option (WireException ν ε))
  | invalidJsonValueError (error : InvalidJsonValueError)
  | syntaxError
  | applicationError (exception : ε)

/-- Application-owned conversion between a domain value and JSON. -/
structure Wire.JsonCodec (ν ε Value : Type) where
  encode : Value → Except (WireException ν ε) (Unknown ν)
  decode : Unknown ν → Except (WireException ν ε) Value

/-! ### Payloads -/

section Payloads

variable (format : NumberFormat ν) {Value : Type}

/-- `canonicalizeJson` on a value that may be missing. -/
def canonicalizeUnknown : Unknown ν → Except (WireException ν ε) Text
  | none => .error (.invalidJsonValueError ⟨ascii "$", "undefined is not a JSON value"⟩)
  | some value => (canonicalizeJsonTree format value).mapError .invalidJsonValueError

/-- The fields of an object stay in the order of the canonical text; JavaScript lists integer-like keys first. -/
def toJsonValue (value : Unknown ν) : Except (WireException ν ε) (JsonValue ν) := do
  let canonical ← canonicalizeUnknown format value
  match parse format canonical with
  | some value => return value
  | none => throw .syntaxError

def encodePayload (codec : Wire.JsonCodec ν ε Value) (value : Value) (path : String) :
    Except (WireException ν ε) (JsonValue ν) :=
  (codec.encode value >>= toJsonValue format).mapError
    (.wireEncodeError path "codec produced an invalid JSON value")

def decodePayload (codec : Wire.JsonCodec ν ε Value) (value : Unknown ν) (path : String) :
    Except (WireException ν ε) Value :=
  (canonicalizeUnknown format value >>= fun _ => codec.decode value).mapError fun error =>
    match error with
    | .wireDecodeError path message cause => .wireDecodeError path message cause
    | error => .wireDecodeError path "payload codec rejected the value" (some error)

end Payloads

/-! ### Readers -/

namespace Wire

def readRecord (value : Unknown ν) (path : String) : Except (WireException ν ε) (List (Text × JsonValue ν)) :=
  match value with
  | some (.object fields) => .ok fields
  | _ => .error (.wireDecodeError path "must be an object" none)

def readArray (value : Unknown ν) (path : String) : Except (WireException ν ε) (List (JsonValue ν)) :=
  match value with
  | some (.array items) => .ok items
  | _ => .error (.wireDecodeError path "must be an array" none)

variable (runtime : WireRuntime ν)

def readNumber (value : Unknown ν) (path : String) : Except (WireException ν ε) Int :=
  match value with
  | some (.number value) => .ok (runtime.toInteger value)
  | _ => .error (.wireDecodeError path "must be a number" none)

def readNonEmptyString (value : Unknown ν) (path : String) : Except (WireException ν ε) String :=
  match value with
  | some (.string value) => do
      throwIf (value.length = 0) (.wireDecodeError path "must not be empty" none)
      return runtime.ofUnits value
  | _ => .error (.wireDecodeError path "must be a string" none)

/-- `value !== SYNC_PROTOCOL_VERSION` throws. -/
def assertVersion (value : Unknown ν) : Except (WireException ν ε) Unit :=
  match value with
  | some (.number version) =>
      throwIf (runtime.toInteger version ≠ syncProtocolVersion) (.unsupportedProtocolVersionError value)
  | _ => .error (.unsupportedProtocolVersionError value)

end Wire

/-! ### Requests -/

section Envelopes

variable (runtime : WireRuntime ν)

def WireRuntime.number (value : Int) : JsonValue ν := .number (runtime.ofInteger value)

def WireRuntime.string (value : String) : JsonValue ν := .string (runtime.units value)

def assertEnvelope (protocolVersion : Int) (streamId : String) : Except (WireException ν ε) Unit := do
  throwIf (protocolVersion ≠ syncProtocolVersion)
    (.unsupportedProtocolVersionError (some (runtime.number protocolVersion)))
  (assertNonEmptyString "streamId" streamId).mapError .syncEngineError

def encodeProposal (codec : Wire.JsonCodec ν ε Intent) (proposal : ProposedOperation Intent) :
    Except (WireException ν ε) (JsonValue ν) := do
  let intent ← encodePayload runtime.toNumberFormat codec proposal.intent "$.request.proposals[].intent"
  return .object [
    (ascii "operationId", runtime.string proposal.operationId),
    (ascii "clientId", runtime.string proposal.clientId),
    (ascii "clientSequence", runtime.number proposal.clientSequence),
    (ascii "intentHash", runtime.string proposal.intentHash),
    (ascii "intent", intent)]

def encodeSyncRequestEnvelope (envelope : SyncRequestEnvelope Intent) (intentCodec : Wire.JsonCodec ν ε Intent)
    (limitOverrides : ProtocolLimitOverrides) : Except (WireException ν ε) (JsonValue ν) := do
  let limits ← (resolveProtocolLimits limitOverrides).mapError .syncEngineError
  assertEnvelope runtime envelope.protocolVersion envelope.streamId
  (assertSyncRequest envelope.request (some limits)).mapError .syncEngineError
  let proposals ← envelope.request.proposals.mapM (encodeProposal runtime intentCodec)
  toJsonValue runtime.toNumberFormat (some (.object [
    (ascii "protocolVersion", runtime.number syncProtocolVersion),
    (ascii "streamId", runtime.string envelope.streamId),
    (ascii "request", .object [
      (ascii "baseSequence", runtime.number envelope.request.baseSequence),
      (ascii "maximumEntries", runtime.number envelope.request.maximumEntries),
      (ascii "proposals", .array proposals)])]))

def decodeProposal (value : Unknown ν) (path : String) (codec : Wire.JsonCodec ν ε Intent) :
    Except (WireException ν ε) (ProposedOperation Intent) := do
  let record ← Wire.readRecord value path
  let operationId ← Wire.readNonEmptyString runtime (ownField record (ascii "operationId")) s!"{path}.operationId"
  let clientId ← Wire.readNonEmptyString runtime (ownField record (ascii "clientId")) s!"{path}.clientId"
  let clientSequence ← Wire.readNumber runtime (ownField record (ascii "clientSequence")) s!"{path}.clientSequence"
  let intentHash ← Wire.readNonEmptyString runtime (ownField record (ascii "intentHash")) s!"{path}.intentHash"
  let intent ← decodePayload runtime.toNumberFormat codec (ownField record (ascii "intent")) s!"{path}.intent"
  return { operationId, clientId, clientSequence, intentHash, intent }

def decodeSyncRequestEnvelope (value : Unknown ν) (intentCodec : Wire.JsonCodec ν ε Intent)
    (limitOverrides : ProtocolLimitOverrides) : Except (WireException ν ε) (SyncRequestEnvelope Intent) := do
  let limits ← (resolveProtocolLimits limitOverrides).mapError .syncEngineError
  let root ← Wire.readRecord value "$"
  Wire.assertVersion runtime (ownField root (ascii "protocolVersion"))
  let streamId ← Wire.readNonEmptyString runtime (ownField root (ascii "streamId")) "$.streamId"
  let requestRecord ← Wire.readRecord (ownField root (ascii "request")) "$.request"
  let proposalValues ← Wire.readArray (ownField requestRecord (ascii "proposals")) "$.request.proposals"
  (assertWithinLimit "proposals" proposalValues.length limits.maximumProposalsPerRequest).mapError .syncEngineError
  let proposals ← proposalValues.zipIdx.mapM fun (proposal, index) =>
    decodeProposal runtime (some proposal) s!"$.request.proposals[{index}]" intentCodec
  let baseSequence ←
    Wire.readNumber runtime (ownField requestRecord (ascii "baseSequence")) "$.request.baseSequence"
  let maximumEntries ←
    Wire.readNumber runtime (ownField requestRecord (ascii "maximumEntries")) "$.request.maximumEntries"
  let request : SyncRequest Intent := { baseSequence, maximumEntries, proposals }
  (assertSyncRequest request (some limits)).mapError .syncEngineError
  return { protocolVersion := syncProtocolVersion, streamId, request }

/-! ### Responses -/

def encodeCommittedOperation (codec : Wire.JsonCodec ν ε Operation) (entry : CommittedOperation Operation) :
    Except (WireException ν ε) (JsonValue ν) := do
  let operation ←
    encodePayload runtime.toNumberFormat codec entry.operation "$.response.entries[].operation"
  return .object [
    (ascii "sequence", runtime.number entry.sequence),
    (ascii "operationId", runtime.string entry.operationId),
    (ascii "origin", .object [
      (ascii "clientId", runtime.string entry.origin.clientId),
      (ascii "clientSequence", runtime.number entry.origin.clientSequence),
      (ascii "intentHash", runtime.string entry.origin.intentHash)]),
    (ascii "operation", operation)]

def encodeDecision (operationCodec : Wire.JsonCodec ν ε Operation) (rejectionCodec : Wire.JsonCodec ν ε Rejection) :
    ProposalDecision Operation Rejection → Except (WireException ν ε) (JsonValue ν)
  | .accepted operationId sequence operation => do
      let operation ←
        encodePayload runtime.toNumberFormat operationCodec operation "$.response.decisions[].operation"
      return .object [
        (ascii "operationId", runtime.string operationId),
        (ascii "status", .string (ascii "accepted")),
        (ascii "sequence", runtime.number sequence),
        (ascii "operation", operation)]
  | .rejected operationId reason => do
      let reason ← encodePayload runtime.toNumberFormat rejectionCodec reason "$.response.decisions[].reason"
      return .object [
        (ascii "operationId", runtime.string operationId),
        (ascii "status", .string (ascii "rejected")),
        (ascii "reason", reason)]

def encodeSyncResponseEnvelope (envelope : SyncResponseEnvelope Operation Rejection)
    (operationCodec : Wire.JsonCodec ν ε Operation) (rejectionCodec : Wire.JsonCodec ν ε Rejection)
    (limitOverrides : ProtocolLimitOverrides) : Except (WireException ν ε) (JsonValue ν) := do
  let limits ← (resolveProtocolLimits limitOverrides).mapError .syncEngineError
  assertEnvelope runtime envelope.protocolVersion envelope.streamId
  (assertSyncResponse envelope.response (some limits)).mapError .syncEngineError
  let entries ← envelope.response.entries.mapM (encodeCommittedOperation runtime operationCodec)
  let decisions ← envelope.response.decisions.mapM (encodeDecision runtime operationCodec rejectionCodec)
  toJsonValue runtime.toNumberFormat (some (.object [
    (ascii "protocolVersion", runtime.number syncProtocolVersion),
    (ascii "streamId", runtime.string envelope.streamId),
    (ascii "response", .object [
      (ascii "requestedBaseSequence", runtime.number envelope.response.requestedBaseSequence),
      (ascii "throughSequence", runtime.number envelope.response.throughSequence),
      (ascii "headSequence", runtime.number envelope.response.headSequence),
      (ascii "entries", .array entries),
      (ascii "decisions", .array decisions)])]))

def decodeCommittedOperation (value : Unknown ν) (path : String) (codec : Wire.JsonCodec ν ε Operation) :
    Except (WireException ν ε) (CommittedOperation Operation) := do
  let record ← Wire.readRecord value path
  let origin ← Wire.readRecord (ownField record (ascii "origin")) s!"{path}.origin"
  let sequence ← Wire.readNumber runtime (ownField record (ascii "sequence")) s!"{path}.sequence"
  let operationId ← Wire.readNonEmptyString runtime (ownField record (ascii "operationId")) s!"{path}.operationId"
  let clientId ← Wire.readNonEmptyString runtime (ownField origin (ascii "clientId")) s!"{path}.origin.clientId"
  let clientSequence ←
    Wire.readNumber runtime (ownField origin (ascii "clientSequence")) s!"{path}.origin.clientSequence"
  let intentHash ←
    Wire.readNonEmptyString runtime (ownField origin (ascii "intentHash")) s!"{path}.origin.intentHash"
  let operation ←
    decodePayload runtime.toNumberFormat codec (ownField record (ascii "operation")) s!"{path}.operation"
  return { sequence, operationId, origin := { clientId, clientSequence, intentHash }, operation }

def decodeDecision (value : Unknown ν) (path : String) (operationCodec : Wire.JsonCodec ν ε Operation)
    (rejectionCodec : Wire.JsonCodec ν ε Rejection) :
    Except (WireException ν ε) (ProposalDecision Operation Rejection) := do
  let record ← Wire.readRecord value path
  let operationId ← Wire.readNonEmptyString runtime (ownField record (ascii "operationId")) s!"{path}.operationId"
  let badStatus := WireException.wireDecodeError s!"{path}.status" "must be either \"accepted\" or \"rejected\"" none
  match ownField record (ascii "status") with
  | some (.string status) =>
      if status = ascii "accepted" then
        let sequence ← Wire.readNumber runtime (ownField record (ascii "sequence")) s!"{path}.sequence"
        let operation ←
          decodePayload runtime.toNumberFormat operationCodec (ownField record (ascii "operation"))
            s!"{path}.operation"
        return .accepted operationId sequence operation
      else if status = ascii "rejected" then
        let reason ←
          decodePayload runtime.toNumberFormat rejectionCodec (ownField record (ascii "reason")) s!"{path}.reason"
        return .rejected operationId reason
      else throw badStatus
  | _ => throw badStatus

def decodeSyncResponseEnvelope (value : Unknown ν) (operationCodec : Wire.JsonCodec ν ε Operation)
    (rejectionCodec : Wire.JsonCodec ν ε Rejection) (limitOverrides : ProtocolLimitOverrides) :
    Except (WireException ν ε) (SyncResponseEnvelope Operation Rejection) := do
  let limits ← (resolveProtocolLimits limitOverrides).mapError .syncEngineError
  let root ← Wire.readRecord value "$"
  Wire.assertVersion runtime (ownField root (ascii "protocolVersion"))
  let streamId ← Wire.readNonEmptyString runtime (ownField root (ascii "streamId")) "$.streamId"
  let responseRecord ← Wire.readRecord (ownField root (ascii "response")) "$.response"
  let entryValues ← Wire.readArray (ownField responseRecord (ascii "entries")) "$.response.entries"
  let decisionValues ← Wire.readArray (ownField responseRecord (ascii "decisions")) "$.response.decisions"
  (assertWithinLimit "entries" entryValues.length limits.maximumEntriesPerResponse).mapError .syncEngineError
  (assertWithinLimit "decisions" decisionValues.length limits.maximumProposalsPerRequest).mapError .syncEngineError
  let entries ← entryValues.zipIdx.mapM fun (entry, index) =>
    decodeCommittedOperation runtime (some entry) s!"$.response.entries[{index}]" operationCodec
  let decisions ← decisionValues.zipIdx.mapM fun (decision, index) =>
    decodeDecision runtime (some decision) s!"$.response.decisions[{index}]" operationCodec rejectionCodec
  let requestedBaseSequence ← Wire.readNumber runtime (ownField responseRecord (ascii "requestedBaseSequence"))
    "$.response.requestedBaseSequence"
  let throughSequence ←
    Wire.readNumber runtime (ownField responseRecord (ascii "throughSequence")) "$.response.throughSequence"
  let headSequence ←
    Wire.readNumber runtime (ownField responseRecord (ascii "headSequence")) "$.response.headSequence"
  let response : SyncResponse Operation Rejection :=
    { requestedBaseSequence, throughSequence, headSequence, entries, decisions }
  (assertSyncResponse response (some limits)).mapError .syncEngineError
  return { protocolVersion := syncProtocolVersion, streamId, response }

end Envelopes

end SyncEngine
