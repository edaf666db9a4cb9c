import SyncEngine.Lib.Decimal
import SyncEngine.Model.RowOperations
import SyncEngine.Model.Server

/-!
# The route server

The handlers of `next/server.ts`: reading a request, decoding its envelope, asking the authority, and the
status, code and message of every error. The authority is an object with a state; what a handler is given
and leaves behind is that state.
-/

namespace SyncEngine

open JavaScript Throwing

variable {ν ε S State Intent Operation Rejection : Type}

/-! ### Messages -/

/-- What the routes ask of an exception of application code: whether its class extends `SyncEngineError`,
and its message. -/
structure ThrownClass (ε : Type) where
  isSyncEngineError : ε → Bool
  message : ε → String

/-- A number of which a check says that it is out of range may be any number, and is printed as such. -/
def SyncEngineError.message (runtime : WireRuntime ν) (thrown : ThrownClass ε) : SyncEngineError ε → String
  | .syncEngineError message
  | .malformedSyncResponseError message => message
  | .invalidSequenceError label value
  | .invalidLimitError label value =>
      s!"{label} must be a safe integer in its permitted range; received " ++
        runtime.ofUnits (runtime.literal (runtime.ofInteger value))
  | .protocolLimitExceededError label received maximum =>
      s!"{label} contains {received} items, exceeding the maximum of {maximum}"
  | .duplicateOperationIdError operationId => s!"operationId {stringify operationId} appears more than once"
  | .invalidProposalOrderError clientId previous received =>
      s!"proposals from client {stringify clientId} must be strictly ordered; received {received} after {previous}"
  | .unknownBaseSequenceError baseSequence headSequence =>
      s!"baseSequence {baseSequence} is ahead of the server head {headSequence}"
  | .operationIdentityConflictError operationId =>
      s!"operationId {stringify operationId} was reused with a different client identity"
  | .operationIntentConflictError operationId =>
      s!"operationId {stringify operationId} was reused with a different intent hash"
  | .clientSequenceConflictError clientId clientSequence existingOperationId receivedOperationId =>
      s!"client {stringify clientId} sequence {clientSequence} is already bound to " ++
        s!"{stringify existingOperationId}, not {stringify receivedOperationId}"
  | .logGapError expectedSequence receivedSequence =>
      s!"canonical log gap: expected sequence {expectedSequence}, received {receivedSequence}"
  | .logDivergenceError sequence expectedOperationId receivedOperationId detail =>
      s!"canonical log diverged at sequence {sequence}: expected operation " ++
        s!"{stringify expectedOperationId}, received {stringify receivedOperationId} ({detail})"
  | .decisionConflictError operationId =>
      s!"conflicting permanent decisions were observed for {stringify operationId}"
  | .applicationError exception => thrown.message exception

def SyncEngineError.isSyncEngineError (thrown : ThrownClass ε) : SyncEngineError ε → Bool
  | .applicationError exception => thrown.isSyncEngineError exception
  | _ => true

def WireException.isSyncEngineError (thrown : ThrownClass ε) : WireException ν ε → Bool
  | .syncEngineError error => error.isSyncEngineError thrown
  | .applicationError exception => thrown.isSyncEngineError exception
  | .syntaxError => false
  | _ => true

/-- The message of a `SyntaxError` is the runtime's own; a route never shows it. -/
def WireException.message (runtime : WireRuntime ν) (thrown : ThrownClass ε) : WireException ν ε → String
  | .syncEngineError error => error.message runtime thrown
  | .unsupportedProtocolVersionError none => "unsupported sync protocol version undefined"
  | .unsupportedProtocolVersionError (some received) =>
      s!"unsupported sync protocol version {runtime.ofUnits (received.stringify runtime.toNumberFormat)}"
  | .wireEncodeError path message _
  | .wireDecodeError path message _ => s!"{path}: {message}"
  | .invalidJsonValueError error => runtime.ofUnits error.message
  | .syntaxError => "SyntaxError"
  | .applicationError exception => thrown.message exception

/-- What a handler catches. -/
inductive RouteException (ν ε : Type) where
  | syncRouteRequestError (message : String) (status : Int)
  | wireException (exception : WireException ν ε)
  | error (message : String)

section Errors

variable (runtime : WireRuntime ν) (thrown : ThrownClass ε)

def RouteException.isSyncEngineError : RouteException ν ε → Bool
  | .wireException exception => exception.isSyncEngineError thrown
  | _ => false

def RouteException.message : RouteException ν ε → String
  | .syncRouteRequestError message _
  | .error message => message
  | .wireException exception => exception.message runtime thrown

def isRetryableSyncConflict (exception : RouteException ν ε) : Bool :=
  exception.isSyncEngineError thrown &&
    (includes (exception.message runtime thrown) "D1 sync stream changed while committing" ||
      includes (exception.message runtime thrown) "retry the sync request")

def statusForError (exception : RouteException ν ε) : Int :=
  match exception with
  | .syncRouteRequestError _ status => status
  | .wireException (.syncEngineError (.unknownBaseSequenceError ..))
  | .wireException (.syncEngineError (.clientSequenceConflictError ..))
  | .wireException (.syncEngineError (.operationIdentityConflictError ..))
  | .wireException (.syncEngineError (.operationIntentConflictError ..)) => 409
  | exception =>
      if isRetryableSyncConflict runtime thrown exception then 409
      else if exception.isSyncEngineError thrown then 400
      else 500

def codeForError (exception : RouteException ν ε) (status : Int) : String :=
  match exception with
  | .syncRouteRequestError _ status => if status = 413 then "request-too-large" else "bad-request"
  | .wireException (.syncEngineError (.unknownBaseSequenceError ..)) => "future-base-sequence"
  | .wireException (.syncEngineError (.operationIdentityConflictError ..)) => "operation-identity-conflict"
  | .wireException (.syncEngineError (.operationIntentConflictError ..)) => "operation-intent-conflict"
  | .wireException (.syncEngineError (.clientSequenceConflictError ..)) => "client-sequence-conflict"
  | exception =>
      if isRetryableSyncConflict runtime thrown exception then "sync-conflict"
      else if exception.isSyncEngineError thrown then "sync-protocol-error"
      else if status ≥ 500 then "internal-error"
      else "bad-request"

end Errors

/-! ### Requests and responses -/

inductive SyncRouteEndpoint where
  | pull
  | push
  deriving DecidableEq

/-- What a handler reads of a `Request`; the body comes in chunks of bytes. -/
structure RouteRequest where
  method : String
  contentLength : Option Text
  body : Option (List (List UInt8))

structure RouteResponse where
  status : Int
  contentType : String
  body : Text

/-- The runtime of the routes also decodes bytes, as a `TextDecoder` does. -/
structure RouteRuntime (ν : Type) extends WireRuntime ν where
  decodeText : List UInt8 → Text

section Reading

variable (runtime : RouteRuntime ν)

def jsonResponse (body : JsonValue ν) (status : Int) : RouteResponse where
  status := status
  contentType := "application/json; charset=utf-8"
  body := body.stringify runtime.toNumberFormat

def errorResponse (thrown : ThrownClass ε) (exception : RouteException ν ε) : RouteResponse :=
  let status := statusForError runtime.toWireRuntime thrown exception
  let message :=
    if status ≥ 500 then "internal sync error" else exception.message runtime.toWireRuntime thrown
  jsonResponse runtime (.object [
    (ascii "code", runtime.string (codeForError runtime.toWireRuntime thrown exception status)),
    (ascii "message", runtime.string message)]) status

def requestTooLargeError : RouteException ν ε := .syncRouteRequestError "sync request body is too large" 413

/-- The loop of `readRequestText`: the bytes of the body, counted chunk by chunk. -/
def readChunks (maximumRequestBytes byteLength : Int) :
    List (List UInt8) → Except (RouteException ν ε) (List UInt8)
  | [] => .ok []
  | chunk :: chunks => do
      throwIf (byteLength + chunk.length > maximumRequestBytes) requestTooLargeError
      return chunk ++ (← readChunks maximumRequestBytes (byteLength + chunk.length) chunks)

def readRequestText (request : RouteRequest) (maximumRequestBytes : Int) : Except (RouteException ν ε) Text :=
  match request.body with
  | none => .ok []
  | some chunks => do return runtime.decodeText (← readChunks maximumRequestBytes 0 chunks)

/-- The check of the header, which is skipped when it is missing or has other units than digits. -/
def assertDeclaredLength (declaredLength : Option Text) (maximumRequestBytes : Int) :
    Except (RouteException ν ε) Unit :=
  match declaredLength with
  | none => .ok ()
  | some declaredLength =>
      throwIf (declaredLength ≠ [] ∧ declaredLength.all isDigit = true ∧
          (¬IsSafeInteger (naturalValue declaredLength) ∨ (naturalValue declaredLength : Int) > maximumRequestBytes))
        requestTooLargeError

def readRequestJson (request : RouteRequest) (maximumRequestBytes : Int) :
    Except (RouteException ν ε) (JsonValue ν) := do
  throwIf (request.method ≠ "POST") (.syncRouteRequestError "sync routes require POST" 400)
  throwIf (¬IsSafeInteger maximumRequestBytes ∨ maximumRequestBytes ≤ 0)
    (.error "maximumRequestBytes must be a positive safe integer")
  assertDeclaredLength request.contentLength maximumRequestBytes
  let text ← readRequestText runtime request maximumRequestBytes
  if text = [] then return .null
  else match parse runtime.toNumberFormat text with
    | some payload => return payload
    | none => throw (.syncRouteRequestError "sync request body must be JSON" 400)

end Reading

/-! ### Handlers -/

/-- An authority of the routes: an object with a state, whose call may throw. -/
structure SyncRouteAuthority (ν ε S Intent Operation Rejection : Type) where
  synchronize : S → SyncRequest Intent →
    Except (WireException ν ε) (SyncResponse Operation Rejection) × S

structure ResolveSyncRouteStreamContext (Intent : Type) where
  request : RouteRequest
  endpoint : SyncRouteEndpoint
  requestedStreamId : String
  envelope : SyncRequestEnvelope Intent

structure SyncRouteContext (Intent : Type) extends ResolveSyncRouteStreamContext Intent where
  resolvedStreamId : String

/-- The options of a route server. The callbacks may throw. -/
structure CreateSyncRouteServerOptions (ν ε S Intent Operation Rejection : Type) where
  intentCodec : Wire.JsonCodec ν ε Intent
  operationCodec : Wire.JsonCodec ν ε Operation
  rejectionCodec : Wire.JsonCodec ν ε Rejection
  authority : Option (SyncRouteAuthority ν ε S Intent Operation Rejection)
  getAuthority : Option (SyncRouteContext Intent →
    Except ε (SyncRouteAuthority ν ε S Intent Operation Rejection))
  resolveStream : Option (ResolveSyncRouteStreamContext Intent → Except ε String)
  limitOverrides : ProtocolLimitOverrides
  maximumRequestBytes : Option Int
  onError : Option (RouteException ν ε → RouteRequest → Except ε Unit)

/-- What application code throws passes through a handler's `catch`. -/
def applicationException (exception : ε) : RouteException ν ε := .wireException (.applicationError exception)

def resolveAuthority (options : CreateSyncRouteServerOptions ν ε S Intent Operation Rejection)
    (context : SyncRouteContext Intent) :
    Except (RouteException ν ε) (SyncRouteAuthority ν ε S Intent Operation Rejection) :=
  match options.getAuthority with
  | some getAuthority => (getAuthority context).mapError applicationException
  | none =>
      match options.authority with
      | some authority => .ok authority
      | none => .error (.error "createSyncRouteServer requires authority or getAuthority")

/-- `await options.resolveStream?.(…) ?? envelope.streamId`. -/
def resolveStreamId (options : CreateSyncRouteServerOptions ν ε S Intent Operation Rejection)
    (context : ResolveSyncRouteStreamContext Intent) : Except (RouteException ν ε) String :=
  match options.resolveStream with
  | some resolveStream => (resolveStream context).mapError applicationException
  | none => .ok context.envelope.streamId

section Handlers

variable (runtime : RouteRuntime ν) (thrown : ThrownClass ε)

/-- `handleSyncRoute` up to its call of the authority. -/
def admitRoute (endpoint : SyncRouteEndpoint) (request : RouteRequest)
    (options : CreateSyncRouteServerOptions ν ε S Intent Operation Rejection) :
    Except (RouteException ν ε)
      (SyncRequestEnvelope Intent × SyncRouteAuthority ν ε S Intent Operation Rejection) := do
  let payload ← readRequestJson runtime request (options.maximumRequestBytes.getD 1048576)
  let envelope ← (decodeSyncRequestEnvelope runtime.toWireRuntime (some payload) options.intentCodec
    options.limitOverrides).mapError .wireException
  throwIf (endpoint = .pull ∧ envelope.request.proposals.length > 0)
    (.syncRouteRequestError "pull route does not accept proposals; use the push route" 400)
  let context : ResolveSyncRouteStreamContext Intent :=
    { request, endpoint, requestedStreamId := envelope.streamId, envelope }
  let resolvedStreamId ← resolveStreamId options context
  throwIf (resolvedStreamId.length = 0)
    (.syncRouteRequestError "resolved stream id must be a non-empty string" 400)
  let authority ← resolveAuthority options { context with resolvedStreamId }
  return (envelope, authority)

/-- The end of `handleSyncRoute`: the envelope of the response echoes the requested stream. -/
def encodeRouteResponse (options : CreateSyncRouteServerOptions ν ε S Intent Operation Rejection)
    (streamId : String) (response : SyncResponse Operation Rejection) :
    Except (RouteException ν ε) RouteResponse := do
  let body ← (encodeSyncResponseEnvelope runtime.toWireRuntime
    { protocolVersion := syncProtocolVersion, streamId, response } options.operationCodec
    options.rejectionCodec options.limitOverrides).mapError .wireException
  return jsonResponse runtime body 200

/-- The `catch` of `handleSyncRoute`. -/
def catchRoute (options : CreateSyncRouteServerOptions ν ε S Intent Operation Rejection)
    (request : RouteRequest) (exception : RouteException ν ε) : Except ε RouteResponse := do
  match options.onError with
  | some onError => onError exception request
  | none => .ok ()
  return errorResponse runtime thrown exception

def handleSyncRoute (endpoint : SyncRouteEndpoint) (request : RouteRequest)
    (options : CreateSyncRouteServerOptions ν ε S Intent Operation Rejection) (state : S) :
    Except ε RouteResponse × S :=
  match admitRoute runtime endpoint request options with
  | .error exception => (catchRoute runtime thrown options request exception, state)
  | .ok (envelope, authority) =>
      let (answer, next) := authority.synchronize state envelope.request
      match answer.mapError RouteException.wireException >>=
          encodeRouteResponse runtime options envelope.streamId with
      | .ok response => (.ok response, next)
      | .error exception => (catchRoute runtime thrown options request exception, next)

structure NextSyncServer (ε S : Type) where
  pull : RouteRequest → S → Except ε RouteResponse × S
  push : RouteRequest → S → Except ε RouteResponse × S

def createSyncRouteServer (options : CreateSyncRouteServerOptions ν ε S Intent Operation Rejection) :
    Except (RouteException ν ε) (NextSyncServer ε S) := do
  throwIf (options.authority.isNone ∧ options.getAuthority.isNone)
    (.error "createSyncRouteServer requires authority or getAuthority")
  return {
    pull := fun request => handleSyncRoute runtime thrown .pull request options
    push := fun request => handleSyncRoute runtime thrown .push request options }

end Handlers

/-! ### The row route -/

/-- Rejections that are JSON values are written as they are. -/
def jsonValueCodec (format : NumberFormat ν) : Wire.JsonCodec ν ε (JsonValue ν) where
  encode value := .ok (some value)
  decode value :=
    match value with
    | none => .error .syntaxError
    | some value =>
        match parse format (value.stringify format) with
        | some read => .ok read
        | none => .error .syntaxError

/-- The options of a row route. A rejection is a JSON value. -/
structure CreateRowSyncRouteServerOptions (ν S : Type) where
  schema : ReplicaSchemaContract
  rejectionCodec : Option (Wire.JsonCodec ν RowError (JsonValue ν))
  authority : Option (SyncRouteAuthority ν RowError S (RowOperation ν) (RowOperation ν) (JsonValue ν))
  getAuthority : Option (SyncRouteContext (RowOperation ν) →
    Except RowError (SyncRouteAuthority ν RowError S (RowOperation ν) (RowOperation ν) (JsonValue ν)))
  resolveStream : Option (ResolveSyncRouteStreamContext (RowOperation ν) → Except RowError String)
  limitOverrides : ProtocolLimitOverrides
  maximumRequestBytes : Option Int
  onError : Option (RouteException ν RowError → RouteRequest → Except RowError Unit)

/-- The options that `createRowSyncRouteServer` passes on. -/
def CreateRowSyncRouteServerOptions.toRouteOptions (rows : RowRuntime ν)
    (options : CreateRowSyncRouteServerOptions ν S) :
    CreateSyncRouteServerOptions ν RowError S (RowOperation ν) (RowOperation ν) (JsonValue ν) where
  intentCodec := createRowOperationCodec rows options.schema
  operationCodec := createRowOperationCodec rows options.schema
  rejectionCodec := options.rejectionCodec.getD (jsonValueCodec rows.toNumberFormat)
  authority := options.authority
  getAuthority := options.getAuthority
  resolveStream := options.resolveStream
  limitOverrides := options.limitOverrides
  maximumRequestBytes := options.maximumRequestBytes
  onError := options.onError

/-- The errors of the row code extend `SyncEngineError`, except for a `TypeError` of the runtime. -/
def rowErrorClass (runtime : RouteRuntime ν) (rows : RowRuntime ν) : ThrownClass RowError where
  isSyncEngineError
    | .typeError _ => false
    | _ => true
  message error := runtime.ofUnits (error.message rows)

def createRowSyncRouteServer (runtime : RouteRuntime ν) (rows : RowRuntime ν)
    (options : CreateRowSyncRouteServerOptions ν S) :
    Except (RouteException ν RowError) (NextSyncServer RowError S) :=
  createSyncRouteServer runtime (rowErrorClass runtime rows) (options.toRouteOptions rows)

/-! ### A row authority -/

def ProposedOperation.mapIntent {Intent' : Type} (f : Intent → Intent') (proposal : ProposedOperation Intent) :
    ProposedOperation Intent' where
  toOperationSubmissionIdentity := proposal.toOperationSubmissionIdentity
  intent := f proposal.intent

def SyncRequest.mapIntents {Intent' : Type} (f : Intent → Intent') (request : SyncRequest Intent) :
    SyncRequest Intent' where
  baseSequence := request.baseSequence
  maximumEntries := request.maximumEntries
  proposals := request.proposals.map (ProposedOperation.mapIntent f)

def RowRejection.toJson (rejection : RowRejection) : JsonValue ν :=
  .object [(ascii "code", .string rejection.code), (ascii "message", .string rejection.message)]

/-- The reason of a rejection: the application's, or the default one when it gives none. -/
def rejectionReason (rows : RowRuntime ν)
    (rejectInvalidOperation : Option (RowError → ProposedOperation (JsonValue ν) → JsonValue ν))
    (error : RowError) (proposal : ProposedOperation (JsonValue ν)) : JsonValue ν :=
  match rejectInvalidOperation with
  | none => (toRowRejection rows error).toJson
  | some rejectInvalidOperation =>
      match rejectInvalidOperation error proposal with
      | .null => (toRowRejection rows error).toJson
      | reason => reason

/-- `createRowLogInterpreter` on intents of type `unknown`, which is what a caller can hand over. -/
def createRowLogInterpreterOfUnknown (rows : RowRuntime ν) (schema : ReplicaSchemaContract)
    (rejectInvalidOperation : Option (RowError → ProposedOperation (JsonValue ν) → JsonValue ν)) :
    Except RowError
      (LogInterpreter (ReplicaDatabaseState (RowRecord ν)) (JsonValue ν) (RowOperation ν) (JsonValue ν) RowError) := do
  assertRowReplicationSchema schema
  return {
    decide := fun _ proposal =>
      match normalizeRowOperation rows schema proposal.intent with
      | .ok operation => .ok (.accepted operation)
      | .error error => .ok (.rejected (rejectionReason rows rejectInvalidOperation error proposal))
    apply := applyRowOperation rows schema }

/-- A server as the authority of a route, which hands it row operations as the objects that they are. -/
def InMemoryLogServer.rowRouteAuthority
    (settings : LogServerSettings State (JsonValue ν) Operation Rejection ε) :
    SyncRouteAuthority ν ε (InMemoryLogServer State Operation Rejection) (RowOperation ν) Operation Rejection where
  synchronize server request :=
    match synchronize settings server (request.mapIntents RowOperation.toJson) with
    | .ok (response, next) => (.ok response, next)
    | .error error => (.error (.syncEngineError error), server)

end SyncEngine
