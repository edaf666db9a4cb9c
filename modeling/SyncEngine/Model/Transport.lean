import SyncEngine.Model.Route
import SyncEngine.Model.Scheduling
import SyncEngine.Model.Session

/-!
# The HTTP transports

`client/transport.ts`, and the choice of a transport in `client/config.ts`. A `fetch` acts on a world and
may throw; the routes of `next/server.ts` are such a `fetch` once it is said how texts become bytes, whether
and how these arrive, and what the framework answers where no route does.
-/

namespace SyncEngine

open JavaScript Throwing

variable {World ν ε S Intent Operation Rejection : Type}

/-- What a transport throws. What `fetch` throws, with its message, and what the callbacks of the application
throw pass through. -/
inductive TransportException (ν ε : Type) where
  | wireException (exception : WireException ν ε)
  | syncClientHttpError (status : Int) (message : String) (body : Unknown ν)
  | fetchError (message : String)
  | applicationError (exception : ε)

abbrev TransportM (World ν ε α : Type) := ExceptT (TransportException ν ε) (StateM World) α

/-! ### Requests over `fetch` -/

structure FetchRequest where
  url : String
  method : String
  credentials : String
  headers : InsertionMap String String
  body : Text

structure FetchResponse where
  status : Int
  text : Except String Text

def FetchResponse.ok (response : FetchResponse) : Bool := 200 ≤ response.status && response.status ≤ 299

abbrev Fetch (World : Type) := FetchRequest → World → Except String FetchResponse × World

/-- Headers are given as they are, or by a callback. -/
inductive ConfiguredHeaders (World ε : Type) where
  | headers (entries : List (String × String))
  | callback (headers : World → Except ε (List (String × String)) × World)

structure PostOptions (World ε : Type) where
  headers : Option (ConfiguredHeaders World ε) := none
  credentials : Option String := none

structure FetchTransportOptions (World ν ε Intent Operation Rejection : Type) extends PostOptions World ε where
  intentCodec : Wire.JsonCodec ν ε Intent
  operationCodec : Wire.JsonCodec ν ε Operation
  rejectionCodec : Wire.JsonCodec ν ε Rejection
  fetch : Option (Fetch World) := none
  limitOverrides : ProtocolLimitOverrides := {}

structure SyncTransport (World ν ε Intent Operation Rejection : Type) where
  synchronize : SyncRequestEnvelope Intent → TransportM World ν ε (SyncResponseEnvelope Operation Rejection)

structure SplitSyncEndpoints where
  pull : String
  push : String

namespace Transport

variable (runtime : WireRuntime ν)

def perform {α β : Type} (thrown : β → TransportException ν ε) (action : World → Except β α × World) :
    TransportM World ν ε α := fun world =>
  let (result, next) := action world
  (result.mapError thrown, next)

def returned {α : Type} (result : Except (TransportException ν ε) α) : TransportM World ν ε α := fun world =>
  (result, world)

def configuredHeaders : Option (ConfiguredHeaders World ε) → TransportM World ν ε (List (String × String))
  | none => pure []
  | some (.headers entries) => pure entries
  | some (.callback headers) => perform .applicationError headers

def bodyMessage (body : JsonValue ν) : Option String :=
  match body with
  | .object fields =>
      match ownField fields (ascii "message") with
      | some (.string message) => some (runtime.ofUnits message)
      | _ => none
  | _ => none

/-- The end of `postJson`: what it makes of the text of a response. -/
def readResponse (url : String) (response : FetchResponse) (text : Text) :
    Except (TransportException ν ε) (JsonValue ν) :=
  match if text = [] then some .null else parse runtime.toNumberFormat text with
  | none =>
      .error (.syncClientHttpError response.status s!"sync endpoint {stringify url} returned invalid JSON"
        (some (.string text)))
  | some parsed =>
      if response.ok then .ok parsed
      else
        .error (.syncClientHttpError response.status
          ((bodyMessage runtime parsed).getD s!"sync endpoint returned HTTP {response.status}") (some parsed))

def postJson (fetchImpl : Fetch World) (url : String) (body : JsonValue ν) (options : PostOptions World ε) :
    TransportM World ν ε (JsonValue ν) := do
  let headers ← configuredHeaders options.headers
  let response ← perform .fetchError (fetchImpl {
    url := url
    method := "POST"
    credentials := options.credentials.getD "same-origin"
    headers := ((InsertionMap.empty.set "content-type" "application/json").set "accept" "application/json").setAll
      headers
    body := body.stringify runtime.toNumberFormat })
  let text ← returned (response.text.mapError .fetchError)
  returned (readResponse runtime url response text)

/-- The `synchronize` of both transports, which differ in the endpoint of a request. -/
def synchronizeAt (endpoint : SyncRequestEnvelope Intent → String) (fetchImpl : Fetch World)
    (options : FetchTransportOptions World ν ε Intent Operation Rejection) (envelope : SyncRequestEnvelope Intent) :
    TransportM World ν ε (SyncResponseEnvelope Operation Rejection) := do
  let body ← returned ((encodeSyncRequestEnvelope runtime envelope options.intentCodec
    options.limitOverrides).mapError .wireException)
  let responseBody ← postJson runtime fetchImpl (endpoint envelope) body options.toPostOptions
  returned ((decodeSyncResponseEnvelope runtime (some responseBody) options.operationCodec options.rejectionCodec
    options.limitOverrides).mapError .wireException)

def resolveFetch (globalFetch : Option (Fetch World))
    (options : FetchTransportOptions World ν ε Intent Operation Rejection) :
    Except (TransportException ν ε) (Fetch World) :=
  match options.fetch <|> globalFetch with
  | none => .error (.syncClientHttpError 0 "fetch is unavailable" none)
  | some fetchImpl => .ok fetchImpl

end Transport

section Creating

variable (runtime : WireRuntime ν) (globalFetch : Option (Fetch World))

def createFetchSyncTransport (url : String) (options : FetchTransportOptions World ν ε Intent Operation Rejection) :
    Except (TransportException ν ε) (SyncTransport World ν ε Intent Operation Rejection) := do
  let fetchImpl ← Transport.resolveFetch globalFetch options
  return { synchronize := Transport.synchronizeAt runtime (fun _ => url) fetchImpl options }

def createSplitFetchSyncTransport (endpoints : SplitSyncEndpoints)
    (options : FetchTransportOptions World ν ε Intent Operation Rejection) :
    Except (TransportException ν ε) (SyncTransport World ν ε Intent Operation Rejection) := do
  let fetchImpl ← Transport.resolveFetch globalFetch options
  return {
    synchronize := Transport.synchronizeAt runtime (fun envelope =>
      if envelope.request.proposals.length = 0 then endpoints.pull else endpoints.push) fetchImpl options }

end Creating

/-! ### The transport of a configuration -/

structure SyncEndpointConfig where
  synchronize : Option String := none
  pull : Option String := none
  push : Option String := none

structure RowTransportOptions (World ν : Type) extends PostOptions World RowError where
  fetch : Option (Fetch World) := none
  rejectionCodec : Option (Wire.JsonCodec ν RowError (JsonValue ν)) := none

/-- The rejection codec of the client canonicalizes what it reads. -/
def Transport.jsonValueCodec (format : NumberFormat ν) : Wire.JsonCodec ν ε (JsonValue ν) where
  encode value := .ok (some value)
  decode value := toJsonValue format value

def RowTransportOptions.toFetchOptions (rows : RowRuntime ν) (schema : ReplicaSchemaContract)
    (options : RowTransportOptions World ν) :
    FetchTransportOptions World ν RowError (RowOperation ν) (RowOperation ν) (JsonValue ν) where
  toPostOptions := options.toPostOptions
  intentCodec := createRowOperationCodec rows schema
  operationCodec := createRowOperationCodec rows schema
  rejectionCodec := options.rejectionCodec.getD (Transport.jsonValueCodec rows.toNumberFormat)
  fetch := options.fetch

inductive TransportConfigException (ν ε : Type) where
  | transport (exception : TransportException ν ε)
  | error (message : String)

def createRowTransportFromConfig (runtime : WireRuntime ν) (rows : RowRuntime ν)
    (globalFetch : Option (Fetch World)) (schema : ReplicaSchemaContract) (endpoints : SyncEndpointConfig)
    (options : RowTransportOptions World ν) :
    Except (TransportConfigException ν RowError)
      (SyncTransport World ν RowError (RowOperation ν) (RowOperation ν) (JsonValue ν)) :=
  match endpoints.pull, endpoints.push with
  | some pull, some push =>
      (createSplitFetchSyncTransport runtime globalFetch ⟨pull, push⟩ (options.toFetchOptions rows schema)).mapError
        .transport
  | none, none =>
      match endpoints.synchronize with
      | some url =>
          (createFetchSyncTransport runtime globalFetch url (options.toFetchOptions rows schema)).mapError .transport
      | none =>
          .error (.error "generated sync config must define either synchronize or pull/push endpoints")
  | _, _ => .error (.error "generated sync config must define both pull and push endpoints")

/-! ### What the client looks at -/

section ClientErrors

variable (runtime : WireRuntime ν) (thrown : ThrownClass ε)

def TransportException.message : TransportException ν ε → String
  | .wireException exception => exception.message runtime thrown
  | .syncClientHttpError _ message _ => message
  | .fetchError message => message
  | .applicationError exception => thrown.message exception

end ClientErrors

/-! ### Routes behind `fetch` -/

/-- What becomes of an exchange. A `fetch` whose request or response is lost throws. -/
inductive Delivery where
  | delivered
  | requestLost (message : String)
  | responseLost (message : String)

/-- The state of a server, and what becomes of the next exchanges with it. Those after them are delivered. -/
structure HttpWorld (S : Type) where
  server : S
  deliveries : List Delivery

namespace HttpWorld

variable (world : HttpWorld S)

def delivery : Delivery := world.deliveries.headD .delivered

def exchanged (server : S) : HttpWorld S where
  server := server
  deliveries := world.deliveries.tail

end HttpWorld

/-- How requests reach the routes of a server: texts as bytes, the bytes in chunks, with or without their
declared length. Where no route answers, or a route throws, the framework does. -/
structure HttpChannel (ε : Type) where
  encodeText : Text → List UInt8
  chunks : List UInt8 → List (List UInt8)
  contentLength : List UInt8 → Option Text
  notFound : FetchResponse
  crashed : ε → FetchResponse

namespace HttpChannel

variable (channel : HttpChannel ε)

def deliver (request : FetchRequest) : RouteRequest where
  method := request.method
  contentLength := channel.contentLength (channel.encodeText request.body)
  body := some (channel.chunks (channel.encodeText request.body))

def receive (runtime : RouteRuntime ν) (answer : Except ε RouteResponse) : FetchResponse :=
  match answer with
  | .ok response => { status := response.status, text := .ok (runtime.decodeText (channel.encodeText response.body)) }
  | .error exception => channel.crashed exception

def dispatch (runtime : RouteRuntime ν) (endpoints : SplitSyncEndpoints) (server : NextSyncServer ε S)
    (request : FetchRequest) (state : S) : FetchResponse × S :=
  if request.url = endpoints.pull then
    let (answer, next) := server.pull (channel.deliver request) state
    (channel.receive runtime answer, next)
  else if request.url = endpoints.push then
    let (answer, next) := server.push (channel.deliver request) state
    (channel.receive runtime answer, next)
  else (channel.notFound, state)

def fetch (runtime : RouteRuntime ν) (endpoints : SplitSyncEndpoints) (server : NextSyncServer ε S) :
    Fetch (HttpWorld S) := fun request world =>
  match world.delivery with
  | .requestLost message => (.error message, world.exchanged world.server)
  | .responseLost message =>
      (.error message, world.exchanged (channel.dispatch runtime endpoints server request world.server).2)
  | .delivered =>
      let (response, next) := channel.dispatch runtime endpoints server request world.server
      (.ok response, world.exchanged next)

end HttpChannel

/-! ### Authorities -/

def SyncRouteAuthority.transport (authority : SyncRouteAuthority ν ε S Intent Operation Rejection) :
    SyncTransport S ν ε Intent Operation Rejection where
  synchronize envelope := fun state =>
    match authority.synchronize state envelope.request with
    | (.ok response, next) =>
        (.ok {
          protocolVersion := syncProtocolVersion
          streamId := envelope.streamId
          response := response }, next)
    | (.error exception, next) => (.error (.wireException exception), next)

/-- What a session says of an exception of its transport: an error of the engine, or its message. -/
def TransportException.toSessionError (runtime : WireRuntime ν) (thrown : ThrownClass ε) :
    TransportException ν ε → SessionError ε
  | .wireException (.syncEngineError error) => .transport error
  | exception => .transport (.syncEngineError (exception.message runtime thrown))

def SyncTransport.forSession (runtime : WireRuntime ν) (thrown : ThrownClass ε)
    (transport : SyncTransport World ν ε Intent Operation Rejection) (envelope : SyncRequestEnvelope Intent) :
    SessionM World ε (SyncResponseEnvelope Operation Rejection) := fun world =>
  let (result, next) := transport.synchronize envelope world
  (result.mapError (TransportException.toSessionError runtime thrown), next)

/-! ### A session over HTTP -/

section OverHttp

variable {α : Type}

def SessionM.onServer (action : SessionM S ε α) : SessionM (HttpWorld S) ε α := fun world =>
  let (result, server) := action world.server
  (result, { world with server := server })

/-- The loop of `syncWithRetry` while nothing else happens, from an attempt on. The waits leave the world alone. -/
def SessionM.withRetry (sync : SessionM World ε Unit) (shouldRetry : SessionError ε → Nat → Bool) (attempt : Nat) :
    Nat → SessionM World ε Unit
  | 0 => pure ()
  | remaining + 1 => fun world =>
      match sync world with
      | (.ok (), next) => (.ok (), next)
      | (.error error, next) =>
          if remaining = 0 || !shouldRetry error attempt then (.error error, next)
          else withRetry sync shouldRetry (attempt + 1) remaining next

end OverHttp

namespace StoreNetwork

variable {ι State : Type} [DecidableEq ι] (setup : StoreSetup ι State Intent Operation Rejection ε) (i : ι)

def authority :
    SyncRouteAuthority ν ε (StoreNetwork ι State Intent Operation Rejection) Intent Operation Rejection where
  synchronize stores request :=
    match InMemoryLogServer.synchronize setup.settings stores.server request with
    | .ok (response, server) =>
        (.ok response, { stores with
          server := server
          responses := stores.responses ++ [(i, response)] })
    | .error error => (.error (.syncEngineError error), stores)

def httpSession (runtime : WireRuntime ν) (thrown : ThrownClass ε)
    (transport : SyncTransport (HttpWorld (StoreNetwork ι State Intent Operation Rejection)) ν ε Intent Operation
      Rejection) (maximumEntries maximumProposals maximumSyncRounds : Option Int) :
    RunSyncSessionOptions (HttpWorld (StoreNetwork ι State Intent Operation Rejection)) Intent Operation Rejection
      ε where
  streamId := setup.streamId
  prepareSyncRequest options := (prepareSyncRequest setup i options).onServer
  mergeSyncResponse response := (mergeSyncResponse setup i response).onServer
  synchronize := transport.forSession runtime thrown
  refreshAfterMerge := (readStatus setup i).onServer
  maximumEntries := maximumEntries
  maximumProposals := maximumProposals
  maximumSyncRounds := maximumSyncRounds

end StoreNetwork

end SyncEngine
