import SyncEngine.Model.Transport
import SyncEngine.Proof.Route

/-!
# Transports over the routes

A client and a route server that agree on codecs and limits, joined by a channel that keeps texts: the
transport of the client answers what the authority behind the routes does, and fails with what the route
catches. What the client retries is what the route calls a retryable conflict.
-/

namespace SyncEngine

open JavaScript JavaScript.JsonValue Throwing

variable {World ν ε S State Intent Operation Rejection : Type}

/-! ### Bodies in chunks -/

/-- However the bytes are cut, they are read whole, or refused when they are too many. -/
theorem readChunks_eq {maximumRequestBytes : Int} (chunks : List (List UInt8)) {byteLength : Int}
    (h : byteLength ≤ maximumRequestBytes) :
    (readChunks maximumRequestBytes byteLength chunks : Except (RouteException ν ε) (List UInt8)) =
      if byteLength + chunks.flatten.length > maximumRequestBytes then .error requestTooLargeError
      else .ok chunks.flatten := by
  induction chunks generalizing byteLength with
  | nil =>
      rw [if_neg (by simpa using h)]
      rfl
  | cons chunk chunks ih =>
      rw [readChunks, List.flatten_cons, List.length_append, Nat.cast_add, ← add_assoc]
      by_cases hlarge : byteLength + chunk.length > maximumRequestBytes
      · rw [throwIf_pos hlarge, if_pos (by omega)]
        rfl
      · rw [throwIf_neg hlarge, ok_bind, ih (by omega)]
        split <;> rfl

/-! ### What a route catches -/

section Outcome

variable (runtime : RouteRuntime ν) (thrown : ThrownClass ε)

def routeOutcome (endpoint : SyncRouteEndpoint) (request : RouteRequest)
    (options : CreateSyncRouteServerOptions ν ε S Intent Operation Rejection) (state : S) :
    Except (RouteException ν ε) RouteResponse × S :=
  match admitRoute runtime endpoint request options with
  | .error exception => (.error exception, state)
  | .ok (envelope, authority) =>
      let (answer, next) := authority.synchronize state envelope.request
      (answer.mapError RouteException.wireException >>= encodeRouteResponse runtime options envelope.streamId, next)

def settleOutcome (options : CreateSyncRouteServerOptions ν ε S Intent Operation Rejection) (request : RouteRequest) :
    Except (RouteException ν ε) RouteResponse → Except ε RouteResponse
  | .ok response => .ok response
  | .error exception => catchRoute runtime thrown options request exception

theorem handleSyncRoute_eq (endpoint : SyncRouteEndpoint) (request : RouteRequest)
    (options : CreateSyncRouteServerOptions ν ε S Intent Operation Rejection) (state : S) :
    handleSyncRoute runtime thrown endpoint request options state =
      (settleOutcome runtime thrown options request (routeOutcome runtime endpoint request options state).1,
        (routeOutcome runtime endpoint request options state).2) := by
  rw [handleSyncRoute, routeOutcome]
  cases admitRoute runtime endpoint request options with
  | error exception => rfl
  | ok admitted =>
      dsimp only
      generalize (admitted.2.synchronize state admitted.1.request).1.mapError RouteException.wireException >>=
        encodeRouteResponse runtime options admitted.1.streamId = outcome
      cases outcome <;> rfl

end Outcome

/-- The two texts that a retryable conflict includes. -/
def retryTexts : List String := ["D1 sync stream changed while committing", "retry the sync request"]

/-- The exceptions of a route. Its own refusals have one of two statuses and are no conflicts. -/
def RouteException.FromRoute : RouteException ν ε → Prop
  | .syncRouteRequestError message status =>
      (status = 400 ∨ status = 413) ∧ ∀ text ∈ retryTexts, includes message text = false
  | _ => True

section Throwing

variable {runtime : RouteRuntime ν}

theorem includes_requests : ∀ message ∈ ["sync request body is too large", "sync routes require POST",
    "sync request body must be JSON", "pull route does not accept proposals; use the push route",
    "resolved stream id must be a non-empty string"], ∀ text ∈ retryTexts, includes message text = false := by
  decide +kernel

end Throwing

/-! ### What a client sees of an exception -/

section Refused

variable {runtime : RouteRuntime ν} {thrown : ThrownClass ε}

def shownMessage (runtime : RouteRuntime ν) (thrown : ThrownClass ε) (exception : RouteException ν ε) : String :=
  if statusForError runtime.toWireRuntime thrown exception ≥ 500 then "internal sync error"
  else exception.message runtime.toWireRuntime thrown

def shownCode (runtime : RouteRuntime ν) (thrown : ThrownClass ε) (exception : RouteException ν ε) : String :=
  codeForError runtime.toWireRuntime thrown exception (statusForError runtime.toWireRuntime thrown exception)

def errorBody (runtime : RouteRuntime ν) (thrown : ThrownClass ε) (exception : RouteException ν ε) : JsonValue ν :=
  .object [
    (ascii "code", runtime.string (shownCode runtime thrown exception)),
    (ascii "message", runtime.string (shownMessage runtime thrown exception))]

def refusal (runtime : RouteRuntime ν) (thrown : ThrownClass ε) (exception : RouteException ν ε) :
    TransportException ν ε :=
  .syncClientHttpError (statusForError runtime.toWireRuntime thrown exception) (shownMessage runtime thrown exception)
    (some (errorBody runtime thrown exception))

theorem errorBody_valid (runtime : RouteRuntime ν) (thrown : ThrownClass ε) (exception : RouteException ν ε) :
    (errorBody runtime thrown exception).Valid runtime.toNumberFormat := by
  refine .object (by simp only [List.map_cons, List.map_nil]; decide) ?_
  simp only [List.forall_mem_cons]
  exact ⟨.string _, .string _, by simp⟩

theorem errorBody_sorted (exception : RouteException ν ε) :
    (errorBody runtime thrown exception).sorted = errorBody runtime thrown exception := by
  apply sorted_object_eq_self
  · simp only [List.map_cons, List.map_nil]
    decide
  · simp only [List.forall_mem_cons]
    exact ⟨rfl, rfl, by simp⟩

theorem statusForError_eq (runtime : RouteRuntime ν) (thrown : ThrownClass ε) (exception : RouteException ν ε) :
    (∃ message status, exception = .syncRouteRequestError message status ∧
      statusForError runtime.toWireRuntime thrown exception = status) ∨
    (exception.isSyncEngineError thrown = true ∧
      (statusForError runtime.toWireRuntime thrown exception = 400 ∨
        statusForError runtime.toWireRuntime thrown exception = 409)) ∨
    (∀ message status, exception ≠ .syncRouteRequestError message status) ∧
      exception.isSyncEngineError thrown = false ∧
      statusForError runtime.toWireRuntime thrown exception = 500 := by
  unfold statusForError
  split
  · exact .inl ⟨_, _, rfl, rfl⟩
  case h_6 _ hrequest _ _ _ _ =>
    by_cases hengine : exception.isSyncEngineError thrown = true
    · refine .inr (.inl ⟨hengine, ?_⟩)
      split <;> simp
    · refine .inr (.inr ⟨fun message status h => hrequest message status h, by simpa using hengine, ?_⟩)
      simp [isRetryableSyncConflict, hengine]
  all_goals exact .inr (.inl ⟨rfl, .inr rfl⟩)

end Refused

/-! ### A client and its routes -/

section Steps

variable {α β : Type} {world world' : World}

theorem TransportM.bind_of_ok {x : TransportM World ν ε α} {f : α → TransportM World ν ε β} {a : α}
    (h : x world = (.ok a, world')) : (x >>= f) world = f a world' := by
  change ExceptT.bindCont f (x world).1 (x world).2 = _
  rw [h]
  rfl

theorem TransportM.bind_eq {x : TransportM World ν ε α} {f : α → TransportM World ν ε β}
    {result : Except (TransportException ν ε) α} {g : α → Except (TransportException ν ε) β}
    (h : x world = (result, world')) (hf : ∀ a, f a world' = (g a, world')) :
    (x >>= f) world = (result >>= g, world') := by
  change ExceptT.bindCont f (x world).1 (x world).2 = _
  rw [h]
  cases result with
  | error exception => rfl
  | ok a => exact hf a

def Transport.readAnswer (runtime : WireRuntime ν)
    (options : FetchTransportOptions World ν ε Intent Operation Rejection) (url : String)
    (result : Except String FetchResponse) :
    Except (TransportException ν ε) (SyncResponseEnvelope Operation Rejection) := do
  let response ← result.mapError .fetchError
  let text ← response.text.mapError .fetchError
  let body ← Transport.readResponse runtime url response text
  (decodeSyncResponseEnvelope runtime (some body) options.operationCodec options.rejectionCodec
    options.limitOverrides).mapError .wireException

theorem synchronizeAt_eq {runtime : WireRuntime ν} {endpoint : SyncRequestEnvelope Intent → String}
    {fetchImpl : Fetch World} {options : FetchTransportOptions World ν ε Intent Operation Rejection}
    {envelope : SyncRequestEnvelope Intent} {body : JsonValue ν}
    (hencode : encodeSyncRequestEnvelope runtime envelope options.intentCodec options.limitOverrides = .ok body)
    (hheaders : ∃ entries, (Transport.configuredHeaders options.headers : TransportM World ν ε _) world =
      (.ok entries, world))
    {result : Except String FetchResponse}
    (hfetch : ∀ headers credentials, fetchImpl {
        url := endpoint envelope
        method := "POST"
        credentials := credentials
        headers := headers
        body := body.stringify runtime.toNumberFormat } world = (result, world')) :
    Transport.synchronizeAt runtime endpoint fetchImpl options envelope world =
      (Transport.readAnswer runtime options (endpoint envelope) result, world') := by
  obtain ⟨entries, hentries⟩ := hheaders
  have hbody : (Transport.returned ((encodeSyncRequestEnvelope runtime envelope options.intentCodec
      options.limitOverrides).mapError .wireException) : TransportM World ν ε _) world = (.ok body, world) := by
    rw [hencode]
    rfl
  have hpost : Transport.postJson runtime fetchImpl (endpoint envelope) body options.toPostOptions world =
      ((result.mapError .fetchError >>= fun response => response.text.mapError .fetchError >>=
        Transport.readResponse runtime (endpoint envelope) response), world') := by
    refine (TransportM.bind_of_ok hentries).trans (TransportM.bind_eq ?_ fun response => ?_)
    · rw [Transport.perform, hfetch]
    · exact TransportM.bind_eq rfl fun text => rfl
  refine (TransportM.bind_of_ok hbody).trans ((TransportM.bind_eq hpost fun responseBody => rfl).trans ?_)
  rw [Transport.readAnswer]
  simp only [bind_assoc]

end Steps

theorem Transport.resolveFetch_eq {globalFetch : Option (Fetch World)}
    {options : FetchTransportOptions World ν ε Intent Operation Rejection} {fetchImpl : Fetch World}
    (h : (options.fetch <|> globalFetch) = some fetchImpl) :
    (Transport.resolveFetch globalFetch options : Except (TransportException ν ε) (Fetch World)) = .ok fetchImpl := by
  rw [Transport.resolveFetch, h]

/-- A client over HTTP, with two endpoints or with one, and the routes that it asks. The transport and the
routes are created from their options, the channel between them keeps texts, and the client's own callback
for headers returns. What the routes are given, their authority and the callbacks of their application
included, is arbitrary. -/
structure HttpClient (ν ε S Intent Operation Rejection : Type) where
  runtime : RouteRuntime ν
  thrown : ThrownClass ε
  channel : HttpChannel ε
  serverOptions : CreateSyncRouteServerOptions ν ε S Intent Operation Rejection
  server : NextSyncServer ε S
  endpoints : SplitSyncEndpoints
  globalFetch : Option (Fetch (HttpWorld S))
  clientOptions : FetchTransportOptions (HttpWorld S) ν ε Intent Operation Rejection
  split : Bool
  transport : SyncTransport (HttpWorld S) ν ε Intent Operation Rejection
  lawful : runtime.toWireRuntime.Lawful
  decodes : ∀ text, WellFormed text → runtime.decodeText (channel.encodeText text) = text
  distinct : endpoints.pull ≠ endpoints.push
  createsServer : createSyncRouteServer runtime thrown serverOptions = .ok server
  fetches : (Transport.resolveFetch globalFetch clientOptions : Except (TransportException ν ε) (Fetch (HttpWorld S))) =
    .ok (channel.fetch runtime endpoints server)
  createsTransport : (if split then
      createSplitFetchSyncTransport runtime.toWireRuntime globalFetch endpoints clientOptions
    else createFetchSyncTransport runtime.toWireRuntime globalFetch endpoints.push clientOptions) = .ok transport
  headers : ∀ callback, clientOptions.headers = some (.callback callback) → ∀ world,
    ∃ entries, callback world = (.ok entries, world)

namespace HttpClient

variable (client : HttpClient ν ε S Intent Operation Rejection)

abbrev maximumRequestBytes : Int := client.serverOptions.maximumRequestBytes.getD 1048576

def Encodes (envelope : SyncRequestEnvelope Intent) (body : JsonValue ν) : Prop :=
  encodeSyncRequestEnvelope client.runtime.toWireRuntime envelope client.clientOptions.intentCodec
    client.clientOptions.limitOverrides = .ok body

theorem Encodes.unique {client : HttpClient ν ε S Intent Operation Rejection} {envelope : SyncRequestEnvelope Intent}
    {body body' : JsonValue ν} (h : client.Encodes envelope body) (h' : client.Encodes envelope body') : body = body' :=
  Except.ok.inj (Eq.trans (Eq.symm h) h')

def sent (body : JsonValue ν) : RouteRequest where
  method := "POST"
  contentLength :=
    client.channel.contentLength (client.channel.encodeText (body.stringify client.runtime.toNumberFormat))
  body := some (client.channel.chunks (client.channel.encodeText (body.stringify client.runtime.toNumberFormat)))

def url : SyncRouteEndpoint → String
  | .pull => client.endpoints.pull
  | .push => client.endpoints.push

def endpointOf (envelope : SyncRequestEnvelope Intent) : SyncRouteEndpoint :=
  if client.split && envelope.request.proposals.length = 0 then .pull else .push

theorem no_proposals_of_pull {client : HttpClient ν ε S Intent Operation Rejection}
    {envelope : SyncRequestEnvelope Intent} (h : client.endpointOf envelope = .pull) :
    envelope.request.proposals.length = 0 := by
  by_contra hproposals
  simp [endpointOf, hproposals] at h

def outcome (endpoint : SyncRouteEndpoint) (body : JsonValue ν) (state : S) :
    Except (RouteException ν ε) RouteResponse × S :=
  routeOutcome client.runtime endpoint (client.sent body) client.serverOptions state

/-- What the application is told of an exception that an endpoint catches. It may throw itself. -/
def reported (body : JsonValue ν) (exception : RouteException ν ε) : Except ε Unit :=
  match client.serverOptions.onError with
  | some onError => onError exception (client.sent body)
  | none => .ok ()

variable {client}

theorem headers_eq (world : HttpWorld S) : ∃ entries,
    (Transport.configuredHeaders client.clientOptions.headers : TransportM (HttpWorld S) ν ε _) world =
      (.ok entries, world) := by
  have hcallback := client.headers
  cases hheaders : client.clientOptions.headers with
  | none => exact ⟨[], rfl⟩
  | some configured =>
      cases configured with
      | headers entries => exact ⟨entries, rfl⟩
      | callback callback =>
          obtain ⟨entries, hentries⟩ := hcallback callback hheaders world
          exact ⟨entries, by simp only [Transport.configuredHeaders, Transport.perform, hentries]; rfl⟩

def answered (endpoint : SyncRouteEndpoint) (body : JsonValue ν) (state : S) : Except ε RouteResponse :=
  settleOutcome client.runtime client.thrown client.serverOptions (client.sent body)
    (client.outcome endpoint body state).1

theorem answered_of_caught {endpoint : SyncRouteEndpoint} {body : JsonValue ν} {state : S}
    {exception : RouteException ν ε}
    (hcaught : (client.outcome endpoint body state).1 = .error exception) :
    client.answered endpoint body state =
      (client.reported body exception >>= fun _ => .ok (errorResponse client.runtime client.thrown exception)) := by
  rw [answered, hcaught, settleOutcome, catchRoute, reported]
  cases client.serverOptions.onError <;> rfl

def fetched (endpoint : SyncRouteEndpoint) (body : JsonValue ν) (world : HttpWorld S) :
    Except String FetchResponse × HttpWorld S :=
  let outcome := client.outcome endpoint body world.server
  match world.delivery with
  | .delivered =>
      (.ok (client.channel.receive client.runtime (client.answered endpoint body world.server)),
        world.exchanged outcome.2)
  | .requestLost message => (.error message, world.exchanged world.server)
  | .responseLost message => (.error message, world.exchanged outcome.2)

theorem handleSyncRoute_sent (endpoint : SyncRouteEndpoint) (body : JsonValue ν) (state : S) :
    handleSyncRoute client.runtime client.thrown endpoint (client.sent body) client.serverOptions state =
      (client.answered endpoint body state, (client.outcome endpoint body state).2) :=
  handleSyncRoute_eq client.runtime client.thrown endpoint (client.sent body) client.serverOptions state

theorem dispatch_eq (endpoint : SyncRouteEndpoint) (body : JsonValue ν) (state : S)
    (headers : InsertionMap String String) (credentials : String) :
    client.channel.dispatch client.runtime client.endpoints client.server {
      url := client.url endpoint
      method := "POST"
      credentials := credentials
      headers := headers
      body := body.stringify client.runtime.toNumberFormat } state =
    (client.channel.receive client.runtime (client.answered endpoint body state),
      (client.outcome endpoint body state).2) := by
  obtain ⟨-, hserver⟩ := bind_unit_eq_ok.mp client.createsServer
  rw [← Except.ok.inj hserver]
  cases endpoint with
  | pull =>
      rw [HttpChannel.dispatch, if_pos (show client.url .pull = client.endpoints.pull from rfl)]
      change (client.channel.receive client.runtime
        (handleSyncRoute client.runtime client.thrown .pull (client.sent body) client.serverOptions state).1,
        (handleSyncRoute client.runtime client.thrown .pull (client.sent body) client.serverOptions state).2) = _
      rw [handleSyncRoute_sent]
  | push =>
      rw [HttpChannel.dispatch, if_neg (show client.url .push ≠ client.endpoints.pull from client.distinct.symm),
        if_pos (show client.url .push = client.endpoints.push from rfl)]
      change (client.channel.receive client.runtime
        (handleSyncRoute client.runtime client.thrown .push (client.sent body) client.serverOptions state).1,
        (handleSyncRoute client.runtime client.thrown .push (client.sent body) client.serverOptions state).2) = _
      rw [handleSyncRoute_sent]

theorem fetch_eq (endpoint : SyncRouteEndpoint) (body : JsonValue ν) (world : HttpWorld S)
    (headers : InsertionMap String String) (credentials : String) :
    client.channel.fetch client.runtime client.endpoints client.server {
      url := client.url endpoint
      method := "POST"
      credentials := credentials
      headers := headers
      body := body.stringify client.runtime.toNumberFormat } world = client.fetched endpoint body world := by
  rw [HttpChannel.fetch, fetched]
  cases world.delivery <;> simp only [dispatch_eq]

def received (endpoint : SyncRouteEndpoint) (answer : Except ε RouteResponse) :
    Except (TransportException ν ε) (SyncResponseEnvelope Operation Rejection) :=
  Transport.readAnswer client.runtime.toWireRuntime client.clientOptions (client.url endpoint)
    (.ok (client.channel.receive client.runtime answer))

theorem received_eq (endpoint : SyncRouteEndpoint) (response : RouteResponse) :
    client.received endpoint (.ok response) =
      (Transport.readResponse client.runtime.toWireRuntime (client.url endpoint)
        (client.channel.receive client.runtime (.ok response))
        (client.runtime.decodeText (client.channel.encodeText response.body)) >>= fun body =>
          (decodeSyncResponseEnvelope client.runtime.toWireRuntime (some body) client.clientOptions.operationCodec
            client.clientOptions.rejectionCodec client.clientOptions.limitOverrides).mapError .wireException) := rfl

theorem synchronizeAt_route {endpointOf : SyncRequestEnvelope Intent → String} {envelope : SyncRequestEnvelope Intent}
    {endpoint : SyncRouteEndpoint} (hurl : endpointOf envelope = client.url endpoint) {body : JsonValue ν}
    (hencodes : client.Encodes envelope body) (world : HttpWorld S) :
    Transport.synchronizeAt client.runtime.toWireRuntime endpointOf
        (client.channel.fetch client.runtime client.endpoints client.server) client.clientOptions envelope world =
      (Transport.readAnswer client.runtime.toWireRuntime client.clientOptions (client.url endpoint)
        (client.fetched endpoint body world).1, (client.fetched endpoint body world).2) := by
  rw [← hurl]
  refine synchronizeAt_eq hencodes (headers_eq world) fun headers credentials => ?_
  rw [hurl]
  exact fetch_eq endpoint body world headers credentials

end HttpClient

/-- What a client gets of an exchange, and the world after it. A lost request has not happened, and a lost
response has. -/
def HttpWorld.settle {α : Type} (world : HttpWorld S) (arrived : Except (TransportException ν ε) α × S) :
    Except (TransportException ν ε) α × HttpWorld S :=
  match world.delivery with
  | .delivered => (arrived.1, world.exchanged arrived.2)
  | .requestLost message => (.error (.fetchError message), world.exchanged world.server)
  | .responseLost message => (.error (.fetchError message), world.exchanged arrived.2)

namespace HttpClient

def exchanged (client : HttpClient ν ε S Intent Operation Rejection) (envelope : SyncRequestEnvelope Intent)
    (body : JsonValue ν) (state : S) :
    Except (TransportException ν ε) (SyncResponseEnvelope Operation Rejection) × S :=
  (client.received (client.endpointOf envelope) (client.answered (client.endpointOf envelope) body state),
    (client.outcome (client.endpointOf envelope) body state).2)

theorem transport_eq (client : HttpClient ν ε S Intent Operation Rejection) {envelope : SyncRequestEnvelope Intent}
    {body : JsonValue ν} (hencodes : client.Encodes envelope body) (world : HttpWorld S) :
    client.transport.synchronize envelope world = world.settle (client.exchanged envelope body world.server) := by
  have hread : (Transport.readAnswer client.runtime.toWireRuntime client.clientOptions
      (client.url (client.endpointOf envelope)) (client.fetched (client.endpointOf envelope) body world).1,
      (client.fetched (client.endpointOf envelope) body world).2) =
      world.settle (client.exchanged envelope body world.server) := by
    rw [exchanged, fetched, HttpWorld.settle]
    cases world.delivery <;> rfl
  have hcreated := client.createsTransport
  rw [← hread]
  cases hsplit : client.split with
  | true =>
      rw [hsplit, if_pos rfl, createSplitFetchSyncTransport, client.fetches, ok_bind] at hcreated
      rw [← Except.ok.inj hcreated]
      apply synchronizeAt_route _ hencodes world
      rw [endpointOf, hsplit]
      by_cases hproposals : envelope.request.proposals.length = 0 <;> simp [hproposals, url]
  | false =>
      rw [hsplit, if_neg (by decide), createFetchSyncTransport, client.fetches, ok_bind] at hcreated
      rw [← Except.ok.inj hcreated]
      apply synchronizeAt_route _ hencodes world
      rw [endpointOf, hsplit]
      rfl

end HttpClient

/-! ### Texts over the channel -/

section Texts

theorem decodeText_stringify (client : HttpClient ν ε S Intent Operation Rejection) {json : JsonValue ν}
    (hjson : json.Valid client.runtime.toNumberFormat) :
    client.runtime.decodeText (client.channel.encodeText (json.sorted.stringify client.runtime.toNumberFormat)) =
      json.sorted.stringify client.runtime.toNumberFormat := by
  apply client.decodes
  rw [stringify_sorted hjson]
  exact wellFormed_print client.lawful.format hjson

theorem stringify_sorted_ne_nil {format : NumberFormat ν} (hlawful : format.Lawful) {json : JsonValue ν}
    (hjson : json.Valid format) : json.sorted.stringify format ≠ [] := by
  intro hempty
  have hparse := parse_stringify_sorted hlawful hjson
  rw [hempty] at hparse
  simp [parse, readValue] at hparse

variable {client : HttpClient ν ε S Intent Operation Rejection}

theorem readResponse_sorted (url : String) (response : FetchResponse) {json : JsonValue ν}
    (hjson : json.Valid client.runtime.toNumberFormat) :
    Transport.readResponse client.runtime.toWireRuntime url response
        (client.runtime.decodeText (client.channel.encodeText
          (json.sorted.stringify client.runtime.toNumberFormat))) =
      if response.ok then .ok json.sorted
      else .error (.syncClientHttpError response.status
        ((Transport.bodyMessage client.runtime.toWireRuntime json.sorted).getD
          s!"sync endpoint returned HTTP {response.status}") (some json.sorted) : TransportException ν ε) := by
  have hlawful : client.runtime.toNumberFormat.Lawful := client.lawful.format
  rw [decodeText_stringify client hjson, Transport.readResponse, if_neg (stringify_sorted_ne_nil hlawful hjson),
    parse_stringify_sorted hlawful hjson]

namespace HttpClient

theorem received_json (endpoint : SyncRouteEndpoint) {json : JsonValue ν}
    (hjson : json.Valid client.runtime.toNumberFormat) :
    client.received endpoint (.ok (jsonResponse client.runtime json.sorted 200)) =
      (decodeSyncResponseEnvelope client.runtime.toWireRuntime (some json.sorted) client.clientOptions.operationCodec
        client.clientOptions.rejectionCodec client.clientOptions.limitOverrides).mapError .wireException := by
  have hread := readResponse_sorted (client.url endpoint)
    (client.channel.receive client.runtime (.ok (jsonResponse client.runtime json.sorted 200))) hjson
  rw [if_pos (by rfl)] at hread
  rw [received_eq]
  exact (congrArg (fun read => read >>= _) hread).trans (ok_bind _ _)

theorem received_refusal (client : HttpClient ν ε S Intent Operation Rejection) (endpoint : SyncRouteEndpoint)
    {exception : RouteException ν ε}
    (hroute : exception.FromRoute) :
    client.received endpoint (.ok (errorResponse client.runtime client.thrown exception)) =
      .error (refusal client.runtime client.thrown exception) := by
  have hread := readResponse_sorted (client.url endpoint)
    (client.channel.receive client.runtime (.ok (errorResponse client.runtime client.thrown exception)))
    (errorBody_valid client.runtime client.thrown exception)
  have hstatus : statusForError client.runtime.toWireRuntime client.thrown exception ≥ 400 := by
    rcases statusForError_eq client.runtime client.thrown exception with
      ⟨message, status, rfl, hstatus⟩ | ⟨-, hstatus⟩ | ⟨-, -, hstatus⟩
    · rw [hstatus]
      rcases hroute.1 with rfl | rfl <;> decide
    · omega
    · omega
  have hfail : (client.channel.receive client.runtime
      (.ok (errorResponse client.runtime client.thrown exception))).ok = false := by
    change (decide (200 ≤ statusForError client.runtime.toWireRuntime client.thrown exception) &&
      decide (statusForError client.runtime.toWireRuntime client.thrown exception ≤ 299)) = false
    rw [Bool.and_eq_false_iff]
    exact .inr (decide_eq_false (by omega))
  have hmessage : Transport.bodyMessage client.runtime.toWireRuntime
      (errorBody client.runtime client.thrown exception) = some (shownMessage client.runtime client.thrown exception) :=
    congrArg some (client.lawful.ofUnits_units _)
  rw [hfail, errorBody_sorted, hmessage] at hread
  rw [received_eq]
  exact (congrArg (fun read => read >>= _) hread).trans rfl

/-- What the client gets of an exception: a refusal once the application has been told of it, and what the
framework answers where that throws. -/
def rejection (client : HttpClient ν ε S Intent Operation Rejection) (endpoint : SyncRouteEndpoint)
    (body : JsonValue ν) (exception : RouteException ν ε) :
    Except (TransportException ν ε) (SyncResponseEnvelope Operation Rejection) :=
  match client.reported body exception with
  | .ok () => .error (refusal client.runtime client.thrown exception)
  | .error crash => client.received endpoint (.error crash)

theorem received_of_caught {endpoint : SyncRouteEndpoint} {body : JsonValue ν} {state : S}
    {exception : RouteException ν ε} (hroute : exception.FromRoute)
    (hcaught : (client.outcome endpoint body state).1 = .error exception) :
    client.received endpoint (client.answered endpoint body state) = client.rejection endpoint body exception := by
  rw [answered_of_caught hcaught, rejection]
  cases client.reported body exception with
  | ok told => exact client.received_refusal endpoint hroute
  | error crash => rfl

def size (client : HttpClient ν ε S Intent Operation Rejection) (body : JsonValue ν) : Nat :=
  (client.channel.encodeText (body.stringify client.runtime.toNumberFormat)).length

end HttpClient

end Texts

/-! ### A client and the authority behind its routes -/

/-- A client whose routes ask one authority about some streams: no callback of their application throws
where it comes to these, the limits of both sides resolve, and the channel keeps bodies whole. -/
structure HttpSetup (ν ε S Intent Operation Rejection : Type) extends HttpClient ν ε S Intent Operation Rejection where
  authority : SyncRouteAuthority ν ε S Intent Operation Rejection
  routed : String → Prop
  serverLimits : ProtocolLimits
  clientLimits : ProtocolLimits
  chunked : ∀ bytes, (channel.chunks bytes).flatten = bytes
  declares : ∀ bytes digits, channel.contentLength bytes = some digits → naturalValue digits = bytes.length
  resolvesServerLimits : (resolveProtocolLimits serverOptions.limitOverrides : Result ε ProtocolLimits) =
    .ok serverLimits
  resolvesClientLimits : (resolveProtocolLimits clientOptions.limitOverrides : Result ε ProtocolLimits) =
    .ok clientLimits
  resolves : ∀ context : ResolveSyncRouteStreamContext Intent,
    context.requestedStreamId = context.envelope.streamId → routed context.requestedStreamId →
    ∃ resolvedStreamId, resolveStreamId serverOptions context = .ok resolvedStreamId ∧ resolvedStreamId.length ≠ 0 ∧
      resolveAuthority serverOptions { context with resolvedStreamId } = .ok authority
  reports : ∀ onError, serverOptions.onError = some onError → ∀ exception request, onError exception request = .ok ()
  maximum : 0 < serverOptions.maximumRequestBytes.getD 1048576 ∧
    IsSafeInteger (serverOptions.maximumRequestBytes.getD 1048576)

namespace HttpSetup

variable {setup : HttpSetup ν ε S Intent Operation Rejection}

theorem rejection_eq (setup : HttpSetup ν ε S Intent Operation Rejection) (endpoint : SyncRouteEndpoint)
    (body : JsonValue ν) (exception : RouteException ν ε) :
    setup.rejection endpoint body exception = .error (refusal setup.runtime setup.thrown exception) := by
  have htold : setup.reported body exception = .ok () := by
    rw [HttpClient.reported]
    cases hon : setup.serverOptions.onError with
    | none => rfl
    | some onError => exact setup.reports onError hon exception (setup.sent body)
  rw [HttpClient.rejection, htold]

theorem readRequestJson_sent {json : JsonValue ν} (hjson : json.Valid setup.runtime.toNumberFormat) :
    readRequestJson setup.runtime (setup.sent json.sorted) (setup.maximumRequestBytes) =
      if (setup.size json.sorted : Int) > setup.maximumRequestBytes then
        .error requestTooLargeError
      else (.ok json.sorted : Except (RouteException ν ε) (JsonValue ν)) := by
  have hlawful : setup.runtime.toNumberFormat.Lawful := setup.lawful.format
  obtain ⟨hpositive, hsafe⟩ : 0 < setup.maximumRequestBytes ∧ IsSafeInteger setup.maximumRequestBytes :=
    setup.maximum
  have hmaximum : ¬(¬IsSafeInteger (setup.maximumRequestBytes) ∨
      setup.maximumRequestBytes ≤ 0) := by
    simpa using ⟨hsafe, hpositive⟩
  have htext : (readRequestText setup.runtime (setup.sent json.sorted)
      (setup.maximumRequestBytes) : Except (RouteException ν ε) Text) =
      if (setup.size json.sorted : Int) > setup.maximumRequestBytes then
        .error requestTooLargeError
      else .ok (json.sorted.stringify setup.runtime.toNumberFormat) := by
    change (readChunks _ 0 (setup.channel.chunks _) >>= _) = _
    rw [readChunks_eq _ (by omega), setup.chunked, zero_add]
    change ((if (setup.size json.sorted : Int) > _ then _ else _) >>= _) = _
    split
    · rfl
    · rw [ok_bind, decodeText_stringify setup.toHttpClient hjson]
      rfl
  rw [readRequestJson, throwIf_neg (not_not.mpr (show (setup.sent json.sorted).method = "POST" from rfl)), ok_bind,
    throwIf_neg hmaximum, ok_bind, htext]
  have hdeclared : assertDeclaredLength (setup.sent json.sorted).contentLength
      (setup.maximumRequestBytes) = (.ok () : Except (RouteException ν ε) Unit) ∨
      (setup.size json.sorted : Int) > setup.maximumRequestBytes ∧
        assertDeclaredLength (setup.sent json.sorted).contentLength
          (setup.maximumRequestBytes) =
            (.error requestTooLargeError : Except (RouteException ν ε) Unit) := by
    cases hlength : (setup.sent json.sorted).contentLength with
    | none => exact .inl rfl
    | some digits =>
        have hvalue : (naturalValue digits : Int) = setup.size json.sorted :=
          congrArg Nat.cast (setup.declares _ digits hlength)
        rw [assertDeclaredLength, throwIf]
        split
        · next htoolong =>
            refine .inr ⟨?_, rfl⟩
            rw [hvalue] at htoolong
            simp only [IsSafeInteger] at htoolong hsafe
            omega
        · exact .inl rfl
  rcases hdeclared with hdeclared | ⟨hlarge, hdeclared⟩
  · rw [hdeclared, ok_bind]
    split
    · rfl
    · rw [ok_bind, if_neg (stringify_sorted_ne_nil hlawful hjson), parse_stringify_sorted hlawful hjson]
      rfl
  · rw [hdeclared, if_pos hlarge, if_pos hlarge]
    rfl

end HttpSetup

/-! ### What the authority answers -/

/-- A codec that writes as the sender does and reads as the receiver does. -/
def Wire.JsonCodec.between {Value : Type} (sender receiver : Wire.JsonCodec ν ε Value) : Wire.JsonCodec ν ε Value where
  encode := sender.encode
  decode := receiver.decode

theorem encodeSyncRequestEnvelope_unique {runtime : WireRuntime ν} {envelope : SyncRequestEnvelope Intent}
    {codec : Wire.JsonCodec ν ε Intent} {limitOverrides limitOverrides' : ProtocolLimitOverrides}
    {json json' : JsonValue ν}
    (h : encodeSyncRequestEnvelope runtime envelope codec limitOverrides = .ok json)
    (h' : encodeSyncRequestEnvelope runtime envelope codec limitOverrides' = .ok json') : json = json' := by
  obtain ⟨_, -, h⟩ := bind_eq_ok.mp h
  obtain ⟨-, h⟩ := bind_unit_eq_ok.mp h
  obtain ⟨-, h⟩ := bind_unit_eq_ok.mp h
  obtain ⟨_, -, h'⟩ := bind_eq_ok.mp h'
  obtain ⟨-, h'⟩ := bind_unit_eq_ok.mp h'
  obtain ⟨-, h'⟩ := bind_unit_eq_ok.mp h'
  exact Except.ok.inj (h.symm.trans h')

theorem encodeSyncResponseEnvelope_unique {runtime : WireRuntime ν}
    {envelope : SyncResponseEnvelope Operation Rejection}
    {operationCodec : Wire.JsonCodec ν ε Operation} {rejectionCodec : Wire.JsonCodec ν ε Rejection}
    {limitOverrides limitOverrides' : ProtocolLimitOverrides} {json json' : JsonValue ν}
    (h : encodeSyncResponseEnvelope runtime envelope operationCodec rejectionCodec limitOverrides = .ok json)
    (h' : encodeSyncResponseEnvelope runtime envelope operationCodec rejectionCodec limitOverrides' = .ok json') :
    json = json' := by
  obtain ⟨_, -, h⟩ := bind_eq_ok.mp h
  obtain ⟨-, h⟩ := bind_unit_eq_ok.mp h
  obtain ⟨-, h⟩ := bind_unit_eq_ok.mp h
  obtain ⟨_, -, h'⟩ := bind_eq_ok.mp h'
  obtain ⟨-, h'⟩ := bind_unit_eq_ok.mp h'
  obtain ⟨-, h'⟩ := bind_unit_eq_ok.mp h'
  exact Except.ok.inj (h.symm.trans h')

namespace HttpSetup

/-- A request for one of the streams that both sides accept, with intents that the server reads as the client
means them. -/
structure Sends (setup : HttpSetup ν ε S Intent Operation Rejection) (envelope : SyncRequestEnvelope Intent) :
    Prop where
  stream : setup.routed envelope.streamId
  client : envelope.Valid setup.clientLimits
  server : envelope.Valid setup.serverLimits
  intents : ∀ proposal ∈ envelope.request.proposals,
    (setup.clientOptions.intentCodec.between setup.serverOptions.intentCodec).RoundTrips
      setup.runtime.toNumberFormat proposal.intent

/-- A response that both sides accept, with payloads that the client reads as the server means them. -/
structure Replies (setup : HttpSetup ν ε S Intent Operation Rejection)
    (envelope : SyncResponseEnvelope Operation Rejection) : Prop where
  server : envelope.Valid setup.serverLimits
  client : envelope.Valid setup.clientLimits
  entries : ∀ entry ∈ envelope.response.entries,
    (setup.serverOptions.operationCodec.between setup.clientOptions.operationCodec).RoundTrips
      setup.runtime.toNumberFormat entry.operation
  decisions : ∀ decision ∈ envelope.response.decisions,
    DecisionRoundTrips setup.runtime.toNumberFormat
      (setup.serverOptions.operationCodec.between setup.clientOptions.operationCodec)
      (setup.serverOptions.rejectionCodec.between setup.clientOptions.rejectionCodec) decision

variable {setup : HttpSetup ν ε S Intent Operation Rejection}

theorem Sends.encodes {envelope : SyncRequestEnvelope Intent} (h : setup.Sends envelope) :
    ∃ json : JsonValue ν, setup.Encodes envelope json.sorted ∧ json.Valid setup.runtime.toNumberFormat ∧
      decodeSyncRequestEnvelope setup.runtime.toWireRuntime (some json.sorted) setup.serverOptions.intentCodec
        setup.serverOptions.limitOverrides = .ok envelope := by
  obtain ⟨json, hencode, hvalid, -⟩ :=
    encodeSyncRequestEnvelope_returns setup.lawful setup.resolvesClientLimits h.client h.intents
  obtain ⟨json', hencode', -, hdecode⟩ :=
    encodeSyncRequestEnvelope_returns setup.lawful setup.resolvesServerLimits h.server h.intents
  rw [← encodeSyncRequestEnvelope_unique hencode hencode'] at hdecode
  exact ⟨json, hencode, hvalid, hdecode⟩

theorem Replies.encodes {envelope : SyncResponseEnvelope Operation Rejection} (h : setup.Replies envelope) :
    ∃ json : JsonValue ν, encodeSyncResponseEnvelope setup.runtime.toWireRuntime envelope
        setup.serverOptions.operationCodec setup.serverOptions.rejectionCodec setup.serverOptions.limitOverrides =
          .ok json.sorted ∧
      json.Valid setup.runtime.toNumberFormat ∧
      decodeSyncResponseEnvelope setup.runtime.toWireRuntime (some json.sorted) setup.clientOptions.operationCodec
        setup.clientOptions.rejectionCodec setup.clientOptions.limitOverrides = .ok envelope := by
  obtain ⟨json, hencode, hvalid, -⟩ :=
    encodeSyncResponseEnvelope_returns setup.lawful setup.resolvesServerLimits h.server h.entries h.decisions
  obtain ⟨json', hencode', -, hdecode⟩ :=
    encodeSyncResponseEnvelope_returns setup.lawful setup.resolvesClientLimits h.client h.entries h.decisions
  rw [← encodeSyncResponseEnvelope_unique hencode hencode'] at hdecode
  exact ⟨json, hencode, hvalid, hdecode⟩

theorem admitRoute_sent {envelope : SyncRequestEnvelope Intent} (h : setup.Sends envelope)
    {json : JsonValue ν} (hjson : json.Valid setup.runtime.toNumberFormat)
    (hdecode : decodeSyncRequestEnvelope setup.runtime.toWireRuntime (some json.sorted)
      setup.serverOptions.intentCodec setup.serverOptions.limitOverrides = .ok envelope)
    (hfits : (setup.size json.sorted : Int) ≤ setup.maximumRequestBytes) :
    admitRoute setup.runtime (setup.endpointOf envelope) (setup.sent json.sorted) setup.serverOptions =
      .ok (envelope, setup.authority) := by
  obtain ⟨streamId, hresolves, hnonEmpty, hauthority⟩ := setup.resolves
    ⟨setup.sent json.sorted, setup.endpointOf envelope, envelope.streamId, envelope⟩ rfl h.stream
  have hpull : ¬(setup.endpointOf envelope = .pull ∧ envelope.request.proposals.length > 0) := by
    intro hpull
    have hnone := HttpClient.no_proposals_of_pull hpull.1
    omega
  rw [admitRoute, readRequestJson_sent hjson, if_neg (by omega), ok_bind, hdecode]
  change (throwIf _ _ >>= _) = _
  rw [throwIf_neg hpull, ok_bind]
  dsimp only
  rw [hresolves, ok_bind, throwIf_neg hnonEmpty, ok_bind, hauthority, ok_bind, pure_eq_ok]

def refusing (setup : HttpSetup ν ε S Intent Operation Rejection) : TransportException ν ε → TransportException ν ε
  | .wireException exception => refusal setup.runtime setup.thrown (.wireException exception)
  | exception => exception

abbrev reply (envelope : SyncRequestEnvelope Intent) (response : SyncResponse Operation Rejection) :
    SyncResponseEnvelope Operation Rejection where
  protocolVersion := syncProtocolVersion
  streamId := envelope.streamId
  response := response

theorem authority_answers {authority : SyncRouteAuthority ν ε S Intent Operation Rejection}
    {envelope : SyncRequestEnvelope Intent} {state next : S} {response : SyncResponse Operation Rejection}
    (h : authority.synchronize state envelope.request = (.ok response, next)) :
    authority.transport.synchronize envelope state = (.ok (reply envelope response), next) := by
  dsimp only [SyncRouteAuthority.transport]
  rw [h]

theorem authority_throws {authority : SyncRouteAuthority ν ε S Intent Operation Rejection}
    {envelope : SyncRequestEnvelope Intent} {state next : S} {exception : WireException ν ε}
    (h : authority.synchronize state envelope.request = (.error exception, next)) :
    authority.transport.synchronize envelope state = (.error (.wireException exception), next) := by
  dsimp only [SyncRouteAuthority.transport]
  rw [h]

theorem outcome_eq (setup : HttpSetup ν ε S Intent Operation Rejection) {envelope : SyncRequestEnvelope Intent}
    (hsends : setup.Sends envelope) {body : JsonValue ν} (hencodes : setup.Encodes envelope body)
    (hfits : (setup.size body : Int) ≤ setup.maximumRequestBytes) (state : S) :
    setup.outcome (setup.endpointOf envelope) body state =
      ((setup.authority.synchronize state envelope.request).1.mapError RouteException.wireException >>=
        encodeRouteResponse setup.runtime setup.serverOptions envelope.streamId,
      (setup.authority.synchronize state envelope.request).2) := by
  obtain ⟨json, hencode, hvalid, hdecode⟩ := hsends.encodes
  obtain rfl := hencodes.unique hencode
  rw [HttpClient.outcome, routeOutcome, admitRoute_sent hsends hvalid hdecode hfits]

/-- An exchange whose request is not too large: the client gets what the authority answers, and a refusal
where the authority throws. -/
theorem exchanged_eq {envelope : SyncRequestEnvelope Intent} (hsends : setup.Sends envelope) {body : JsonValue ν}
    (hencodes : setup.Encodes envelope body) (hfits : (setup.size body : Int) ≤ setup.maximumRequestBytes) {state : S}
    (hreplies : ∀ response next, setup.authority.synchronize state envelope.request = (.ok response, next) →
      setup.Replies (reply envelope response)) :
    setup.exchanged envelope body state =
      ((setup.authority.transport.synchronize envelope state).1.mapError setup.refusing,
        (setup.authority.transport.synchronize envelope state).2) := by
  have houtcome := setup.outcome_eq hsends hencodes hfits state
  rw [HttpClient.exchanged]
  cases hanswer : setup.authority.synchronize state envelope.request with
  | mk result next =>
      rw [hanswer] at houtcome
      cases result with
      | error exception =>
          have hroute : (RouteException.wireException exception : RouteException ν ε).FromRoute := trivial
          rw [authority_throws hanswer, HttpClient.received_of_caught hroute (congrArg Prod.fst houtcome),
            setup.rejection_eq, houtcome]
          rfl
      | ok response =>
          obtain ⟨answer, hanswered, hanswerValid, hread⟩ := (hreplies response next hanswer).encodes
          have hroute : encodeRouteResponse setup.runtime setup.serverOptions envelope.streamId response =
              .ok (jsonResponse setup.runtime answer.sorted 200) := by
            rw [encodeRouteResponse, hanswered]
            rfl
          have hreturned : (setup.outcome (setup.endpointOf envelope) body state).1 =
              .ok (jsonResponse setup.runtime answer.sorted 200) := by
            rw [houtcome]
            exact hroute
          rw [authority_answers hanswer, HttpClient.answered, hreturned, settleOutcome,
            HttpClient.received_json _ hanswerValid, hread, houtcome]
          rfl

theorem outcome_of_large {json : JsonValue ν} (hvalid : json.Valid setup.runtime.toNumberFormat)
    (hlarge : (setup.size json.sorted : Int) > setup.maximumRequestBytes) (endpoint : SyncRouteEndpoint) (state : S) :
    setup.outcome endpoint json.sorted state = (.error requestTooLargeError, state) := by
  have hreaches : admitRoute setup.runtime endpoint (setup.sent json.sorted) setup.serverOptions =
      .error requestTooLargeError := by
    rw [admitRoute, readRequestJson_sent hvalid, if_pos hlarge]
    rfl
  rw [HttpClient.outcome, routeOutcome, hreaches]

/-- What a client gets from an authority over HTTP, when its request arrives: the authority's answer, or a
refusal where it throws, or where the request is too large. -/
def overHttp (setup : HttpSetup ν ε S Intent Operation Rejection) (envelope : SyncRequestEnvelope Intent)
    (body : JsonValue ν) (state : S) :
    Except (TransportException ν ε) (SyncResponseEnvelope Operation Rejection) × S :=
  if (setup.size body : Int) ≤ setup.maximumRequestBytes then
    ((setup.authority.transport.synchronize envelope state).1.mapError setup.refusing,
      (setup.authority.transport.synchronize envelope state).2)
  else (.error (refusal setup.runtime setup.thrown requestTooLargeError), state)

/-- An exchange over HTTP, however the bytes travel and whichever of the endpoints is asked. The client gets
what the authority answers, and a refusal where the authority throws; a request that is too large is refused
before the authority is asked. -/
theorem exchange_eq (setup : HttpSetup ν ε S Intent Operation Rejection) {envelope : SyncRequestEnvelope Intent}
    (hsends : setup.Sends envelope) {body : JsonValue ν} (hencodes : setup.Encodes envelope body)
    (world : HttpWorld S)
    (hreplies : ∀ response next, setup.authority.synchronize world.server envelope.request = (.ok response, next) →
      setup.Replies (reply envelope response)) :
    setup.transport.synchronize envelope world = world.settle (setup.overHttp envelope body world.server) := by
  rw [setup.transport_eq hencodes world, overHttp]
  split
  · next hfits => rw [exchanged_eq hsends hencodes hfits hreplies]
  · next hlarge =>
      obtain ⟨json, hencode, hvalid, -⟩ := hsends.encodes
      obtain rfl := hencodes.unique hencode
      have hroute : (requestTooLargeError : RouteException ν ε).FromRoute :=
        ⟨.inr rfl, includes_requests _ (by simp)⟩
      have houtcome := outcome_of_large hvalid (by omega) (setup.endpointOf envelope) world.server
      rw [HttpClient.exchanged, HttpClient.received_of_caught hroute (congrArg Prod.fst houtcome), setup.rejection_eq,
        houtcome]

theorem exchange_of_answer (setup : HttpSetup ν ε S Intent Operation Rejection) {envelope : SyncRequestEnvelope Intent}
    (hsends : setup.Sends envelope)
    (hfits : ∀ body, setup.Encodes envelope body → (setup.size body : Int) ≤ setup.maximumRequestBytes)
    (world : HttpWorld S) {response : SyncResponse Operation Rejection} {next : S}
    (hanswer : setup.authority.synchronize world.server envelope.request = (.ok response, next))
    (hreplies : setup.Replies (reply envelope response)) :
    setup.transport.synchronize envelope world = world.settle (.ok (reply envelope response), next) := by
  obtain ⟨json, hencodes, -, -⟩ := hsends.encodes
  rw [setup.exchange_eq hsends hencodes world fun other last hother => by
    obtain ⟨hresponse, -⟩ := Prod.mk.inj (hanswer.symm.trans hother)
    rwa [← Except.ok.inj hresponse]]
  rw [overHttp, if_pos (hfits _ hencodes), authority_answers hanswer]
  rfl

end HttpSetup

namespace HttpClient

end HttpClient

/-! ### A counter over HTTP -/

def utf8Runtime : RouteRuntime Int where
  toWireRuntime := integerRuntime
  decodeText := ofUtf8Bytes

def utf8Channel (ε : Type) : HttpChannel ε where
  encodeText := utf8Bytes
  chunks bytes := [bytes]
  contentLength bytes := some (naturalLiteral bytes.length)
  notFound := { status := 404, text := .ok [] }
  crashed _ := { status := 500, text := .ok [] }

theorem utf8Channel_declares (bytes : List UInt8) (digits : Text)
    (h : (utf8Channel ε).contentLength bytes = some digits) : naturalValue digits = bytes.length := by
  obtain rfl := Option.some.inj h
  exact naturalValue_naturalLiteral bytes.length

def messageCodec : Wire.JsonCodec Int Empty String where
  encode reason := .ok (some (.string (utf16Units reason)))
  decode value :=
    match value with
    | some (.string reason) => .ok (ofUtf16Units reason)
    | _ => .error (.wireDecodeError "$" "must be a string" none)

theorem messageCodec_roundTrips (reason : String) : messageCodec.RoundTrips integerFormat reason :=
  ⟨.string (utf16Units reason), .string (utf16Units reason), rfl, .string _,
    toJsonValue_of_valid integerFormat_lawful (.string _), congrArg Except.ok (ofUtf16Units_utf16Units reason)⟩

def neverThrown : ThrownClass Empty where
  isSyncEngineError exception := exception.elim
  message exception := exception.elim

section Counter

variable (authority : SyncRouteAuthority Int Empty S Int Int String)

def counterRouteOptions : CreateSyncRouteServerOptions Int Empty S Int Int String where
  intentCodec := deltaCodec
  operationCodec := deltaCodec
  rejectionCodec := messageCodec
  authority := some authority
  getAuthority := none
  resolveStream := none
  limitOverrides := {}
  maximumRequestBytes := none
  onError := none

def counterRoutes : NextSyncServer Empty S where
  pull request := handleSyncRoute utf8Runtime neverThrown .pull request (counterRouteOptions authority)
  push request := handleSyncRoute utf8Runtime neverThrown .push request (counterRouteOptions authority)

def counterFetch : Fetch (HttpWorld S) :=
  (utf8Channel Empty).fetch utf8Runtime ⟨"/counter/pull", "/counter"⟩ (counterRoutes authority)

def counterFetchOptions : FetchTransportOptions (HttpWorld S) Int Empty Int Int String where
  intentCodec := deltaCodec
  operationCodec := deltaCodec
  rejectionCodec := messageCodec
  fetch := some (counterFetch authority)

def counterHttp : HttpSetup Int Empty S Int Int String where
  runtime := utf8Runtime
  thrown := neverThrown
  channel := utf8Channel Empty
  serverOptions := counterRouteOptions authority
  server := counterRoutes authority
  authority := authority
  endpoints := ⟨"/counter/pull", "/counter"⟩
  globalFetch := none
  clientOptions := counterFetchOptions authority
  split := false
  transport := {
    synchronize := Transport.synchronizeAt integerRuntime (fun _ => "/counter") (counterFetch authority)
      (counterFetchOptions authority) }
  routed streamId := streamId.length ≠ 0
  serverLimits := defaultProtocolLimits
  clientLimits := defaultProtocolLimits
  lawful := integerRuntime_lawful
  decodes _ h := h.ofUtf8Bytes_utf8Bytes
  chunked _ := List.flatten_singleton
  declares := utf8Channel_declares
  distinct := by decide
  createsServer := rfl
  fetches := rfl
  createsTransport := rfl
  headers := by simp [counterFetchOptions]
  resolvesServerLimits := rfl
  resolvesClientLimits := rfl
  resolves context hsame hstream := ⟨context.envelope.streamId, rfl, hsame ▸ hstream, rfl⟩
  reports := by simp [counterRouteOptions]
  maximum := by
    change 0 < (1048576 : Int) ∧ IsSafeInteger 1048576
    decide

end Counter

variable (authority : SyncRouteAuthority Int Empty S Int Int String)

theorem counterHttp_size_le (body : JsonValue Int) :
    (counterHttp authority).size body ≤ 4 * (body.stringify integerFormat).length := length_utf8Bytes_le _

theorem counterHttp_maximumRequestBytes : (counterHttp authority).maximumRequestBytes = 1048576 := rfl

end SyncEngine
