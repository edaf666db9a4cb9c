import SyncEngine.Proof.Transport

/-!
# A row client over HTTP

The transport that a client creates from its configuration, over the row route of a row authority. Every
hypothesis about payloads is discharged here: what a row client sends is normal, and what a row authority
answers can be sent back.
-/

namespace SyncEngine

open JavaScript JavaScript.JsonValue Throwing

variable {ν : Type}

/-- A row client, created from a configuration with two endpoints or with one, of a row authority behind its
route. Neither side has a rejection codec of its own. -/
structure RowClientSetup (ν : Type) extends RowRouteSetup ν where
  channel : HttpChannel RowError
  urls : SplitSyncEndpoints
  config : SyncEndpointConfig
  globalFetch : Option (Fetch (HttpWorld (RowServer ν)))
  clientOptions : RowTransportOptions (HttpWorld (RowServer ν)) ν
  transport : SyncTransport (HttpWorld (RowServer ν)) ν RowError (RowOperation ν) (RowOperation ν) (JsonValue ν)
  decodes : ∀ text, WellFormed text → runtime.decodeText (channel.encodeText text) = text
  chunked : ∀ bytes, (channel.chunks bytes).flatten = bytes
  declares : ∀ bytes digits, channel.contentLength bytes = some digits → naturalValue digits = bytes.length
  distinct : urls.pull ≠ urls.push
  configured : config.pull = some urls.pull ∧ config.push = some urls.push ∨
    config.pull = none ∧ config.push = none ∧ config.synchronize = some urls.push
  createsTransport : createRowTransportFromConfig runtime.toWireRuntime rows globalFetch schema config clientOptions =
    .ok transport
  fetches : (clientOptions.fetch <|> globalFetch) = some (channel.fetch runtime urls route)
  headers : ∀ callback, clientOptions.headers = some (.callback callback) → ∀ world,
    ∃ entries, callback world = (.ok entries, world)
  maximum : 0 < options.maximumRequestBytes.getD 1048576 ∧
    IsSafeInteger (options.maximumRequestBytes.getD 1048576)
  sharedRejections : options.rejectionCodec = none ∧ clientOptions.rejectionCodec = none
  sortedReasons : ∀ error proposal,
    (rejectionReason rows rejectInvalidOperation error proposal).Valid rows.toNumberFormat ∧
      (rejectionReason rows rejectInvalidOperation error proposal).sorted =
        rejectionReason rows rejectInvalidOperation error proposal

namespace RowClientSetup

def split (setup : RowClientSetup ν) : Bool := setup.config.pull.isSome

theorem createsTransport_eq (setup : RowClientSetup ν) :
    (if setup.split then createSplitFetchSyncTransport setup.runtime.toWireRuntime setup.globalFetch setup.urls
        (setup.clientOptions.toFetchOptions setup.rows setup.schema)
      else createFetchSyncTransport setup.runtime.toWireRuntime setup.globalFetch setup.urls.push
        (setup.clientOptions.toFetchOptions setup.rows setup.schema)) = .ok setup.transport := by
  have hcreated := setup.createsTransport
  rw [createRowTransportFromConfig] at hcreated
  rcases setup.configured with ⟨hpull, hpush⟩ | ⟨hpull, hpush, hsynchronize⟩
  · rw [hpull, hpush] at hcreated
    rw [split, hpull, if_pos Option.isSome_some]
    exact mapError_eq_ok.mp hcreated
  · rw [hpull, hpush, hsynchronize] at hcreated
    rw [split, hpull, if_neg (by simp)]
    exact mapError_eq_ok.mp hcreated

theorem resolves_eq (setup : RowClientSetup ν) (context : ResolveSyncRouteStreamContext (RowOperation ν))
    (hsame : context.requestedStreamId = context.envelope.streamId) (hstream : context.requestedStreamId.length ≠ 0) :
    ∃ resolvedStreamId, resolveStreamId (setup.options.toRouteOptions setup.rows) context = .ok resolvedStreamId ∧
      resolvedStreamId.length ≠ 0 ∧
      resolveAuthority (setup.options.toRouteOptions setup.rows) { context with resolvedStreamId } =
        .ok (InMemoryLogServer.rowRouteAuthority setup.settings) := by
  rw [resolveStreamId]
  cases hresolve : (setup.options.toRouteOptions setup.rows).resolveStream with
  | none => exact ⟨context.envelope.streamId, rfl, hsame ▸ hstream, setup.authority _⟩
  | some resolveStream =>
      obtain ⟨streamId, hstreamId, hnonEmpty⟩ := setup.resolvesStream resolveStream hresolve context
      exact ⟨streamId, mapError_eq_ok.mpr hstreamId, hnonEmpty, setup.authority _⟩

def http (setup : RowClientSetup ν) :
    HttpSetup ν RowError (RowServer ν) (RowOperation ν) (RowOperation ν) (JsonValue ν) where
  runtime := setup.runtime
  thrown := rowErrorClass setup.runtime setup.rows
  channel := setup.channel
  serverOptions := setup.options.toRouteOptions setup.rows
  server := setup.route
  authority := InMemoryLogServer.rowRouteAuthority setup.settings
  routed streamId := streamId.length ≠ 0
  endpoints := setup.urls
  globalFetch := setup.globalFetch
  clientOptions := setup.clientOptions.toFetchOptions setup.rows setup.schema
  split := setup.split
  transport := setup.transport
  serverLimits := setup.limits
  clientLimits := defaultProtocolLimits
  lawful := setup.lawful
  decodes := setup.decodes
  chunked := setup.chunked
  declares := setup.declares
  distinct := setup.distinct
  createsServer := setup.createsRoute
  fetches := Transport.resolveFetch_eq setup.fetches
  createsTransport := setup.createsTransport_eq
  headers := setup.headers
  resolvesServerLimits := setup.resolvesLimits
  resolvesClientLimits := rfl
  resolves := setup.resolves_eq
  reports := setup.reports
  maximum := setup.maximum

variable {setup : RowClientSetup ν}

/-- Row operations that have been normalized pass from either side to the other. -/
theorem roundTrips {operation : RowOperation ν} (h : operation.Normal setup.rows setup.schema) :
    (setup.http.clientOptions.intentCodec.between setup.http.serverOptions.intentCodec).RoundTrips
        setup.runtime.toNumberFormat operation ∧
      (setup.http.serverOptions.operationCodec.between setup.http.clientOptions.operationCodec).RoundTrips
        setup.runtime.toNumberFormat operation := by
  have hformat := setup.sameFormat
  have hround := createRowOperationCodec_roundTrips (hformat ▸ setup.lawful.format) h
  obtain ⟨hintent, hoperation⟩ := @RowRouteSetup.codecs_eq ν setup.toRowRouteSetup
  rw [hformat] at hround
  change ((createRowOperationCodec setup.rows setup.schema).between
      (setup.options.toRouteOptions setup.rows).intentCodec).RoundTrips _ operation ∧
    ((setup.options.toRouteOptions setup.rows).operationCodec.between
      (createRowOperationCodec setup.rows setup.schema)).RoundTrips _ operation
  rw [hintent, hoperation]
  exact ⟨hround, hround⟩

theorem roundTrips_reason (error : RowError) (proposal : ProposedOperation (JsonValue ν)) :
    (setup.http.serverOptions.rejectionCodec.between setup.http.clientOptions.rejectionCodec).RoundTrips
      setup.runtime.toNumberFormat (rejectionReason setup.rows setup.rejectInvalidOperation error proposal) := by
  obtain ⟨hvalid, hsorted⟩ := setup.sortedReasons error proposal
  obtain ⟨hserver, hclient⟩ := setup.sharedRejections
  have hcodecs : setup.http.serverOptions.rejectionCodec.between setup.http.clientOptions.rejectionCodec =
      (jsonValueCodec setup.rows.toNumberFormat).between (Transport.jsonValueCodec setup.rows.toNumberFormat) := by
    change ((setup.options.rejectionCodec.getD (jsonValueCodec setup.rows.toNumberFormat)).between
      (setup.clientOptions.rejectionCodec.getD (Transport.jsonValueCodec setup.rows.toNumberFormat))) = _
    rw [hserver, hclient]
    rfl
  have hjson := toJsonValue_of_valid (ε := RowError) (setup.sameFormat ▸ setup.lawful.format) hvalid
  rw [hsorted] at hjson
  rw [hcodecs, ← setup.sameFormat]
  exact ⟨_, _, rfl, hvalid, hjson, hjson⟩

/-! ### Exactly once -/

section Once

open RowRouteSetup

variable {authority authority' : Authority setup.settings.interpreter setup.initialState}

abbrev atAuthority (request : SyncRequest (RowOperation ν)) : SyncRequest (JsonValue ν) :=
  request.mapIntents RowOperation.toJson

theorem replies {request : SyncRequest (JsonValue ν)} {envelope : SyncRequestEnvelope (RowOperation ν)}
    {response : SyncResponse (RowOperation ν) (JsonValue ν)}
    (h : Synchronized setup.settings authority.toBooks authority'.toBooks request response)
    (hserver : (HttpSetup.reply envelope response : SyncResponseEnvelope _ (JsonValue ν)).Valid setup.limits)
    (hclient : (HttpSetup.reply envelope response : SyncResponseEnvelope _ (JsonValue ν)).Valid defaultProtocolLimits) :
    setup.http.Replies (HttpSetup.reply envelope response) where
  server := hserver
  client := hclient
  entries := by
    have hrows := rowLedger_of_authority authority'
    have hlimits : setup.settings.limits.Resolved := InMemoryLogServer.create_resolved setup.createsServer
    have hgrows := (h.ledger_prefix.filterMap StoredProposalDecision.committed?).length_le
    have hhonest := respond_honest (List.prefix_refl authority'.ledger) hlimits h.valid
      (h.base.trans (Int.ofNat_le.mpr hgrows)) h.recorded
    intro entry hentry
    change entry ∈ response.entries at hentry
    rw [h.answered] at hentry
    obtain ⟨record, hrecord, hcommitted⟩ := mem_canonicalLog.mp (hhonest.mem_log hentry)
    obtain ⟨-, -, operationId, haccepted⟩ := StoredProposalDecision.committed?_eq_some hcommitted
    exact (roundTrips (hrows.accepted record hrecord _ _ _ haccepted)).2
  decisions := by
    have hrows := rowLedger_of_authority authority'
    intro decision hdecision
    obtain ⟨record, hrecord, hsame⟩ := h.recorded.exists_record hdecision
    cases decision with
    | accepted operationId sequence operation => exact (roundTrips (hrows.accepted record hrecord _ _ _ hsame)).2
    | rejected operationId reason =>
        obtain ⟨error, proposal, rfl⟩ := hrows.rejected record hrecord _ _ hsame
        exact roundTrips_reason error proposal

/-- A request that can be sent, with normal operations. -/
structure Pushes (setup : RowClientSetup ν) (envelope : SyncRequestEnvelope (RowOperation ν)) : Prop where
  client : envelope.Valid defaultProtocolLimits
  server : envelope.Valid setup.limits
  authority : ValidRequest envelope.request setup.settings.limits
  normal : ∀ proposal ∈ envelope.request.proposals, proposal.intent.Normal setup.rows setup.schema
  page : min envelope.request.maximumEntries setup.settings.limits.maximumEntriesPerResponse ≤
    min setup.limits.maximumEntriesPerResponse defaultProtocolLimits.maximumEntriesPerResponse
  size : ∀ body, setup.http.Encodes envelope body → (setup.http.size body : Int) ≤ setup.http.maximumRequestBytes

theorem Pushes.sends {envelope : SyncRequestEnvelope (RowOperation ν)} (h : setup.Pushes envelope) :
    setup.http.Sends envelope where
  stream := h.client.streamId
  client := h.client
  server := h.server
  intents proposal hproposal := (roundTrips (h.normal proposal hproposal)).1

theorem Pushes.replies {envelope : SyncRequestEnvelope (RowOperation ν)} (h : setup.Pushes envelope)
    {response : SyncResponse (RowOperation ν) (JsonValue ν)}
    (hsynchronized : Synchronized setup.settings authority.toBooks authority'.toBooks (atAuthority envelope.request)
      response) : setup.http.Replies (HttpSetup.reply envelope response) := by
  have hidentities : (atAuthority envelope.request).proposals.map ProposedOperation.toOperationSubmissionIdentity =
      envelope.request.proposals.map ProposedOperation.toOperationSubmissionIdentity := by
    simp [atAuthority, SyncRequest.mapIntents, ProposedOperation.mapIntent]
  have hpage := h.page
  have hlimits : setup.settings.limits.Resolved := InMemoryLogServer.create_resolved setup.createsServer
  have hwithin : ∀ limits : ProtocolLimits, envelope.Valid limits →
      min envelope.request.maximumEntries setup.settings.limits.maximumEntriesPerResponse ≤
        limits.maximumEntriesPerResponse →
      (HttpSetup.reply envelope response : SyncResponseEnvelope (RowOperation ν) (JsonValue ν)).Valid limits := by
    intro limits hvalid hentries
    have hgrows := (hsynchronized.ledger_prefix.filterMap StoredProposalDecision.committed?).length_le
    have hresponse : ValidResponse response (some setup.settings.limits) := by
      rw [hsynchronized.answered]
      exact (respond_valid authority'.justified hlimits hsynchronized.valid
        (hsynchronized.base.trans (Int.ofNat_le.mpr hgrows)) hsynchronized.recorded).mpr hsynchronized.safe
    have hlength := InMemoryLogServer.Synchronized.entries_length hlimits hsynchronized
    have hdecisions : response.decisions.length = (atAuthority envelope.request).proposals.length :=
      hsynchronized.recorded.length_eq.symm
    have hproposals : (atAuthority envelope.request).proposals.length = envelope.request.proposals.length :=
      List.length_map _
    have hlimit := hvalid.request.withinLimit
    refine ⟨rfl, hvalid.streamId, { hresponse with withinLimits := ?_ }⟩
    intro bounds hbounds
    obtain rfl := Option.some.inj hbounds
    refine ⟨?_, by rw [hdecisions, hproposals]; exact hlimit⟩
    rw [hlength]
    exact (min_le_min_left _ (min_le_left _ _)).trans hentries
  exact RowClientSetup.replies hsynchronized (hwithin _ h.server (by omega)) (hwithin _ h.client (by omega))

end Once

/-! ### Attempts -/

section Attempts

theorem run_flatten (settings : LogServerSettings State Intent Operation Rejection ε)
    (server : InMemoryLogServer State Operation Rejection) (first : List (SyncRequest Intent))
    (others : List (List (SyncRequest Intent))) :
    server.run settings (first :: others).flatten = (server.run settings first).run settings others.flatten := by
  rw [List.flatten_cons]
  exact List.foldl_append

variable {envelope : SyncRequestEnvelope (RowOperation ν)}
  {authority : Authority setup.settings.interpreter setup.initialState} {world : HttpWorld (RowServer ν)}
  {response : SyncResponse (RowOperation ν) (JsonValue ν)}

theorem exchange_of_call (h : setup.Pushes envelope) (world : HttpWorld (RowServer ν))
    (hserver : world.server.Holds authority) {next : RowServer ν}
    (hcall : InMemoryLogServer.synchronize setup.settings world.server (atAuthority envelope.request) =
      .ok (response, next)) :
    setup.transport.synchronize envelope world = world.settle (.ok (HttpSetup.reply envelope response), next) := by
  obtain ⟨authority', -, hsynchronized⟩ := InMemoryLogServer.synchronize_holds hserver hcall
  have hanswer : (InMemoryLogServer.rowRouteAuthority setup.settings).synchronize world.server envelope.request =
      (.ok response, next) := by
    rw [InMemoryLogServer.rowRouteAuthority]
    dsimp only
    rw [hcall]
  exact setup.http.exchange_of_answer h.sends h.size world hanswer (h.replies hsynchronized)

theorem Pushes.validRequest (h : setup.Pushes envelope) :
    ValidRequest (atAuthority envelope.request) setup.settings.limits :=
  h.authority.of_identities rfl rfl (by simp [atAuthority, SyncRequest.mapIntents, ProposedOperation.mapIntent])

/-- A client that sends an envelope again and again, whatever it gets. Before every attempt, the authority is
asked by others. -/
def attempts (setup : RowClientSetup ν) (envelope : SyncRequestEnvelope (RowOperation ν)) :
    List (List (SyncRequest (JsonValue ν))) → HttpWorld (RowServer ν) →
      List (Except (TransportException ν RowError) (SyncResponseEnvelope (RowOperation ν) (JsonValue ν))) ×
        HttpWorld (RowServer ν)
  | [], world => ([], world)
  | others :: rest, world =>
      let (result, next) := setup.transport.synchronize envelope
        { world with server := InMemoryLogServer.run setup.settings world.server others }
      let (results, last) := attempts setup envelope rest next
      (result :: results, last)

abbrev attempted (setup : RowClientSetup ν) (world : HttpWorld (RowServer ν))
    (others : List (SyncRequest (JsonValue ν))) : HttpWorld (RowServer ν) :=
  { world with server := InMemoryLogServer.run setup.settings world.server others }

theorem attempts_cons (first : List (SyncRequest (JsonValue ν))) (others : List (List (SyncRequest (JsonValue ν)))) :
    setup.attempts envelope (first :: others) world =
      let exchange := setup.transport.synchronize envelope (setup.attempted world first)
      (exchange.1 :: (setup.attempts envelope others exchange.2).1, (setup.attempts envelope others exchange.2).2) :=
  rfl

/-- What an attempt gets when the decisions are those of a response. -/
def Answered (envelope : SyncRequestEnvelope (RowOperation ν))
    (response : SyncResponse (RowOperation ν) (JsonValue ν)) : Delivery →
      Except (TransportException ν RowError) (SyncResponseEnvelope (RowOperation ν) (JsonValue ν)) → Prop
  | .delivered, result => ∃ answer, result = .ok (HttpSetup.reply envelope answer) ∧
      answer.decisions = response.decisions ∧ response.entries <+: answer.entries
  | .requestLost message, result => result = .error (.fetchError message)
  | .responseLost message, result => result = .error (.fetchError message)

theorem answered_settle {answer : SyncResponse (RowOperation ν) (JsonValue ν)}
    (hdecisions : answer.decisions = response.decisions) (hentries : response.entries <+: answer.entries)
    (world : HttpWorld (RowServer ν)) (next : RowServer ν) :
    Answered envelope response world.delivery
      (world.settle (.ok (HttpSetup.reply envelope answer), next) :
        Except (TransportException ν RowError) _ × HttpWorld (RowServer ν)).1 := by
  rw [HttpWorld.settle]
  cases world.delivery with
  | delivered => exact ⟨answer, rfl, hdecisions, hentries⟩
  | requestLost message => rfl
  | responseLost message => rfl

theorem settle_deliveries {α : Type} (world : HttpWorld (RowServer ν))
    (arrived : Except (TransportException ν RowError) α × RowServer ν) :
    (world.settle arrived).2.deliveries = world.deliveries.tail := by
  rw [HttpWorld.settle]
  cases world.delivery <;> rfl

theorem settle_server_self {α : Type} (world : HttpWorld (RowServer ν))
    (result : Except (TransportException ν RowError) α) :
    (world.settle (result, world.server)).2.server = world.server := by
  rw [HttpWorld.settle]
  cases world.delivery <;> rfl

theorem getElem?_results {P : Nat → Delivery →
      Except (TransportException ν RowError) (SyncResponseEnvelope (RowOperation ν) (JsonValue ν)) → Prop}
    {result : Except (TransportException ν RowError) (SyncResponseEnvelope (RowOperation ν) (JsonValue ν))}
    {results : List (Except (TransportException ν RowError) (SyncResponseEnvelope (RowOperation ν) (JsonValue ν)))}
    {count : Nat} (hresult : P 0 world.delivery result)
    (hresults : ∀ index < count, ∃ other, results[index]? = some other ∧
      P (index + 1) ((world.deliveries.tail[index]?).getD .delivered) other)
    {index : Nat} (hindex : index < count + 1) :
    ∃ other, (result :: results)[index]? = some other ∧
      P index ((world.deliveries[index]?).getD .delivered) other := by
  cases index with
  | zero =>
      have hdelivery : (world.deliveries[0]?).getD .delivered = world.delivery := by
        rw [HttpWorld.delivery]
        cases world.deliveries <;> rfl
      refine ⟨result, rfl, ?_⟩
      rwa [hdelivery]
  | succ index =>
      have htail : world.deliveries[index + 1]? = world.deliveries.tail[index]? := by rw [List.getElem?_tail]
      rw [htail]
      exact hresults index (by omega)

/-- Attempts after a decision: nothing more is decided. -/
theorem attempts_of_recorded (h : setup.Pushes envelope) (hserver : world.server.Holds authority)
    {decisions : List (ProposalDecision (RowOperation ν) (JsonValue ν))}
    (hrecorded : Recorded authority.ledger (atAuthority envelope.request).proposals decisions)
    (hbase : envelope.request.baseSequence ≤ authority.log.length) (hdecisions : response.decisions = decisions)
    (hentries : response.entries <+: (InMemoryLogServer.respond setup.settings.limits authority.log
      (atAuthority envelope.request) decisions).entries) (others : List (List (SyncRequest (JsonValue ν)))) :
    (setup.attempts envelope others world).2.server =
        InMemoryLogServer.run setup.settings world.server others.flatten ∧
      ∀ index < others.length, ∃ result, (setup.attempts envelope others world).1[index]? = some result ∧
        Answered envelope response ((world.deliveries[index]?).getD .delivered) result := by
  have hlimits : setup.settings.limits.Resolved := InMemoryLogServer.create_resolved setup.createsServer
  induction others generalizing world authority with
  | nil => exact ⟨rfl, by simp [attempts]⟩
  | cons first others ih =>
      obtain ⟨authority', hnext, hgrows⟩ := InMemoryLogServer.run_holds hserver first
      have hlogs : authority.log <+: authority'.log := hgrows.filterMap _
      have hbase' : (atAuthority envelope.request).baseSequence ≤ authority'.log.length :=
        hbase.trans (Int.ofNat_le.mpr hlogs.length_le)
      have hrecorded' := hrecorded.mono hgrows.subset
      have hcall := InMemoryLogServer.synchronize_of_recorded hnext hlimits h.validRequest hbase' hrecorded'
      have hpage := hentries.trans
        (InMemoryLogServer.respond_entries_prefix hlimits h.validRequest hlogs decisions decisions)
      have hexchange := exchange_of_call h (setup.attempted world first) hnext hcall
      have hserver' : (setup.transport.synchronize envelope (setup.attempted world first)).2.server =
          (setup.attempted world first).server := by
        rw [hexchange]
        exact settle_server_self _ _
      have hserved :
          (setup.transport.synchronize envelope (setup.attempted world first)).2.server.Holds authority' := by
        rw [hserver']
        exact hnext
      obtain ⟨hlast, hresults⟩ := ih hserved hrecorded' hbase' hpage
      rw [hserver'] at hlast
      rw [hexchange, settle_deliveries, ← hexchange] at hresults
      rw [attempts_cons, run_flatten]
      refine ⟨hlast, fun index hindex =>
        getElem?_results (P := fun _ => Answered envelope response) ?_ hresults hindex⟩
      rw [hexchange]
      exact answered_settle hdecisions.symm hpage _ _

/-- A request that the authority admits: it fits what has been decided before, and the log has room for it. -/
structure Admits (setup : RowClientSetup ν) (envelope : SyncRequestEnvelope (RowOperation ν)) (server : RowServer ν) :
    Prop where
  fits : RowRouteSetup.Fits server (atAuthority envelope.request)
  room : (server.log.length : Int) + envelope.request.proposals.length ≤ maxSafeInteger

structure Refuses (setup : RowClientSetup ν) (envelope : SyncRequestEnvelope (RowOperation ν)) (server : RowServer ν)
    (error : SyncEngineError RowError) : Prop where
  call : InMemoryLogServer.synchronize setup.settings server (atAuthority envelope.request) = .error error
  admits : ¬setup.Admits envelope server

/-- What an attempt gets that decides nothing: it is lost on its way, or refused by the authority. -/
def Declined (setup : RowClientSetup ν) (envelope : SyncRequestEnvelope (RowOperation ν)) (server : RowServer ν) :
    Delivery → Except (TransportException ν RowError) (SyncResponseEnvelope (RowOperation ν) (JsonValue ν)) → Prop
  | .delivered, result => ∃ error, setup.Refuses envelope server error ∧
      result = .error (refusal setup.runtime (rowErrorClass setup.runtime setup.rows)
        (.wireException (.syncEngineError error)))
  | .requestLost message, result => result = .error (.fetchError message)
  | .responseLost message, result => (∃ error, setup.Refuses envelope server error) ∧
      result = .error (.fetchError message)

/-- No attempt decides anything: each is lost or refused. -/
structure NeverDecided (setup : RowClientSetup ν) (envelope : SyncRequestEnvelope (RowOperation ν))
    (others : List (List (SyncRequest (JsonValue ν)))) (world : HttpWorld (RowServer ν)) : Prop where
  results : ∀ index < others.length, ∃ result, (setup.attempts envelope others world).1[index]? = some result ∧
    setup.Declined envelope (InMemoryLogServer.run setup.settings world.server (others.take (index + 1)).flatten)
      ((world.deliveries[index]?).getD .delivered) result
  server : (setup.attempts envelope others world).2.server =
    InMemoryLogServer.run setup.settings world.server others.flatten

/-- The first attempt that arrives and is not refused decides, after `before` and `first`, and no other attempt
does. -/
structure DecidedOnce (setup : RowClientSetup ν) (envelope : SyncRequestEnvelope (RowOperation ν))
    (before : List (List (SyncRequest (JsonValue ν)))) (first : List (SyncRequest (JsonValue ν)))
    (after : List (List (SyncRequest (JsonValue ν)))) (world : HttpWorld (RowServer ν))
    (response : SyncResponse (RowOperation ν) (JsonValue ν)) (next : RowServer ν) : Prop where
  arrives : ∀ message, world.deliveries[before.length]? ≠ some (.requestLost message)
  call : InMemoryLogServer.synchronize setup.settings
    (InMemoryLogServer.run setup.settings world.server (before ++ [first]).flatten) (atAuthority envelope.request) =
      .ok (response, next)
  decides : List.Forall₂ (setup.Decides (InMemoryLogServer.run setup.settings world.server (before ++ [first]).flatten))
    (atAuthority envelope.request).proposals response.decisions
  server : (setup.attempts envelope (before ++ first :: after) world).2.server =
    InMemoryLogServer.run setup.settings next after.flatten
  results : ∀ index < (before ++ first :: after).length, ∃ result,
    (setup.attempts envelope (before ++ first :: after) world).1[index]? = some result ∧
      (index < before.length → setup.Declined envelope
        (InMemoryLogServer.run setup.settings world.server (before.take (index + 1)).flatten)
        ((world.deliveries[index]?).getD .delivered) result) ∧
      (before.length ≤ index → Answered envelope response ((world.deliveries[index]?).getD .delivered) result)

/-- The authority throws only where it does not admit the request. -/
theorem refuses_of_error (h : setup.Pushes envelope) {server : RowServer ν} (hserver : server.Holds authority)
    {error : SyncEngineError RowError}
    (hcall : InMemoryLogServer.synchronize setup.settings server (atAuthority envelope.request) = .error error) :
    setup.Refuses envelope server error where
  call := hcall
  admits hadmits := by
    have hlimits : setup.settings.limits.Resolved := InMemoryLogServer.create_resolved setup.createsServer
    have hproposals : (atAuthority envelope.request).proposals.length = envelope.request.proposals.length :=
      List.length_map _
    have hroom := hadmits.room
    rw [← hproposals] at hroom
    obtain ⟨response, next, hreturns⟩ := (hserver.returns_iff_admits hlimits hroom).mpr
      (RowRouteSetup.admits_of_fits hserver h.validRequest hadmits.fits)
    rw [hcall] at hreturns
    simp at hreturns

theorem exchange_of_error (h : setup.Pushes envelope) (world : HttpWorld (RowServer ν))
    {error : SyncEngineError RowError}
    (hcall : InMemoryLogServer.synchronize setup.settings world.server (atAuthority envelope.request) = .error error) :
    setup.transport.synchronize envelope world =
      world.settle (.error (refusal setup.runtime (rowErrorClass setup.runtime setup.rows)
        (.wireException (.syncEngineError error))), world.server) := by
  obtain ⟨json, hencodes, -, -⟩ := h.sends.encodes
  have hthrows : setup.http.authority.synchronize world.server envelope.request =
      (.error (.syncEngineError error), world.server) := by
    change (InMemoryLogServer.rowRouteAuthority setup.settings).synchronize world.server envelope.request = _
    rw [InMemoryLogServer.rowRouteAuthority]
    dsimp only
    rw [hcall]
  have hexchange := setup.http.exchange_eq h.sends hencodes world fun response next hanswer => by
    rw [hthrows] at hanswer
    simp at hanswer
  rw [HttpSetup.overHttp, if_pos (h.size _ hencodes), HttpSetup.authority_throws hthrows] at hexchange
  exact hexchange

theorem exchange_of_declined (h : setup.Pushes envelope) (hserver : world.server.Holds authority)
    (hdeclines : (∃ message, world.delivery = .requestLost message) ∨
      ∃ error, InMemoryLogServer.synchronize setup.settings world.server (atAuthority envelope.request) =
        .error error) :
    ∃ result, setup.transport.synchronize envelope world = (result, world.exchanged world.server) ∧
      setup.Declined envelope world.server world.delivery result := by
  rcases hdeclines with ⟨message, hlost⟩ | ⟨error, hcall⟩
  · obtain ⟨json, hencodes, -, -⟩ := h.sends.encodes
    have hexchange := setup.http.transport_eq hencodes world
    rw [HttpWorld.settle, hlost] at hexchange
    rw [hlost]
    exact ⟨_, hexchange, rfl⟩
  · have hexchange := exchange_of_error h world hcall
    have hrefuses := refuses_of_error h hserver hcall
    rw [HttpWorld.settle] at hexchange
    cases hdelivery : world.delivery with
    | delivered =>
        rw [hdelivery] at hexchange
        exact ⟨_, hexchange, error, hrefuses, rfl⟩
    | requestLost message =>
        rw [hdelivery] at hexchange
        exact ⟨_, hexchange, rfl⟩
    | responseLost message =>
        rw [hdelivery] at hexchange
        exact ⟨_, hexchange, ⟨error, hrefuses⟩, rfl⟩

/-- The first attempt decides when it arrives and the authority returns. -/
theorem decidedOnce_of_arrives (hpushes : setup.Pushes envelope) (hserver : world.server.Holds authority)
    {first : List (SyncRequest (JsonValue ν))} {others : List (List (SyncRequest (JsonValue ν)))}
    (harrives : ∀ message, (setup.attempted world first).delivery ≠ .requestLost message) {next : RowServer ν}
    (hcall : InMemoryLogServer.synchronize setup.settings (setup.attempted world first).server
      (atAuthority envelope.request) = .ok (response, next)) :
    setup.DecidedOnce envelope [] first others world response next := by
  obtain ⟨authority', hnext, -⟩ := InMemoryLogServer.run_holds hserver first
  obtain ⟨authority'', hdecided, hsynchronized⟩ := InMemoryLogServer.synchronize_holds hnext hcall
  have hexchange := exchange_of_call hpushes (setup.attempted world first) hnext hcall
  have hserver' : (setup.transport.synchronize envelope (setup.attempted world first)).2.server = next := by
    rw [hexchange, HttpWorld.settle]
    cases hdelivery : (setup.attempted world first).delivery with
    | delivered => rfl
    | requestLost message => exact absurd hdelivery (harrives message)
    | responseLost message => rfl
  have hgrows := (hsynchronized.ledger_prefix.filterMap StoredProposalDecision.committed?).length_le
  have hbase : envelope.request.baseSequence ≤ authority''.log.length :=
    hsynchronized.base.trans (Int.ofNat_le.mpr hgrows)
  have hentries : response.entries <+: (InMemoryLogServer.respond setup.settings.limits authority''.log
      (atAuthority envelope.request) response.decisions).entries := by
    rw [← hsynchronized.answered]
  obtain ⟨hlast, hresults⟩ := attempts_of_recorded hpushes
    (show (setup.transport.synchronize envelope (setup.attempted world first)).2.server.Holds authority'' from
      hserver'.symm ▸ hdecided) hsynchronized.recorded hbase rfl hentries others
  rw [hserver'] at hlast
  rw [hexchange, settle_deliveries, ← hexchange] at hresults
  constructor
  case arrives =>
    intro message hlost
    refine harrives message ?_
    rw [HttpWorld.delivery, List.headD_eq_head?_getD, List.head?_eq_getElem?]
    exact congrArg (fun delivery => delivery.getD .delivered) hlost
  case call =>
    rw [List.nil_append, List.flatten_singleton]
    exact hcall
  case decides =>
    rw [List.nil_append, List.flatten_singleton]
    exact RowRouteSetup.decides_of_synchronized hnext hsynchronized
  case server => exact hlast
  case results =>
    intro index hindex
    have hresult : Answered envelope response (setup.attempted world first).delivery
        (setup.transport.synchronize envelope (setup.attempted world first)).1 := by
      rw [hexchange]
      exact answered_settle rfl (List.prefix_refl _) _ _
    obtain ⟨result, hresult, hanswered⟩ :=
      getElem?_results (P := fun _ => Answered envelope response) hresult hresults hindex
    exact ⟨result, hresult, fun hbefore => absurd hbefore (Nat.not_lt_zero index), fun _ => hanswered⟩

/-! An attempt that is lost or refused comes before the others. -/

section Declined

variable {first : List (SyncRequest (JsonValue ν))}
  {result : Except (TransportException ν RowError) (SyncResponseEnvelope (RowOperation ν) (JsonValue ν))}
  (hexchange : setup.transport.synchronize envelope (setup.attempted world first) =
    (result, (setup.attempted world first).exchanged (setup.attempted world first).server))
  (hdeclined : setup.Declined envelope (setup.attempted world first).server world.delivery result)

include hexchange hdeclined

theorem NeverDecided.after_declined {others : List (List (SyncRequest (JsonValue ν)))}
    (h : setup.NeverDecided envelope others
      ((setup.attempted world first).exchanged (setup.attempted world first).server)) :
    setup.NeverDecided envelope (first :: others) world where
  results index hindex := by
    rw [attempts_cons, hexchange]
    refine getElem?_results (P := fun index => setup.Declined envelope
      (InMemoryLogServer.run setup.settings world.server ((first :: others).take (index + 1)).flatten)) ?_ ?_ hindex
    · rw [List.take_succ_cons, List.take_zero, List.flatten_singleton]
      exact hdeclined
    · intro index hindex
      obtain ⟨other, hother, hdeclined⟩ := h.results index hindex
      refine ⟨other, hother, ?_⟩
      rw [List.take_succ_cons, run_flatten]
      exact hdeclined
  server := by
    rw [attempts_cons, hexchange, run_flatten]
    exact h.server

theorem DecidedOnce.after_declined {before : List (List (SyncRequest (JsonValue ν)))}
    {first' : List (SyncRequest (JsonValue ν))} {after : List (List (SyncRequest (JsonValue ν)))} {next : RowServer ν}
    (h : setup.DecidedOnce envelope before first' after
      ((setup.attempted world first).exchanged (setup.attempted world first).server) response next) :
    setup.DecidedOnce envelope (first :: before) first' after world response next := by
  constructor
  case arrives =>
    rw [List.length_cons, ← List.getElem?_tail]
    exact h.arrives
  case call =>
    rw [List.cons_append, run_flatten]
    exact h.call
  case decides =>
    rw [List.cons_append, run_flatten]
    exact h.decides
  case server =>
    rw [List.cons_append, attempts_cons, hexchange]
    exact h.server
  case results =>
    intro index hindex
    rw [List.cons_append, attempts_cons, hexchange]
    refine getElem?_results (P := fun index delivery result =>
      (index < (first :: before).length → setup.Declined envelope
        (InMemoryLogServer.run setup.settings world.server ((first :: before).take (index + 1)).flatten) delivery
          result) ∧ ((first :: before).length ≤ index → Answered envelope response delivery result)) ?_ ?_ hindex
    · refine ⟨fun _ => ?_, fun hafter => absurd hafter (by simp)⟩
      rw [List.take_succ_cons, List.take_zero, List.flatten_singleton]
      exact hdeclined
    · intro index hindex
      obtain ⟨other, hother, hearly, hlate⟩ := h.results index hindex
      refine ⟨other, hother, fun hbefore => ?_, fun hafter => hlate (Nat.le_of_succ_le_succ hafter)⟩
      rw [List.take_succ_cons, run_flatten]
      exact hearly (Nat.lt_of_succ_lt_succ hbefore)

end Declined

theorem attempts_once (hpushes : setup.Pushes envelope) (hserver : world.server.Holds authority)
    (others : List (List (SyncRequest (JsonValue ν)))) :
    setup.NeverDecided envelope others world ∨
      ∃ before first after response next, others = before ++ first :: after ∧
        setup.DecidedOnce envelope before first after world response next := by
  induction others generalizing world authority with
  | nil => exact .inl ⟨by simp, rfl⟩
  | cons first others ih =>
      obtain ⟨authority', hnext, -⟩ := InMemoryLogServer.run_holds hserver first
      by_cases hdeclines : (∃ message, (setup.attempted world first).delivery = .requestLost message) ∨
          ∃ error, InMemoryLogServer.synchronize setup.settings (setup.attempted world first).server
            (atAuthority envelope.request) = .error error
      · obtain ⟨result, hexchange, hdeclined⟩ := exchange_of_declined hpushes hnext hdeclines
        have hserved : ((setup.attempted world first).exchanged (setup.attempted world first).server).server.Holds
            authority' := hnext
        rcases ih hserved with hnever | ⟨before, first', after, response, next, rfl, hdecided⟩
        · exact .inl (hnever.after_declined hexchange hdeclined)
        · exact .inr ⟨first :: before, first', after, response, next, rfl,
            hdecided.after_declined hexchange hdeclined⟩
      · obtain ⟨harrives, hreturns⟩ := not_or.mp hdeclines
        cases hcall : InMemoryLogServer.synchronize setup.settings (setup.attempted world first).server
            (atAuthority envelope.request) with
        | error error => exact absurd ⟨error, hcall⟩ hreturns
        | ok answer =>
            exact .inr ⟨[], first, others, answer.1, answer.2, rfl,
              decidedOnce_of_arrives hpushes hserver (not_exists.mp harrives) hcall⟩

/-- A push, sent again and again, while others ask the authority. Either every attempt is lost or refused and
nothing is decided, or the first that arrives and is not refused decides every proposal, and the authority goes
on as if it were the only one: a later attempt that is answered gets the decisions of the first and at least its
entries. An attempt is refused only where the authority does not admit it after what the others have asked. -/
theorem push_decided_once (setup : RowClientSetup ν) (earlier : List (SyncRequest (JsonValue ν)))
    {envelope : SyncRequestEnvelope (RowOperation ν)} (hpushes : setup.Pushes envelope)
    (others : List (List (SyncRequest (JsonValue ν)))) (deliveries : List Delivery) :
    let world := ⟨InMemoryLogServer.run setup.settings setup.fresh earlier, deliveries⟩
    setup.NeverDecided envelope others world ∨
      ∃ before first after response next, others = before ++ first :: after ∧
        setup.DecidedOnce envelope before first after world response next := by
  intro world
  obtain ⟨authority, hserver, -⟩ :=
    InMemoryLogServer.run_holds (InMemoryLogServer.create_holds setup.createsServer) earlier
  exact attempts_once hpushes (show world.server.Holds authority from hserver) others

end Attempts

end RowClientSetup

/-! ### A client of the notes -/

def noteRoutes : NextSyncServer RowError (RowServer Int) where
  pull request := handleSyncRoute utf8Runtime (rowErrorClass utf8Runtime integerRows) .pull request
    ((noteOptions noteAuthority).toRouteOptions integerRows)
  push request := handleSyncRoute utf8Runtime (rowErrorClass utf8Runtime integerRows) .push request
    ((noteOptions noteAuthority).toRouteOptions integerRows)

def noteUrls : SplitSyncEndpoints := ⟨"/api/sync/pull", "/api/sync/push"⟩

def noteFetch : Fetch (HttpWorld (RowServer Int)) := (utf8Channel RowError).fetch utf8Runtime noteUrls noteRoutes

theorem noteUrls_distinct : noteUrls.pull ≠ noteUrls.push := by decide

theorem note_headers {World : Type} (callback : World → Except RowError (List (String × String)) × World)
    (h : (none : Option (ConfiguredHeaders World RowError)) = some (.callback callback)) (world : World) :
    ∃ entries, callback world = (.ok entries, world) := by
  simp at h

theorem note_maximum : 0 < (1048576 : Int) ∧ IsSafeInteger 1048576 := by decide

theorem note_sortedReasons (error : RowError) (proposal : ProposedOperation (JsonValue Int)) :
    SortedJson (rejectionReason integerRows none error proposal) := by
  refine sortedJson_object (by simp only [List.map_cons, List.map_nil]; decide) ?_
  simp only [List.forall_mem_cons]
  exact ⟨sortedJson_string _, sortedJson_string _, by simp⟩

def noteClient : RowClientSetup Int where
  runtime := utf8Runtime
  rows := integerRows
  schema := noteSchema
  rejectInvalidOperation := none
  interpreter := noteAuthority.interpreter
  initialState := noteDatabase
  authorityLimits := {}
  settings := noteAuthority
  fresh := .initial noteDatabase
  options := noteOptions noteAuthority
  limits := defaultProtocolLimits
  route := noteRoutes
  channel := utf8Channel RowError
  urls := noteUrls
  config := { pull := some "/api/sync/pull", push := some "/api/sync/push" }
  globalFetch := some noteFetch
  clientOptions := {}
  transport := {
    synchronize := Transport.synchronizeAt integerRuntime (fun envelope =>
      if envelope.request.proposals.length = 0 then "/api/sync/pull" else "/api/sync/push") noteFetch
      (RowTransportOptions.toFetchOptions integerRows noteSchema {}) }
  lawful := integerRuntime_lawful
  sameFormat := noteRoute.sameFormat
  keys := noteSchema_keyed.nonNullKeys
  createsInterpreter := createRowLogInterpreterOfUnknown_note
  createsState := noteRoute.createsState
  createsServer := noteRoute.createsServer
  createsRoute := rfl
  sameSchema := noteRoute.sameSchema
  authority := noteRoute.authority
  resolvesLimits := noteRoute.resolvesLimits
  resolvesStream := noteRoute.resolvesStream
  reports := noteRoute.reports
  reasons := noteRoute.reasons
  decodes _ h := h.ofUtf8Bytes_utf8Bytes
  chunked _ := List.flatten_singleton
  declares := utf8Channel_declares
  distinct := noteUrls_distinct
  configured := .inl ⟨rfl, rfl⟩
  createsTransport := rfl
  fetches := rfl
  headers := note_headers
  maximum := note_maximum
  sharedRejections := ⟨rfl, rfl⟩
  sortedReasons := note_sortedReasons

def sentNote (id : Int) : RowOperation Int :=
  .putRow (ascii "notes") (InsertionMap.empty.setAll [(ascii "id", .number id), (ascii "title", .null)])

def noteRequest : SyncRequestEnvelope (RowOperation Int) where
  protocolVersion := 1
  streamId := "notes"
  request := {
    baseSequence := 0
    maximumEntries := 10
    proposals := [
      ⟨(noteProposal "op-1" 1 "notes").toOperationSubmissionIdentity, sentNote 1⟩,
      ⟨(noteProposal "op-2" 2 "notes").toOperationSubmissionIdentity, sentNote 2⟩] }

theorem noteRequest_valid : noteRequest.Valid defaultProtocolLimits where
  version := rfl
  streamId := by decide
  request := (assertSyncRequest_eq_ok (ε := RowError) _ _ _).mp rfl

theorem sentNote_normal (id : Int) : (sentNote id).Normal integerRows noteSchema :=
  normalizeRowOperation_normal noteSchema_keyed.nonNullKeys
    (show normalizeRowOperation integerRows noteSchema (sentNote id).toJson = .ok (sentNote id) from rfl)

def sentProposal (operationId : String) (id : Int) : JsonValue Int := .object [
  (ascii "operationId", integerRuntime.string operationId),
  (ascii "clientId", integerRuntime.string "client-a"),
  (ascii "clientSequence", integerRuntime.number id),
  (ascii "intentHash", integerRuntime.string operationId),
  (ascii "intent", (sentNote id).toJson.sorted)]

def sentBody : JsonValue Int := .object [
  (ascii "protocolVersion", integerRuntime.number 1),
  (ascii "streamId", integerRuntime.string "notes"),
  (ascii "request", .object [
    (ascii "baseSequence", integerRuntime.number 0),
    (ascii "maximumEntries", integerRuntime.number 10),
    (ascii "proposals", .array [sentProposal "op-1" 1, sentProposal "op-2" 2])])]

theorem sentNote_valid (id : Int) : (sentNote id).toJson.Valid integerFormat := by
  refine .object (by simp only [List.map_cons, List.map_nil]; decide) ?_
  simp only [List.forall_mem_cons]
  refine ⟨.string _, .string _, .object (InsertionMap.nodupKeys _) ?_, by simp⟩
  change ∀ field ∈ [(ascii "id", JsonValue.number id), (ascii "title", .null)], _
  simp only [List.forall_mem_cons]
  exact ⟨.number rfl, .null, by simp⟩

theorem sentProposal_valid (operationId : String) (id : Int) : (sentProposal operationId id).Valid integerFormat := by
  refine .object (by simp only [List.map_cons, List.map_nil]; decide) ?_
  simp only [List.forall_mem_cons]
  exact ⟨.string _, .string _, .number rfl, .string _, JsonValue.valid_sorted (sentNote_valid id), by simp⟩

theorem sentBody_valid : sentBody.Valid integerFormat := by
  refine .object (by simp only [List.map_cons, List.map_nil]; decide) ?_
  simp only [List.forall_mem_cons]
  refine ⟨.number rfl, .string _, .object (by simp only [List.map_cons, List.map_nil]; decide) ?_, by simp⟩
  simp only [List.forall_mem_cons]
  refine ⟨.number rfl, .number rfl, .array ?_, by simp⟩
  simp only [List.forall_mem_cons]
  exact ⟨sentProposal_valid _ _, sentProposal_valid _ _, by simp⟩

theorem encodeProposal_sentNote (operationId : String) (id : Int) :
    encodeProposal integerRuntime (createRowOperationCodec integerRows noteSchema)
      ⟨(noteProposal operationId id "notes").toOperationSubmissionIdentity, sentNote id⟩ =
        .ok (sentProposal operationId id) := by
  have hpayload : (encodePayload integerFormat (createRowOperationCodec integerRows noteSchema) (sentNote id)
      "$.request.proposals[].intent" : Except (WireException Int RowError) _) = .ok (sentNote id).toJson.sorted :=
    mapError_eq_ok.mpr (bind_eq_ok.mpr ⟨_, rfl, toJsonValue_of_valid integerFormat_lawful (sentNote_valid id)⟩)
  exact bind_eq_ok.mpr ⟨_, hpayload, rfl⟩

theorem noteRequest_encodes : noteClient.http.Encodes noteRequest sentBody.sorted := by
  have hrequest : (assertSyncRequest noteRequest.request (some defaultProtocolLimits) : Result RowError Unit) =
      .ok () :=
    (assertSyncRequest_eq_ok _ _ _).mpr noteRequest_valid.request
  have hproposals : noteRequest.request.proposals.mapM
      (encodeProposal integerRuntime (createRowOperationCodec integerRows noteSchema)) =
      .ok [sentProposal "op-1" 1, sentProposal "op-2" 2] := by
    simp only [noteRequest, List.mapM_cons, List.mapM_nil, encodeProposal_sentNote]
    rfl
  refine bind_eq_ok.mpr ⟨defaultProtocolLimits, rfl, bind_unit_eq_ok.mpr ⟨rfl, ?_⟩⟩
  refine bind_unit_eq_ok.mpr ⟨mapError_eq_ok.mpr hrequest, bind_eq_ok.mpr ⟨_, hproposals, ?_⟩⟩
  exact toJsonValue_of_valid integerFormat_lawful sentBody_valid

theorem noteRequest_pushes : noteClient.Pushes noteRequest where
  client := noteRequest_valid
  server := noteRequest_valid
  authority := noteRequest_valid.request
  normal := by
    simp only [noteRequest, List.forall_mem_cons]
    exact ⟨sentNote_normal 1, sentNote_normal 2, by simp⟩
  page := by decide
  size body hencodes := by
    have hbody : body = sentBody.sorted := hencodes.unique noteRequest_encodes
    have hunits : (body.stringify integerFormat).length ≤ 1000 := by
      rw [hbody]
      decide +kernel
    have hbytes : noteClient.http.size body ≤ 4 * (body.stringify integerFormat).length := length_utf8Bytes_le _
    have hmaximum : noteClient.http.maximumRequestBytes = 1048576 := rfl
    omega

/-- The first attempt does not arrive, the second decides, and the third is answered. -/
theorem push_decided_once_notes : ∃ response next,
    noteClient.DecidedOnce noteRequest [[]] [] [[]]
      ⟨noteClient.fresh, [.requestLost "offline", .responseLost "timeout"]⟩ response next := by
  have hstays : ∀ count, (List.replicate count ([] : List (SyncRequest (JsonValue Int)))).flatten = [] := by simp
  have hadmits : noteClient.Admits noteRequest noteClient.fresh := ⟨⟨le_rfl,
    fun _ _ _ hrecord => absurd hrecord (by simp [noteClient, InMemoryLogServer.initial]),
    fun _ _ _ _ hoccupant => absurd hoccupant (by simp [noteClient, InMemoryLogServer.initial])⟩, by decide⟩
  rcases RowClientSetup.push_decided_once noteClient [] noteRequest_pushes (List.replicate 3 [])
    [.requestLost "offline", .responseLost "timeout"] with hnever | hdecided
  · obtain ⟨result, -, error, hrefuses, -⟩ := hnever.results 2 (by decide)
    rw [List.take_replicate, hstays] at hrefuses
    exact absurd hadmits hrefuses.admits
  · obtain ⟨before, first, after, response, next, hsplit, hdecided⟩ := hdecided
    have hbefore : before.length = 1 := by
      have harrives := hdecided.arrives
      by_contra hother
      rcases Nat.lt_or_gt_of_ne hother with hless | hmore
      · rw [Nat.lt_one_iff.mp hless] at harrives
        exact harrives "offline" rfl
      · obtain ⟨result, -, hdeclined, -⟩ := hdecided.results 1 (by rw [← hsplit]; decide)
        obtain ⟨⟨error, hrefuses⟩, -⟩ := hdeclined hmore
        have htake : before.take 2 = List.replicate 2 [] := by
          have htake := congrArg (List.take 2) hsplit
          rw [List.take_append_of_le_length (by omega), List.take_replicate] at htake
          exact htake.symm
        rw [htake, hstays] at hrefuses
        exact absurd hadmits hrefuses.admits
    obtain ⟨only, rfl⟩ := List.length_eq_one_iff.mp hbefore
    change [[], [], []] = only :: first :: after at hsplit
    simp only [List.cons.injEq] at hsplit
    obtain ⟨rfl, rfl, rfl⟩ := hsplit
    exact ⟨response, next, hdecided⟩

end SyncEngine
