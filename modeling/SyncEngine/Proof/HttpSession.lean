import SyncEngine.Proof.Session
import SyncEngine.Proof.Transport

/-!
# A session over HTTP

The session of a store whose transport is the HTTP transport, on a channel that may lose requests and
responses. A lost response leaves decisions that the store does not know, so the next session may have more to
do than the one before. But a pending operation is decided once, whatever is lost: the log grows by at most
the operations that were pending at first, which bounds the rounds of every later session.
-/

namespace SyncEngine

open JavaScript Throwing

variable {ν ι State Intent Operation Rejection ε : Type}

/-! ### What sessions do to the network -/

section Account

variable [DecidableEq ι]

/-- Stores with the network they follow, and the books of that network. -/
structure StoreNetwork.Account (setup : StoreSetup ι State Intent Operation Rejection ε)
    (stores : StoreNetwork ι State Intent Operation Rejection) where
  network : Network ι State Intent Operation Rejection
  authority : Authority setup.settings.interpreter setup.initialState
  knowledge : ι → Knowledge
  retained : ι → Nat
  follows : stores.Follows setup network
  consistent : network.Consistent setup.toNetworkSetup authority knowledge retained

variable {setup : StoreSetup ι State Intent Operation Rejection ε}
  {stores stores' stores'' : StoreNetwork ι State Intent Operation Rejection} {i : ι}

theorem StoreNetwork.exists_account (hreachable : setup.storeSystem.Reachable stores) :
    Nonempty (stores.Account setup) := by
  obtain ⟨start, actions, hstart, hpath⟩ := hreachable
  obtain ⟨-, network, -, -, hfollows⟩ := follows_of_path hstart hpath
  obtain ⟨authority, knowledge, retained, hconsistent⟩ := Network.consistent_of_reachable hfollows.reachable
  exact ⟨⟨network, authority, knowledge, retained, hfollows, hconsistent⟩⟩

namespace StoreNetwork.Account

/-- What sessions of one store may do, whatever is lost on the way: they decide operations that were pending. -/
structure SpendsTo (account : stores.Account setup) (i : ι) (account' : stores'.Account setup) : Prop where
  reachable : setup.storeSystem.Reachable stores → setup.storeSystem.Reachable stores'
  stored : ∀ j, j ≠ i → stores'.stored j = stores.stored j
  enqueued : account'.network.enqueued = account.network.enqueued
  grows : account.network.Grows account'.network account.authority account'.authority account.knowledge
    account'.knowledge
  decided : ∀ record ∈ account'.authority.ledger, record ∈ account.authority.ledger ∨
    ∃ proposal ∈ account.network.pendingOf i, proposal.operationId = record.identity.operationId

variable {account : stores.Account setup} {account' : stores'.Account setup} {account'' : stores''.Account setup}

theorem SpendsTo.refl (account : stores.Account setup) (i : ι) : account.SpendsTo i account where
  reachable := id
  stored _ _ := rfl
  enqueued := rfl
  grows := .refl
  decided _ hrecord := .inl hrecord

theorem pendingOf_eq (account : stores.Account setup) (i : ι) : account.network.pendingOf i =
    pendingProposals (outboxOf account.authority.ledger (account.knowledge i) (account.network.proposalsOf i)) := by
  rw [Network.pendingOf, (account.consistent.participants i).reflects.outbox]

theorem pendingOf_sublist (hgrows : account.network.Grows account'.network account.authority account'.authority
    account.knowledge account'.knowledge) (henqueued : account'.network.enqueued = account.network.enqueued) (i : ι) :
    (account'.network.pendingOf i).Sublist (account.network.pendingOf i) := by
  classical
  obtain ⟨new, hnew⟩ := hgrows.ledger
  have hproposals : account'.network.proposalsOf i = account.network.proposalsOf i := by
    rw [Network.proposalsOf, Network.proposalsOf, henqueued]
  rw [pendingOf_eq, pendingOf_eq, hproposals, pendingProposals_outboxOf, pendingProposals_outboxOf, ← hnew]
  refine List.monotone_filter_right _ fun proposal hpending => ?_
  simp only [decide_eq_true_eq] at hpending ⊢
  exact fun hsettled => hpending (hsettled.append.mono (hgrows.knowledge i))

theorem SpendsTo.pendingOf_sublist (h : account.SpendsTo i account') :
    (account'.network.pendingOf i).Sublist (account.network.pendingOf i) :=
  Account.pendingOf_sublist h.grows h.enqueued i

theorem SpendsTo.trans (h : account.SpendsTo i account') (h' : account'.SpendsTo i account'') :
    account.SpendsTo i account'' where
  reachable hreachable := h'.reachable (h.reachable hreachable)
  stored j hj := (h'.stored j hj).trans (h.stored j hj)
  enqueued := h'.enqueued.trans h.enqueued
  grows := h.grows.trans h'.grows
  decided record hrecord := by
    rcases h'.decided record hrecord with hold | ⟨proposal, hproposal, hid⟩
    · exact h.decided record hold
    · exact .inr ⟨proposal, h.pendingOf_sublist.subset hproposal, hid⟩

theorem SpendsTo.log_length_le (h : account.SpendsTo i account') :
    account'.network.server.log.length ≤
      account.network.server.log.length + (account.network.pendingOf i).length := by
  obtain ⟨new, hnew⟩ := h.grows.ledger
  have hids := account'.authority.justified.operationIds_nodup
  rw [← hnew, List.map_append, List.nodup_append] at hids
  obtain ⟨-, hnodup, hapart⟩ := hids
  have hsubset : new.map (fun record => record.identity.operationId) ⊆
      (account.network.pendingOf i).map fun proposal => proposal.operationId := by
    intro operationId hmem
    obtain ⟨record, hrecord, rfl⟩ := List.mem_map.mp hmem
    rcases h.decided record (hnew ▸ List.mem_append_right _ hrecord) with hold | ⟨proposal, hproposal, hid⟩
    · exact absurd rfl (hapart _ (List.mem_map_of_mem hold) _ hmem)
    · exact List.mem_map.mpr ⟨proposal, hproposal, hid⟩
  have hrecords := (List.subperm_of_subset hnodup hsubset).length_le
  rw [List.length_map, List.length_map] at hrecords
  have hentries : (canonicalLog new).length ≤ new.length := List.length_filterMap_le _ _
  have hlog : account'.network.server.log = account.network.server.log ++ canonicalLog new := by
    rw [account'.consistent.log_eq, account.consistent.log_eq, ← canonicalLog_append, hnew]
  rw [hlog, List.length_append]
  omega

theorem confirmedSequence_le (hgrows : account.network.Grows account'.network account.authority account'.authority
    account.knowledge account'.knowledge) (i : ι) :
    (account.network.replicas i).confirmedSequence ≤ (account'.network.replicas i).confirmedSequence := by
  have hknowledge : (account.knowledge i).through ≤ (account'.knowledge i).through := (hgrows.knowledge i).1
  rw [(account.consistent.cursor_le i).1, (account'.consistent.cursor_le i).1]
  exact Int.ofNat_le.mpr hknowledge

/-- However many sessions have failed, what is left is bounded by what there was at first. -/
theorem SpendsTo.remaining_le (h : account.SpendsTo i account') :
    account'.network.remaining i ≤
      account.network.remaining i + (account.network.pendingOf i).length := by
  have hpending := h.pendingOf_sublist.length_le
  have hlog := h.log_length_le
  have hcursor := confirmedSequence_le h.grows i
  have hthrough := account.consistent.cursor_le i
  rw [Network.remaining, Network.remaining]
  omega

/-! ### The steps of a round -/

theorem prepare (account : stores.Account setup) (i : ι) {options : PrepareSyncRequestOptions}
    (hfits : options.Fits setup.settings.limits) :
    ∃ (stores' : StoreNetwork ι State Intent Operation Rejection) (account' : stores'.Account setup),
      prepareSyncRequest setup i options stores = (.ok (account.network.sessionRequest i options), stores') ∧
      account.SpendsTo i account' ∧
      account'.network = { account.network with
        requests := account.network.requests ++ [(i, account.network.sessionRequest i options)] } ∧
      account'.authority = account.authority ∧ account'.knowledge = account.knowledge ∧
      account'.retained = account.retained := by
  have h := account.follows
  have hprepare := account.consistent.prepare_succeeds (ε := ε) i hfits
  have hcall : (setup.store i).prepareSyncRequest (stores.stored i) options =
      .ok (account.network.sessionRequest i options) := by
    rw [h.stored i, IndexedDbReplicaStore.prepareSyncRequest_eq (h.accepts i)]
    change reduce (SyncEngine.prepareSyncRequest (account.network.replicas i) options) = _
    rw [hprepare]
    rfl
  have hfollows := h.prepare i options
  rw [Network.next, hprepare] at hfollows
  dsimp only at hfollows
  refine ⟨_, ⟨_, account.authority, account.knowledge, account.retained, hfollows,
    account.consistent.prepare hprepare⟩, prepareSyncRequest_run hcall, ?_, rfl, rfl, rfl, rfl⟩
  constructor
  case reachable => exact fun hreachable => reachable_next hreachable rfl trivial
  case stored =>
    intro j _
    rw [next, hcall]
  case enqueued => rfl
  case grows => exact ⟨List.prefix_refl _, fun _ => le_refl _, List.prefix_refl _⟩
  case decided => exact fun record hrecord => .inl hrecord

theorem answer (account : stores.Account setup) {request : SyncRequest Intent}
    (hrequest : (i, request) ∈ account.network.requests) {response : SyncResponse Operation Rejection}
    {server : InMemoryLogServer State Operation Rejection}
    (hcall : InMemoryLogServer.synchronize setup.settings account.network.server request = .ok (response, server)) :
    ∃ account' : ({ stores with
        server := server
        responses := stores.responses ++ [(i, response)] } :
          StoreNetwork ι State Intent Operation Rejection).Account setup,
      (setup.storeSystem.Reachable stores → setup.storeSystem.Reachable { stores with
        server := server
        responses := stores.responses ++ [(i, response)] }) ∧
      account'.network = { account.network with
        server := server
        responses := account.network.responses ++ [(i, response)] } ∧
      account.network.Grows account'.network account.authority account'.authority account.knowledge
        account'.knowledge ∧
      Synchronized setup.settings account.authority.toBooks account'.authority.toBooks request response := by
  have h := account.follows
  obtain ⟨authority', hconsistent, hsynchronized⟩ := account.consistent.deliver hrequest hcall
  obtain ⟨index, hindex⟩ := List.mem_iff_getElem?.mp hrequest
  have hfollows := h.deliver index
  have hstep : stores.next setup (.network (.deliver index)) =
      { stores with
        server := server
        responses := stores.responses ++ [(i, response)] } := by
    rw [next, h.requests, hindex, h.server]
    dsimp only
    rw [hcall]
  rw [Network.next, hindex] at hfollows
  dsimp only at hfollows
  rw [hcall, hstep] at hfollows
  refine ⟨⟨_, authority', account.knowledge, account.retained, hfollows, hconsistent⟩, ?_, rfl, ?_, hsynchronized⟩
  · exact fun hreachable => reachable_next hreachable hstep trivial
  · exact ⟨hsynchronized.ledger_prefix, fun _ => le_refl _, List.prefix_refl _⟩

theorem deliver (account : stores.Account setup) {request : SyncRequest Intent}
    (hrequest : (i, request) ∈ account.network.requests) (hsent : request.proposals ⊆ account.network.pendingOf i)
    {response : SyncResponse Operation Rejection} {server : InMemoryLogServer State Operation Rejection}
    (hcall : InMemoryLogServer.synchronize setup.settings account.network.server request = .ok (response, server)) :
    ∃ account' : ({ stores with
        server := server
        responses := stores.responses ++ [(i, response)] } :
          StoreNetwork ι State Intent Operation Rejection).Account setup,
      account.SpendsTo i account' ∧
      account'.network = { account.network with
        server := server
        responses := account.network.responses ++ [(i, response)] } ∧
      Synchronized setup.settings account.authority.toBooks account'.authority.toBooks request response := by
  obtain ⟨account', hreachable, hnetwork, hgrows, hsynchronized⟩ := account.answer hrequest hcall
  refine ⟨account', ⟨hreachable, fun j _ => rfl, hnetwork ▸ rfl, hgrows, ?_⟩, hnetwork, hsynchronized⟩
  intro record hrecord
  rcases hsynchronized.decided record hrecord with hold | ⟨proposal, hproposal, hidentity, -⟩
  · exact .inl hold
  · exact .inr ⟨proposal, hsent hproposal, congrArg (fun identity => identity.operationId) hidentity.symm⟩

theorem merge (account : stores.Account setup) {response : SyncResponse Operation Rejection}
    (hresponse : (i, response) ∈ account.network.responses)
    {result : MergeSyncResult State Intent Operation Rejection}
    (hcall : SyncEngine.mergeSyncResponse (setup.replicaInterpreter i) (account.network.replicas i) response =
      .ok result) :
    ∃ (stores' : StoreNetwork ι State Intent Operation Rejection) (account' : stores'.Account setup),
      mergeSyncResponse setup i response stores = (.ok (), stores') ∧ account.SpendsTo i account' ∧
      account'.network = account.network.setReplica i result.state ∧
      response.knowledge ≤ account'.knowledge i := by
  have h := account.follows
  obtain ⟨status, hstored⟩ := h.mergeSyncResponse_of_ok hresponse hcall
  rw [← h.stored i] at hstored
  obtain ⟨index, hindex⟩ := List.mem_iff_getElem?.mp hresponse
  have hrun := mergeSyncResponse_run (h.responses ▸ hindex) hstored
  have hfollows := h.merge index
  rw [Network.next, hindex] at hfollows
  dsimp only at hfollows
  rw [hcall] at hfollows
  have hlearned : response.knowledge ≤
      Function.update account.knowledge i (account.knowledge i ⊔ response.knowledge) i := by
    rw [Function.update_self]
    exact le_sup_right
  refine ⟨_, ⟨_, account.authority, _, account.retained, hfollows, account.consistent.merge hresponse hcall⟩,
    hrun, ?_, rfl, hlearned⟩
  constructor
  case reachable => exact fun hreachable => reachable_next hreachable rfl trivial
  case stored =>
    intro j hj
    rw [next, h.responses, hindex]
    dsimp only
    rw [hstored]
    exact Function.update_of_ne hj _ _
  case enqueued => rfl
  case grows =>
    refine ⟨List.prefix_refl _, fun j => ?_, List.prefix_refl _⟩
    by_cases hj : j = i
    · subst hj
      dsimp only
      rw [Function.update_self]
      exact le_sup_left
    · dsimp only
      rw [Function.update_of_ne hj]
  case decided => exact fun record hrecord => .inl hrecord

end StoreNetwork.Account

end Account

/-! ### The routes of a store -/

section Routes

variable [DecidableEq ι] {setup : StoreSetup ι State Intent Operation Rejection ε}
  {http : HttpSetup ν ε (StoreNetwork ι State Intent Operation Rejection) Intent Operation Rejection} {i : ι}

/-- The routes ask the server of a network with its limits, and carry what it decides. -/
structure HttpSetup.Serves
    (http : HttpSetup ν ε (StoreNetwork ι State Intent Operation Rejection) Intent Operation Rejection)
    (setup : StoreSetup ι State Intent Operation Rejection ε) (i : ι) : Prop where
  authority : http.authority = StoreNetwork.authority setup i
  serverLimits : http.serverLimits = setup.settings.limits
  clientLimits : http.clientLimits = setup.settings.limits
  streamId : setup.streamId.length ≠ 0
  stream : http.routed setup.streamId
  operations : ∀ state proposal operation,
    setup.settings.interpreter.decide state proposal = .ok (.accepted operation) →
      (http.serverOptions.operationCodec.between http.clientOptions.operationCodec).RoundTrips
        http.runtime.toNumberFormat operation
  rejections : ∀ state proposal reason,
    setup.settings.interpreter.decide state proposal = .ok (.rejected reason) →
      (http.serverOptions.rejectionCodec.between http.clientOptions.rejectionCodec).RoundTrips
        http.runtime.toNumberFormat reason

omit [DecidableEq ι] in
theorem HttpSetup.Serves.decision (h : http.Serves setup i)
    (authority : Authority setup.settings.interpreter setup.initialState)
    {record : StoredProposalDecision Operation Rejection} (hrecord : record ∈ authority.ledger) :
    DecisionRoundTrips http.runtime.toNumberFormat
      (http.serverOptions.operationCodec.between http.clientOptions.operationCodec)
      (http.serverOptions.rejectionCodec.between http.clientOptions.rejectionCodec) record.decision := by
  obtain ⟨_, proposal, -, before, -, hdecision⟩ := authority.justified.decidedAfter_of_mem hrecord
  rcases hdecision with ⟨operation, hdecide, haccepted⟩ | ⟨reason, hdecide, hrejected⟩
  · rw [haccepted]
    exact h.operations before proposal operation hdecide
  · rw [hrejected]
    exact h.rejections before proposal reason hdecide

omit [DecidableEq ι] in
theorem HttpSetup.Serves.replies (h : http.Serves setup i) {request : SyncRequest Intent}
    {response : SyncResponse Operation Rejection} {before : Books State Operation Rejection}
    {authority : Authority setup.settings.interpreter setup.initialState}
    (hanswered : Synchronized setup.settings before authority.toBooks request response) :
    http.Replies (HttpSetup.reply ⟨syncProtocolVersion, setup.streamId, request⟩ response) := by
  have hgrows := (hanswered.ledger_prefix.filterMap StoredProposalDecision.committed?).length_le
  have hvalid := (respond_valid authority.justified setup.resolved hanswered.valid
    (hanswered.base.trans (Int.ofNat_le.mpr hgrows)) hanswered.recorded).mpr hanswered.safe
  change ValidResponse (InMemoryLogServer.respond setup.settings.limits authority.log request response.decisions)
    (some setup.settings.limits) at hvalid
  rw [← hanswered.answered] at hvalid
  have hentries := respond_entries authority.log response.decisions setup.resolved hanswered.valid
  rw [← hanswered.answered] at hentries
  constructor
  case server => exact ⟨rfl, h.streamId, by rw [h.serverLimits]; exact hvalid⟩
  case client => exact ⟨rfl, h.streamId, by rw [h.clientLimits]; exact hvalid⟩
  case entries =>
    intro entry hentry
    change entry ∈ response.entries at hentry
    rw [hentries] at hentry
    obtain ⟨record, hrecord, hcommitted⟩ := mem_canonicalLog.mp (List.mem_of_mem_drop (List.mem_of_mem_take hentry))
    have hdecision := h.decision authority hrecord
    obtain ⟨-, -, operationId, haccepted⟩ := StoredProposalDecision.committed?_eq_some hcommitted
    rw [haccepted] at hdecision
    exact hdecision
  case decisions =>
    intro decision hdecision
    obtain ⟨record, hrecord, rfl⟩ := hanswered.recorded.exists_record hdecision
    exact h.decision authority hrecord

/-- The requests that sessions of a replica can send, while the server has a head and whatever is lost on the
way: they can be written, and are not too large. -/
structure HttpSetup.Carries
    (http : HttpSetup ν ε (StoreNetwork ι State Intent Operation Rejection) Intent Operation Rejection)
    (streamId : String) (replica : ReplicaState State Intent Operation) (head maximumEntries maximumProposals : Int) :
    Prop where
  intents : ∀ proposal ∈ pendingProposals replica.outbox,
    (http.clientOptions.intentCodec.between http.serverOptions.intentCodec).RoundTrips http.runtime.toNumberFormat
      proposal.intent
  fits : ∀ request : SyncRequest Intent, replica.confirmedSequence ≤ request.baseSequence →
    request.baseSequence ≤ head + (pendingProposals replica.outbox).length →
    request.maximumEntries = maximumEntries → request.proposals.Sublist (pendingProposals replica.outbox) →
    request.proposals.length ≤ maximumProposals →
    ∀ body, http.Encodes ⟨syncProtocolVersion, streamId, request⟩ body →
      (http.size body : Int) ≤ http.maximumRequestBytes

end Routes

/-! ### One round -/

def Delivery.lost? : Delivery → Option String
  | .delivered => none
  | .requestLost message => some message
  | .responseLost message => some message

section Exchange

variable {S : Type} {transport : SyncTransport (HttpWorld S) ν ε Intent Operation Rejection}
  {envelope : SyncRequestEnvelope Intent} {world : HttpWorld S} {answer : SyncResponseEnvelope Operation Rejection}
  {next : S}

theorem SessionM.onServer_run {α : Type} {action : SessionM S ε α} {result : Except (SessionError ε) α} {state : S}
    (h : action state = (result, next)) (deliveries : List Delivery) :
    action.onServer ⟨state, deliveries⟩ = (result, ⟨next, deliveries⟩) := by
  rw [SessionM.onServer]
  dsimp only
  rw [h]

theorem SyncTransport.forSession_delivered (runtime : WireRuntime ν) (thrown : ThrownClass ε)
    (h : transport.synchronize envelope world = world.settle (.ok answer, next))
    (hdelivered : world.delivery.lost? = none) :
    transport.forSession runtime thrown envelope world = (.ok answer, world.exchanged next) := by
  rw [SyncTransport.forSession, h, HttpWorld.settle]
  cases hdelivery : world.delivery with
  | delivered => rfl
  | requestLost message => simp [hdelivery, Delivery.lost?] at hdelivered
  | responseLost message => simp [hdelivery, Delivery.lost?] at hdelivered

/-- A client that is given no answer does not know whether its request has arrived. -/
theorem SyncTransport.forSession_lost (runtime : WireRuntime ν) (thrown : ThrownClass ε) {message : String}
    (h : transport.synchronize envelope world = world.settle (.ok answer, next))
    (hlost : world.delivery.lost? = some message) :
    ∃ server, (server = world.server ∨ server = next) ∧ transport.forSession runtime thrown envelope world =
      (.error (.transport (.syncEngineError message)), world.exchanged server) := by
  rw [SyncTransport.forSession, h, HttpWorld.settle]
  cases hdelivery : world.delivery with
  | delivered => simp [hdelivery, Delivery.lost?] at hlost
  | requestLost =>
      obtain rfl := Option.some.inj (hdelivery ▸ hlost)
      exact ⟨world.server, .inl rfl, rfl⟩
  | responseLost =>
      obtain rfl := Option.some.inj (hdelivery ▸ hlost)
      exact ⟨next, .inr rfl, rfl⟩

theorem assertResponseEnvelope_run (streamId : String) (response : SyncResponse Operation Rejection)
    (world : HttpWorld S) :
    (syncRound.liftExcept (assertResponseEnvelope streamId ⟨syncProtocolVersion, streamId, response⟩) :
      SessionM (HttpWorld S) ε Unit) world = (.ok (), world) := by
  rw [syncRound.liftExcept, assertResponseEnvelope]
  simp [throwIf]

end Exchange

section Round

variable [DecidableEq ι] {setup : StoreSetup ι State Intent Operation Rejection ε}
  {http : HttpSetup ν ε (StoreNetwork ι State Intent Operation Rejection) Intent Operation Rejection} {i : ι}
  {maximumEntries maximumProposals : Option Int}
  {start stores : StoreNetwork ι State Intent Operation Rejection} {origin : start.Account setup}

/-- A client whose sessions can be answered from a state on. -/
structure HttpSetup.Sustains
    (http : HttpSetup ν ε (StoreNetwork ι State Intent Operation Rejection) Intent Operation Rejection)
    (origin : start.Account setup) (i : ι) (maximumEntries maximumProposals : Option Int) : Prop where
  total : setup.Total
  fits : PrepareSyncRequestOptions.Fits
    { maximumProposals := some (maximumProposals.getD 64), maximumEntries := some (maximumEntries.getD 256) }
    setup.settings.limits
  serves : http.Serves setup i
  carries : http.Carries setup.streamId (origin.network.replicas i) origin.network.server.log.length
    (maximumEntries.getD 256) (maximumProposals.getD 64)
  room : (origin.network.server.log.length + 2 * (origin.network.pendingOf i).length : Int) ≤ maxSafeInteger

theorem HttpSetup.Sustains.sends (h : http.Sustains origin i maximumEntries maximumProposals)
    {account : stores.Account setup} (hspent : origin.SpendsTo i account) {request : SyncRequest Intent}
    (hrequest : request = account.network.sessionRequest i
      { maximumProposals := some (maximumProposals.getD 64), maximumEntries := some (maximumEntries.getD 256) }) :
    http.Sends ⟨syncProtocolVersion, setup.streamId, request⟩ ∧
      ∀ body, http.Encodes ⟨syncProtocolVersion, setup.streamId, request⟩ body →
        (http.size body : Int) ≤ http.maximumRequestBytes := by
  have hvalid := account.consistent.validRequest account.follows.reachable i h.fits
  have hproposals := h.fits.proposals
  have hsublist : request.proposals.Sublist (origin.network.pendingOf i) := by
    rw [hrequest]
    exact (List.take_sublist _ _).trans hspent.pendingOf_sublist
  rw [← hrequest] at hvalid
  constructor
  · constructor
    case stream => exact h.serves.stream
    case client => exact ⟨rfl, h.serves.streamId, by rw [h.serves.clientLimits]; exact hvalid⟩
    case server => exact ⟨rfl, h.serves.streamId, by rw [h.serves.serverLimits]; exact hvalid⟩
    case intents => exact fun proposal hproposal => h.carries.intents proposal (hsublist.subset hproposal)
  · apply h.carries.fits request
    · rw [hrequest]
      exact StoreNetwork.Account.confirmedSequence_le hspent.grows i
    · have hlog := hspent.log_length_le
      obtain ⟨hcursor, hthrough⟩ := account.consistent.cursor_le i
      rw [hrequest]
      change (account.network.replicas i).confirmedSequence ≤
        (origin.network.server.log.length + (origin.network.pendingOf i).length : Int)
      omega
    · rw [hrequest]
      rfl
    · exact hsublist
    · rw [hrequest, Network.sessionRequest, List.length_take]
      dsimp only [Option.getD_some] at hproposals ⊢
      omega

abbrev HttpSetup.session
    (http : HttpSetup ν ε (StoreNetwork ι State Intent Operation Rejection) Intent Operation Rejection)
    (setup : StoreSetup ι State Intent Operation Rejection ε) (i : ι)
    (maximumEntries maximumProposals maximumSyncRounds : Option Int) :
    RunSyncSessionOptions (HttpWorld (StoreNetwork ι State Intent Operation Rejection)) Intent Operation Rejection ε :=
  StoreNetwork.httpSession setup i http.runtime.toWireRuntime http.thrown http.transport maximumEntries
    maximumProposals maximumSyncRounds

/-- The step lemma: a round is lost, or it leaves less to do, and then the session returns when nothing is left. -/
theorem HttpSetup.Sustains.syncRound (h : http.Sustains origin i maximumEntries maximumProposals)
    {account : stores.Account setup} (hspent : origin.SpendsTo i account) (deliveries : List Delivery)
    (maximumSyncRounds : Option Int) :
    ∃ (stores' : StoreNetwork ι State Intent Operation Rejection) (account' : stores'.Account setup),
      account.SpendsTo i account' ∧
      ((∃ message, (deliveries.headD .delivered).lost? = some message ∧
        SyncEngine.syncRound (http.session setup i maximumEntries maximumProposals maximumSyncRounds)
          ⟨stores, deliveries⟩ =
            (.error (.transport (.syncEngineError message)), ⟨stores', deliveries.tail⟩)) ∨
      (deliveries.headD .delivered).lost? = none ∧
        SyncEngine.syncRound (http.session setup i maximumEntries maximumProposals maximumSyncRounds)
          ⟨stores, deliveries⟩ = (.ok (decide (account'.network.remaining i = 0)), ⟨stores', deliveries.tail⟩) ∧
        account'.network.remaining i ≤ account.network.remaining i - 1) := by
  obtain ⟨options, hoptions⟩ : ∃ options : PrepareSyncRequestOptions, options =
    { maximumProposals := some (maximumProposals.getD 64), maximumEntries := some (maximumEntries.getD 256) } :=
    ⟨_, rfl⟩
  obtain ⟨request, hrequest⟩ : ∃ request, request = account.network.sessionRequest i options := ⟨_, rfl⟩
  have hfits := h.fits
  rw [← hoptions] at hfits
  obtain ⟨hsends, hsize⟩ := h.sends hspent (hoptions ▸ hrequest)
  -- The server can answer, since the log grows by at most what was pending at first.
  have hlog := hspent.log_length_le
  have hpending := hspent.pendingOf_sublist.length_le
  have hroom := h.room
  obtain ⟨response, server, hcall⟩ :=
    account.consistent.synchronize_succeeds h.total account.follows.reachable i hfits (by omega)
  obtain ⟨result, hmerge, hround⟩ := account.consistent.round h.total hfits hcall
  rw [← hrequest] at hcall
  obtain ⟨stores₁, account₁, hprepare, hspent₁, hnetwork₁, -, -, -⟩ := account.prepare i hfits
  rw [← hrequest] at hprepare hnetwork₁
  have hmem : (i, request) ∈ account₁.network.requests := by
    rw [hnetwork₁]
    exact List.mem_append_right _ (List.mem_singleton_self _)
  have hsent : request.proposals ⊆ account₁.network.pendingOf i := by
    rw [hnetwork₁, hrequest]
    exact (List.take_sublist _ _).subset
  have hserver₁ : account₁.network.server = account.network.server := by rw [hnetwork₁]
  rw [← hserver₁] at hcall
  obtain ⟨account₂, hspent₂, hnetwork₂, hsynchronized⟩ := account₁.deliver hmem hsent hcall
  have hresponse : (i, response) ∈ account₂.network.responses := by
    rw [hnetwork₂]
    exact List.mem_append_right _ (List.mem_singleton_self _)
  have hreplica : account₂.network.replicas i = account.network.replicas i := by rw [hnetwork₂, hnetwork₁]
  rw [← hreplica] at hmerge
  obtain ⟨stores₃, account₃, hmerged, hspent₃, hnetwork₃, -⟩ := account₂.merge hresponse hmerge
  have hanswer : http.authority.synchronize stores₁ request = (.ok response, { stores₁ with
      server := server
      responses := stores₁.responses ++ [(i, response)] }) := by
    rw [h.serves.authority]
    dsimp only [StoreNetwork.authority]
    rw [account₁.follows.server, hcall]
  have hexchange := http.exchange_of_answer hsends hsize
    ⟨stores₁, deliveries⟩ hanswer (h.serves.replies hsynchronized)
  have hfirst : (http.session setup i maximumEntries maximumProposals maximumSyncRounds).prepareSyncRequest options
      ⟨stores, deliveries⟩ = (.ok request, ⟨stores₁, deliveries⟩) := SessionM.onServer_run hprepare deliveries
  cases hlost : (deliveries.headD .delivered).lost? with
  | some message =>
      obtain ⟨last, hlast, hsecond⟩ :=
        SyncTransport.forSession_lost http.runtime.toWireRuntime http.thrown hexchange hlost
      have hrun : SyncEngine.syncRound (http.session setup i maximumEntries maximumProposals maximumSyncRounds)
          ⟨stores, deliveries⟩ = (.error (.transport (.syncEngineError message)), ⟨last, deliveries.tail⟩) := by
        subst hoptions
        exact (SessionM.bind_of_ok hfirst).trans (SessionM.bind_of_error hsecond)
      rcases hlast with hlast | hlast
      · rw [hlast] at hrun
        exact ⟨stores₁, account₁, hspent₁, .inl ⟨message, rfl, hrun⟩⟩
      · rw [hlast] at hrun
        exact ⟨_, account₂, hspent₁.trans hspent₂, .inl ⟨message, rfl, hrun⟩⟩
  | none =>
      have hsecond := SyncTransport.forSession_delivered http.runtime.toWireRuntime http.thrown hexchange hlost
      obtain ⟨hless, -, hthrough, hhead⟩ := hround account₃.network
        (by rw [hnetwork₃, hnetwork₂]; rfl) (by rw [hnetwork₃]; exact Function.update_self _ _ _)
      have hstatus := StoreNetwork.readStatus_run (account₃.follows.stored i) (account₃.follows.accepts i)
      refine ⟨stores₃, account₃, (hspent₁.trans hspent₂).trans hspent₃, .inr ⟨rfl, ?_, hless⟩⟩
      subst hoptions
      refine (SessionM.bind_of_ok hfirst).trans ((SessionM.bind_of_ok hsecond).trans ?_)
      refine (SessionM.bind_of_ok (assertResponseEnvelope_run _ _ _)).trans
        ((SessionM.bind_of_ok (SessionM.onServer_run hmerged _)).trans
        ((SessionM.bind_of_ok (SessionM.onServer_run hstatus _)).trans ?_))
      exact congrArg (fun finished => (Except.ok finished, (⟨stores₃, deliveries.tail⟩ : HttpWorld _)))
        (account₃.follows.finished_iff i hthrough hhead (outstanding (stores₃.outcomes i)))

/-! ### Attempts -/

section Attempts

variable {World : Type} {sync : SessionM World ε Unit} {shouldRetry : SessionError ε → Nat → Bool}
  {world next : World} {error : SessionError ε}

theorem SessionM.withRetry_of_ok (h : sync world = (.ok (), next)) (attempt remaining : Nat) :
    withRetry sync shouldRetry attempt (remaining + 1) world = (.ok (), next) := by
  rw [withRetry]
  dsimp only
  rw [h]

theorem SessionM.withRetry_of_error (h : sync world = (.error error, next)) {attempt remaining : Nat}
    (hstops : remaining = 0 ∨ shouldRetry error attempt = false) :
    withRetry sync shouldRetry attempt (remaining + 1) world = (.error error, next) := by
  rw [withRetry]
  dsimp only
  rw [h]
  exact if_pos (by simpa using hstops)

theorem SessionM.withRetry_of_retry (h : sync world = (.error error, next)) {attempt : Nat}
    (hretry : shouldRetry error attempt = true) (remaining : Nat) :
    withRetry sync shouldRetry attempt (remaining + 1 + 1) world =
      withRetry sync shouldRetry (attempt + 1) (remaining + 1) next := by
  rw [withRetry]
  dsimp only
  rw [h]
  exact if_neg (by simp [hretry])

end Attempts

def losses (deliveries : List Delivery) : List String := deliveries.filterMap Delivery.lost?

theorem losses_of_lost {deliveries : List Delivery} {message : String}
    (h : (deliveries.headD .delivered).lost? = some message) :
    losses deliveries = message :: losses deliveries.tail := by
  cases deliveries with
  | nil => simp [Delivery.lost?] at h
  | cons delivery deliveries => exact List.filterMap_cons_some h

theorem losses_of_delivered {deliveries : List Delivery} (h : (deliveries.headD .delivered).lost? = none) :
    losses deliveries = losses deliveries.tail := by
  cases deliveries with
  | nil => rfl
  | cons delivery deliveries => exact List.filterMap_cons_none h

/-- The run lemma of a session: it fails because of a loss, or nothing is left. -/
theorem HttpSetup.Sustains.syncRounds (h : http.Sustains origin i maximumEntries maximumProposals)
    {account : stores.Account setup} (hspent : origin.SpendsTo i account) (deliveries : List Delivery)
    (maximumSyncRounds : Option Int) {rounds : Nat} (hbudget : max 1 (account.network.remaining i) ≤ rounds) :
    ∃ (stores' : StoreNetwork ι State Intent Operation Rejection) (account' : stores'.Account setup)
      (deliveries' : List Delivery), account.SpendsTo i account' ∧
      ((∃ message, losses deliveries = message :: losses deliveries' ∧
        SyncEngine.syncRounds (http.session setup i maximumEntries maximumProposals maximumSyncRounds)
          (maximumSyncRounds.getD 100) rounds ⟨stores, deliveries⟩ =
            (.error (.transport (.syncEngineError message)), ⟨stores', deliveries'⟩)) ∨
      account'.network.remaining i = 0 ∧
        SyncEngine.syncRounds (http.session setup i maximumEntries maximumProposals maximumSyncRounds)
          (maximumSyncRounds.getD 100) rounds ⟨stores, deliveries⟩ = (.ok (), ⟨stores', deliveries'⟩)) := by
  induction rounds generalizing stores deliveries with
  | zero => omega
  | succ rounds ih =>
      obtain ⟨stores₁, account₁, hround, hresult⟩ := h.syncRound hspent deliveries maximumSyncRounds
      rcases hresult with ⟨message, hlost, hrun⟩ | ⟨hdelivered, hrun, hless⟩
      · exact ⟨stores₁, account₁, deliveries.tail, hround, .inl ⟨message, losses_of_lost hlost,
          SessionM.bind_of_error hrun⟩⟩
      · by_cases hdone : account₁.network.remaining i = 0
        · rw [decide_eq_true hdone] at hrun
          exact ⟨stores₁, account₁, deliveries.tail, hround, .inr ⟨hdone, SessionM.bind_of_ok hrun⟩⟩
        · rw [decide_eq_false hdone] at hrun
          obtain ⟨stores', account', deliveries', hrest, hlast⟩ :=
            ih (hspent.trans hround) deliveries.tail (by omega)
          refine ⟨stores', account', deliveries', hround.trans hrest, ?_⟩
          rw [losses_of_delivered hdelivered]
          rcases hlast with ⟨message, hlosses, hfailed⟩ | ⟨hnone, hreturned⟩
          · exact .inl ⟨message, hlosses, (SessionM.bind_of_ok hrun).trans hfailed⟩
          · exact .inr ⟨hnone, (SessionM.bind_of_ok hrun).trans hreturned⟩

/-- The run lemma of the attempts: one attempt fails for each loss at most. -/
theorem HttpSetup.Sustains.withRetry (h : http.Sustains origin i maximumEntries maximumProposals)
    {account : stores.Account setup} (hspent : origin.SpendsTo i account) (deliveries : List Delivery)
    (maximumSyncRounds : Option Int)
    (hrounds : max 1 (origin.network.remaining i + (origin.network.pendingOf i).length) ≤
      (maximumSyncRounds.getD 100).toNat) (shouldRetry : SessionError ε → Nat → Bool) (attempt attempts : Nat) :
    ∃ (stores' : StoreNetwork ι State Intent Operation Rejection) (account' : stores'.Account setup)
      (deliveries' : List Delivery) (result : Except (SessionError ε) Unit), account.SpendsTo i account' ∧
      SessionM.withRetry (runSyncSession (http.session setup i maximumEntries maximumProposals maximumSyncRounds))
        shouldRetry attempt (attempts + 1) ⟨stores, deliveries⟩ = (result, ⟨stores', deliveries'⟩) ∧
      (result = .ok () ∧ account'.network.remaining i = 0 ∨
        ∃ message ∈ losses deliveries, result = .error (.transport (.syncEngineError message))) ∧
      ((∀ message ∈ losses deliveries, ∀ attempt,
          shouldRetry (.transport (.syncEngineError message)) attempt = true) →
        (losses deliveries).length ≤ attempts → result = .ok ()) := by
  induction attempts generalizing stores deliveries attempt with
  | zero =>
      obtain ⟨stores₁, account₁, deliveries₁, hsession, hresult⟩ := h.syncRounds hspent deliveries maximumSyncRounds
        (le_trans (by have := hspent.remaining_le; omega) hrounds)
      rcases hresult with ⟨message, hlosses, hrun⟩ | ⟨hnone, hrun⟩
      · have hmem : message ∈ losses deliveries := hlosses ▸ List.mem_cons_self
        refine ⟨stores₁, account₁, deliveries₁, _, hsession, SessionM.withRetry_of_error hrun (.inl rfl),
          .inr ⟨message, hmem, rfl⟩, fun _ hfew => ?_⟩
        rw [hlosses, List.length_cons] at hfew
        omega
      · exact ⟨stores₁, account₁, deliveries₁, .ok (), hsession, SessionM.withRetry_of_ok hrun _ _,
          .inl ⟨rfl, hnone⟩, fun _ _ => rfl⟩
  | succ attempts ih =>
      obtain ⟨stores₁, account₁, deliveries₁, hsession, hresult⟩ := h.syncRounds hspent deliveries maximumSyncRounds
        (le_trans (by have := hspent.remaining_le; omega) hrounds)
      rcases hresult with ⟨message, hlosses, hrun⟩ | ⟨hnone, hrun⟩
      · have hmem : message ∈ losses deliveries := hlosses ▸ List.mem_cons_self
        have hrest : losses deliveries₁ ⊆ losses deliveries := hlosses ▸ List.subset_cons_self _ _
        cases hretry : shouldRetry (.transport (.syncEngineError message)) attempt with
        | true =>
            obtain ⟨stores', account', deliveries', result, hmore, hlast, hends, hreturns⟩ :=
              ih (hspent.trans hsession) deliveries₁ (attempt + 1)
            refine ⟨stores', account', deliveries', result, hsession.trans hmore,
              (SessionM.withRetry_of_retry hrun hretry attempts).trans hlast, ?_, fun hretries hfew => ?_⟩
            · exact hends.imp_right fun ⟨lost, hlost, herror⟩ => ⟨lost, hrest hlost, herror⟩
            · rw [hlosses, List.length_cons] at hfew
              exact hreturns (fun lost hlost => hretries lost (hrest hlost)) (by omega)
        | false =>
            refine ⟨stores₁, account₁, deliveries₁, _, hsession, SessionM.withRetry_of_error hrun (.inr hretry),
              .inr ⟨message, hmem, rfl⟩, fun hretries _ => ?_⟩
            rw [hretries message hmem attempt] at hretry
            simp at hretry
      · exact ⟨stores₁, account₁, deliveries₁, .ok (), hsession, SessionM.withRetry_of_ok hrun _ _,
          .inl ⟨rfl, hnone⟩, fun _ _ => rfl⟩

end Round

/-! ### Attempts over HTTP -/

/-- Attempts of a client to synchronize over HTTP, from every reachable state, with rounds enough for a first
attempt and for what lost responses leave to learn. Whatever is lost, the stores stay reachable and no other
store changes; an attempt fails only because of a loss; and a client that retries more often than exchanges are
lost ends with an empty outbox and the cursor at the head. -/
theorem http_session_drains [DecidableEq ι] (setup : StoreSetup ι State Intent Operation Rejection ε)
    (htotal : setup.Total) {overrides : ProtocolLimitOverrides}
    (hlimits : (resolveProtocolLimits overrides : Result ε ProtocolLimits) = .ok setup.settings.limits)
    {stores : StoreNetwork ι State Intent Operation Rejection} (hreachable : setup.storeSystem.Reachable stores)
    {i : ι} {record : IndexedDbReplicaRecord State Intent Operation Rejection}
    (hstored : stores.stored i = some record) (maximumEntries maximumProposals : Option Int)
    (hentries : 1 ≤ maximumEntries.getD 256) (hentriesSafe : maximumEntries.getD 256 ≤ maxSafeInteger)
    (hproposals : 1 ≤ maximumProposals.getD 64)
    (hlimit : maximumProposals.getD 64 ≤ setup.settings.limits.maximumProposalsPerRequest)
    (http : HttpSetup ν ε (StoreNetwork ι State Intent Operation Rejection) Intent Operation Rejection)
    (hserves : http.Serves setup i)
    (hcarries : http.Carries setup.streamId record.replica stores.server.headSequence (maximumEntries.getD 256)
      (maximumProposals.getD 64))
    (hroom : stores.server.headSequence + 2 * (pendingProposals record.replica.outbox).length ≤ maxSafeInteger)
    (maximumSyncRounds : Option Int)
    (hrounds : stores.sessionBound record.replica + (pendingProposals record.replica.outbox).length ≤
      maximumSyncRounds.getD 100)
    (deliveries : List Delivery) (shouldRetry : SessionError ε → Nat → Bool) (attempts : Nat) :
    ∃ result stores' deliveries' last,
      SessionM.withRetry (runSyncSession (StoreNetwork.httpSession setup i http.runtime.toWireRuntime http.thrown
          http.transport maximumEntries maximumProposals maximumSyncRounds)) shouldRetry 0 (attempts + 1)
        ⟨stores, deliveries⟩ = (result, ⟨stores', deliveries'⟩) ∧
      setup.storeSystem.Reachable stores' ∧ (∀ j, j ≠ i → stores'.stored j = stores.stored j) ∧
      stores'.stored i = some last ∧
      (result = .ok () ∧ last.replica.outbox = [] ∧ last.replica.confirmedSequence = stores'.server.headSequence ∨
        ∃ message ∈ losses deliveries, result = .error (.transport (.syncEngineError message))) ∧
      ((∀ message ∈ losses deliveries, ∀ attempt,
          shouldRetry (.transport (.syncEngineError message)) attempt = true) →
        (losses deliveries).length ≤ attempts → result = .ok ()) := by
  obtain ⟨origin⟩ := StoreNetwork.exists_account hreachable
  have hrecord : record.replica = origin.network.replicas i :=
    congrArg IndexedDbReplicaRecord.replica (Option.some.inj (hstored.symm.trans (origin.follows.stored i)))
  have hserver : stores.server = origin.network.server := origin.follows.server
  have hsustains : http.Sustains origin i maximumEntries maximumProposals := {
    total := htotal
    fits := ⟨hproposals, hlimit.trans (resolveProtocolLimits_safe hlimits), hlimit, hentries, hentriesSafe⟩
    serves := hserves
    carries := by
      rw [hrecord, hserver] at hcarries
      exact hcarries
    room := by
      rw [hrecord, hserver] at hroom
      exact hroom }
  have hbound := origin.consistent.sessionBound_eq origin.follows i
  rw [← hrecord] at hbound
  have hpending : pendingProposals record.replica.outbox = origin.network.pendingOf i := by
    rw [hrecord, Network.pendingOf]
  rw [hbound, hpending] at hrounds
  obtain ⟨stores', account', deliveries', result, hspent, hrun, hends, hreturns⟩ :=
    hsustains.withRetry (.refl origin i) deliveries maximumSyncRounds (by omega) shouldRetry 0 attempts
  refine ⟨result, stores', deliveries', _, hrun, hspent.reachable hreachable, hspent.stored,
    account'.follows.stored i, ?_, hreturns⟩
  rcases hends with ⟨hreturned, hnone⟩ | hfailed
  · obtain ⟨houtbox, hlast⟩ := (account'.consistent.remaining_eq_zero i).mp hnone
    refine .inl ⟨hreturned, houtbox, ?_⟩
    rw [account'.follows.server]
    exact hlast
  · exact .inr hfailed

/-! ### A counter whose exchanges are lost -/

def enteredProposal : ProposedOperation Int where
  operationId := "op-a1"
  clientId := "client-a"
  clientSequence := 1
  intentHash := "test:5"
  intent := 5

def enteredJson : JsonValue Int := .object [
  (ascii "operationId", integerRuntime.string "op-a1"),
  (ascii "clientId", integerRuntime.string "client-a"),
  (ascii "clientSequence", integerRuntime.number 1),
  (ascii "intentHash", integerRuntime.string "test:5"),
  (ascii "intent", .number 5)]

theorem enteredJson_valid : enteredJson.Valid integerFormat := by
  refine .object (by simp only [List.map_cons, List.map_nil]; decide) ?_
  simp only [List.forall_mem_cons]
  exact ⟨.string _, .string _, .number rfl, .string _, .number rfl, by simp⟩

theorem encodeProposal_entered : encodeProposal integerRuntime deltaCodec enteredProposal = .ok enteredJson := by
  have hpayload : (encodePayload integerFormat deltaCodec 5 "$.request.proposals[].intent" :
      Except (WireException Int Empty) _) = .ok (.number 5) :=
    mapError_eq_ok.mpr (bind_eq_ok.mpr ⟨_, rfl, toJsonValue_of_valid integerFormat_lawful (.number rfl)⟩)
  exact bind_eq_ok.mpr ⟨_, hpayload, rfl⟩

def counterBody (baseSequence : Int) (proposals : List (JsonValue Int)) : JsonValue Int := .object [
  (ascii "protocolVersion", integerRuntime.number 1),
  (ascii "streamId", integerRuntime.string "counter"),
  (ascii "request", .object [
    (ascii "baseSequence", integerRuntime.number baseSequence),
    (ascii "maximumEntries", integerRuntime.number 256),
    (ascii "proposals", .array proposals)])]

theorem counterBody_valid (baseSequence : Int) {proposals : List (JsonValue Int)}
    (hproposals : ∀ proposal ∈ proposals, proposal.Valid integerFormat) :
    (counterBody baseSequence proposals).Valid integerFormat := by
  refine .object (by simp only [List.map_cons, List.map_nil]; decide) ?_
  simp only [List.forall_mem_cons]
  refine ⟨.number rfl, .string _, .object (by simp only [List.map_cons, List.map_nil]; decide) ?_, by simp⟩
  simp only [List.forall_mem_cons]
  exact ⟨.number rfl, .number rfl, .array hproposals, by simp⟩

theorem counterBody_length : ∀ baseSequence ∈ [0, 1], ∀ proposals ∈ [[], [enteredJson]],
    ((counterBody baseSequence proposals).sorted.stringify integerFormat).length ≤ 1000 := by
  decide +kernel

section Entered

variable {S : Type} (authority : SyncRouteAuthority Int Empty S Int Int String)

theorem counter_encodes {request : SyncRequest Int} {body : JsonValue Int}
    (hencodes : (counterHttp authority).Encodes ⟨syncProtocolVersion, "counter", request⟩ body)
    (hmaximum : request.maximumEntries = 256) {proposals : List (JsonValue Int)}
    (hmapM : request.proposals.mapM (encodeProposal integerRuntime deltaCodec) = .ok proposals)
    (hproposals : ∀ proposal ∈ proposals, proposal.Valid integerFormat) :
    body = (counterBody request.baseSequence proposals).sorted := by
  obtain ⟨baseSequence, maximumEntries, sent⟩ := request
  obtain rfl : maximumEntries = 256 := hmaximum
  obtain ⟨limits, -, hencodes⟩ := bind_eq_ok.mp hencodes
  obtain ⟨-, hencodes⟩ := bind_unit_eq_ok.mp hencodes
  obtain ⟨-, hencodes⟩ := bind_unit_eq_ok.mp hencodes
  obtain ⟨written, hwritten, hbody⟩ := bind_eq_ok.mp hencodes
  obtain rfl := Except.ok.inj (Eq.trans (Eq.symm hwritten) hmapM)
  have hvalid : (toJsonValue integerFormat (some (counterBody baseSequence written)) :
      Except (WireException Int Empty) _) = .ok (counterBody baseSequence written).sorted :=
    toJsonValue_of_valid integerFormat_lawful (counterBody_valid baseSequence hproposals)
  exact Except.ok.inj (Eq.trans (Eq.symm hbody) hvalid)

end Entered

def enteredHttp : HttpSetup Int Empty (StoreNetwork Bool Int Int Int String) Int Int String :=
  counterHttp (StoreNetwork.authority counterStoreSetup true)

theorem enteredHttp_serves : enteredHttp.Serves counterStoreSetup true where
  authority := rfl
  serverLimits := rfl
  clientLimits := rfl
  streamId := by decide
  stream := show counterStoreSetup.streamId.length ≠ 0 by decide
  operations _ _ operation _ := deltaCodec_roundTrips operation
  rejections _ _ reason _ := messageCodec_roundTrips reason

def enteredReplica : ReplicaState Int Int Int := ((enteredStores.stored true).get rfl).replica

theorem enteredHttp_carries : enteredHttp.Carries "counter" enteredReplica 0 256 64 where
  intents proposal _ := deltaCodec_roundTrips proposal.intent
  fits request hfrom hto hmaximum hsublist _ body hencodes := by
    have hpending : pendingProposals enteredReplica.outbox = [enteredProposal] := rfl
    have hstart : enteredReplica.confirmedSequence = 0 := rfl
    rw [hpending] at hsublist hto
    rw [hstart] at hfrom
    have hbase : request.baseSequence ∈ [0, 1] := by
      simp only [List.length_singleton, List.mem_cons, List.not_mem_nil] at hto ⊢
      omega
    have hwritten : ∃ proposals ∈ [[], [enteredJson]],
        request.proposals.mapM (encodeProposal integerRuntime deltaCodec) = .ok proposals ∧
          ∀ proposal ∈ proposals, proposal.Valid integerFormat := by
      rcases List.sublist_singleton.mp hsublist with hnone | hone
      · exact ⟨[], by simp, by rw [hnone]; rfl, by simp⟩
      · refine ⟨[enteredJson], by simp, ?_, by simpa using enteredJson_valid⟩
        rw [hone, List.mapM_cons, encodeProposal_entered]
        rfl
    obtain ⟨proposals, hmem, hmapM, hvalid⟩ := hwritten
    have hunits := counterBody_length request.baseSequence hbase proposals hmem
    obtain rfl := counter_encodes _ hencodes hmaximum hmapM hvalid
    have hbytes := counterHttp_size_le (StoreNetwork.authority counterStoreSetup true)
      (counterBody request.baseSequence proposals).sorted
    have hlimit := counterHttp_maximumRequestBytes (StoreNetwork.authority counterStoreSetup true)
    rw [enteredHttp, hlimit]
    omega

/-- The response to a first attempt is lost, and the request of a second. -/
theorem http_session_drains_entered :
    ∃ stores' deliveries' last,
      SessionM.withRetry (runSyncSession (StoreNetwork.httpSession counterStoreSetup true
          enteredHttp.runtime.toWireRuntime enteredHttp.thrown enteredHttp.transport none none none))
        (fun _ _ => true) 0 3 ⟨enteredStores, [.responseLost "timeout", .requestLost "offline"]⟩ =
          (.ok (), ⟨stores', deliveries'⟩) ∧
      stores'.stored true = some last ∧ last.replica.outbox = [] := by
  have hlimits : (resolveProtocolLimits {} : Result Empty ProtocolLimits) = .ok counterStoreSetup.settings.limits := rfl
  obtain ⟨result, stores', deliveries', last, hrun, -, -, hstored, hends, hreturns⟩ :=
    http_session_drains counterStoreSetup counterStoreSetup_total hlimits enteredStores_reachable (i := true)
      (Option.some_get rfl).symm none none (by decide) (by decide) (by decide) (by decide) enteredHttp
      enteredHttp_serves enteredHttp_carries (by decide) none (by decide)
      [.responseLost "timeout", .requestLost "offline"] (fun _ _ => true) 2
  have hreturned : result = .ok () := hreturns (fun _ _ _ => rfl) (by decide)
  rcases hends with ⟨-, houtbox, -⟩ | ⟨message, -, hfailed⟩
  · rw [hreturned] at hrun
    exact ⟨stores', deliveries', last, hrun, hstored, houtbox⟩
  · rw [hreturned] at hfailed
    simp at hfailed

end SyncEngine
