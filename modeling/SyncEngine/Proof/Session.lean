import Mathlib.Data.Fintype.EquivFin
import SyncEngine.Model.Session
import SyncEngine.Proof.Durability
import SyncEngine.Spec.Draft

/-!
# A session drains its replica

What is left for a session is the number of pending operations plus the distance from the replica's
cursor to the head. A round decides as many pending operations as it sends, which may push the head
away by as many entries, and fetches at least one entry if there is one: so every round leaves less,
and a session that finds nothing left returns.
-/

namespace SyncEngine

open JavaScript Throwing TransitionSystem

variable {ι State Intent Operation Rejection ε : Type}

/-- The application never throws, and every operation equals itself. -/
structure NetworkSetup.Total (setup : NetworkSetup ι State Intent Operation Rejection ε) : Prop where
  authority : setup.settings.interpreter.Total
  applyCommitted : ∀ i state operation, ∃ next,
    (setup.replicaInterpreter i).applyCommitted state operation = .ok next
  reflexive : ∀ i, (setup.replicaInterpreter i).Reflexive

/-! ### Requests that the server can answer -/

section Answer

variable {settings : LogServerSettings State Intent Operation Rejection ε} {initialState : State}
  {authority : Authority settings.interpreter initialState} {request : SyncRequest Intent}

theorem Synchronized.log_length_le {before after : Books State Operation Rejection}
    {response : SyncResponse Operation Rejection}
    (h : Synchronized settings before after request response) :
    after.log.length ≤ before.log.length + request.proposals.length := by
  obtain ⟨new, hnew, hsublist⟩ := h.grows
  have hentries : (canonicalLog new).length ≤ new.length := List.length_filterMap_le _ _
  have hrecords := hsublist.length_le
  rw [List.length_map, List.length_map] at hrecords
  rw [Books.log, Books.log, hnew, canonicalLog_append, List.length_append]
  omega

/-- A valid request with answerable proposals is answered, unless the head would leave the safe integers. -/
theorem Books.synchronize_succeeds (htotal : settings.interpreter.Total) (hresolved : settings.limits.Resolved)
    (hvalid : ValidRequest request settings.limits) (hbase : request.baseSequence ≤ authority.log.length)
    (hanswerable : ∀ proposal ∈ request.proposals, authority.toBooks.Answerable proposal)
    (hroom : (authority.log.length + request.proposals.length : Int) ≤ maxSafeInteger) :
    ∃ response next, authority.toBooks.synchronize settings request = .ok (response, next) := by
  have hapart : request.proposals.Pairwise fun earlier later =>
      earlier.operationId ≠ later.operationId ∧ earlier.position ≠ later.position := by
    refine hvalid.batch.ordered.imp fun hordered => ⟨hordered.1, fun hposition => ?_⟩
    have hless := hordered.2 (congrArg Prod.fst hposition)
    have hsame := congrArg Prod.snd hposition
    exact absurd hsame hless.ne
  obtain ⟨decisions, next, hsubmit⟩ :=
    submitAll_succeeds htotal authority.justified.pairwise_identity hanswerable hapart
  obtain ⟨new, hnew, hsublist⟩ := submitAll_extends hsubmit
  have hentries : (canonicalLog new).length ≤ new.length := List.length_filterMap_le _ _
  have hrecords := hsublist.length_le
  have hjustified := submitAll_justified hsubmit hvalid.batch.valid authority.justified
  have hlength : next.log.length = authority.log.length + (canonicalLog new).length := by
    rw [Books.log, Books.log, hnew, canonicalLog_append, List.length_append]
  have hresponse := (respond_valid hjustified hresolved hvalid
    (show request.baseSequence ≤ (next.log.length : Int) by omega) (submitAll_recorded hsubmit)).mpr
  rw [List.length_map, List.length_map] at hrecords
  refine ⟨_, next, synchronize_eq_ok.mpr ⟨hvalid, hbase, decisions, hsubmit, hresponse ?_, rfl⟩⟩
  change (next.log.length : Int) ≤ maxSafeInteger
  omega

end Answer

section Network

variable [DecidableEq ι] {setup : NetworkSetup ι State Intent Operation Rejection ε}
  {network : Network ι State Intent Operation Rejection}
  {authority : Authority setup.settings.interpreter setup.initialState} {knowledge : ι → Knowledge}
  {retained : ι → Nat}

theorem Network.Consistent.answerable (h : network.Consistent setup authority knowledge retained) {i : ι}
    {proposal : ProposedOperation Intent} (hproposal : proposal ∈ network.proposalsOf i) :
    authority.toBooks.Answerable proposal := by
  by_cases hdecided : Decided authority.ledger proposal.operationId
  · obtain ⟨record, hrecord, hid⟩ := hdecided
    have hidentity := h.recordsOwn i record hrecord proposal hproposal hid
    exact Or.inl ⟨record.decision, hidentity ▸ hrecord⟩
  · refine Or.inr fun record hrecord => ⟨fun hid => hdecided ⟨record, hrecord, hid⟩, fun hposition => ?_⟩
    -- The record at the position of an own operation is about that operation.
    have hparticipant := h.participants i
    have hclient : record.identity.clientId = (setup.replicaOptions i).clientId :=
      (congrArg Prod.fst hposition).trans (hparticipant.own proposal hproposal)
    obtain ⟨other, hother, hidentity⟩ := h.exists_proposal hrecord hclient
    have hsequence : other.clientSequence = proposal.clientSequence :=
      (congrArg (fun identity => identity.clientSequence) hidentity).trans (congrArg Prod.snd hposition)
    have hsame : other = proposal := by
      by_contra hne
      rcases KeyedList.pairwise_or hparticipant.pairwise hother hproposal hne with hless | hless
      all_goals omega
    exact hdecided ⟨record, hrecord, by rw [← hidentity, hsame]⟩

def Network.pendingOf (network : Network ι State Intent Operation Rejection) (i : ι) :
    List (ProposedOperation Intent) :=
  pendingProposals (network.replicas i).outbox

/-- The request of a round: the first pending operations, from the cursor on. -/
def Network.sessionRequest (network : Network ι State Intent Operation Rejection) (i : ι)
    (options : PrepareSyncRequestOptions) : SyncRequest Intent where
  baseSequence := (network.replicas i).confirmedSequence
  maximumEntries := options.maximumEntries.getD defaultProtocolLimits.maximumEntriesPerResponse
  proposals := (network.pendingOf i).take
    (options.maximumProposals.getD defaultProtocolLimits.maximumProposalsPerRequest).toNat

structure PrepareSyncRequestOptions.Fits (options : PrepareSyncRequestOptions) (limits : ProtocolLimits) : Prop where
  proposals : 1 ≤ options.maximumProposals.getD defaultProtocolLimits.maximumProposalsPerRequest
  proposalsSafe : options.maximumProposals.getD defaultProtocolLimits.maximumProposalsPerRequest ≤ maxSafeInteger
  limit : options.maximumProposals.getD defaultProtocolLimits.maximumProposalsPerRequest ≤
    limits.maximumProposalsPerRequest
  entries : 1 ≤ options.maximumEntries.getD defaultProtocolLimits.maximumEntriesPerResponse
  entriesSafe : options.maximumEntries.getD defaultProtocolLimits.maximumEntriesPerResponse ≤ maxSafeInteger

theorem Network.Consistent.prepare_succeeds (h : network.Consistent setup authority knowledge retained) (i : ι)
    {options : PrepareSyncRequestOptions} {limits : ProtocolLimits} (hfits : options.Fits limits) :
    (prepareSyncRequest (network.replicas i) options : Result ε _) = .ok (network.sessionRequest i options) := by
  have hretained := (h.participants i).reflects.assertRetainedConfirmedLog_eq_ok authority.justified h.server.safe
  have hproposals := hfits.proposals
  have hproposalsSafe := hfits.proposalsSafe
  have hentries := hfits.entries
  have hentriesSafe := hfits.entriesSafe
  rw [prepareSyncRequest, hretained, ok_bind, Network.sessionRequest]
  generalize options.maximumProposals.getD defaultProtocolLimits.maximumProposalsPerRequest = maximumProposals at *
  generalize options.maximumEntries.getD defaultProtocolLimits.maximumEntriesPerResponse = maximumEntries at *
  have hcount : (assertNonNegativeSafeInteger "maximumProposals" maximumProposals : Result ε Unit) = .ok () := by
    rw [assertNonNegativeSafeInteger_eq_ok, IsSafeInteger]
    unfold maxSafeInteger at *
    omega
  have hpage : (assertPositiveSafeInteger "maximumEntries" maximumEntries : Result ε Unit) = .ok () := by
    rw [assertPositiveSafeInteger_eq_ok, IsSafeInteger]
    unfold maxSafeInteger at *
    omega
  dsimp only
  rw [hcount, ok_bind, hpage, ok_bind, if_neg (by omega),
    collectPending_eq _ _ (by rw [List.length_nil]; omega), List.nil_append, List.length_nil, Nat.sub_zero]
  rfl

theorem Network.Consistent.validRequest (h : network.Consistent setup authority knowledge retained)
    (hreachable : setup.system.Reachable network) (i : ι) {options : PrepareSyncRequestOptions}
    (hfits : options.Fits setup.settings.limits) :
    ValidRequest (network.sessionRequest i options) setup.settings.limits := by
  have hparticipant := h.participants i
  have hreflects := hparticipant.reflects
  have hcursor := hreflects.confirmedSequence
  have hthrough := hreflects.known.through
  have hsafe : ((canonicalLog authority.ledger).length : Int) ≤ maxSafeInteger := h.server.safe
  have hsublist : (network.sessionRequest i options).proposals.Sublist (network.proposalsOf i) := by
    rw [Network.sessionRequest, Network.pendingOf, hreflects.outbox]
    exact (List.take_sublist _ _).trans pendingProposals_sublist
  constructor
  case baseNonneg =>
    change 0 ≤ (network.replicas i).confirmedSequence
    omega
  case baseSafe =>
    change (network.replicas i).confirmedSequence ≤ maxSafeInteger
    omega
  case entries => exact hfits.entries
  case entriesSafe => exact hfits.entriesSafe
  case withinLimit =>
    have hproposals := hfits.proposals
    have hlimit := hfits.limit
    rw [Network.sessionRequest, List.length_take]
    omega
  case batch =>
    constructor
    case valid => exact fun proposal hproposal =>
      enqueued_valid hreachable _ (mem_proposalsOf.mp (hsublist.subset hproposal))
    case ordered =>
      have hids := List.pairwise_map.mp (h.proposals_nodup i)
      exact ((hids.and hparticipant.pairwise).sublist hsublist).imp fun hordered =>
        ⟨hordered.1, fun _ => hordered.2⟩

theorem applyEntries_total {replica : ReplicaInterpreter State Intent Operation ε}
    (htotal : ∀ state operation, ∃ next, replica.applyCommitted state operation = .ok next) (state : State)
    (entries : List (CommittedOperation Operation)) : ∃ next, applyEntries replica state entries = .ok next := by
  obtain ⟨last, happly, -⟩ := foldlM_returns (I := fun _ => True) (l := entries)
    (fun entry _ state _ => (htotal state entry.operation).imp fun next hnext => ⟨hnext, trivial⟩)
    (b := state) trivial
  exact ⟨last, happly⟩

theorem Network.Consistent.merge_returns (h : network.Consistent setup authority knowledge retained)
    (htotal : setup.Total) {i : ι} {response : SyncResponse Operation Rejection}
    (hresponse : (i, response) ∈ network.responses) :
    ∃ result, mergeSyncResponse (setup.replicaInterpreter i) (network.replicas i) response = .ok result := by
  have haddressed := h.responses _ hresponse
  have hreflects := (h.participants i).reflects
  have hbase : response.requestedBaseSequence ≤ (network.replicas i).confirmedSequence :=
    hreflects.confirmedSequence ▸ haddressed.base
  have hmerge := mergeSyncResponse_unless authority.justified h.server.safe hreflects (h.proposals_nodup i)
    (h.recordsOwn i) haddressed.honest haddressed.valid hbase
  obtain ⟨next, happly⟩ := applyEntries_total (htotal.applyCommitted i) (network.replicas i).confirmedState
    (newEntries authority.ledger (knowledge i) response)
  rw [hmerge.eq_of_not (not_not.mpr (htotal.reflexive i)), happly]
  exact ⟨_, rfl⟩

theorem Network.Consistent.synchronize_succeeds (h : network.Consistent setup authority knowledge retained)
    (htotal : setup.Total) (hreachable : setup.system.Reachable network) (i : ι) {options : PrepareSyncRequestOptions}
    (hfits : options.Fits setup.settings.limits)
    (hroom : (network.server.log.length + (network.pendingOf i).length : Int) ≤ maxSafeInteger) :
    ∃ response server, InMemoryLogServer.synchronize setup.settings network.server (network.sessionRequest i options) =
      .ok (response, server) := by
  have hreflects := (h.participants i).reflects
  have hlog : network.server.log.length = authority.toBooks.log.length := congrArg List.length h.log_eq
  have hbase : (network.sessionRequest i options).baseSequence ≤ authority.toBooks.log.length := by
    change (network.replicas i).confirmedSequence ≤ _
    have hthrough := hreflects.known.through
    rw [hreflects.confirmedSequence]
    exact Int.ofNat_le.mpr hthrough
  have hsublist : (network.sessionRequest i options).proposals.Sublist (network.pendingOf i) := List.take_sublist _ _
  have hsent := hsublist.length_le
  have hanswerable : ∀ proposal ∈ (network.sessionRequest i options).proposals,
      authority.toBooks.Answerable proposal := by
    intro proposal hproposal
    apply h.answerable
    have hpending := hsublist.subset hproposal
    rw [Network.pendingOf, hreflects.outbox] at hpending
    exact pendingProposals_sublist.subset hpending
  obtain ⟨response, books, hbooks⟩ := Books.synchronize_succeeds htotal.authority setup.resolved
    (h.validRequest hreachable i hfits) hbase hanswerable (by omega)
  have hagree := InMemoryLogServer.synchronize_agree setup.settings h.server.represents
    authority.justified.pairwise_identity (network.sessionRequest i options)
  obtain ⟨⟨answered, server⟩, hcall, -⟩ := hagree.of_right_eq_ok hbooks
  exact ⟨answered, server, hcall⟩

/-! ### What is left to do -/

/-- The pending operations, and the distance from the cursor to the head. -/
def Network.remaining (network : Network ι State Intent Operation Rejection) (i : ι) : Nat :=
  (network.pendingOf i).length +
    (network.server.log.length - (network.replicas i).confirmedSequence.toNat)

theorem Network.Consistent.cursor_le (h : network.Consistent setup authority knowledge retained) (i : ι) :
    (network.replicas i).confirmedSequence = (knowledge i).through ∧
      (knowledge i).through ≤ network.server.log.length := by
  refine ⟨(h.participants i).reflects.confirmedSequence, ?_⟩
  rw [h.log_eq]
  exact (h.participants i).reflects.known.through

/-- Nothing is left exactly when the outbox is empty and the cursor is at the head. -/
theorem Network.Consistent.remaining_eq_zero (h : network.Consistent setup authority knowledge retained) (i : ι) :
    network.remaining i = 0 ↔ (network.replicas i).outbox = [] ∧
      (network.replicas i).confirmedSequence = network.server.headSequence := by
  obtain ⟨hcursor, hthrough⟩ := h.cursor_le i
  have hhead : network.server.headSequence = network.server.log.length := rfl
  constructor
  · intro hremaining
    rw [Network.remaining, Nat.add_eq_zero_iff] at hremaining
    obtain ⟨hpending, hdistance⟩ := hremaining
    refine ⟨List.eq_nil_iff_forall_not_mem.mpr fun entry hentry => ?_, by omega⟩
    cases entry with
    | pending proposal =>
        have hmem := mem_pendingProposals.mpr hentry
        change proposal ∈ network.pendingOf i at hmem
        rw [List.length_eq_zero_iff.mp hpending] at hmem
        exact absurd hmem List.not_mem_nil
    | accepted proposal sequence operation =>
        obtain ⟨hbeyond, hwithin⟩ := h.accepted_bounds hentry
        rw [← h.log_eq] at hwithin
        omega
  · intro hdone
    obtain ⟨houtbox, hlast⟩ := hdone
    rw [Network.remaining, Network.pendingOf, houtbox, pendingProposals, List.filterMap_nil, List.length_nil]
    omega

open Classical in
theorem pendingProposals_outboxOf (ledger : Ledger Operation Rejection) (knowledge : Knowledge)
    (proposals : List (ProposedOperation Intent)) :
    pendingProposals (outboxOf ledger knowledge proposals) =
      proposals.filter fun proposal => ¬Settled ledger knowledge proposal := by
  rw [pendingProposals, outboxOf, List.filterMap_filterMap, ← List.filterMap_eq_filter]
  apply List.filterMap_congr
  intro proposal _
  by_cases hsettled : Settled ledger knowledge proposal
  · rw [Option.guard, if_neg (by simpa using hsettled)]
    rcases settle_of_settled hsettled with hnone | ⟨_, _, _, _, -, -, -, -, haccepted⟩
    · rw [hnone]
      rfl
    · rw [haccepted]
      rfl
  · rw [settle_of_not_settled hsettled, Option.guard, if_pos (by simpa using hsettled)]
    rfl

theorem pending_length_le {ledger ledger' : Ledger Operation Rejection} {knowledge knowledge' : Knowledge}
    {proposals : List (ProposedOperation Intent)} {count : Nat}
    (hmono : ∀ proposal : ProposedOperation Intent, Settled ledger knowledge proposal →
      Settled ledger' knowledge' proposal)
    (hsent : ∀ proposal ∈ (pendingProposals (outboxOf ledger knowledge proposals)).take count,
      Settled ledger' knowledge' proposal) :
    (pendingProposals (outboxOf ledger' knowledge' proposals)).length ≤
      (pendingProposals (outboxOf ledger knowledge proposals)).length - count := by
  classical
  have hfilter : pendingProposals (outboxOf ledger' knowledge' proposals) =
      (pendingProposals (outboxOf ledger knowledge proposals)).filter
        fun proposal => ¬Settled ledger' knowledge' proposal := by
    rw [pendingProposals_outboxOf, pendingProposals_outboxOf, List.filter_filter]
    apply List.filter_congr
    intro proposal _
    by_cases hsettled : Settled ledger knowledge proposal
    · simp [hsettled, hmono proposal hsettled]
    · simp [hsettled]
  have hnone : ((pendingProposals (outboxOf ledger knowledge proposals)).take count).filter
      (fun proposal => ¬Settled ledger' knowledge' proposal) = [] := by
    rw [List.filter_eq_nil_iff]
    intro proposal hproposal
    simpa using hsent proposal hproposal
  rw [hfilter, ← List.length_drop]
  conv_lhs => rw [← List.take_append_drop count (pendingProposals (outboxOf ledger knowledge proposals)),
    List.filter_append, hnone, List.nil_append]
  exact List.length_filter_le _ _

theorem Synchronized.throughSequence_eq {settings : LogServerSettings State Intent Operation Rejection ε}
    {before after : Books State Operation Rejection} {request : SyncRequest Intent}
    {response : SyncResponse Operation Rejection} (hresolved : settings.limits.Resolved)
    (h : Synchronized settings before after request response) :
    response.headSequence = after.log.length ∧
    ∃ page : Nat, 1 ≤ page ∧ response.throughSequence =
      request.baseSequence + (min page (after.log.length - request.baseSequence.toNat) : Nat) := by
  have hentries := respond_entries after.log response.decisions hresolved h.valid
  have hlength := congrArg List.length hentries
  rw [List.length_take, List.length_drop] at hlength
  have hpage : 1 ≤ min request.maximumEntries settings.limits.maximumEntriesPerResponse :=
    le_min h.valid.entries hresolved.entries
  rw [h.answered]
  refine ⟨rfl, (min request.maximumEntries settings.limits.maximumEntriesPerResponse).toNat, by omega, ?_⟩
  rw [← hlength]
  rfl

/-- The step lemma: a round that the server answers leaves less to do. -/
theorem Network.Consistent.round (h : network.Consistent setup authority knowledge retained)
    (htotal : setup.Total) {i : ι} {options : PrepareSyncRequestOptions} (hfits : options.Fits setup.settings.limits)
    {response : SyncResponse Operation Rejection} {server : InMemoryLogServer State Operation Rejection}
    (hcall : InMemoryLogServer.synchronize setup.settings network.server (network.sessionRequest i options) =
      .ok (response, server)) :
    ∃ result, mergeSyncResponse (setup.replicaInterpreter i) (network.replicas i) response = .ok result ∧
      ∀ network' : Network ι State Intent Operation Rejection, network'.server = server →
        network'.replicas i = result.state →
          network'.remaining i ≤ network.remaining i - 1 ∧
          network'.server.log.length + (network'.pendingOf i).length ≤
            network.server.log.length + (network.pendingOf i).length ∧
          response.throughSequence = (network'.replicas i).confirmedSequence ∧
          response.headSequence = network'.server.headSequence := by
  obtain ⟨count, hcount⟩ : ∃ count : Nat,
      options.maximumProposals.getD defaultProtocolLimits.maximumProposalsPerRequest = count :=
    Int.eq_ofNat_of_zero_le (by have := hfits.proposals; omega)
  have hpositive := hfits.proposals
  rw [hcount] at hpositive
  have hproposals : (network.sessionRequest i options).proposals = (network.pendingOf i).take count := by
    rw [Network.sessionRequest, hcount, Int.toNat_natCast]
  have hbase : (network.sessionRequest i options).baseSequence = (network.replicas i).confirmedSequence := rfl
  have hprepared := h.prepare (h.prepare_succeeds (ε := ε) i hfits)
  obtain ⟨authority', hanswered, hsynchronized⟩ :=
    hprepared.deliver (List.mem_append_right _ (List.mem_singleton_self _)) hcall
  have hmem := List.mem_append_right network.responses (List.mem_singleton_self (i, response))
  obtain ⟨result, hmerge⟩ := hanswered.merge_returns htotal hmem
  have hmerged := hanswered.merge hmem hmerge
  refine ⟨result, hmerge, fun network' hserver hreplica => ?_⟩
  have hreflects := (h.participants i).reflects
  have hnext := (hmerged.participants i).reflects
  simp only [Network.setReplica, Function.update_self] at hnext
  change result.state.Reflects _ _ _ (network.proposalsOf i) _ _ at hnext
  obtain ⟨hcursor, hthrough⟩ := h.cursor_le i
  have hlog : server.log = authority'.toBooks.log := hanswered.log_eq
  have hcursor' := hnext.confirmedSequence
  have hgrows : (canonicalLog authority.ledger).length ≤ server.log.length := by
    rw [hlog]
    exact (hsynchronized.ledger_prefix.filterMap _).length_le
  obtain ⟨hhead, page, hpage, hpageEnd⟩ := hsynchronized.throughSequence_eq setup.resolved
  have hentries := hsynchronized.log_length_le
  -- What was sent is decided, so it is not pending any more.
  have hpending : (pendingProposals result.state.outbox).length ≤ (network.pendingOf i).length - count := by
    rw [Network.pendingOf, hnext.outbox, hreflects.outbox]
    apply pending_length_le
    · intro proposal hsettled
      obtain ⟨new, hnew, -⟩ := hsynchronized.grows
      rw [show authority'.ledger = authority.ledger ++ new from hnew]
      exact hsettled.append.mono le_sup_left
    · intro proposal hsent
      rw [← hreflects.outbox] at hsent
      change proposal ∈ (network.pendingOf i).take count at hsent
      rw [← hproposals] at hsent
      refine settled_of_mem_decided hnext.known (Finset.mem_union_right _ ?_)
      change proposal.operationId ∈ decidedIds response.decisions
      rw [hsynchronized.decidedIds_eq, List.mem_toFinset]
      exact List.mem_map_of_mem hsent
  have hsent : (network.sessionRequest i options).proposals.length = min count (network.pendingOf i).length := by
    rw [hproposals, List.length_take]
  have hbefore : authority.toBooks.log.length = network.server.log.length := congrArg List.length h.log_eq.symm
  have hknown : (knowledge i ⊔ response.knowledge).through =
      max (knowledge i).through response.throughSequence.toNat := rfl
  have hserverHead : server.headSequence = server.log.length := rfl
  have hbeforeHead : (canonicalLog authority.ledger).length = network.server.log.length := hbefore
  rw [Network.remaining, Network.remaining, Network.pendingOf, hserver, hreplica, hcursor', hserverHead, hknown,
    hhead, hpageEnd, ← hlog, hbase, hcursor]
  rw [← hlog, hbefore] at hentries
  rw [hpageEnd, ← hlog, hbase, hcursor] at hknown
  refine ⟨?_, ?_, ?_, ?_⟩
  all_goals omega

end Network

/-! ### The calls of a session -/

section Calls

variable {World α β : Type} {world world' : World}

theorem SessionM.bind_of_ok {x : SessionM World ε α} {f : α → SessionM World ε β} {a : α}
    (h : x world = (.ok a, world')) : (x >>= f) world = f a world' := by
  change ExceptT.bindCont f (x world).1 (x world).2 = _
  rw [h]
  rfl

theorem SessionM.bind_of_error {x : SessionM World ε α} {f : α → SessionM World ε β} {error : SessionError ε}
    (h : x world = (.error error, world')) : (x >>= f) world = (.error error, world') := by
  change ExceptT.bindCont f (x world).1 (x world).2 = _
  rw [h]
  rfl

end Calls

namespace StoreNetwork

variable [DecidableEq ι] {setup : StoreSetup ι State Intent Operation Rejection ε}
  {stores : StoreNetwork ι State Intent Operation Rejection} {i : ι}

/-- The calls of a session are actions of the network. -/
theorem prepareSyncRequest_run {options : PrepareSyncRequestOptions} {request : SyncRequest Intent}
    (hcall : (setup.store i).prepareSyncRequest (stores.stored i) options = .ok request) :
    prepareSyncRequest setup i options stores =
      (.ok request, stores.next setup (.network (.prepare i options))) := by
  rw [prepareSyncRequest, next, hcall]

theorem synchronize_run {index : Nat} (envelope : SyncRequestEnvelope Intent)
    {response : SyncResponse Operation Rejection} {server : InMemoryLogServer State Operation Rejection}
    (hrequest : stores.requests[index]? = some (i, envelope.request))
    (hcall : InMemoryLogServer.synchronize setup.settings stores.server envelope.request = .ok (response, server)) :
    synchronize setup i envelope stores =
      (.ok ⟨syncProtocolVersion, envelope.streamId, response⟩, stores.next setup (.network (.deliver index))) := by
  rw [synchronize, next, hrequest]
  dsimp only
  rw [hcall]

theorem mergeSyncResponse_run {index : Nat} {response : SyncResponse Operation Rejection}
    (hresponse : stores.responses[index]? = some (i, response))
    {result : IndexedDbMergeResult State Intent Operation Rejection}
    {stored : Option (IndexedDbReplicaRecord State Intent Operation Rejection)}
    (hcall : (setup.store i).mergeSyncResponse (stores.stored i) response = (.ok result, stored)) :
    mergeSyncResponse setup i response stores = (.ok (), stores.next setup (.network (.merge index))) := by
  rw [mergeSyncResponse, next, hresponse]
  dsimp only
  rw [hcall]

omit [DecidableEq ι] in
theorem readStatus_run {record : IndexedDbReplicaRecord State Intent Operation Rejection}
    (hstored : stores.stored i = some record) (haccepts : (setup.store i).Accepts record) :
    readStatus setup i stores = (.ok (statusFromRecord record), stores) := by
  rw [readStatus, hstored, IndexedDbReplicaStore.readRecord, haccepts.assertRecord]

end StoreNetwork

/-! ### One round -/

theorem outbox_eq_nil_iff {outbox : List (OutboxEntry Intent Operation)} :
    outbox = [] ↔ outbox.countP OutboxEntry.isPending = 0 ∧ (outbox.countP fun entry => !entry.isPending) = 0 := by
  cases outbox with
  | nil => simp
  | cons entry outbox =>
      refine iff_of_false (List.cons_ne_nil _ _) fun hnone => ?_
      cases entry with
      | pending => simp [OutboxEntry.isPending] at hnone
      | accepted => simp [OutboxEntry.isPending] at hnone

section Round

variable [DecidableEq ι] {setup : StoreSetup ι State Intent Operation Rejection ε}
  {stores : StoreNetwork ι State Intent Operation Rejection}
  {network : Network ι State Intent Operation Rejection}

theorem StoreNetwork.Follows.finished_iff (h : stores.Follows setup network) (i : ι)
    {response : SyncResponse Operation Rejection}
    (hthrough : response.throughSequence = (network.replicas i).confirmedSequence)
    (hhead : response.headSequence = network.server.headSequence)
    (resolutions : List (ProposalDecision Operation Rejection)) :
    (!responseHasMoreEntries response &&
        decide ((statusFromRecord (setup.record (network.replicas i) resolutions)).pendingProposalCount = 0) &&
        decide
          ((statusFromRecord (setup.record (network.replicas i) resolutions)).acceptedAwaitingConfirmationCount = 0)) =
      decide (network.remaining i = 0) := by
  obtain ⟨authority, knowledge, retained, hconsistent⟩ := Network.consistent_of_reachable h.reachable
  obtain ⟨hcursor, hlog⟩ := hconsistent.cursor_le i
  have hlength : network.server.headSequence = network.server.log.length := rfl
  rw [Bool.eq_iff_iff, decide_eq_true_iff, hconsistent.remaining_eq_zero i, outbox_eq_nil_iff, Bool.and_eq_true,
    Bool.and_eq_true, decide_eq_true_iff, decide_eq_true_iff, Bool.not_eq_true', responseHasMoreEntries,
    decide_eq_false_iff_not, hthrough, hhead, and_assoc, and_comm]
  refine and_congr_right fun _ => ?_
  omega

theorem StoreNetwork.reachable_next {action : StoreAction ι Intent}
    {stores' : StoreNetwork ι State Intent Operation Rejection} (h : setup.storeSystem.Reachable stores)
    (hnext : stores.next setup action = stores') (hfresh : stores.Fresh action) :
    setup.storeSystem.Reachable stores' :=
  h.step (a := action) ⟨hfresh, hnext.symm⟩

/-- What rounds of one store do to all stores and to the network they follow. -/
structure StoreNetwork.RoundsTo (setup : StoreSetup ι State Intent Operation Rejection ε) (i : ι)
    (stores : StoreNetwork ι State Intent Operation Rejection) (network : Network ι State Intent Operation Rejection)
    (stores' : StoreNetwork ι State Intent Operation Rejection)
    (network' : Network ι State Intent Operation Rejection) : Prop where
  follows : stores'.Follows setup network'
  reachable : setup.storeSystem.Reachable stores → setup.storeSystem.Reachable stores'
  enqueued : network'.enqueued = network.enqueued
  others : ∀ j, j ≠ i → network'.replicas j = network.replicas j
  bound : network'.server.log.length + (network'.pendingOf i).length ≤
    network.server.log.length + (network.pendingOf i).length

theorem StoreNetwork.RoundsTo.trans {stores' stores'' : StoreNetwork ι State Intent Operation Rejection}
    {network' network'' : Network ι State Intent Operation Rejection} {i : ι}
    (h : stores.RoundsTo setup i network stores' network') (h' : stores'.RoundsTo setup i network' stores'' network'') :
    stores.RoundsTo setup i network stores'' network'' where
  follows := h'.follows
  reachable hreachable := h'.reachable (h.reachable hreachable)
  enqueued := h'.enqueued.trans h.enqueued
  others j hj := (h'.others j hj).trans (h.others j hj)
  bound := h'.bound.trans h.bound

/-- The step lemma of the loop: the server refuses because the head would leave the safe integers, or the
round leaves less, and the loop ends when nothing is left. -/
theorem StoreNetwork.Follows.syncRound (h : stores.Follows setup network) (htotal : setup.Total) (i : ι)
    (maximumEntries maximumProposals maximumSyncRounds : Option Int)
    (hfits : PrepareSyncRequestOptions.Fits
      { maximumProposals := some (maximumProposals.getD 64), maximumEntries := some (maximumEntries.getD 256) }
      setup.settings.limits) :
    (∃ error stores', SyncEngine.syncRound
        (session setup i maximumEntries maximumProposals maximumSyncRounds) stores =
          (.error (.transport error), stores') ∧
      maxSafeInteger < network.server.log.length + (network.pendingOf i).length) ∨
    ∃ network' stores', stores.RoundsTo setup i network stores' network' ∧
      SyncEngine.syncRound (session setup i maximumEntries maximumProposals maximumSyncRounds) stores =
        (.ok (decide (network'.remaining i = 0)), stores') ∧
      network'.remaining i ≤ network.remaining i - 1 := by
  obtain ⟨options, hoptions⟩ : ∃ options : PrepareSyncRequestOptions, options =
    { maximumProposals := some (maximumProposals.getD 64), maximumEntries := some (maximumEntries.getD 256) } :=
    ⟨_, rfl⟩
  rw [← hoptions] at hfits
  obtain ⟨authority, knowledge, retained, hconsistent⟩ := Network.consistent_of_reachable h.reachable
  have hprepare := hconsistent.prepare_succeeds (ε := ε) i hfits
  have hprepared : (setup.store i).prepareSyncRequest (stores.stored i) options =
      .ok (network.sessionRequest i options) := by
    rw [h.stored i, IndexedDbReplicaStore.prepareSyncRequest_eq (h.accepts i)]
    change reduce (SyncEngine.prepareSyncRequest (network.replicas i) options) = _
    rw [hprepare]
    rfl
  have hfirst := prepareSyncRequest_run hprepared
  have h₁ := h.prepare i options
  have hnetwork₁ : network.next setup.toNetworkSetup (.prepare i options) =
      { network with requests := network.requests ++ [(i, network.sessionRequest i options)] } := by
    rw [Network.next, hprepare]
  rw [hnetwork₁] at h₁
  generalize hstores₁ : stores.next setup (.network (.prepare i options)) = stores₁ at hfirst h₁
  cases hcall : InMemoryLogServer.synchronize setup.settings network.server (network.sessionRequest i options) with
  | error error =>
      refine Or.inl ⟨error, stores₁, ?_, ?_⟩
      · subst hoptions
        refine (SessionM.bind_of_ok hfirst).trans (SessionM.bind_of_error ?_)
        change StoreNetwork.synchronize setup i ⟨_, _, network.sessionRequest i _⟩ _ = _
        rw [StoreNetwork.synchronize, h₁.server, hcall]
      · by_contra hroom
        obtain ⟨response, server, hanswered⟩ :=
          hconsistent.synchronize_succeeds htotal h.reachable i hfits (by omega)
        rw [hcall] at hanswered
        simp at hanswered
  | ok answer =>
      obtain ⟨response, server⟩ := answer
      obtain ⟨result, hmerge, hround⟩ := hconsistent.round htotal hfits hcall
      have hrequest : stores₁.requests[network.requests.length]? = some (i, network.sessionRequest i options) := by
        rw [h₁.requests]
        exact List.getElem?_concat_length
      have hsecond := synchronize_run ⟨syncProtocolVersion, setup.streamId, network.sessionRequest i options⟩
        hrequest (h₁.server ▸ hcall)
      have h₂ := h₁.deliver network.requests.length
      have hnetwork₂ : Network.next setup.toNetworkSetup
          { network with requests := network.requests ++ [(i, network.sessionRequest i options)] }
          (.deliver network.requests.length) =
          { network with
            server := server
            requests := network.requests ++ [(i, network.sessionRequest i options)]
            responses := network.responses ++ [(i, response)] } := by
        rw [Network.next, List.getElem?_concat_length]
        dsimp only
        rw [hcall]
      rw [hnetwork₂] at h₂
      generalize hstores₂ : stores₁.next setup (.network (.deliver network.requests.length)) = stores₂ at hsecond h₂
      have hresponse : stores₂.responses[network.responses.length]? = some (i, response) := by
        rw [h₂.responses]
        exact List.getElem?_concat_length
      obtain ⟨status, hstored⟩ := h₂.mergeSyncResponse_of_ok
        (List.mem_append_right _ (List.mem_singleton_self _)) hmerge
      rw [← h₂.stored i] at hstored
      have hthird := mergeSyncResponse_run hresponse hstored
      have h₃ := h₂.merge network.responses.length
      obtain ⟨network₃, hnetwork₃⟩ : ∃ network₃ : Network ι State Intent Operation Rejection, network₃ =
          { network with
            server := server
            replicas := Function.update network.replicas i result.state
            requests := network.requests ++ [(i, network.sessionRequest i options)]
            responses := network.responses ++ [(i, response)] } := ⟨_, rfl⟩
      have hlast : Network.next setup.toNetworkSetup
          { network with
            server := server
            requests := network.requests ++ [(i, network.sessionRequest i options)]
            responses := network.responses ++ [(i, response)] }
          (.merge network.responses.length) = network₃ := by
        rw [Network.next, List.getElem?_concat_length]
        dsimp only
        rw [hmerge, hnetwork₃]
        rfl
      rw [hlast] at h₃
      generalize hstores₃ : stores₂.next setup (.network (.merge network.responses.length)) = stores₃ at hthird h₃
      obtain ⟨hless, hbound, hthrough, hhead⟩ := hround network₃ (hnetwork₃ ▸ rfl)
        (hnetwork₃ ▸ Function.update_self i result.state network.replicas)
      have hstatus := readStatus_run (h₃.stored i) (h₃.accepts i)
      have hrounds : stores.RoundsTo setup i network stores₃ network₃ := {
        follows := h₃
        reachable := fun hreachable => by
          have hsent := StoreNetwork.reachable_next hreachable hstores₁ trivial
          have hreturned := StoreNetwork.reachable_next hsent hstores₂ trivial
          exact StoreNetwork.reachable_next hreturned hstores₃ trivial
        enqueued := hnetwork₃ ▸ rfl
        others := fun j hj => hnetwork₃ ▸ Function.update_of_ne hj result.state network.replicas
        bound := hbound }
      refine Or.inr ⟨network₃, stores₃, hrounds, ?_, hless⟩
      subst hoptions
      refine (SessionM.bind_of_ok hfirst).trans ((SessionM.bind_of_ok hsecond).trans ?_)
      have hassert : (syncRound.liftExcept (assertResponseEnvelope setup.streamId
          ⟨syncProtocolVersion, setup.streamId, response⟩) : SessionM _ ε Unit) stores₂ = (.ok (), stores₂) := by
        rw [syncRound.liftExcept, assertResponseEnvelope]
        simp [throwIf]
      refine (SessionM.bind_of_ok hassert).trans ((SessionM.bind_of_ok hthird).trans
        ((SessionM.bind_of_ok hstatus).trans ?_))
      exact congrArg (fun finished => (Except.ok finished, stores₃))
        (h₃.finished_iff i hthrough hhead (outstanding (stores₃.outcomes i)))

/-- The run lemma of the loop: as many rounds as there is work, and at least one, are enough. More rounds
change nothing. -/
theorem StoreNetwork.Follows.syncRounds (h : stores.Follows setup network) (htotal : setup.Total) (i : ι)
    (maximumEntries maximumProposals : Option Int)
    (hfits : PrepareSyncRequestOptions.Fits
      { maximumProposals := some (maximumProposals.getD 64), maximumEntries := some (maximumEntries.getD 256) }
      setup.settings.limits) :
    (maxSafeInteger < network.server.log.length + (network.pendingOf i).length ∧ ∃ error stores',
      ∀ maximumSyncRounds rounds, max 1 (network.remaining i) ≤ rounds →
        SyncEngine.syncRounds (session setup i maximumEntries maximumProposals maximumSyncRounds)
          (maximumSyncRounds.getD 100) rounds stores = (.error (.transport error), stores')) ∨
    ∃ network' stores', stores.RoundsTo setup i network stores' network' ∧ network'.remaining i = 0 ∧
      ∀ maximumSyncRounds rounds, max 1 (network.remaining i) ≤ rounds →
        SyncEngine.syncRounds (session setup i maximumEntries maximumProposals maximumSyncRounds)
          (maximumSyncRounds.getD 100) rounds stores = (.ok (), stores') := by
  generalize hwork : network.remaining i = work
  induction work using Nat.strong_induction_on generalizing stores network with
  | _ work ih =>
      -- The round does not look at the number of rounds that are left.
      rcases h.syncRound htotal i maximumEntries maximumProposals none hfits with
        ⟨error, stores', hround, hroom⟩ | ⟨network', stores', hrounds, hround, hless⟩
      · refine Or.inl ⟨hroom, error, stores', fun maximumSyncRounds rounds hbudget => ?_⟩
        obtain ⟨rounds, rfl⟩ : ∃ left, rounds = left + 1 := Nat.exists_eq_add_of_le' (by omega)
        exact SessionM.bind_of_error hround
      · by_cases hdone : network'.remaining i = 0
        · rw [decide_eq_true hdone] at hround
          refine Or.inr ⟨network', stores', hrounds, hdone, fun maximumSyncRounds rounds hbudget => ?_⟩
          obtain ⟨rounds, rfl⟩ : ∃ left, rounds = left + 1 := Nat.exists_eq_add_of_le' (by omega)
          exact SessionM.bind_of_ok hround
        · rw [decide_eq_false hdone] at hround
          have hbound := hrounds.bound
          rcases ih (network'.remaining i) (by omega) hrounds.follows rfl with
            ⟨hroom, error, last, hlast⟩ | ⟨network'', last, hrest, hnone, hlast⟩
          · refine Or.inl ⟨by omega, error, last, fun maximumSyncRounds rounds hbudget => ?_⟩
            obtain ⟨rounds, rfl⟩ : ∃ left, rounds = left + 1 := Nat.exists_eq_add_of_le' (by omega)
            exact (SessionM.bind_of_ok hround).trans (hlast maximumSyncRounds rounds (by omega))
          · refine Or.inr ⟨network'', last, hrounds.trans hrest, hnone, fun maximumSyncRounds rounds hbudget => ?_⟩
            obtain ⟨rounds, rfl⟩ : ∃ left, rounds = left + 1 := Nat.exists_eq_add_of_le' (by omega)
            exact (SessionM.bind_of_ok hround).trans (hlast maximumSyncRounds rounds (by omega))

theorem StoreNetwork.Follows.enqueue_one (h : stores.Follows setup network) {i : ι}
    (hclient : (setup.replicaOptions i).clientId.length ≠ 0) (hfirst : 1 ≤ setup.firstSequence i) (intent : Intent)
    (hroom : (network.replicas i).nextClientSequence < maxSafeInteger) :
    ∃ network' stores', stores'.Follows setup network' ∧
      (setup.storeSystem.Reachable stores → setup.storeSystem.Reachable stores') ∧
      network'.enqueued.length = network.enqueued.length + 1 ∧
      (network'.replicas i).nextClientSequence = (network.replicas i).nextClientSequence + 1 ∧
      network'.server = network.server ∧ ∀ j, j ≠ i → network'.replicas j = network.replicas j := by
  obtain ⟨authority, knowledge, retained, hconsistent⟩ := Network.consistent_of_reachable h.reachable
  have hparticipant := hconsistent.participants i
  obtain ⟨operationId, hnew⟩ := Infinite.exists_notMem_finset (insert ""
    ((network.enqueued.map fun entry => entry.2.operationId) ++
      ((network.replicas i).confirmedLog.map CommittedOperation.operationId) ++
      (network.replicas i).outbox.map OutboxEntry.operationId).toFinset)
  simp only [Finset.mem_insert, List.mem_toFinset, List.mem_append, List.mem_map, not_or, not_exists,
    not_and] at hnew
  obtain ⟨hnonempty, ⟨henqueued, hconfirmed⟩, houtbox⟩ := hnew
  obtain ⟨input, hinput⟩ : ∃ input : EnqueueOperationInput Intent, input = ⟨operationId, "hash", intent⟩ := ⟨_, rfl⟩
  have hnext := hparticipant.nextClientSequence
  have hcall : (enqueueOperation (network.replicas i) input : Result ε _) = .ok {
      network.replicas i with
      nextClientSequence := (network.replicas i).nextClientSequence + 1
      outbox := (network.replicas i).outbox ++ [.pending ((network.replicas i).propose input)] } := by
    refine enqueueOperation_eq_ok.mpr {
      valid := ⟨?_, ?_, ?_, ?_, ?_⟩
      room := hroom
      retained := ⟨_, hparticipant.reflects.assertRetainedConfirmedLog_eq_ok authority.justified
        hconsistent.server.safe⟩
      fresh := ?_
      result := rfl }
    all_goals subst hinput
    · change operationId.length ≠ 0
      exact fun hlength => hnonempty (String.length_eq_zero_iff.mp hlength)
    · change (network.replicas i).clientId.length ≠ 0
      rw [hparticipant.sameClient]
      exact hclient
    · change 1 ≤ (network.replicas i).nextClientSequence
      omega
    · exact hroom.le
    · change "hash".length ≠ 0
      decide
    · intro hused
      rcases hused with ⟨entry, hentry, hsame⟩ | ⟨entry, hentry, hsame⟩
      · exact hconfirmed entry hentry hsame
      · exact houtbox entry hentry hsame
  have hfresh : stores.Fresh (.network (.enqueue i input)) := by
    intro entry hentry
    rw [h.enqueued] at hentry
    rw [hinput]
    exact henqueued entry hentry
  have hfollows := h.enqueue hfresh
  rw [Network.next, hcall] at hfollows
  refine ⟨_, _, hfollows, fun hreachable => reachable_next hreachable rfl hfresh, ?_, ?_, rfl, fun j hj => ?_⟩
  · simp [Network.recordEnqueued]
  · change (Function.update network.replicas i _ i).nextClientSequence = _
    rw [Function.update_self]
  · exact Function.update_of_ne hj _ network.replicas

theorem StoreNetwork.Follows.enqueue_many (h : stores.Follows setup network) {i : ι}
    (hclient : (setup.replicaOptions i).clientId.length ≠ 0) (hfirst : 1 ≤ setup.firstSequence i) (intent : Intent)
    (count : Nat) (hroom : (network.replicas i).nextClientSequence + count ≤ maxSafeInteger) :
    ∃ network' stores', stores'.Follows setup network' ∧
      (setup.storeSystem.Reachable stores → setup.storeSystem.Reachable stores') ∧
      network'.enqueued.length = network.enqueued.length + count ∧
      network'.server = network.server ∧ ∀ j, j ≠ i → network'.replicas j = network.replicas j := by
  induction count generalizing stores network with
  | zero => exact ⟨network, stores, h, id, rfl, rfl, fun _ _ => rfl⟩
  | succ count ih =>
      obtain ⟨network₁, stores₁, h₁, hreachable₁, henqueued₁, hsequence₁, hserver₁, hothers₁⟩ :=
        h.enqueue_one hclient hfirst intent (by omega)
      obtain ⟨network', stores', h', hreachable', henqueued', hserver', hothers'⟩ := ih h₁ (by omega)
      refine ⟨network', stores', h', fun hreachable => hreachable' (hreachable₁ hreachable), by omega,
        hserver'.trans hserver₁, fun j hj => ?_⟩
      rw [hothers' j hj, hothers₁ j hj]

theorem Network.Consistent.pendingOf_length_le {setup : NetworkSetup ι State Intent Operation Rejection ε}
    {authority : Authority setup.settings.interpreter setup.initialState} {knowledge : ι → Knowledge}
    {retained : ι → Nat} (h : network.Consistent setup authority knowledge retained) (i : ι) :
    (network.pendingOf i).length ≤ network.enqueued.length := by
  rw [Network.pendingOf, (h.participants i).reflects.outbox]
  refine pendingProposals_sublist.length_le.trans ?_
  rw [Network.proposalsOf, List.length_map]
  exact List.length_filter_le _ _

/-- When every outbox is empty and nothing is rejected, the head counts the operations ever enqueued. -/
theorem Network.Consistent.enqueued_length_le {setup : NetworkSetup ι State Intent Operation Rejection ε}
    {authority : Authority setup.settings.interpreter setup.initialState} {knowledge : ι → Knowledge}
    {retained : ι → Nat} (h : network.Consistent setup authority knowledge retained)
    (haccepting : setup.settings.interpreter.Accepting) (hempty : ∀ i, (network.replicas i).outbox = []) :
    network.enqueued.length ≤ network.server.log.length := by
  have hdecided : (network.enqueued.map fun entry => entry.2.operationId) ⊆
      authority.ledger.map fun record => record.identity.operationId := by
    intro operationId hmem
    obtain ⟨⟨i, proposal⟩, hentry, rfl⟩ := List.mem_map.mp hmem
    have houtbox := (h.participants i).reflects.outbox
    rw [hempty i, eq_comm, outboxOf, List.filterMap_eq_nil_iff] at houtbox
    have hnone := houtbox proposal (Network.mem_proposalsOf.mpr hentry)
    have hsettled : Settled authority.ledger (knowledge i) proposal := by
      by_contra hunsettled
      rw [settle_of_not_settled hunsettled] at hnone
      simp at hnone
    obtain ⟨record, hrecord, -⟩ := hsettled
    obtain ⟨hmem, hid⟩ := (recordOf_eq_some_iff authority.justified.operationIds_nodup).mp hrecord
    exact List.mem_map.mpr ⟨record, hmem, hid⟩
  have hlength := (List.subperm_of_subset h.operationIds hdecided).length_le
  rw [List.length_map, List.length_map] at hlength
  have hlog : network.server.log.length = (canonicalLog authority.ledger).length := congrArg List.length h.log_eq
  rw [hlog, authority.justified.length_canonicalLog haccepting]
  exact hlength

end Round

/-! ### The session -/

/-- The rounds that are enough for a session: one for every pending operation and for every entry up to
the head, and at least one. -/
def StoreNetwork.sessionBound (stores : StoreNetwork ι State Intent Operation Rejection)
    (replica : ReplicaState State Intent Operation) : Int :=
  max 1 ((pendingProposals replica.outbox).length + (stores.server.headSequence - replica.confirmedSequence))

theorem Network.Consistent.sessionBound_eq [DecidableEq ι]
    {setup : StoreSetup ι State Intent Operation Rejection ε}
    {stores : StoreNetwork ι State Intent Operation Rejection} {network : Network ι State Intent Operation Rejection}
    {authority : Authority setup.settings.interpreter setup.initialState} {knowledge : ι → Knowledge}
    {retained : ι → Nat} (hconsistent : network.Consistent setup.toNetworkSetup authority knowledge retained)
    (h : stores.Follows setup network) (i : ι) :
    stores.sessionBound (network.replicas i) = (max 1 (network.remaining i) : Nat) := by
  obtain ⟨hcursor, hhead⟩ := hconsistent.cursor_le i
  rw [StoreNetwork.sessionBound, Network.remaining, h.server, hcursor]
  change max 1 (((network.pendingOf i).length : Int) + ((network.server.log.length : Int) - _)) = _
  omega

/-- A session drains its replica. From every reachable state, with limits that the server and the replica
accept, it returns within the bound whatever more rounds it may take, with an empty outbox and the cursor
at the head. Where the head could leave the safe integers, the server may refuse instead. The session
exceeds its rounds only if it has fewer than the bound. -/
theorem session_drains [DecidableEq ι] (setup : StoreSetup ι State Intent Operation Rejection ε)
    (htotal : setup.Total) {overrides : ProtocolLimitOverrides}
    (hlimits : (resolveProtocolLimits overrides : Result ε ProtocolLimits) = .ok setup.settings.limits)
    {stores : StoreNetwork ι State Intent Operation Rejection} (hreachable : setup.storeSystem.Reachable stores)
    {i : ι} {record : IndexedDbReplicaRecord State Intent Operation Rejection}
    (hstored : stores.stored i = some record) (maximumEntries maximumProposals : Option Int)
    (hentries : 1 ≤ maximumEntries.getD 256) (hentriesSafe : maximumEntries.getD 256 ≤ maxSafeInteger)
    (hproposals : 1 ≤ maximumProposals.getD 64)
    (hlimit : maximumProposals.getD 64 ≤ setup.settings.limits.maximumProposalsPerRequest) :
    ((∃ stores' last,
      (∀ maximumSyncRounds : Option Int, stores.sessionBound record.replica ≤ maximumSyncRounds.getD 100 →
        runSyncSession (StoreNetwork.session setup i maximumEntries maximumProposals maximumSyncRounds) stores =
          (.ok (), stores')) ∧
        stores'.stored i = some last ∧ last.replica.outbox = [] ∧
        last.replica.confirmedSequence = stores'.server.headSequence) ∨
      maxSafeInteger < stores.server.headSequence + (pendingProposals record.replica.outbox).length ∧
      ∃ error stores', ∀ maximumSyncRounds : Option Int,
        stores.sessionBound record.replica ≤ maximumSyncRounds.getD 100 →
        runSyncSession (StoreNetwork.session setup i maximumEntries maximumProposals maximumSyncRounds) stores =
          (.error (.transport error), stores')) ∧
    ∀ (maximumSyncRounds : Option Int) message stores',
      runSyncSession (StoreNetwork.session setup i maximumEntries maximumProposals maximumSyncRounds) stores =
        (.error (.syncClientError message), stores') →
      maximumSyncRounds.getD 100 < stores.sessionBound record.replica := by
  obtain ⟨start, actions, hstart, hpath⟩ := hreachable
  obtain ⟨first, network, -, -, h⟩ := follows_of_path hstart hpath
  obtain ⟨authority, knowledge, retained, hconsistent⟩ := Network.consistent_of_reachable h.reachable
  have hrecord : record.replica = network.replicas i :=
    congrArg IndexedDbReplicaRecord.replica (Option.some.inj (hstored.symm.trans (h.stored i)))
  have hbound := hconsistent.sessionBound_eq h i
  rw [← hrecord] at hbound
  have hlimitSafe := resolveProtocolLimits_safe hlimits
  have hfits : PrepareSyncRequestOptions.Fits
      { maximumProposals := some (maximumProposals.getD 64), maximumEntries := some (maximumEntries.getD 256) }
      setup.settings.limits :=
    ⟨hproposals, hlimit.trans hlimitSafe, hlimit, hentries, hentriesSafe⟩
  have houtcome := h.syncRounds htotal i maximumEntries maximumProposals hfits
  have henough : ∀ maximumSyncRounds : Option Int, stores.sessionBound record.replica ≤ maximumSyncRounds.getD 100 →
      max 1 (network.remaining i) ≤ (maximumSyncRounds.getD 100).toNat := by
    intro maximumSyncRounds hrounds
    omega
  constructor
  · rcases houtcome with ⟨hroom, error, stores', hrun⟩ | ⟨network', stores', hrounds, hdone, hrun⟩
    · refine Or.inr ⟨?_, error, stores', fun maximumSyncRounds hrounds => hrun _ _ (henough _ hrounds)⟩
      rw [hrecord, h.server]
      exact hroom
    · obtain ⟨authority', knowledge', retained', hconsistent'⟩ :=
        Network.consistent_of_reachable hrounds.follows.reachable
      obtain ⟨houtbox, hlast⟩ := (hconsistent'.remaining_eq_zero i).mp hdone
      refine Or.inl ⟨stores', _, fun maximumSyncRounds hrounds => hrun _ _ (henough _ hrounds),
        hrounds.follows.stored i, houtbox, ?_⟩
      rw [hrounds.follows.server]
      exact hlast
  · intro maximumSyncRounds message stores' hexceeded
    by_contra hrounds
    have hbudget := henough maximumSyncRounds (by omega)
    rw [runSyncSession] at hexceeded
    rcases houtcome with ⟨-, error, last, hrun⟩ | ⟨network', last, -, -, hrun⟩
    · have hrefused := hrun maximumSyncRounds _ hbudget
      exact absurd (congrArg Prod.fst (hexceeded.symm.trans hrefused)) (by simp)
    · have hreturned := hrun maximumSyncRounds _ hbudget
      exact absurd (congrArg Prod.fst (hexceeded.symm.trans hreturned)) (by simp)

theorem counterStoreSetup_total : counterStoreSetup.Total where
  authority := {
    decide := fun _ proposal => by
      by_cases hzero : proposal.intent = 0
      · exact ⟨.rejected "zero-delta", if_pos hzero⟩
      · exact ⟨.accepted proposal.intent, if_neg hzero⟩
    apply := fun state operation => ⟨state + operation, rfl⟩ }
  applyCommitted _ state operation := ⟨state + operation, rfl⟩
  reflexive _ _ := decide_eq_true rfl

def enteredStores : StoreNetwork Bool Int Int Int String :=
  counterStoresStart.next counterStoreSetup
    (.network (.enqueue true { operationId := "op-a1", intentHash := "test:5", intent := 5 }))

theorem enteredStores_reachable : counterStoreSetup.storeSystem.Reachable enteredStores :=
  StoreNetwork.reachable_next (.of_start counterStoresStart_start) rfl fun _ hentry => absurd hentry List.not_mem_nil

theorem session_drains_counter :
    pendingProposals ((enteredStores.stored true).get rfl).replica.outbox ≠ [] ∧
    enteredStores.sessionBound ((enteredStores.stored true).get rfl).replica = 1 ∧
    ∃ stores' last, runSyncSession (StoreNetwork.session counterStoreSetup true none none (some 1)) enteredStores =
        (.ok (), stores') ∧
      stores'.stored true = some last ∧ last.replica.outbox = [] ∧
      last.replica.confirmedSequence = stores'.server.headSequence := by
  refine ⟨List.cons_ne_nil _ _, rfl, ?_⟩
  have hlimits : (resolveProtocolLimits {} : Result Empty ProtocolLimits) = .ok counterStoreSetup.settings.limits := rfl
  have hdrains := session_drains counterStoreSetup counterStoreSetup_total hlimits enteredStores_reachable (i := true)
    (Option.some_get rfl).symm none none (by decide) (by decide) (by decide) (by decide)
  rcases hdrains.1 with ⟨stores', last, hrun, hstored, houtbox, hhead⟩ | ⟨hroom, -⟩
  · exact ⟨stores', last, hrun (some 1) (le_refl 1), hstored, houtbox, hhead⟩
  · exact absurd hroom (by decide)

/-- Counters whose authority accepts every delta. -/
def tallyInterpreter : LogInterpreter Int Int Int String Empty where
  decide _ proposal := .ok (.accepted proposal.intent)
  apply := applyCounter

theorem tallyInterpreter_accepting : tallyInterpreter.Accepting := by
  intro state proposal reason h
  simp [tallyInterpreter] at h

def tallySetup (areCommittedOperationsEqual : Int → Int → Bool) : StoreSetup Bool Int Int Int String Empty where
  toNetworkSetup := {
    counterSetup with
    settings := { interpreter := tallyInterpreter, limits := defaultProtocolLimits }
    resolved := counterSetup.resolved
    replicaInterpreter := fun _ =>
      { counterReplicaInterpreter with areCommittedOperationsEqual := areCommittedOperationsEqual } }
  streamId := "counter"
  firstOpened _ := rfl

theorem tallySetup_total : (tallySetup fun left right => left = right).Total where
  authority := ⟨fun _ proposal => ⟨.accepted proposal.intent, rfl⟩, fun state operation => ⟨state + operation, rfl⟩⟩
  applyCommitted _ state operation := ⟨state + operation, rfl⟩
  reflexive _ _ := decide_eq_true rfl

theorem tallySetup_start (areCommittedOperationsEqual : Int → Int → Bool) :
    (tallySetup areCommittedOperationsEqual).storeSystem.start counterStoresStart :=
  counterStoresStart_start

theorem defaultOptions_fit : PrepareSyncRequestOptions.Fits
    { maximumProposals := some ((none : Option Int).getD 64), maximumEntries := some ((none : Option Int).getD 256) }
    defaultProtocolLimits :=
  ⟨by decide, by decide, by decide, by decide, by decide⟩

/-- Two clients can use up the safe integers: one fills the log, and the head has no room for the two
operations of the other. -/
theorem tally_exhausted : ∃ stores replica, (tallySetup fun left right => left = right).storeSystem.Reachable stores ∧
    (stores.stored false).map IndexedDbReplicaRecord.replica = some replica ∧
    ∃ error stores', ∀ maximumSyncRounds : Option Int, stores.sessionBound replica ≤ maximumSyncRounds.getD 100 →
      runSyncSession
          (StoreNetwork.session (tallySetup fun left right => left = right) false none none maximumSyncRounds)
        stores = (.error (.transport error), stores') := by
  have hclient : ∀ i, ((tallySetup fun left right => left = right).replicaOptions i).clientId.length ≠ 0 := by
    decide
  obtain ⟨network, hstart, h⟩ := follows_of_start (tallySetup_start fun left right => left = right)
  have hreplica : ∀ i, network.replicas i = counterStart.replicas i :=
    fun i => Except.ok.inj ((hstart.2.1 i).symm.trans (counterStart_start.2.1 i))
  have hnone : network.enqueued.length = 0 := by
    rw [hstart.2.2.2.2]
    rfl
  have hempty : network.server.log.length = 0 := by
    rw [hstart.1]
    rfl
  have hsequence : ∀ i, (network.replicas i).nextClientSequence = 1 := fun i => hreplica i ▸ rfl
  -- One client enqueues as much as it can, and its session sends it all.
  obtain ⟨network₁, stores₁, h₁, hreachable₁, henqueued₁, hserver₁, hothers₁⟩ :=
    h.enqueue_many (i := true) (hclient true) (le_refl 1) 5 9007199254740990 (by rw [hsequence]; decide)
  obtain ⟨_, _, _, hconsistent₁⟩ := Network.consistent_of_reachable h₁.reachable
  have hpending := hconsistent₁.pendingOf_length_le true
  rcases h₁.syncRounds tallySetup_total true none none defaultOptions_fit with
    ⟨hroom, -⟩ | ⟨network₂, stores₂, hrounds₂, hdone₂, -⟩
  · rw [hserver₁] at hroom
    unfold maxSafeInteger at hroom
    omega
  -- The other client enqueues two operations.
  obtain ⟨_, _, _, hconsistent₂⟩ := Network.consistent_of_reachable hrounds₂.follows.reachable
  have hother : network₂.replicas false = network.replicas false :=
    (hrounds₂.others false (by decide)).trans (hothers₁ false (by decide))
  obtain ⟨network₃, stores₃, h₃, hreachable₃, henqueued₃, hserver₃, hothers₃⟩ :=
    hrounds₂.follows.enqueue_many (i := false) (hclient false) (le_refl 1) 5 2
      (by rw [hother, hsequence]; decide)
  have hreachable : (tallySetup fun left right => left = right).storeSystem.Reachable stores₃ :=
    hreachable₃ (hrounds₂.reachable (hreachable₁ (.of_start (tallySetup_start _))))
  refine ⟨stores₃, network₃.replicas false, hreachable, by rw [h₃.stored false]; rfl, ?_⟩
  rcases h₃.syncRounds tallySetup_total false none none defaultOptions_fit with
    ⟨-, error, stores', hrun⟩ | ⟨network₄, stores₄, hrounds₄, hdone₄, -⟩
  · refine ⟨error, stores', fun maximumSyncRounds hrounds => hrun maximumSyncRounds _ ?_⟩
    obtain ⟨_, _, _, hconsistent₃⟩ := Network.consistent_of_reachable h₃.reachable
    have hbound := hconsistent₃.sessionBound_eq h₃ false
    change max 1 (network₃.remaining false) ≤ (maximumSyncRounds.getD 100).toNat
    omega
  · -- Otherwise every operation is in the log, which has more entries than safe sequences.
    obtain ⟨_, _, _, hconsistent₄⟩ := Network.consistent_of_reachable hrounds₄.follows.reachable
    have hlog := hconsistent₄.enqueued_length_le tallyInterpreter_accepting fun i => by
      cases i with
      | false => exact ((hconsistent₄.remaining_eq_zero false).mp hdone₄).1
      | true =>
          rw [hrounds₄.others true (by decide), hothers₃ true (by decide)]
          exact ((hconsistent₂.remaining_eq_zero true).mp hdone₂).1
    have hsafe : (network₄.server.log.length : Int) ≤ maxSafeInteger := by
      rw [hconsistent₄.log_eq]
      exact hconsistent₄.server.safe
    rw [hrounds₄.enqueued, henqueued₃, hrounds₂.enqueued, henqueued₁, hnone] at hlog
    unfold maxSafeInteger at hsafe
    omega

def distrustfulStores : StoreNetwork Bool Int Int Int String :=
  counterStoresStart.next (tallySetup fun _ _ => false)
    (.network (.enqueue true { operationId := "op-a1", intentHash := "test:5", intent := 5 }))

theorem distrustfulStores_reachable : (tallySetup fun _ _ => false).storeSystem.Reachable distrustfulStores :=
  StoreNetwork.reachable_next (.of_start (tallySetup_start _)) rfl fun _ hentry => absurd hentry List.not_mem_nil

theorem runSyncSession_of_error {World : Type} {options : RunSyncSessionOptions World Intent Operation Rejection ε}
    {world world' : World} {error : SessionError ε} (hround : syncRound options world = (.error error, world'))
    (hrounds : 1 ≤ options.maximumSyncRounds.getD 100) :
    runSyncSession options world = (.error error, world') := by
  obtain ⟨rounds, hsucc⟩ : ∃ rounds, (options.maximumSyncRounds.getD 100).toNat = rounds + 1 :=
    Nat.exists_eq_add_of_le' (by omega)
  rw [runSyncSession, hsucc]
  exact SessionM.bind_of_error hround

/-- Three sessions that have rounds enough and do not return: with more entries than a safe integer, with
a comparison that is not reflexive, and with a head at the end of the safe integers. -/
theorem session_rejected :
    (∃ error, ∀ maximumSyncRounds : Option Int,
      counterStoresStart.sessionBound (counterStart.replicas true) ≤ maximumSyncRounds.getD 100 →
      runSyncSession (StoreNetwork.session counterStoreSetup true (some 9007199254740992) none maximumSyncRounds)
        counterStoresStart = (.error (.store error), counterStoresStart)) ∧
    ((tallySetup fun _ _ => false).storeSystem.Reachable distrustfulStores ∧ ∃ error stores',
      ∀ maximumSyncRounds : Option Int,
        distrustfulStores.sessionBound ((distrustfulStores.stored true).get rfl).replica ≤ maximumSyncRounds.getD 100 →
        runSyncSession (StoreNetwork.session (tallySetup fun _ _ => false) true none none maximumSyncRounds)
          distrustfulStores = (.error (.store error), stores')) ∧
    ∃ stores replica, (tallySetup fun left right => left = right).storeSystem.Reachable stores ∧
      (stores.stored false).map IndexedDbReplicaRecord.replica = some replica ∧
      ∃ error stores', ∀ maximumSyncRounds : Option Int, stores.sessionBound replica ≤ maximumSyncRounds.getD 100 →
        runSyncSession (StoreNetwork.session (tallySetup fun left right => left = right) false none none
          maximumSyncRounds) stores = (.error (.transport error), stores') := by
  refine ⟨?_, ⟨distrustfulStores_reachable, ?_⟩, tally_exhausted⟩
  · obtain ⟨error, hround⟩ : ∃ error, syncRound
        (StoreNetwork.session counterStoreSetup true (some 9007199254740992) none none) counterStoresStart =
          (.error (.store error), counterStoresStart) := ⟨_, rfl⟩
    exact ⟨error, fun maximumSyncRounds hrounds => runSyncSession_of_error hround hrounds⟩
  · obtain ⟨error, stores', hround⟩ : ∃ error stores', syncRound
        (StoreNetwork.session (tallySetup fun _ _ => false) true none none none) distrustfulStores =
          (.error (.store error), stores') := ⟨_, _, rfl⟩
    exact ⟨error, stores', fun maximumSyncRounds hrounds => runSyncSession_of_error hround hrounds⟩

end SyncEngine
