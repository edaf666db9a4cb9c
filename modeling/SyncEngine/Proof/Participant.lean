import SyncEngine.Proof.AuthorityRun
import SyncEngine.Proof.Replica

/-!
# One replica and its messages

What ties a replica, the requests it has sent and the responses addressed to it to a ledger that may
have grown since. A request is a snapshot of the first pending proposals at some earlier moment: of
every earlier proposal it either carries it or the replica knew its decision already. A response
carries the same guarantee about the decisions in it.
-/

namespace SyncEngine

open JavaScript Throwing

variable {State Intent Operation Rejection ε : Type}

def Decided (ledger : Ledger Operation Rejection) (operationId : String) : Prop :=
  ∃ record ∈ ledger, record.identity.operationId = operationId

/-- A replica that has enqueued `proposals`, next to the ledger of its authority. -/
structure Participant (replica : ReplicaInterpreter State Intent Operation ε) (initialState : State)
    (clientId : String) (firstSequence : Int) (ledger : Ledger Operation Rejection)
    (proposals : List (ProposedOperation Intent)) (knowledge : Knowledge) (retained : Nat)
    (state : ReplicaState State Intent Operation) : Prop where
  reflects : state.Reflects replica initialState ledger proposals knowledge retained
  sameClient : state.clientId = clientId
  own : ∀ proposal ∈ proposals, proposal.clientId = clientId
  sequence : ∀ (i : Nat) (proposal : ProposedOperation Intent), proposals[i]? = some proposal →
    proposal.clientSequence = firstSequence + i
  nextClientSequence : state.nextClientSequence = firstSequence + proposals.length
  /-- The authority decides the proposals of one client in their order. -/
  decidedBefore : ∀ earlier ∈ proposals, ∀ later ∈ proposals,
    earlier.clientSequence < later.clientSequence → Decided ledger later.operationId →
      Decided ledger earlier.operationId
  /-- A received decision comes with the fate of all earlier proposals. -/
  settledBefore : ∀ earlier ∈ proposals, ∀ later ∈ proposals,
    earlier.clientSequence < later.clientSequence → later.operationId ∈ knowledge.decided →
      Settled ledger knowledge earlier

/-- A request that the replica has prepared at some moment. -/
structure SentRequest (ledger : Ledger Operation Rejection) (proposals : List (ProposedOperation Intent))
    (knowledge : Knowledge) (request : SyncRequest Intent) : Prop where
  base : request.baseSequence ≤ knowledge.through
  own : ∀ proposal ∈ request.proposals, proposal ∈ proposals
  snapshot : ∀ earlier ∈ proposals, ∀ later ∈ request.proposals,
    earlier.clientSequence < later.clientSequence →
      earlier ∈ request.proposals ∨ Settled ledger knowledge earlier

/-- A response that the authority has given to such a request. -/
structure AddressedResponse (ledger : Ledger Operation Rejection)
    (proposals : List (ProposedOperation Intent)) (knowledge : Knowledge)
    (response : SyncResponse Operation Rejection) : Prop where
  honest : HonestResponse ledger response
  valid : ValidResponse response none
  base : response.requestedBaseSequence ≤ knowledge.through
  snapshot : ∀ earlier ∈ proposals, ∀ later ∈ proposals,
    earlier.clientSequence < later.clientSequence →
      later.operationId ∈ response.knowledge.decided →
        earlier.operationId ∈ response.knowledge.decided ∨ Settled ledger knowledge earlier

section Ledger

variable {interpreter : LogInterpreter State Intent Operation Rejection ε} {initialState final : State}
  {ledger new : Ledger Operation Rejection} {proposals : List (ProposedOperation Intent)}
  {knowledge : Knowledge}

theorem decided_iff_recordOf {operationId : String} :
    Decided ledger operationId ↔ ∃ record, recordOf ledger operationId = some record := by
  constructor
  · intro hparts
    obtain ⟨record, hrecord, hid⟩ := hparts
    cases hfind : recordOf ledger operationId with
    | some found => exact ⟨found, rfl⟩
    | none => exact absurd hid (KeyedList.find?_eq_none_iff.mp hfind record hrecord)
  · intro hparts
    obtain ⟨record, hfind⟩ := hparts
    exact ⟨record, List.mem_of_find?_eq_some hfind, by simpa using List.find?_some hfind⟩

theorem Decided.append {operationId : String} (h : Decided ledger operationId) :
    Decided (ledger ++ new) operationId := by
  obtain ⟨record, hrecord, hid⟩ := h
  exact ⟨record, List.mem_append_left _ hrecord, hid⟩

theorem Recorded.decided {proposals : List (ProposedOperation Intent)}
    {decisions : List (ProposalDecision Operation Rejection)} (h : Recorded ledger proposals decisions) :
    ∀ proposal ∈ proposals, Decided ledger proposal.operationId := by
  induction h with
  | nil => simp
  | cons hrecord _ ih => exact List.forall_mem_cons.mpr ⟨⟨_, hrecord, rfl⟩, ih⟩

theorem Settled.decided {proposal : ProposedOperation Intent}
    (h : Settled ledger knowledge proposal) : Decided ledger proposal.operationId := by
  obtain ⟨record, hrecord, -⟩ := h
  exact decided_iff_recordOf.mpr ⟨record, hrecord⟩

theorem Settled.append {proposal : ProposedOperation Intent}
    (h : Settled ledger knowledge proposal) : Settled (ledger ++ new) knowledge proposal := by
  obtain ⟨record, hrecord, hknown⟩ := h
  exact ⟨record, recordOf_append hrecord, hknown⟩

theorem settled_of_mem_decided {proposal : ProposedOperation Intent}
    (hknowledge : knowledge.From ledger) (h : proposal.operationId ∈ knowledge.decided) :
    Settled ledger knowledge proposal := by
  obtain ⟨record, hrecord⟩ := decided_iff_recordOf.mp (hknowledge.decided _ h)
  exact ⟨record, hrecord, Or.inl h⟩

/-! ### A growing ledger and growing knowledge -/

theorem SentRequest.append {request : SyncRequest Intent}
    (h : SentRequest ledger proposals knowledge request) :
    SentRequest (ledger ++ new) proposals knowledge request where
  base := h.base
  own := h.own
  snapshot := fun earlier hearlier later hlater hless =>
    (h.snapshot earlier hearlier later hlater hless).imp_right Settled.append

theorem SentRequest.learn {request : SyncRequest Intent} {knowledge' : Knowledge}
    (h : SentRequest ledger proposals knowledge request) (hle : knowledge ≤ knowledge') :
    SentRequest ledger proposals knowledge' request where
  base := by
    have := h.base
    have := hle.1
    omega
  own := h.own
  snapshot := fun earlier hearlier later hlater hless =>
    (h.snapshot earlier hearlier later hlater hless).imp_right fun hsettled => hsettled.mono hle

theorem AddressedResponse.append {response : SyncResponse Operation Rejection}
    (h : AddressedResponse ledger proposals knowledge response) :
    AddressedResponse (ledger ++ new) proposals knowledge response where
  honest := h.honest.mono new
  valid := h.valid
  base := h.base
  snapshot := fun earlier hearlier later hlater hless hdecided =>
    (h.snapshot earlier hearlier later hlater hless hdecided).imp_right Settled.append

theorem AddressedResponse.learn {response : SyncResponse Operation Rejection} {knowledge' : Knowledge}
    (h : AddressedResponse ledger proposals knowledge response) (hle : knowledge ≤ knowledge') :
    AddressedResponse ledger proposals knowledge' response where
  honest := h.honest
  valid := h.valid
  base := by
    have := h.base
    have := hle.1
    omega
  snapshot := fun earlier hearlier later hlater hless hdecided =>
    (h.snapshot earlier hearlier later hlater hless hdecided).imp_right fun hsettled =>
      hsettled.mono hle

/-! ### A new proposal -/

structure Newest (ledger : Ledger Operation Rejection) (proposals : List (ProposedOperation Intent))
    (proposal : ProposedOperation Intent) : Prop where
  last : ∀ earlier ∈ proposals, earlier.clientSequence < proposal.clientSequence
  undecided : ¬Decided ledger proposal.operationId

theorem SentRequest.enqueue {request : SyncRequest Intent} {proposal : ProposedOperation Intent}
    (h : SentRequest ledger proposals knowledge request) (hnewest : Newest ledger proposals proposal) :
    SentRequest ledger (proposals ++ [proposal]) knowledge request where
  base := h.base
  own := fun sent hsent => List.mem_append_left _ (h.own sent hsent)
  snapshot := by
    intro earlier hearlier later hlater hless
    rcases List.mem_append.mp hearlier with hold | hnew
    · exact h.snapshot earlier hold later hlater hless
    · obtain rfl := List.mem_singleton.mp hnew
      have := hnewest.last later (h.own later hlater)
      omega

theorem AddressedResponse.enqueue {response : SyncResponse Operation Rejection}
    {proposal : ProposedOperation Intent} (hledger : Justified interpreter initialState ledger final)
    (h : AddressedResponse ledger proposals knowledge response)
    (hnewest : Newest ledger proposals proposal) :
    AddressedResponse ledger (proposals ++ [proposal]) knowledge response where
  honest := h.honest
  valid := h.valid
  base := h.base
  snapshot := by
    intro earlier hearlier later hlater hless hdecided
    rcases List.mem_append.mp hlater with hlaterOld | hlaterNew
    · rcases List.mem_append.mp hearlier with hearlierOld | hearlierNew
      · exact h.snapshot earlier hearlierOld later hlaterOld hless hdecided
      · obtain rfl := List.mem_singleton.mp hearlierNew
        have := hnewest.last later hlaterOld
        omega
    · obtain rfl := List.mem_singleton.mp hlaterNew
      exact absurd ((knowledge_from hledger h.honest).decided _ hdecided) hnewest.undecided

end Ledger

namespace Participant

variable {interpreter : LogInterpreter State Intent Operation Rejection ε} {initialState final : State}
  {ledger new : Ledger Operation Rejection} {proposals : List (ProposedOperation Intent)}
  {knowledge : Knowledge} {retained : Nat} {replica : ReplicaInterpreter State Intent Operation ε}
  {clientId : String} {firstSequence : Int} {state next : ReplicaState State Intent Operation}

theorem pairwise (h : Participant replica initialState clientId firstSequence ledger proposals knowledge
    retained state) :
    proposals.Pairwise fun earlier later => earlier.clientSequence < later.clientSequence := by
  rw [List.pairwise_iff_getElem]
  intro i j hi hj hij
  have hfirst := h.sequence i _ (List.getElem?_eq_getElem hi)
  have hsecond := h.sequence j _ (List.getElem?_eq_getElem hj)
  omega

theorem newest (h : Participant replica initialState clientId firstSequence ledger proposals knowledge
    retained state) {proposal : ProposedOperation Intent}
    (hsequence : proposal.clientSequence = state.nextClientSequence)
    (hundecided : ¬Decided ledger proposal.operationId) : Newest ledger proposals proposal where
  last := by
    intro earlier hearlier
    obtain ⟨i, hi⟩ := List.getElem?_of_mem hearlier
    obtain ⟨hlt, -⟩ := List.getElem?_eq_some_iff.mp hi
    have := h.sequence i earlier hi
    have := h.nextClientSequence
    omega
  undecided := hundecided

theorem enqueue (h : Participant replica initialState clientId firstSequence ledger proposals knowledge
    retained state) {proposal : ProposedOperation Intent} (hnewest : Newest ledger proposals proposal)
    (hreflects : next.Reflects replica initialState ledger (proposals ++ [proposal]) knowledge retained)
    (hclient : proposal.clientId = state.clientId)
    (hsequence : proposal.clientSequence = state.nextClientSequence)
    (hnextClient : next.clientId = state.clientId)
    (hnextSequence : next.nextClientSequence = state.nextClientSequence + 1) :
    Participant replica initialState clientId firstSequence ledger (proposals ++ [proposal]) knowledge
      retained next where
  reflects := hreflects
  sameClient := hnextClient.trans h.sameClient
  own := by
    intro member hmember
    rcases List.mem_append.mp hmember with hold | hnew
    · exact h.own member hold
    · obtain rfl := List.mem_singleton.mp hnew
      exact hclient.trans h.sameClient
  sequence := by
    intro i member hmember
    have hlast := h.nextClientSequence
    rw [List.getElem?_append] at hmember
    split at hmember
    · exact h.sequence i member hmember
    · rename_i hi
      cases hoffset : i - proposals.length with
      | zero =>
          rw [hoffset] at hmember
          obtain rfl := Option.some.inj hmember
          rw [hsequence, hlast]
          omega
      | succ k => simp [hoffset] at hmember
  nextClientSequence := by
    have := h.nextClientSequence
    rw [List.length_append, List.length_singleton]
    push_cast
    omega
  decidedBefore := by
    intro earlier hearlier later hlater hless hdecided
    rcases List.mem_append.mp hlater with hlaterOld | hlaterNew
    · rcases List.mem_append.mp hearlier with hearlierOld | hearlierNew
      · exact h.decidedBefore earlier hearlierOld later hlaterOld hless hdecided
      · obtain rfl := List.mem_singleton.mp hearlierNew
        have := hnewest.last later hlaterOld
        omega
    · obtain rfl := List.mem_singleton.mp hlaterNew
      exact absurd hdecided hnewest.undecided
  settledBefore := by
    intro earlier hearlier later hlater hless hdecided
    rcases List.mem_append.mp hlater with hlaterOld | hlaterNew
    · rcases List.mem_append.mp hearlier with hearlierOld | hearlierNew
      · exact h.settledBefore earlier hearlierOld later hlaterOld hless hdecided
      · obtain rfl := List.mem_singleton.mp hearlierNew
        have := hnewest.last later hlaterOld
        omega
    · obtain rfl := List.mem_singleton.mp hlaterNew
      exact absurd (h.reflects.known.decided _ hdecided) hnewest.undecided

theorem learn (h : Participant replica initialState clientId firstSequence ledger proposals knowledge
    retained state) {knowledge' : Knowledge} {retained' : Nat} (hle : knowledge ≤ knowledge')
    (hreflects : next.Reflects replica initialState ledger proposals knowledge' retained')
    (hnextClient : next.clientId = state.clientId)
    (hnextSequence : next.nextClientSequence = state.nextClientSequence)
    (hlearned : ∀ earlier ∈ proposals, ∀ later ∈ proposals,
      earlier.clientSequence < later.clientSequence → later.operationId ∈ knowledge'.decided →
        later.operationId ∈ knowledge.decided ∨ Settled ledger knowledge' earlier) :
    Participant replica initialState clientId firstSequence ledger proposals knowledge' retained'
      next where
  reflects := hreflects
  sameClient := hnextClient.trans h.sameClient
  own := h.own
  sequence := h.sequence
  nextClientSequence := hnextSequence.trans h.nextClientSequence
  decidedBefore := h.decidedBefore
  settledBefore := by
    intro earlier hearlier later hlater hless hdecided
    rcases hlearned earlier hearlier later hlater hless hdecided with hold | hsettled
    · exact (h.settledBefore earlier hearlier later hlater hless hold).mono hle
    · exact hsettled

theorem merge (h : Participant replica initialState clientId firstSequence ledger proposals knowledge
    retained state) {response : SyncResponse Operation Rejection}
    (hledger : Justified interpreter initialState ledger final)
    (hresponse : AddressedResponse ledger proposals knowledge response)
    (hreflects : next.Reflects replica initialState ledger proposals (knowledge ⊔ response.knowledge)
      retained)
    (hnextClient : next.clientId = state.clientId)
    (hnextSequence : next.nextClientSequence = state.nextClientSequence) :
    Participant replica initialState clientId firstSequence ledger proposals
      (knowledge ⊔ response.knowledge) retained next := by
  refine h.learn le_sup_left hreflects hnextClient hnextSequence ?_
  intro earlier hearlier later hlater hless hdecided
  rcases Finset.mem_union.mp hdecided with hold | hreceived
  · exact Or.inl hold
  · rcases hresponse.snapshot earlier hearlier later hlater hless hreceived with htold | hsettled
    · exact Or.inr ((settled_of_mem_decided (knowledge_from hledger hresponse.honest) htold).mono
        le_sup_right)
    · exact Or.inr (hsettled.mono le_sup_left)

theorem append (h : Participant replica initialState clientId firstSequence ledger proposals knowledge
    retained state) (hledger : Justified interpreter initialState (ledger ++ new) final)
    (hclosed : ∀ earlier ∈ proposals, ∀ later ∈ proposals,
      earlier.clientSequence < later.clientSequence → Decided new later.operationId →
        Decided (ledger ++ new) earlier.operationId) :
    Participant replica initialState clientId firstSequence (ledger ++ new) proposals knowledge retained
      state where
  reflects := {
    known := h.reflects.known.mono new
    confirmedSequence := h.reflects.confirmedSequence
    retainedLe := h.reflects.retainedLe
    confirmedLog := by
      rw [canonicalLog_append, List.take_append_of_le_length h.reflects.known.through]
      exact h.reflects.confirmedLog
    confirmedState := by
      rw [canonicalLog_append, List.take_append_of_le_length h.reflects.known.through]
      exact h.reflects.confirmedState
    outbox := by
      rw [outboxOf_append hledger h.reflects.known]
      exact h.reflects.outbox }
  sameClient := h.sameClient
  own := h.own
  sequence := h.sequence
  nextClientSequence := h.nextClientSequence
  decidedBefore := by
    intro earlier hearlier later hlater hless ⟨record, hrecord, hid⟩
    rcases List.mem_append.mp hrecord with hold | hnew
    · exact (h.decidedBefore earlier hearlier later hlater hless ⟨record, hold, hid⟩).append
    · exact hclosed earlier hearlier later hlater hless ⟨record, hnew, hid⟩
  settledBefore := fun earlier hearlier later hlater hless hdecided =>
    (h.settledBefore earlier hearlier later hlater hless hdecided).append

end Participant

/-! ### Requests and responses -/

theorem mem_pendingProposals {outbox : List (OutboxEntry Intent Operation)}
    {proposal : ProposedOperation Intent} :
    proposal ∈ pendingProposals outbox ↔ .pending proposal ∈ outbox := by
  rw [pendingProposals, List.mem_filterMap]
  constructor
  · intro hparts
    obtain ⟨entry, hentry, hpending⟩ := hparts
    cases entry with
    | pending other =>
        obtain rfl := Option.some.inj hpending
        exact hentry
    | accepted => simp at hpending
  · intro hentry
    exact ⟨_, hentry, rfl⟩

theorem pendingProposals_sublist {ledger : Ledger Operation Rejection} {knowledge : Knowledge}
    {proposals : List (ProposedOperation Intent)} :
    (pendingProposals (outboxOf ledger knowledge proposals)).Sublist proposals := by
  refine List.Sublist.trans ?_ (outboxOf_sublist ledger knowledge proposals)
  induction outboxOf ledger knowledge proposals with
  | nil => exact List.Sublist.refl _
  | cons entry outbox ih =>
      cases entry with
      | pending proposal => exact ih.cons_cons _
      | accepted => exact ih.cons _

theorem mem_take_of_lt {proposals : List (ProposedOperation Intent)}
    (hordered : proposals.Pairwise fun earlier later => earlier.clientSequence < later.clientSequence)
    {count : Nat} {earlier later : ProposedOperation Intent} (hearlier : earlier ∈ proposals)
    (hlater : later ∈ proposals.take count) (hless : earlier.clientSequence < later.clientSequence) :
    earlier ∈ proposals.take count := by
  rw [← List.take_append_drop count proposals, List.pairwise_append] at hordered
  rw [← List.take_append_drop count proposals, List.mem_append] at hearlier
  rcases hearlier with hfront | hback
  · exact hfront
  · have := hordered.2.2 later hlater earlier hback
    omega

theorem Participant.sentRequest {replica : ReplicaInterpreter State Intent Operation ε}
    {initialState : State} {clientId : String} {firstSequence : Int}
    {ledger : Ledger Operation Rejection} {proposals : List (ProposedOperation Intent)}
    {knowledge : Knowledge} {retained : Nat} {state : ReplicaState State Intent Operation}
    (h : Participant replica initialState clientId firstSequence ledger proposals knowledge retained state)
    {options : PrepareSyncRequestOptions} {request : SyncRequest Intent}
    (hprepare : (prepareSyncRequest state options : Result ε _) = .ok request) :
    SentRequest ledger proposals knowledge request := by
  obtain ⟨hbase, count, hproposals⟩ := prepareSyncRequest_eq_ok hprepare
  rw [h.reflects.outbox] at hproposals
  have hsublist : (pendingProposals (outboxOf ledger knowledge proposals)).Sublist proposals :=
    pendingProposals_sublist
  exact {
    base := by rw [hbase, h.reflects.confirmedSequence]
    own := by
      intro proposal hproposal
      rw [hproposals] at hproposal
      exact hsublist.subset (List.mem_of_mem_take hproposal)
    snapshot := by
      intro earlier hearlier later hlater hless
      by_cases hsettled : Settled ledger knowledge earlier
      · exact Or.inr hsettled
      · rw [hproposals] at hlater ⊢
        refine Or.inl (mem_take_of_lt (h.pairwise.sublist hsublist) ?_ hlater hless)
        exact mem_pendingProposals.mpr
          (mem_outboxOf.mpr ⟨hearlier, settle_of_not_settled hsettled⟩) }

theorem Synchronized.decidedIds_eq {settings : LogServerSettings State Intent Operation Rejection ε}
    {initialState : State} {before : Books State Operation Rejection}
    {after : Authority settings.interpreter initialState} {request : SyncRequest Intent}
    {response : SyncResponse Operation Rejection}
    (hcall : Synchronized settings before after.toBooks request response) :
    decidedIds response.decisions =
      (request.proposals.map fun proposal => proposal.operationId).toFinset := by
  rw [decidedIds, hcall.recorded.map_operationId after.justified.decision_operationId]

/-- The answer to a sent request carries the request's guarantee. -/
theorem SentRequest.addressedResponse {settings : LogServerSettings State Intent Operation Rejection ε}
    {initialState : State} {before after : Authority settings.interpreter initialState}
    {proposals : List (ProposedOperation Intent)}
    (hnodup : (proposals.map fun proposal => proposal.operationId).Nodup) {knowledge : Knowledge}
    {request : SyncRequest Intent} {response : SyncResponse Operation Rejection}
    (hresolved : settings.limits.Resolved)
    (h : SentRequest before.ledger proposals knowledge request)
    (hcall : Synchronized settings before.toBooks after.toBooks request response) :
    AddressedResponse after.ledger proposals knowledge response := by
  obtain ⟨new, hnew, -⟩ := hcall.grows
  have hbase : request.baseSequence ≤ (canonicalLog after.ledger).length := by
    have := hcall.base
    rw [Books.log] at this
    rw [hnew, canonicalLog_append, List.length_append]
    omega
  have hids := hcall.decidedIds_eq
  have hbaseSequence : response.requestedBaseSequence = request.baseSequence := by
    rw [hcall.answered]
    rfl
  exact {
    honest := by
      rw [hcall.answered]
      exact respond_honest (List.prefix_refl _) hresolved hcall.valid hbase hcall.recorded
    valid := by
      rw [hcall.answered]
      exact ((respond_valid after.justified hresolved hcall.valid hbase hcall.recorded).mpr
        hcall.safe).without_limits
    base := hbaseSequence ▸ h.base
    snapshot := by
      intro earlier hearlier later hlater hless hdecided
      change _ ∈ decidedIds response.decisions at hdecided
      change _ ∈ decidedIds response.decisions ∨ _
      rw [hids, List.mem_toFinset, List.mem_map] at hdecided
      obtain ⟨sent, hsent, hid⟩ := hdecided
      obtain rfl := KeyedList.eq_of_key_eq hnodup (h.own sent hsent) hlater hid
      rcases h.snapshot earlier hearlier sent hsent hless with hmem | hsettled
      · rw [hids, List.mem_toFinset]
        exact Or.inl (List.mem_map_of_mem hmem)
      · rw [hnew]
        exact Or.inr hsettled.append }

end SyncEngine
