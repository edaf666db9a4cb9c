import SyncEngine.Model.Network
import SyncEngine.Proof.Participant

/-!
# Consistent configurations

The invariant of a network: behind the server stands a justified ledger of enqueued operations in
their clients' order, every replica is a participant next to it, and every message in flight is a
snapshot that the ledger and the replica's knowledge still bear out. Every action keeps it, and lets
the ledger, the knowledge and the list of enqueued operations only grow.
-/

namespace SyncEngine

open JavaScript Throwing

variable {ι State Intent Operation Rejection ε : Type} [DecidableEq ι]

def Network.proposalsOf (network : Network ι State Intent Operation Rejection) (i : ι) :
    List (ProposedOperation Intent) :=
  (network.enqueued.filter fun entry => entry.1 = i).map Prod.snd

def NetworkSetup.firstSequence (setup : NetworkSetup ι State Intent Operation Rejection ε) (i : ι) : Int :=
  (setup.replicaOptions i).nextClientSequence.getD 1

/-- The invariant, with the ledger and the knowledge it speaks about. -/
structure Network.Consistent (setup : NetworkSetup ι State Intent Operation Rejection ε)
    (network : Network ι State Intent Operation Rejection)
    (authority : Authority setup.settings.interpreter setup.initialState) (knowledge : ι → Knowledge)
    (retained : ι → Nat) : Prop where
  server : network.server.Holds authority
  operationIds : (network.enqueued.map fun entry => entry.2.operationId).Nodup
  origin : ∀ record ∈ authority.ledger, ∃ entry ∈ network.enqueued,
    entry.2.toOperationSubmissionIdentity = record.identity
  clientOrder : authority.ledger.Pairwise fun earlier later =>
    earlier.identity.clientId = later.identity.clientId →
      earlier.identity.clientSequence < later.identity.clientSequence
  participants : ∀ i, Participant (setup.replicaInterpreter i) setup.initialState
    (setup.replicaOptions i).clientId (setup.firstSequence i) authority.ledger (network.proposalsOf i)
    (knowledge i) (retained i) (network.replicas i)
  requests : ∀ entry ∈ network.requests,
    SentRequest authority.ledger (network.proposalsOf entry.1) (knowledge entry.1) entry.2
  responses : ∀ entry ∈ network.responses,
    AddressedResponse authority.ledger (network.proposalsOf entry.1) (knowledge entry.1) entry.2

/-- What never shrinks. -/
structure Network.Grows {setup : NetworkSetup ι State Intent Operation Rejection ε}
    (network network' : Network ι State Intent Operation Rejection)
    (authority authority' : Authority setup.settings.interpreter setup.initialState)
    (knowledge knowledge' : ι → Knowledge) : Prop where
  ledger : authority.ledger <+: authority'.ledger
  knowledge : ∀ i, knowledge i ≤ knowledge' i
  enqueued : network.enqueued <+: network'.enqueued

namespace Network

variable {setup : NetworkSetup ι State Intent Operation Rejection ε}
  {network network' : Network ι State Intent Operation Rejection}
  {authority authority' : Authority setup.settings.interpreter setup.initialState}
  {knowledge knowledge' : ι → Knowledge} {retained : ι → Nat}

omit [DecidableEq ι] in
theorem Grows.refl : network.Grows network authority authority knowledge knowledge where
  ledger := List.prefix_refl _
  knowledge := fun _ => le_refl _
  enqueued := List.prefix_refl _

omit [DecidableEq ι] in
theorem Grows.trans {network'' : Network ι State Intent Operation Rejection}
    {authority'' : Authority setup.settings.interpreter setup.initialState} {knowledge'' : ι → Knowledge}
    (h : network.Grows network' authority authority' knowledge knowledge')
    (h' : network'.Grows network'' authority' authority'' knowledge' knowledge'') :
    network.Grows network'' authority authority'' knowledge knowledge'' where
  ledger := h.ledger.trans h'.ledger
  knowledge := fun i => (h.knowledge i).trans (h'.knowledge i)
  enqueued := h.enqueued.trans h'.enqueued

theorem mem_proposalsOf {i : ι} {proposal : ProposedOperation Intent} :
    proposal ∈ network.proposalsOf i ↔ (i, proposal) ∈ network.enqueued := by
  simp only [proposalsOf, List.mem_map, List.mem_filter, decide_eq_true_eq]
  constructor
  · intro hparts
    obtain ⟨⟨j, other⟩, ⟨hmem, rfl⟩, rfl⟩ := hparts
    exact hmem
  · intro hmem
    exact ⟨_, ⟨hmem, rfl⟩, rfl⟩

namespace Consistent

variable (h : network.Consistent setup authority knowledge retained)

include h

theorem proposals_nodup (i : ι) :
    ((network.proposalsOf i).map fun proposal => proposal.operationId).Nodup := by
  rw [proposalsOf, List.map_map]
  exact h.operationIds.sublist (List.filter_sublist.map _)

theorem recordsOwn (i : ι) : RecordsOwn authority.ledger (network.proposalsOf i) := by
  intro record hrecord proposal hproposal hid
  obtain ⟨entry, hentry, hidentity⟩ := h.origin record hrecord
  have hsame := KeyedList.eq_of_key_eq h.operationIds hentry (mem_proposalsOf.mp hproposal)
    (by rw [hidentity]; exact hid)
  rw [← hidentity, hsame]

theorem exists_proposal {record : StoredProposalDecision Operation Rejection}
    (hrecord : record ∈ authority.ledger) {i : ι}
    (hclient : record.identity.clientId = (setup.replicaOptions i).clientId) :
    ∃ proposal ∈ network.proposalsOf i, proposal.toOperationSubmissionIdentity = record.identity := by
  obtain ⟨⟨j, proposal⟩, hentry, hidentity⟩ := h.origin record hrecord
  have hown := (h.participants j).own proposal (mem_proposalsOf.mpr hentry)
  have hsame : (setup.replicaOptions j).clientId = (setup.replicaOptions i).clientId := by
    rw [← hown, ← hclient, ← hidentity]
  obtain rfl := setup.distinctClientIds hsame
  exact ⟨proposal, mem_proposalsOf.mpr hentry, hidentity⟩

theorem not_decided_of_fresh {operationId : String}
    (hfresh : ∀ entry ∈ network.enqueued, entry.2.operationId ≠ operationId) :
    ¬Decided authority.ledger operationId := by
  intro hparts
  obtain ⟨record, hrecord, hid⟩ := hparts
  obtain ⟨entry, hentry, hidentity⟩ := h.origin record hrecord
  apply hfresh entry hentry
  rw [← hid, ← hidentity]

/-! ### The actions -/

theorem enqueue {i : ι} {input : EnqueueOperationInput Intent}
    {state : ReplicaState State Intent Operation}
    (hcall : (enqueueOperation (network.replicas i) input : Result ε _) = .ok state)
    (hfresh : ∀ entry ∈ network.enqueued, entry.2.operationId ≠ input.operationId) :
    (network.recordEnqueued i state).Consistent setup authority knowledge retained := by
  have hundecided := h.not_decided_of_fresh hfresh
  have hparticipant := h.participants i
  obtain ⟨proposal, hid, hclient, hsequence, hnextClient, hnextSequence, houtbox, -, hreflects⟩ :=
    enqueueOperation_reflects hparticipant.reflects hcall fun record hrecord hsame =>
      hundecided ⟨record, hrecord, hsame⟩
  have hnewest : Newest authority.ledger (network.proposalsOf i) proposal :=
    hparticipant.newest hsequence (hid ▸ hundecided)
  have henqueued : (network.recordEnqueued i state).enqueued = network.enqueued ++ [(i, proposal)] := by
    rw [recordEnqueued, houtbox, List.getLast?_append, List.getLast?_singleton]
    rfl
  have hproposals : ∀ j, (network.recordEnqueued i state).proposalsOf j =
      if j = i then network.proposalsOf i ++ [proposal] else network.proposalsOf j := by
    intro j
    rw [proposalsOf, henqueued, List.filter_append, List.map_append]
    by_cases hj : j = i
    · subst hj
      rw [if_pos rfl]
      simp [proposalsOf]
    · rw [if_neg hj, List.filter_singleton]
      simp [proposalsOf, Ne.symm hj]
  have hreplica : ∀ j, (network.recordEnqueued i state).replicas j =
      if j = i then state else network.replicas j := fun j => Function.update_apply _ _ _ _
  constructor
  case server => exact h.server
  case operationIds =>
    rw [henqueued, List.map_append, List.nodup_append]
    refine ⟨h.operationIds, List.nodup_singleton _, fun id hmem other hother hsame => ?_⟩
    obtain ⟨entry, hentry, rfl⟩ := List.mem_map.mp hmem
    obtain rfl := List.mem_singleton.mp hother
    exact hfresh entry hentry (hsame.trans hid)
  case origin =>
    intro record hrecord
    obtain ⟨entry, hentry, hidentity⟩ := h.origin record hrecord
    exact ⟨entry, henqueued ▸ List.mem_append_left _ hentry, hidentity⟩
  case clientOrder => exact h.clientOrder
  case participants =>
    intro j
    rw [hproposals, hreplica]
    by_cases hj : j = i
    · subst hj
      rw [if_pos rfl, if_pos rfl]
      exact hparticipant.enqueue hnewest hreflects hclient hsequence hnextClient hnextSequence
    · rw [if_neg hj, if_neg hj]
      exact h.participants j
  case requests =>
    intro entry hentry
    rw [hproposals]
    split
    · rename_i hj
      rw [← hj] at hnewest ⊢
      exact (h.requests entry hentry).enqueue hnewest
    · exact h.requests entry hentry
  case responses =>
    intro entry hentry
    rw [hproposals]
    split
    · rename_i hj
      rw [← hj] at hnewest ⊢
      exact (h.responses entry hentry).enqueue authority.justified hnewest
    · exact h.responses entry hentry

theorem prepare {i : ι} {options : PrepareSyncRequestOptions} {request : SyncRequest Intent}
    (hcall : (prepareSyncRequest (network.replicas i) options : Result ε _) = .ok request) :
    ({ network with requests := network.requests ++ [(i, request)] } :
      Network ι State Intent Operation Rejection).Consistent setup authority knowledge retained :=
  { h with
    requests := by
      intro entry hentry
      rcases List.mem_append.mp hentry with hold | hnew
      · exact h.requests entry hold
      · obtain rfl := List.mem_singleton.mp hnew
        exact (h.participants i).sentRequest hcall }

section Deliver

variable {i : ι} {request : SyncRequest Intent} {new : Ledger Operation Rejection}
  (hsent : SentRequest authority.ledger (network.proposalsOf i) (knowledge i) request)
  (hproposal : ∀ record ∈ new, ∃ proposal ∈ request.proposals,
    proposal.toOperationSubmissionIdentity = record.identity)

include hsent hproposal

/-- A snapshot decides no later operation of a client without the earlier ones. -/
theorem closed_deliver
    (hdecided : ∀ proposal ∈ request.proposals, Decided (authority.ledger ++ new) proposal.operationId) :
    ∀ j, ∀ earlier ∈ network.proposalsOf j, ∀ later ∈ network.proposalsOf j,
      earlier.clientSequence < later.clientSequence → Decided new later.operationId →
        Decided (authority.ledger ++ new) earlier.operationId := by
  intro j earlier hearlier later hlater hless hnew
  obtain ⟨record, hrecord, hid⟩ := hnew
  obtain ⟨proposal, hmem, hidentity⟩ := hproposal record hrecord
  have hsame := KeyedList.eq_of_key_eq h.operationIds (mem_proposalsOf.mp (hsent.own proposal hmem))
    (mem_proposalsOf.mp hlater) (by rw [hidentity]; exact hid)
  obtain ⟨rfl, rfl⟩ := Prod.mk.inj hsame
  rcases hsent.snapshot earlier hearlier proposal hmem hless with hsnapshot | hsettled
  · exact hdecided earlier hsnapshot
  · exact hsettled.decided.append

/-- A record of the ledger is earlier in its client's order than a new one. -/
theorem clientSequence_lt_of_new
    (hundecided : ∀ earlier ∈ authority.ledger, ∀ later ∈ new,
      earlier.identity.operationId ≠ later.identity.operationId ∧
        earlier.identity.position ≠ later.identity.position)
    {earlier later : StoredProposalDecision Operation Rejection} (hearlier : earlier ∈ authority.ledger)
    (hlater : later ∈ new) (hclient : earlier.identity.clientId = later.identity.clientId) :
    earlier.identity.clientSequence < later.identity.clientSequence := by
  obtain ⟨proposal, hmem, hidentity⟩ := hproposal later hlater
  have howner : later.identity.clientId = (setup.replicaOptions i).clientId := by
    rw [← hidentity]
    exact (h.participants i).own proposal (hsent.own proposal hmem)
  obtain ⟨old, hold, holdIdentity⟩ := h.exists_proposal hearlier (hclient.trans howner)
  rcases lt_trichotomy earlier.identity.clientSequence later.identity.clientSequence with hlt | heq | hgt
  · exact hlt
  · exact absurd (Prod.ext hclient heq) (hundecided earlier hearlier later hlater).2
  · -- A later operation cannot be on record before an earlier one.
    have hbefore := (h.participants i).decidedBefore proposal (hsent.own proposal hmem) old hold
      (by rw [← hidentity, ← holdIdentity] at hgt; exact hgt)
      ⟨earlier, hearlier, by rw [← holdIdentity]⟩
    obtain ⟨record, hrecord, hid⟩ := hbefore
    have hne := (hundecided record hrecord later hlater).1
    rw [hid, ← hidentity] at hne
    exact absurd rfl hne

end Deliver

theorem deliver {i : ι} {request : SyncRequest Intent}
    {response : SyncResponse Operation Rejection} {server : InMemoryLogServer State Operation Rejection}
    (hrequest : (i, request) ∈ network.requests)
    (hcall : InMemoryLogServer.synchronize setup.settings network.server request =
      .ok (response, server)) :
    ∃ authority' : Authority setup.settings.interpreter setup.initialState,
      ({ network with server := server, responses := network.responses ++ [(i, response)] } :
        Network ι State Intent Operation Rejection).Consistent setup authority' knowledge retained ∧
      Synchronized setup.settings authority.toBooks authority'.toBooks request response := by
  obtain ⟨authority', hserver, hsynchronized⟩ := InMemoryLogServer.synchronize_holds h.server hcall
  obtain ⟨new, hnew, hsublist⟩ := hsynchronized.grows
  have hsent := h.requests _ hrequest
  have hledger : authority'.ledger = authority.ledger ++ new := hnew
  have hjustified := authority'.justified
  have hdistinct := hjustified.pairwise_identity
  rw [hledger, List.pairwise_append] at hdistinct
  -- Every new record is about a proposal of the request.
  have hproposal : ∀ record ∈ new, ∃ proposal ∈ request.proposals,
      proposal.toOperationSubmissionIdentity = record.identity := fun record hrecord =>
    List.mem_map.mp (hsublist.subset (List.mem_map_of_mem hrecord))
  have hdecided := hsynchronized.recorded.decided
  refine ⟨authority', ?_, hsynchronized⟩
  constructor
  case server => exact hserver
  case operationIds => exact h.operationIds
  case origin =>
    intro record hrecord
    rw [hledger] at hrecord
    rcases List.mem_append.mp hrecord with hold | hnewRecord
    · exact h.origin record hold
    · obtain ⟨proposal, hmem, hidentity⟩ := hproposal record hnewRecord
      exact ⟨(i, proposal), mem_proposalsOf.mp (hsent.own proposal hmem), hidentity⟩
  case clientOrder =>
    have hordered : (new.map StoredProposalDecision.identity).Pairwise fun earlier later =>
        earlier.clientId = later.clientId → earlier.clientSequence < later.clientSequence :=
      (List.pairwise_map.mpr (hsynchronized.valid.batch.ordered.imp fun hle => hle.2)).sublist hsublist
    rw [hledger, List.pairwise_append]
    refine ⟨h.clientOrder, List.pairwise_map.mp hordered, ?_⟩
    intro earlier hearlier later hlater hclient
    exact h.clientSequence_lt_of_new hsent hproposal hdistinct.2.2 hearlier hlater hclient
  case participants =>
    intro j
    rw [hledger] at hjustified hdecided ⊢
    exact (h.participants j).append hjustified (h.closed_deliver hsent hproposal hdecided j)
  case requests =>
    intro entry hentry
    rw [hledger]
    exact (h.requests entry hentry).append
  case responses =>
    intro entry hentry
    rcases List.mem_append.mp hentry with hold | hnewResponse
    · rw [hledger]
      exact (h.responses entry hold).append
    · obtain rfl := List.mem_singleton.mp hnewResponse
      exact hsent.addressedResponse (h.proposals_nodup i) setup.resolved hsynchronized

theorem merge {i : ι} {response : SyncResponse Operation Rejection}
    {result : MergeSyncResult State Intent Operation Rejection}
    (hresponse : (i, response) ∈ network.responses)
    (hcall : mergeSyncResponse (setup.replicaInterpreter i) (network.replicas i) response = .ok result) :
    (network.setReplica i result.state).Consistent setup authority
      (Function.update knowledge i (knowledge i ⊔ response.knowledge)) retained := by
  have haddressed := h.responses _ hresponse
  have hparticipant := h.participants i
  have hbase : response.requestedBaseSequence ≤ (network.replicas i).confirmedSequence := by
    rw [hparticipant.reflects.confirmedSequence]
    exact haddressed.base
  obtain ⟨hreflects, hresult⟩ := mergeSyncResponse_reflects authority.justified h.server.safe
    hparticipant.reflects (h.proposals_nodup i) (h.recordsOwn i) haddressed.honest haddressed.valid
    hbase hcall
  have hle : ∀ j, knowledge j ≤ Function.update knowledge i (knowledge i ⊔ response.knowledge) j := by
    intro j
    by_cases hj : j = i
    · subst hj
      rw [Function.update_self]
      exact le_sup_left
    · rw [Function.update_of_ne hj]
  constructor
  case server => exact h.server
  case operationIds => exact h.operationIds
  case origin => exact h.origin
  case clientOrder => exact h.clientOrder
  case participants =>
    intro j
    rw [setReplica]
    by_cases hj : j = i
    · subst hj
      simp only [Function.update_self]
      exact hparticipant.merge authority.justified haddressed hreflects (by rw [hresult]; rfl)
        (by rw [hresult]; rfl)
    · simp only [Function.update_of_ne hj]
      exact h.participants j
  case requests => exact fun entry hentry => (h.requests entry hentry).learn (hle _)
  case responses => exact fun entry hentry => (h.responses entry hentry).learn (hle _)

theorem compact {i : ι} {throughSequence : Int} {state : ReplicaState State Intent Operation}
    (hcall : (deleteCommittedLogPrefix (network.replicas i) throughSequence : Result ε _) = .ok state) :
    (network.setReplica i state).Consistent setup authority knowledge
      (Function.update retained i (max (retained i) throughSequence.toNat)) := by
  have hparticipant := h.participants i
  obtain ⟨hreflects, hstate⟩ := deleteCommittedLogPrefix_reflects authority.justified h.server.safe
    hparticipant.reflects hcall
  refine { h with participants := ?_ }
  intro j
  rw [setReplica]
  by_cases hj : j = i
  · subst hj
    simp only [Function.update_self]
    exact hparticipant.learn (le_refl _) hreflects (by rw [hstate]) (by rw [hstate])
      fun _ _ _ _ _ hdecided => Or.inl hdecided
  · simp only [Function.update_of_ne hj]
    exact h.participants j

/-- The step lemma of the network. -/
theorem next {action : NetworkAction ι Intent} (hfresh : network.Fresh action) :
    ∃ authority' knowledge' retained',
      (network.next setup action).Consistent setup authority' knowledge' retained' ∧
      network.Grows (network.next setup action) authority authority' knowledge knowledge' := by
  cases action with
  | enqueue i input =>
      rw [Network.next]
      split
      · rename_i state hcall
        exact ⟨authority, knowledge, retained, h.enqueue hcall hfresh, List.prefix_refl _,
          fun _ => le_refl _, List.prefix_append _ _⟩
      · exact ⟨authority, knowledge, retained, h, .refl⟩
  | prepare i options =>
      rw [Network.next]
      split
      · rename_i request hcall
        exact ⟨authority, knowledge, retained, h.prepare hcall, List.prefix_refl _,
          fun _ => le_refl _, List.prefix_refl _⟩
      · exact ⟨authority, knowledge, retained, h, .refl⟩
  | deliver index =>
      rw [Network.next]
      split
      · exact ⟨authority, knowledge, retained, h, .refl⟩
      · rename_i i request hget
        split
        · rename_i response server hcall
          obtain ⟨authority', hnext, hsynchronized⟩ := h.deliver (List.mem_of_getElem? hget) hcall
          exact ⟨authority', knowledge, retained, hnext, hsynchronized.ledger_prefix, fun _ => le_refl _,
            List.prefix_refl _⟩
        · exact ⟨authority, knowledge, retained, h, .refl⟩
  | merge index =>
      rw [Network.next]
      split
      · exact ⟨authority, knowledge, retained, h, .refl⟩
      · rename_i i response hget
        split
        · rename_i result hcall
          refine ⟨authority, _, retained, h.merge (List.mem_of_getElem? hget) hcall, List.prefix_refl _,
            fun j => ?_, List.prefix_refl _⟩
          by_cases hj : j = i
          · subst hj
            rw [Function.update_self]
            exact le_sup_left
          · rw [Function.update_of_ne hj]
        · exact ⟨authority, knowledge, retained, h, .refl⟩
  | compact i throughSequence =>
      rw [Network.next]
      split
      · rename_i state hcall
        exact ⟨authority, knowledge, _, h.compact hcall, List.prefix_refl _, fun _ => le_refl _,
          List.prefix_refl _⟩
      · exact ⟨authority, knowledge, retained, h, .refl⟩

end Consistent

/-! ### Runs -/

/-- The run lemma: consistency is kept along every path, and nothing shrinks. -/
theorem Consistent.path (h : network.Consistent setup authority knowledge retained)
    {actions : List (NetworkAction ι Intent)} (hpath : setup.system.Path network actions network') :
    ∃ authority' knowledge' retained', network'.Consistent setup authority' knowledge' retained' ∧
      network.Grows network' authority authority' knowledge knowledge' := by
  induction hpath with
  | nil => exact ⟨authority, knowledge, retained, h, .refl⟩
  | snoc _ hstep ih =>
      obtain ⟨authority₁, knowledge₁, retained₁, h₁, hgrows₁⟩ := ih
      obtain ⟨hfresh, rfl⟩ := hstep
      obtain ⟨authority₂, knowledge₂, retained₂, h₂, hgrows₂⟩ := h₁.next hfresh
      exact ⟨authority₂, knowledge₂, retained₂, h₂, hgrows₁.trans hgrows₂⟩

theorem consistent_of_start (hstart : setup.system.start network) :
    network.Consistent setup (InMemoryLogServer.emptyAuthority setup.settings setup.initialState)
      (fun _ => ⟨0, ∅⟩) fun _ => 0 := by
  obtain ⟨hserver, hreplicas, hrequests, hresponses, henqueued⟩ := hstart
  have hproposals : ∀ i, network.proposalsOf i = [] := by
    intro i
    rw [proposalsOf, henqueued]
    rfl
  constructor
  case server => exact hserver ▸ InMemoryLogServer.initial_holds _ _
  case operationIds =>
    rw [henqueued]
    exact List.nodup_nil
  case origin => exact fun record hrecord => absurd hrecord List.not_mem_nil
  case clientOrder => exact List.Pairwise.nil
  case participants =>
    intro i
    have hcreate := hreplicas i
    simp only [createReplicaState, bind_eq_ok] at hcreate
    obtain ⟨_, -, _, -, hstate⟩ := hcreate
    rw [hproposals, ← Except.ok.inj hstate]
    constructor
    case reflects =>
      exact {
        known := ⟨Nat.zero_le _, fun _ hmem => absurd hmem (Finset.notMem_empty _)⟩
        confirmedSequence := rfl
        retainedLe := Nat.le_refl _
        confirmedLog := rfl
        confirmedState := by
          rw [setup.startsFromServerState]
          rfl
        outbox := rfl }
    case sameClient => rfl
    case own => simp
    case sequence => simp
    case nextClientSequence => exact (Int.add_zero _).symm
    case decidedBefore => simp
    case settledBefore => simp
  case requests =>
    rw [hrequests]
    simp
  case responses =>
    rw [hresponses]
    simp

theorem consistent_of_reachable (hreachable : setup.system.Reachable network) :
    ∃ authority knowledge retained, network.Consistent setup authority knowledge retained := by
  obtain ⟨start, actions, hstart, hpath⟩ := hreachable
  obtain ⟨authority, knowledge, retained, h, -⟩ := (consistent_of_start hstart).path hpath
  exact ⟨authority, knowledge, retained, h⟩

/-! ### What was enqueued -/

theorem enqueued_next (network : Network ι State Intent Operation Rejection)
    (action : NetworkAction ι Intent) :
    (network.next setup action).enqueued = network.enqueued ∨
      ∃ i input, ∃ state : ReplicaState State Intent Operation,
        action = .enqueue i input ∧ Enqueued ε (network.replicas i) input state ∧
        (network.next setup action).enqueued =
          network.enqueued ++ [(i, (network.replicas i).propose input)] := by
  cases action with
  | enqueue i input =>
      rw [next]
      split
      · rename_i state hcall
        have henqueued := enqueueOperation_eq_ok.mp hcall
        refine Or.inr ⟨i, input, state, rfl, henqueued, ?_⟩
        rw [recordEnqueued, henqueued.result, List.getLast?_append, List.getLast?_singleton]
        rfl
      · exact Or.inl rfl
  | prepare i options =>
      rw [next]
      split <;> exact Or.inl rfl
  | deliver index =>
      rw [next]
      split
      · exact Or.inl rfl
      · split <;> exact Or.inl rfl
  | merge index =>
      rw [next]
      split
      · exact Or.inl rfl
      · split <;> exact Or.inl rfl
  | compact i throughSequence =>
      rw [next]
      split <;> exact Or.inl rfl

/-- Every enqueued proposal has passed the checks of `enqueueOperation`. -/
theorem enqueued_valid (hreachable : setup.system.Reachable network) :
    ∀ entry ∈ network.enqueued, entry.2.toOperationSubmissionIdentity.Valid := by
  apply hreachable.invariant
    (I := fun network => ∀ entry ∈ network.enqueued, entry.2.toOperationSubmissionIdentity.Valid)
  · intro start hstart
    rw [hstart.2.2.2.2]
    simp
  · intro network action network' _ hvalid hstep
    obtain ⟨-, rfl⟩ := hstep
    rcases enqueued_next network action with hsame | ⟨i, input, state, -, henqueued, hadded⟩
    · rwa [hsame]
    · rw [hadded]
      intro entry hentry
      rcases List.mem_append.mp hentry with hold | hnew
      · exact hvalid entry hold
      · obtain rfl := List.mem_singleton.mp hnew
        exact henqueued.valid

end Network

end SyncEngine
