import SyncEngine.Proof.Places

/-!
# What a replica has been told

A merge announces an operation when its outcome stops being pending, and never again: of the operations
of a replica, those announced so far are those that are not pending in its outbox. Each announcement is
the decision on record.
-/

namespace SyncEngine

open JavaScript Throwing TransitionSystem

variable {ι State Intent Operation Rejection ε : Type}

theorem flatMap_announce (outbox : List (OutboxEntry Intent Operation))
    (decisions : List (ProposalDecision Operation Rejection)) :
    decisions.flatMap (announce outbox) =
      decisions.filter fun decision => awaits outbox decision.operationId := by
  induction decisions with
  | nil => rfl
  | cons decision decisions ih =>
      rw [List.flatMap_cons, ih, announce]
      rw [List.filter_cons]
      cases awaits outbox decision.operationId <;> rfl

section Announcements

variable {interpreter : LogInterpreter State Intent Operation Rejection ε} {initialState final : State}
  {ledger : Ledger Operation Rejection} (hledger : Justified interpreter initialState ledger final)
  {proposals : List (ProposedOperation Intent)}
  (knowledge : Knowledge) {response : SyncResponse Operation Rejection}

theorem announcements_eq : announcements ledger proposals knowledge response =
    (response.decisions.filter fun decision =>
      awaits (outboxOf ledger knowledge proposals) decision.operationId) ++
    ((newEntries ledger knowledge response).map CommittedOperation.decision).filter fun decision =>
      awaits (outboxOf ledger (knowledge.learnAll response.knowledge.decided) proposals)
        decision.operationId := by
  rw [announcements, ← flatMap_announce, ← flatMap_announce, List.flatMap_map]

theorem le_learnAll (operationIds : Finset String) : knowledge ≤ knowledge.learnAll operationIds :=
  ⟨Nat.le_refl _, Finset.subset_union_left⟩

theorem awaits_anti {knowledge' : Knowledge} (hle : knowledge ≤ knowledge') {operationId : String}
    (h : awaits (outboxOf ledger knowledge' proposals) operationId = true) :
    awaits (outboxOf ledger knowledge proposals) operationId = true := by
  obtain ⟨proposal, hproposal, hid, hsettled⟩ := awaits_outboxOf.mp h
  exact awaits_outboxOf.mpr ⟨proposal, hproposal, hid, fun hbefore => hsettled (hbefore.mono hle)⟩

theorem mem_newEntries {entry : CommittedOperation Operation}
    (hentry : entry ∈ newEntries ledger knowledge response) :
    entry ∈ canonicalLog ledger := by
  rw [newEntries] at hentry
  exact List.mem_of_mem_take (List.mem_of_mem_drop hentry)

theorem mem_newEntries_of {index : Nat} {entry : CommittedOperation Operation}
    (hindex : (canonicalLog ledger)[index]? = some entry) (hbeyond : knowledge.through ≤ index)
    (hpage : index < response.knowledge.through) : entry ∈ newEntries ledger knowledge response := by
  refine List.mem_iff_getElem?.mpr ⟨index - knowledge.through, ?_⟩
  rw [newEntries, List.getElem?_drop, Nat.add_sub_cancel' hbeyond, List.getElem?_take_of_lt hpage, hindex]

/-- Once a decision has been received or its entry confirmed, its operation is not awaited. -/
theorem not_awaits_of_decided {knowledge : Knowledge} (hknowledge : knowledge.From ledger)
    {operationId : String} (h : operationId ∈ knowledge.decided) :
    awaits (outboxOf ledger knowledge proposals) operationId = false := by
  rw [Bool.eq_false_iff, ne_eq, awaits_outboxOf]
  intro hparts
  obtain ⟨proposal, -, rfl, hsettled⟩ := hparts
  exact hsettled (settled_of_mem_decided hknowledge h)

theorem awaits_of_announced {decision : ProposalDecision Operation Rejection}
    (h : decision ∈ announcements ledger proposals knowledge response) :
    awaits (outboxOf ledger knowledge proposals) decision.operationId = true := by
  rw [announcements_eq, List.mem_append, List.mem_filter, List.mem_filter] at h
  rcases h with ⟨-, hawaits⟩ | ⟨-, hawaits⟩
  · exact hawaits
  · exact awaits_anti knowledge (le_learnAll knowledge _) hawaits

include hledger

theorem recordOf_of_mem_announcements (hhonest : HonestResponse ledger response)
    {decision : ProposalDecision Operation Rejection}
    (h : decision ∈ announcements ledger proposals knowledge response) :
    ∃ record, recordOf ledger decision.operationId = some record ∧ record.decision = decision := by
  rw [announcements_eq, List.mem_append, List.mem_filter, List.mem_filter] at h
  rcases h with ⟨hmem, -⟩ | ⟨hmem, -⟩
  · obtain ⟨record, hrecord, rfl⟩ := hhonest.decisions decision hmem
    exact ⟨record, (recordOf_eq_some_iff hledger.operationIds_nodup).mpr
      ⟨hrecord, (hledger.decision_operationId record hrecord).symm⟩, rfl⟩
  · obtain ⟨entry, hentry, rfl⟩ := List.mem_map.mp hmem
    exact ⟨_, recordOf_of_mem_log hledger (mem_newEntries knowledge hentry), rfl⟩

theorem not_awaits_of_confirmed {knowledge : Knowledge} {entry : CommittedOperation Operation}
    (hentry : entry ∈ (canonicalLog ledger).take knowledge.through) :
    awaits (outboxOf ledger knowledge proposals) entry.operationId = false := by
  rw [Bool.eq_false_iff, ne_eq, awaits_outboxOf]
  intro hparts
  obtain ⟨proposal, -, hid, hsettled⟩ := hparts
  obtain ⟨index, hindex⟩ := List.getElem?_of_mem hentry
  obtain ⟨hlt, -⟩ := List.getElem?_eq_some_iff.mp hindex
  rw [List.length_take] at hlt
  rw [List.getElem?_take_of_lt (by omega)] at hindex
  have hsequence := hledger.sequence_eq hindex
  have hrecord := recordOf_of_mem_log hledger (List.mem_of_mem_take hentry)
  exact hsettled ⟨_, hid ▸ hrecord, Or.inr ⟨_, _, _, rfl, by omega⟩⟩

theorem not_awaits_of_announced (hknowledge : knowledge.From ledger)
    (hhonest : HonestResponse ledger response) {decision : ProposalDecision Operation Rejection}
    (h : decision ∈ announcements ledger proposals knowledge response) :
    awaits (outboxOf ledger (knowledge ⊔ response.knowledge) proposals) decision.operationId = false := by
  rw [announcements_eq, List.mem_append, List.mem_filter, List.mem_filter] at h
  rcases h with ⟨hmem, -⟩ | ⟨hmem, -⟩
  · refine not_awaits_of_decided (hknowledge.sup (knowledge_from hledger hhonest)) ?_
    exact Finset.mem_union_right _ (List.mem_toFinset.mpr (List.mem_map_of_mem hmem))
  · obtain ⟨entry, hentry, rfl⟩ := List.mem_map.mp hmem
    apply not_awaits_of_confirmed hledger
    exact ((List.take_prefix_take_left (le_max_right _ _)).subset (List.mem_of_mem_drop hentry))

/-- An operation whose outcome stops being pending is announced. -/
theorem announced {operationId : String}
    (hbefore : awaits (outboxOf ledger knowledge proposals) operationId = true)
    (hafter : awaits (outboxOf ledger (knowledge ⊔ response.knowledge) proposals) operationId = false) :
    operationId ∈ (announcements ledger proposals knowledge response).map ProposalDecision.operationId := by
  obtain ⟨proposal, hproposal, rfl, hpending⟩ := awaits_outboxOf.mp hbefore
  have hsettled : Settled ledger (knowledge ⊔ response.knowledge) proposal := by
    by_contra hpending
    rw [Bool.eq_false_iff] at hafter
    exact hafter (awaits_outboxOf.mpr ⟨proposal, hproposal, rfl, hpending⟩)
  rw [announcements_eq, List.map_append, List.mem_append]
  by_cases hdecided : proposal.operationId ∈ response.knowledge.decided
  · obtain ⟨decision, hdecision, hid⟩ := List.mem_map.mp (List.mem_toFinset.mp hdecided)
    refine Or.inl (List.mem_map.mpr ⟨decision, List.mem_filter.mpr ⟨hdecision, ?_⟩, hid⟩)
    rwa [hid]
  · -- Only the entry can have told the outcome.
    obtain ⟨record, hrecord, hknown⟩ := hsettled
    have hundecided : proposal.operationId ∉ knowledge.decided :=
      fun hmem => hpending ⟨record, hrecord, Or.inl hmem⟩
    rcases hknown with hmem | ⟨_, sequence, operation, haccepted, hthrough⟩
    · exact absurd (Finset.mem_union.mp hmem) (by simp [hundecided, hdecided])
    · have hbeyond : ¬sequence ≤ knowledge.through :=
        fun hle => hpending ⟨record, hrecord, Or.inr ⟨_, _, _, haccepted, hle⟩⟩
      obtain ⟨hmem, hid⟩ := (recordOf_eq_some_iff hledger.operationIds_nodup).mp hrecord
      obtain ⟨index, hindex, hsequence⟩ := hledger.getElem?_of_committed? hmem
        (StoredProposalDecision.committed?_of_accepted haccepted)
      change sequence = index + 1 at hsequence
      rw [Knowledge.sup_through] at hthrough
      have hentry : CommittedOperation.mk sequence record.identity.operationId
          ⟨record.identity.clientId, record.identity.clientSequence, record.identity.intentHash⟩ operation ∈
          newEntries ledger knowledge response := by
        refine mem_newEntries_of knowledge hindex ?_ ?_ <;> omega
      refine Or.inr (List.mem_map.mpr ⟨_, List.mem_filter.mpr ⟨List.mem_map_of_mem hentry, ?_⟩, hid⟩)
      refine awaits_outboxOf.mpr ⟨proposal, hproposal, hid.symm, ?_⟩
      have hsame : Settled ledger (knowledge.learnAll response.knowledge.decided) proposal ↔
          Settled ledger knowledge proposal := by
        refine settled_congr ?_ ?_
        · rfl
        · simp [Knowledge.learnAll, hdecided]
      exact fun hlearned => hpending (hsame.mp hlearned)

theorem announcements_distinct (hknowledge : knowledge.From ledger)
    (hhonest : HonestResponse ledger response) (hvalid : ValidResponse response none) :
    ((announcements ledger proposals knowledge response).map ProposalDecision.operationId).Nodup := by
  rw [announcements_eq, List.map_append, List.nodup_append]
  refine ⟨?_, ?_, ?_⟩
  · exact hvalid.decisions.distinct.sublist (List.filter_sublist.map _)
  · refine List.Nodup.sublist (List.filter_sublist.map _) ?_
    rw [List.map_map]
    refine List.pairwise_map.mpr ((hledger.log_distinct.sublist ?_).imp fun hne => hne.1)
    exact (List.drop_sublist _ _).trans (List.take_sublist _ _)
  · intro first hfirst second hsecond hsame
    subst hsame
    obtain ⟨decision, hdecision, rfl⟩ := List.mem_map.mp hfirst
    obtain ⟨other, hother, hid⟩ := List.mem_map.mp hsecond
    have hdecided := List.mem_map_of_mem (f := ProposalDecision.operationId) (List.mem_filter.mp hdecision).1
    have hawaits := (List.mem_filter.mp hother).2
    rw [hid, not_awaits_of_decided ?_ (Finset.mem_union_right _ (List.mem_toFinset.mpr hdecided))] at hawaits
    · simp at hawaits
    · exact ⟨hknowledge.through, fun operationId hmem => (Finset.mem_union.mp hmem).elim
        (hknowledge.decided operationId) ((knowledge_from hledger hhonest).decided operationId)⟩

end Announcements

/-! ### Informed replicas -/

namespace Network

variable [DecidableEq ι] {setup : NetworkSetup ι State Intent Operation Rejection ε}
  {network network' : Network ι State Intent Operation Rejection}
  {authority authority' : Authority setup.settings.interpreter setup.initialState}
  {knowledge knowledge' : ι → Knowledge} {retained : ι → Nat} {i : ι}
  {learned : List (ProposalDecision Operation Rejection)}

/-- These are the outcomes that the replica has been told, in order. -/
structure Informed (network : Network ι State Intent Operation Rejection) (i : ι)
    (learned : List (ProposalDecision Operation Rejection)) : Prop where
  distinct : (learned.map ProposalDecision.operationId).Nodup
  own : ∀ decision ∈ learned, ∃ proposal ∈ network.proposalsOf i,
    proposal.operationId = decision.operationId
  told : ∀ proposal ∈ network.proposalsOf i,
    proposal.operationId ∈ learned.map ProposalDecision.operationId ↔
      awaits (network.replicas i).outbox proposal.operationId = false
  permanent : ∀ decision ∈ learned,
    network.server.getDecision decision.operationId = some decision

theorem Consistent.getDecision_mono (h : network.Consistent setup authority knowledge retained)
    {retained' : ι → Nat} (h' : network'.Consistent setup authority' knowledge' retained')
    (hgrows : network.Grows network' authority authority' knowledge knowledge') {operationId : String}
    {decision : ProposalDecision Operation Rejection}
    (hdecision : network.server.getDecision operationId = some decision) :
    network'.server.getDecision operationId = some decision := by
  obtain ⟨new, hnew⟩ := hgrows.ledger
  rw [h.getDecision_eq] at hdecision
  obtain ⟨record, hrecord, hsame⟩ := Option.map_eq_some_iff.mp hdecision
  rw [h'.getDecision_eq, ← hnew, recordOf_append hrecord, Option.map_some, hsame]

/-- A replica awaits an operation of its own as long as its entry is pending. -/
theorem Consistent.awaits_iff (h : network.Consistent setup authority knowledge retained)
    {proposal : ProposedOperation Intent} (hproposal : proposal ∈ network.proposalsOf i) :
    awaits (network.replicas i).outbox proposal.operationId = true ↔
      .pending proposal ∈ (network.replicas i).outbox := by
  rw [(h.participants i).reflects.outbox, awaits_outboxOf, mem_outboxOf, OutboxEntry.proposal_pending,
    settle_eq_pending_iff, and_iff_right hproposal]
  constructor
  · intro hparts
    obtain ⟨other, hother, hid, hpending⟩ := hparts
    rwa [← KeyedList.eq_of_key_eq (h.proposals_nodup i) hother hproposal hid]
  · exact fun hpending => ⟨proposal, hproposal, rfl, hpending⟩

namespace Informed

theorem start (hproposals : network.proposalsOf i = []) : network.Informed i [] where
  distinct := List.nodup_nil
  own := fun _ hdecision => absurd hdecision List.not_mem_nil
  told := by simp [hproposals]
  permanent := fun _ hdecision => absurd hdecision List.not_mem_nil

theorem frame (h : network.Informed i learned) (hproposals : network'.proposalsOf i = network.proposalsOf i)
    (houtbox : (network'.replicas i).outbox = (network.replicas i).outbox)
    (hserver : ∀ operationId decision, network.server.getDecision operationId = some decision →
      network'.server.getDecision operationId = some decision) : network'.Informed i learned where
  distinct := h.distinct
  own := hproposals ▸ h.own
  told := by
    rw [hproposals, houtbox]
    exact h.told
  permanent := fun decision hdecision => hserver _ _ (h.permanent decision hdecision)

theorem enqueue (h : network.Informed i learned) {proposal : ProposedOperation Intent}
    (hfresh : ∀ other ∈ network.proposalsOf i, other.operationId ≠ proposal.operationId)
    (hproposals : network'.proposalsOf i = network.proposalsOf i ++ [proposal])
    (houtbox : (network'.replicas i).outbox = (network.replicas i).outbox ++ [.pending proposal])
    (hserver : network'.server = network.server) : network'.Informed i learned where
  distinct := h.distinct
  own := by
    intro decision hdecision
    obtain ⟨other, hother, hid⟩ := h.own decision hdecision
    exact ⟨other, hproposals ▸ List.mem_append_left _ hother, hid⟩
  told := by
    intro other hother
    rw [hproposals, List.mem_append, List.mem_singleton] at hother
    have hawaits : awaits (network'.replicas i).outbox other.operationId =
        (awaits (network.replicas i).outbox other.operationId ||
          decide (proposal.operationId = other.operationId)) := by
      rw [houtbox, awaits, awaits, List.any_append, List.any_cons, List.any_nil, Bool.or_false]
    rw [hawaits]
    rcases hother with hold | rfl
    · rw [decide_eq_false (hfresh other hold).symm, Bool.or_false]
      exact h.told other hold
    · rw [decide_eq_true rfl, Bool.or_true]
      refine iff_of_false (fun hmem => ?_) (by simp)
      obtain ⟨decision, hdecision, hid⟩ := List.mem_map.mp hmem
      obtain ⟨old, hold, hsame⟩ := h.own decision hdecision
      exact hfresh old hold (hsame.trans hid)
  permanent := hserver ▸ h.permanent

/-- A merge tells what is new in a response, and nothing twice. -/
theorem merge (h : network.Informed i learned)
    (hconsistent : network.Consistent setup authority knowledge retained)
    {response : SyncResponse Operation Rejection}
    {result : MergeSyncResult State Intent Operation Rejection}
    (hresponse : (i, response) ∈ network.responses)
    (hcall : mergeSyncResponse (setup.replicaInterpreter i) (network.replicas i) response = .ok result) :
    (network.setReplica i result.state).Informed i (learned ++ result.newlyResolved) := by
  have haddressed := hconsistent.responses _ hresponse
  have hreflects := (hconsistent.participants i).reflects
  have hjustified := authority.justified
  obtain ⟨hnext, hresult⟩ := mergeSyncResponse_reflects hjustified hconsistent.server.safe
    hreflects (hconsistent.proposals_nodup i) (hconsistent.recordsOwn i) haddressed.honest haddressed.valid
    (hreflects.confirmedSequence ▸ haddressed.base) hcall
  have hnew : result.newlyResolved =
      announcements authority.ledger (network.proposalsOf i) (knowledge i) response := by
    rw [hresult]
    rfl
  have hbefore := hreflects.outbox
  have hafter : ((network.setReplica i result.state).replicas i).outbox =
      outboxOf authority.ledger (knowledge i ⊔ response.knowledge) (network.proposalsOf i) := by
    simp only [setReplica, Function.update_self]
    exact hnext.outbox
  constructor
  case distinct =>
    rw [List.map_append, hnew, List.nodup_append]
    refine ⟨h.distinct, announcements_distinct hjustified _ hreflects.known haddressed.honest haddressed.valid, ?_⟩
    intro first hfirst second hsecond hsame
    subst hsame
    obtain ⟨decision, hdecision, rfl⟩ := List.mem_map.mp hfirst
    obtain ⟨other, hother, hid⟩ := List.mem_map.mp hsecond
    obtain ⟨proposal, hproposal, hown⟩ := h.own decision hdecision
    have hawaits := awaits_of_announced _ hother
    have htold := (h.told proposal hproposal).mp (hown ▸ hfirst)
    rw [hid, ← hown, ← hbefore, htold] at hawaits
    simp at hawaits
  case own =>
    intro decision hdecision
    rcases List.mem_append.mp hdecision with hold | hannounced
    · exact h.own decision hold
    · obtain ⟨proposal, hproposal, hid, -⟩ := awaits_outboxOf.mp (awaits_of_announced _ (hnew ▸ hannounced))
      exact ⟨proposal, hproposal, hid⟩
  case told =>
    intro proposal hproposal
    have hthen := h.told proposal hproposal
    rw [List.map_append, List.mem_append, hthen, hafter, hbefore, hnew]
    constructor
    · intro hcase
      rcases hcase with hbefore | hannounced
      · rw [Bool.eq_false_iff] at hbefore ⊢
        exact fun hawaits => hbefore (awaits_anti _ le_sup_left hawaits)
      · obtain ⟨decision, hdecision, hid⟩ := List.mem_map.mp hannounced
        exact hid ▸ not_awaits_of_announced hjustified _ hreflects.known haddressed.honest hdecision
    · intro hsettled
      rw [or_iff_not_imp_left, Bool.not_eq_false]
      exact fun hpending => announced hjustified _ hpending hsettled
  case permanent =>
    intro decision hdecision
    rcases List.mem_append.mp hdecision with hold | hannounced
    · exact h.permanent decision hold
    · obtain ⟨record, hrecord, hsame⟩ :=
        recordOf_of_mem_announcements hjustified _ haddressed.honest (hnew ▸ hannounced)
      have hdecision := hconsistent.getDecision_eq decision.operationId
      rw [hrecord, Option.map_some, hsame] at hdecision
      exact hdecision

end Informed

/-- What an action tells a replica. -/
def announcedBy (setup : NetworkSetup ι State Intent Operation Rejection ε)
    (network : Network ι State Intent Operation Rejection) (i : ι) :
    NetworkAction ι Intent → List (ProposalDecision Operation Rejection)
  | .merge index =>
      match network.responses[index]? with
      | none => []
      | some (j, response) =>
          match mergeSyncResponse (setup.replicaInterpreter j) (network.replicas j) response with
          | .ok result => if j = i then result.newlyResolved else []
          | .error _ => []
  | .enqueue _ _ => []
  | .prepare _ _ => []
  | .deliver _ => []
  | .compact _ _ => []

theorem proposalsOf_recordEnqueued {j : ι} {input : EnqueueOperationInput Intent}
    {state : ReplicaState State Intent Operation} (henqueued : Enqueued ε (network.replicas j) input state) :
    (network.recordEnqueued j state).proposalsOf i =
      network.proposalsOf i ++ if j = i then [(network.replicas j).propose input] else [] := by
  have hadded : (network.recordEnqueued j state).enqueued =
      network.enqueued ++ [(j, (network.replicas j).propose input)] := by
    rw [recordEnqueued, henqueued.result, List.getLast?_append, List.getLast?_singleton]
    rfl
  rw [proposalsOf, hadded, List.filter_append, List.map_append, List.filter_singleton]
  by_cases hij : j = i
  · rw [if_pos hij, decide_eq_true hij]
    rfl
  · rw [if_neg hij, decide_eq_false hij]
    rfl

theorem Informed.next (hreachable : setup.system.Reachable network) {action : NetworkAction ι Intent}
    (hfresh : network.Fresh action) (h : network.Informed i learned) :
    (network.next setup action).Informed i (learned ++ network.announcedBy setup i action) := by
  obtain ⟨authority, knowledge, retained, hconsistent⟩ := consistent_of_reachable hreachable
  obtain ⟨authority', knowledge', retained', hconsistent', hgrows⟩ := hconsistent.next hfresh
  have hserver : ∀ operationId decision, network.server.getDecision operationId = some decision →
      (network.next setup action).server.getDecision operationId = some decision :=
    fun _ _ => hconsistent.getDecision_mono hconsistent' hgrows
  cases action with
  | enqueue j input =>
      rw [announcedBy, List.append_nil]
      rw [Network.next] at hserver ⊢
      split
      · rename_i state hcall
        rw [hcall] at hserver
        have henqueued := enqueueOperation_eq_ok.mp hcall
        have hproposals := proposalsOf_recordEnqueued (i := i) henqueued
        by_cases hij : j = i
        · subst hij
          rw [if_pos rfl] at hproposals
          refine h.enqueue (fun other hother => ?_) hproposals ?_ rfl
          · exact hfresh _ (mem_proposalsOf.mp hother)
          · rw [henqueued.result]
            simp only [recordEnqueued, setReplica, Function.update_self]
        · rw [if_neg hij, List.append_nil] at hproposals
          refine h.frame hproposals ?_ hserver
          simp only [recordEnqueued, setReplica, Function.update_of_ne (Ne.symm hij)]
      · exact h
  | prepare j options =>
      rw [announcedBy, List.append_nil]
      refine h.frame ?_ ?_ hserver <;> (rw [Network.next]; split <;> rfl)
  | deliver index =>
      rw [announcedBy, List.append_nil]
      refine h.frame ?_ ?_ hserver <;> (rw [Network.next]; repeat' split) <;> rfl
  | merge index =>
      rw [announcedBy, Network.next]
      cases hresponse : network.responses[index]? with
      | none => rwa [List.append_nil]
      | some addressed =>
          obtain ⟨j, response⟩ := addressed
          dsimp only
          cases hcall : mergeSyncResponse (setup.replicaInterpreter j) (network.replicas j) response with
          | error e => rwa [List.append_nil]
          | ok result =>
              dsimp only
              by_cases hij : j = i
              · subst hij
                rw [if_pos rfl]
                exact h.merge hconsistent (List.mem_of_getElem? hresponse) hcall
              · rw [if_neg hij, List.append_nil]
                refine h.frame rfl ?_ fun _ _ => id
                simp only [setReplica, Function.update_of_ne (Ne.symm hij)]
  | compact j throughSequence =>
      rw [announcedBy, List.append_nil, Network.next]
      split
      · rename_i state hcall
        refine h.frame rfl ?_ fun _ _ => id
        by_cases hij : j = i
        · subst hij
          simp only [setReplica, Function.update_self]
          obtain ⟨-, hstate⟩ := deleteCommittedLogPrefix_reflects authority.justified hconsistent.server.safe
            (hconsistent.participants j).reflects hcall
          rw [hstate]
        · simp only [setReplica, Function.update_of_ne (Ne.symm hij)]
      · exact h

end Network

end SyncEngine
