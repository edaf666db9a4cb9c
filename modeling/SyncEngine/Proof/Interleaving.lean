import SyncEngine.Model.Interleaving
import SyncEngine.Proof.HttpSession

/-!
# Interleaved sessions

Sessions of all replicas, several of one replica too, take turns at every call. A world is a reachable network of
stores with its books, and grows with every call. A round that does not end its session has learned something
since it prepared its request, whatever the others have done in between, and what there is to learn is bounded by
what is committed and what is undecided. So every session returns.
-/

namespace SyncEngine

open JavaScript Throwing

variable {ι State Intent Operation Rejection ε : Type} [DecidableEq ι]
  {setup : StoreSetup ι State Intent Operation Rejection ε}

/-! ### A session that runs alone -/

section Alone

variable (setup) {α β : Type}

/-- Without turns for others a program does what the action does. -/
def RunsAs (program : SessionProgram ι Intent Operation Rejection ε α)
    (action : SessionM (StoreNetwork ι State Intent Operation Rejection) ε α) : Prop :=
  ∀ stores, program.run (StoreNetwork.answer setup) stores = action stores

variable {setup}

theorem RunsAs.bind {program : SessionProgram ι Intent Operation Rejection ε α}
    {action : SessionM (StoreNetwork ι State Intent Operation Rejection) ε α}
    {next : α → SessionProgram ι Intent Operation Rejection ε β}
    {next' : α → SessionM (StoreNetwork ι State Intent Operation Rejection) ε β} (h : RunsAs setup program action)
    (hnext : ∀ a, RunsAs setup (next a) (next' a)) : RunsAs setup (program >>= next) (action >>= next') := by
  intro stores
  have hrun := h stores
  rcases haction : action stores with ⟨result, stores'⟩
  rw [haction] at hrun
  cases result with
  | ok a =>
      rw [Program.run_bind_ok _ _ hrun, SessionM.bind_of_ok haction]
      exact hnext a stores'
  | error error => rw [Program.run_bind_error _ _ hrun, SessionM.bind_of_error haction]

theorem RunsAs.lift (result : Except (SessionError ε) α) :
    RunsAs setup (Program.lift result) (fun stores => (result, stores)) :=
  fun stores => Program.run_lift _ stores result

theorem runsAs_runSyncSession (session : SyncSession ι) :
    RunsAs setup (session.runSyncSession setup.streamId) (SyncEngine.runSyncSession (StoreNetwork.session setup
      session.replica session.maximumEntries session.maximumProposals session.maximumSyncRounds)) := by
  have hround : RunsAs setup (session.syncRound setup.streamId) (SyncEngine.syncRound (StoreNetwork.session setup
      session.replica session.maximumEntries session.maximumProposals session.maximumSyncRounds)) := by
    have hprepare : ∀ options, RunsAs setup (session.prepareSyncRequest options)
        (StoreNetwork.prepareSyncRequest setup session.replica options) := fun options stores =>
      (Program.run_bind _ _ _ _).trans (Program.run_lift _ _ _)
    have hsynchronize : ∀ envelope, RunsAs setup (session.synchronize envelope)
        (StoreNetwork.synchronize setup session.replica envelope) := fun envelope stores =>
      (Program.run_bind _ _ _ _).trans (Program.run_lift _ _ _)
    have hmerge : ∀ response, RunsAs setup (session.mergeSyncResponse response)
        (StoreNetwork.mergeSyncResponse setup session.replica response) := fun response stores =>
      (Program.run_bind _ _ _ _).trans (Program.run_lift _ _ _)
    have hrefresh : RunsAs setup session.refreshAfterMerge (StoreNetwork.readStatus setup session.replica) :=
      fun stores => (Program.run_bind _ _ _ _).trans (Program.run_lift _ _ _)
    refine (hprepare _).bind fun request => (hsynchronize _).bind fun envelope => ?_
    exact (RunsAs.lift _).bind fun _ => (hmerge _).bind fun _ => hrefresh.bind fun status => fun _ => rfl
  have hrounds : ∀ maximum remaining, RunsAs setup (session.syncRounds setup.streamId maximum remaining)
      (SyncEngine.syncRounds (StoreNetwork.session setup session.replica session.maximumEntries
        session.maximumProposals session.maximumSyncRounds) maximum remaining) := by
    intro maximum remaining
    induction remaining with
    | zero => exact fun _ => rfl
    | succ remaining ih =>
        refine hround.bind fun finished => ?_
        cases finished with
        | true => exact fun _ => rfl
        | false => exact ih
  exact hrounds _ _

end Alone

/-! ### Worlds -/

def StoreNetwork.undecided (stores : StoreNetwork ι State Intent Operation Rejection) :
    List (ι × ProposedOperation Intent) :=
  stores.enqueued.filter fun entry => (stores.server.getDecision entry.2.operationId).isNone

/-- What a replica can learn while nobody enqueues: the fate of its pending operations, and the log, which grows by
at most what is undecided. -/
def StoreNetwork.learnable (stores : StoreNetwork ι State Intent Operation Rejection)
    (replica : ReplicaState State Intent Operation) : Int :=
  (pendingProposals replica.outbox).length +
    (stores.server.headSequence + stores.undecided.length - replica.confirmedSequence)

def SyncSession.Fits (session : SyncSession ι) (limits : ProtocolLimits) : Prop :=
  PrepareSyncRequestOptions.Fits
    { maximumProposals := some (session.maximumProposals.getD 64)
      maximumEntries := some (session.maximumEntries.getD 256) } limits

namespace StoreNetwork

structure World (setup : StoreSetup ι State Intent Operation Rejection ε) where
  stores : StoreNetwork ι State Intent Operation Rejection
  account : stores.Account setup
  reachable : setup.storeSystem.Reachable stores

namespace World

/-- Nobody enqueues. Messages, decisions and what the replicas know are kept. -/
instance : Preorder (World setup) where
  le w w' := w.account.network.Grows w'.account.network w.account.authority w'.account.authority w.account.knowledge
      w'.account.knowledge ∧ w'.account.network.enqueued = w.account.network.enqueued ∧
    w.account.network.requests ⊆ w'.account.network.requests ∧
    w.account.network.responses ⊆ w'.account.network.responses
  le_refl w := ⟨.refl, rfl, List.Subset.refl _, List.Subset.refl _⟩
  le_trans _ _ _ h h' := ⟨h.1.trans h'.1, h'.2.1.trans h.2.1, List.Subset.trans h.2.2.1 h'.2.2.1,
    List.Subset.trans h.2.2.2 h'.2.2.2⟩

variable {w w' : World setup}

theorem pendingOf_le (h : w ≤ w') (i : ι) :
    (w'.account.network.pendingOf i).length ≤ (w.account.network.pendingOf i).length :=
  (Account.pendingOf_sublist h.1 h.2.1 i).length_le

theorem cursor_le (h : w ≤ w') (i : ι) : (w.account.network.replicas i).confirmedSequence ≤
    (w'.account.network.replicas i).confirmedSequence := Account.confirmedSequence_le h.1 i

theorem head_le (h : w ≤ w') : w.account.network.server.log.length ≤ w'.account.network.server.log.length := by
  rw [w.account.consistent.log_eq, w'.account.consistent.log_eq]
  exact (h.1.ledger.filterMap _).length_le

theorem outbox_nil (h : w ≤ w') {i : ι} (hnil : (w.account.network.replicas i).outbox = []) :
    (w'.account.network.replicas i).outbox = [] := by
  obtain ⟨new, hnew⟩ := h.1.ledger
  have hreflects := (w.account.consistent.participants i).reflects
  have hreflects' := (w'.account.consistent.participants i).reflects
  have hjustified := w'.account.authority.justified
  have hproposals : w'.account.network.proposalsOf i = w.account.network.proposalsOf i := by
    rw [Network.proposalsOf, Network.proposalsOf, h.2.1]
  rw [← hnew] at hjustified
  rw [hreflects.outbox, ← outboxOf_append hjustified hreflects.known, hnew, outboxOf, List.filterMap_eq_nil_iff] at hnil
  rw [hreflects'.outbox, hproposals, outboxOf, List.filterMap_eq_nil_iff]
  exact fun proposal hproposal => settle_eq_none_mono (hnil proposal hproposal) (h.1.knowledge i)

theorem ceiling_le (h : w ≤ w') : w'.account.network.server.log.length + w'.stores.undecided.length ≤
    w.account.network.server.log.length + w.stores.undecided.length := by
  obtain ⟨new, hnew⟩ := h.1.ledger
  have hids := w'.account.authority.justified.operationIds_nodup
  rw [← hnew, List.map_append, List.nodup_append] at hids
  obtain ⟨-, hnodup, hapart⟩ := hids
  have hundecided : ∀ (v : World setup) entry, entry ∈ v.stores.undecided ↔ entry ∈ v.account.network.enqueued ∧
      ∀ record ∈ v.account.authority.ledger, record.identity.operationId ≠ entry.2.operationId := by
    intro v entry
    rw [undecided, List.mem_filter, v.account.follows.enqueued, v.account.follows.server,
      v.account.consistent.getDecision_eq, recordOf, Option.isNone_map, Option.isNone_iff_eq_none, List.find?_eq_none]
    simp only [decide_eq_true_eq, ne_eq]
  have hentries : (w'.stores.undecided.map fun entry => entry.2.operationId).Nodup := by
    have hsublist : w'.stores.undecided.Sublist w'.account.network.enqueued :=
      w'.account.follows.enqueued ▸ (List.filter_sublist : w'.stores.undecided.Sublist w'.stores.enqueued)
    exact w'.account.consistent.operationIds.sublist (hsublist.map _)
  have hdistinct : ((new.map fun record => record.identity.operationId) ++
      w'.stores.undecided.map fun entry => entry.2.operationId).Nodup := by
    refine List.nodup_append.mpr ⟨hnodup, hentries, fun operationId hdecided other hother hsame => ?_⟩
    obtain ⟨record, hrecord, rfl⟩ := List.mem_map.mp hdecided
    obtain ⟨entry, hentry, rfl⟩ := List.mem_map.mp hother
    exact ((hundecided w' entry).mp hentry).2 record (hnew ▸ List.mem_append_right _ hrecord) hsame
  have hsubset : ((new.map fun record => record.identity.operationId) ++
      w'.stores.undecided.map fun entry => entry.2.operationId) ⊆
      w.stores.undecided.map fun entry => entry.2.operationId := by
    refine List.append_subset.mpr ⟨fun operationId hdecided => ?_, fun operationId hleft => ?_⟩
    · obtain ⟨record, hrecord, rfl⟩ := List.mem_map.mp hdecided
      obtain ⟨entry, hentry, hidentity⟩ :=
        w'.account.consistent.origin record (hnew ▸ List.mem_append_right _ hrecord)
      have hid : entry.2.operationId = record.identity.operationId :=
        congrArg (fun identity => identity.operationId) hidentity
      refine List.mem_map.mpr ⟨entry, (hundecided w entry).mpr ⟨h.2.1 ▸ hentry, fun earlier hearlier hsame => ?_⟩, hid⟩
      exact hapart _ (List.mem_map_of_mem hearlier) _ (List.mem_map_of_mem hrecord) (hsame.trans hid)
    · obtain ⟨entry, hentry, rfl⟩ := List.mem_map.mp hleft
      obtain ⟨hmem, hnone⟩ := (hundecided w' entry).mp hentry
      refine List.mem_map_of_mem ((hundecided w entry).mpr ⟨h.2.1 ▸ hmem, fun earlier hearlier => ?_⟩)
      exact hnone earlier (hnew ▸ List.mem_append_left _ hearlier)
  have hrecords := (List.subperm_of_subset hdistinct hsubset).length_le
  rw [List.length_append, List.length_map, List.length_map, List.length_map] at hrecords
  have hlog : (canonicalLog new).length ≤ new.length := List.length_filterMap_le _ _
  rw [w'.account.consistent.log_eq, w.account.consistent.log_eq, ← hnew, canonicalLog_append, List.length_append]
  omega

end World

end StoreNetwork

/-! ### What the calls do to a world -/

section Answer

variable {network : Network ι State Intent Operation Rejection}
  {setup : NetworkSetup ι State Intent Operation Rejection ε}
  {authority : Authority setup.settings.interpreter setup.initialState} {knowledge : ι → Knowledge}
  {retained : ι → Nat}

theorem Network.Consistent.ledger_length_le (h : network.Consistent setup authority knowledge retained) :
    authority.ledger.length ≤ network.enqueued.length := by
  have hsubset : (authority.ledger.map fun record => record.identity.operationId) ⊆
      network.enqueued.map fun entry => entry.2.operationId := by
    intro operationId hmem
    obtain ⟨record, hrecord, rfl⟩ := List.mem_map.mp hmem
    obtain ⟨entry, hentry, hidentity⟩ := h.origin record hrecord
    exact List.mem_map.mpr ⟨entry, hentry, congrArg (fun identity => identity.operationId) hidentity⟩
  have hlength := (List.subperm_of_subset authority.justified.operationIds_nodup hsubset).length_le
  rwa [List.length_map, List.length_map] at hlength

theorem Network.Consistent.synchronize_returns (h : network.Consistent setup authority knowledge retained)
    (htotal : setup.Total) {i : ι} {request : SyncRequest Intent} (hrequest : (i, request) ∈ network.requests)
    (hvalid : ValidRequest request setup.settings.limits)
    (hroom : (2 * network.enqueued.length : Int) ≤ maxSafeInteger) :
    ∃ response server, InMemoryLogServer.synchronize setup.settings network.server request =
      .ok (response, server) := by
  have hsent := h.requests _ hrequest
  have hlog : authority.toBooks.log.length ≤ authority.ledger.length := List.length_filterMap_le _ _
  have hrecords := h.ledger_length_le
  have hbase : request.baseSequence ≤ authority.toBooks.log.length :=
    hsent.base.trans (Int.ofNat_le.mpr (h.participants i).reflects.known.through)
  have hsubset : request.proposals ⊆ network.enqueued.map Prod.snd := fun proposal hproposal =>
    List.mem_map_of_mem (Network.mem_proposalsOf.mp (hsent.own proposal hproposal))
  have hdistinct : request.proposals.Nodup :=
    (hvalid.batch.ordered.imp fun hordered => hordered.1).imp fun hne hsame =>
      hne (congrArg (fun proposal => proposal.operationId) hsame)
  have hproposals := (List.subperm_of_subset hdistinct hsubset).length_le
  rw [List.length_map] at hproposals
  obtain ⟨response, books, hbooks⟩ := Books.synchronize_succeeds htotal.authority setup.resolved hvalid hbase
    (fun proposal hproposal => h.answerable (hsent.own proposal hproposal)) (by omega)
  have hagree := InMemoryLogServer.synchronize_agree setup.settings h.server.represents
    authority.justified.pairwise_identity request
  obtain ⟨⟨answered, server⟩, hcall, -⟩ := hagree.of_right_eq_ok hbooks
  exact ⟨answered, server, hcall⟩

end Answer

namespace StoreNetwork.World

variable {i : ι}

theorem prepare (w : World setup) (i : ι) {options : PrepareSyncRequestOptions}
    (hfits : options.Fits setup.settings.limits) :
    ∃ w' : World setup, prepareSyncRequest setup i options w.stores =
        (.ok (w.account.network.sessionRequest i options), w'.stores) ∧ w ≤ w' ∧
      (i, w.account.network.sessionRequest i options) ∈ w'.account.network.requests := by
  obtain ⟨stores', account', hrun, hspent, hnetwork, -⟩ := w.account.prepare i hfits
  refine ⟨⟨stores', account', hspent.reachable w.reachable⟩, hrun, ⟨hspent.grows, hspent.enqueued, ?_, ?_⟩, ?_⟩
  all_goals dsimp only
  all_goals rw [hnetwork]
  · exact List.subset_append_left _ _
  · exact List.Subset.refl _
  · exact List.mem_append_right _ (List.mem_singleton_self _)

theorem synchronize (w : World setup) (htotal : setup.Total)
    (hroom : (2 * w.account.network.enqueued.length : Int) ≤ maxSafeInteger) {request : SyncRequest Intent}
    (hrequest : (i, request) ∈ w.account.network.requests) (hvalid : ValidRequest request setup.settings.limits)
    (version : Int) (streamId : String) :
    ∃ (w' : World setup) (response : SyncResponse Operation Rejection),
      StoreNetwork.synchronize setup i ⟨version, streamId, request⟩ w.stores =
        (.ok ⟨syncProtocolVersion, streamId, response⟩, w'.stores) ∧ w ≤ w' ∧
      (i, response) ∈ w'.account.network.responses ∧
      Synchronized setup.settings w.account.authority.toBooks w'.account.authority.toBooks request response := by
  obtain ⟨response, server, hcall⟩ := w.account.consistent.synchronize_returns htotal hrequest hvalid hroom
  obtain ⟨account', hreachable, hnetwork, hgrows, hsynchronized⟩ := w.account.answer hrequest hcall
  refine ⟨⟨_, account', hreachable w.reachable⟩, response, ?_, ⟨hgrows, ?_, ?_, ?_⟩, ?_, hsynchronized⟩
  · rw [StoreNetwork.synchronize, w.account.follows.server]
    dsimp only
    rw [hcall]
  all_goals dsimp only
  all_goals rw [hnetwork]
  · exact List.Subset.refl _
  · exact List.subset_append_left _ _
  · exact List.mem_append_right _ (List.mem_singleton_self _)

theorem merge (w : World setup) (htotal : setup.Total) {response : SyncResponse Operation Rejection}
    (hresponse : (i, response) ∈ w.account.network.responses) :
    ∃ w' : World setup, mergeSyncResponse setup i response w.stores = (.ok (), w'.stores) ∧ w ≤ w' ∧
      response.knowledge ≤ w'.account.knowledge i := by
  obtain ⟨result, hcall⟩ := w.account.consistent.merge_returns htotal hresponse
  obtain ⟨stores', account', hrun, hspent, hnetwork, hlearned⟩ := w.account.merge hresponse hcall
  refine ⟨⟨stores', account', hspent.reachable w.reachable⟩, hrun, ⟨hspent.grows, hspent.enqueued, ?_, ?_⟩, hlearned⟩
  all_goals dsimp only
  all_goals rw [hnetwork]
  all_goals exact List.Subset.refl _

/-! ### A round -/

section Round

variable {w w₁ w₂ w₃ w₄ w₅ : World setup} {options : PrepareSyncRequestOptions}
  {response : SyncResponse Operation Rejection}

theorem learnable_eq (w : World setup) (i : ι) : w.stores.learnable (w.account.network.replicas i) =
    (w.account.network.pendingOf i).length + (w.account.network.server.log.length + w.stores.undecided.length -
      (w.account.network.replicas i).confirmedSequence) := by
  rw [learnable, w.account.follows.server]
  rfl

theorem learnable_le (h : w ≤ w') (i : ι) : w'.stores.learnable (w'.account.network.replicas i) ≤
    w.stores.learnable (w.account.network.replicas i) := by
  have hpending := pendingOf_le h i
  have hcursor := cursor_le h i
  have hceiling := ceiling_le h
  rw [learnable_eq, learnable_eq]
  omega

theorem learnable_nonneg (w : World setup) (i : ι) : 0 ≤ w.stores.learnable (w.account.network.replicas i) := by
  have hcursor := w.account.consistent.cursor_le i
  rw [learnable_eq]
  omega

/-- What a round has learned when its response is merged: what it sent is not pending any more, and the cursor is
where the response goes. -/
theorem round_learns (hfits : options.Fits setup.settings.limits) (h : w₁ ≤ w₄)
    (hanswered : Synchronized setup.settings w₂.account.authority.toBooks w₃.account.authority.toBooks
      (w₁.account.network.sessionRequest i options) response)
    (hlearned : response.knowledge ≤ w₄.account.knowledge i) :
    (w₄.account.network.pendingOf i).length ≤ (w₁.account.network.pendingOf i).length - 1 ∧
      response.throughSequence ≤ (w₄.account.network.replicas i).confirmedSequence ∧
      response.headSequence = w₃.account.network.server.log.length ∧
      ((w₁.account.network.replicas i).confirmedSequence < response.throughSequence ∨
        w₃.account.network.server.log.length ≤ response.throughSequence) := by
  have hpositive := hfits.proposals
  have hproposals : w₄.account.network.proposalsOf i = w₁.account.network.proposalsOf i := by
    rw [Network.proposalsOf, Network.proposalsOf, h.2.1]
  obtain ⟨hcursor, -⟩ := w₄.account.consistent.cursor_le i
  obtain ⟨hhead, page, hpage, hthrough⟩ := hanswered.throughSequence_eq setup.resolved
  have hlog : w₃.account.network.server.log = w₃.account.authority.toBooks.log := w₃.account.consistent.log_eq
  have hbase : (w₁.account.network.sessionRequest i options).baseSequence =
      (w₁.account.network.replicas i).confirmedSequence := rfl
  have hknown : response.throughSequence.toNat ≤ (w₄.account.knowledge i).through := hlearned.1
  have hnonneg := (w₁.account.consistent.cursor_le i).1
  rw [← hlog] at hhead
  rw [hbase, ← hlog] at hthrough
  refine ⟨?_, by omega, hhead, by omega⟩
  -- What was sent is decided, and the replica knows it.
  have hpending : (w₄.account.network.pendingOf i).length ≤ (w₁.account.network.pendingOf i).length -
      (options.maximumProposals.getD defaultProtocolLimits.maximumProposalsPerRequest).toNat := by
    rw [Account.pendingOf_eq, Account.pendingOf_eq, hproposals]
    apply pending_length_le
    · intro proposal hsettled
      obtain ⟨new, hnew⟩ := h.1.ledger
      rw [← hnew]
      exact hsettled.append.mono (h.1.knowledge i)
    · intro proposal hsent
      rw [← Account.pendingOf_eq] at hsent
      refine settled_of_mem_decided (w₄.account.consistent.participants i).reflects.known (hlearned.2 ?_)
      change proposal.operationId ∈ decidedIds response.decisions
      rw [hanswered.decidedIds_eq, List.mem_toFinset]
      exact List.mem_map_of_mem hsent
  omega

/-- The step lemma of the loop: a round that does not end the session has learned something, and one that does
leaves the outbox empty and the cursor where the head was. -/
theorem round_progress (hfits : options.Fits setup.settings.limits) (hprepared : w₁ ≤ w₂) (hserved : w₂ ≤ w₃)
    (hanswered : Synchronized setup.settings w₂.account.authority.toBooks w₃.account.authority.toBooks
      (w₁.account.network.sessionRequest i options) response) (hmerged : w₃ ≤ w₄)
    (hlearned : response.knowledge ≤ w₄.account.knowledge i) (hread : w₄ ≤ w₅)
    (resolutions : List (ProposalDecision Operation Rejection)) :
    if !responseHasMoreEntries response && decide ((statusFromRecord
        (setup.record (w₅.account.network.replicas i) resolutions)).pendingProposalCount = 0) &&
        decide ((statusFromRecord
          (setup.record (w₅.account.network.replicas i) resolutions)).acceptedAwaitingConfirmationCount = 0) then
      (w₅.account.network.replicas i).outbox = [] ∧
        w₁.account.network.server.headSequence ≤ (w₅.account.network.replicas i).confirmedSequence
    else w₅.stores.learnable (w₅.account.network.replicas i) <
      w₁.stores.learnable (w₁.account.network.replicas i) := by
  obtain ⟨hpending, hthrough, hhead, hreaches⟩ := round_learns hfits ((hprepared.trans hserved).trans hmerged)
    hanswered hlearned
  have hlog := head_le (hprepared.trans hserved)
  have hlogAfter := head_le (hmerged.trans hread)
  have hceiling := ceiling_le ((hprepared.trans hserved).trans (hmerged.trans hread))
  have hpendingAfter := pendingOf_le hread i
  have hcursor := cursor_le hread i
  have hlength : w₁.account.network.server.headSequence = w₁.account.network.server.log.length := rfl
  split
  case isTrue hends =>
    simp only [responseHasMoreEntries, Bool.and_eq_true, Bool.not_eq_true', decide_eq_true_eq,
      decide_eq_false_iff_not, and_assoc] at hends
    exact ⟨outbox_eq_nil_iff.mpr hends.2, by omega⟩
  case isFalse hgoesOn =>
    rw [learnable_eq, learnable_eq]
    by_cases hnone : w₁.account.network.remaining i = 0
    · -- With nothing left to learn the session would have ended.
      obtain ⟨houtbox, hlast⟩ := (w₁.account.consistent.remaining_eq_zero i).mp hnone
      have hnil := outbox_nil ((hprepared.trans hserved).trans (hmerged.trans hread)) houtbox
      have hmore : response.throughSequence < response.headSequence := by
        by_contra hless
        refine hgoesOn ?_
        simp only [responseHasMoreEntries, Bool.and_eq_true, Bool.not_eq_true', decide_eq_true_eq,
          decide_eq_false_iff_not, and_assoc]
        exact ⟨hless, outbox_eq_nil_iff.mp hnil⟩
      omega
    · have hstart := w₁.account.consistent.cursor_le i
      rw [Network.remaining] at hnone
      omega

end Round

theorem readStatus_eq (w : World setup) (i : ι) : readStatus setup i w.stores =
    (.ok (statusFromRecord (setup.record (w.account.network.replicas i) (outstanding (w.stores.outcomes i)))),
      w.stores) :=
  readStatus_run (w.account.follows.stored i) (w.account.follows.accepts i)

/-! ### The session among others -/

section Session

variable {w : World setup} {session : SyncSession ι}
  {trace : List (Event (SessionInterface ι Intent Operation Rejection ε))}
  {T : World setup → List (Event (SessionInterface ι Intent Operation Rejection ε)) → SessionError ε → Prop}

theorem secure_prepareSyncRequest {options : PrepareSyncRequestOptions} (hfits : options.Fits setup.settings.limits) :
    (session.prepareSyncRequest options).Secure (answer setup) (fun stores w => w.stores = stores)
      (fun later trace' request => trace'.length = trace.length + 1 ∧
        (session.replica, request) ∈ later.account.network.requests ∧
        ∃ w₁, w ≤ w₁ ∧ w₁ ≤ later ∧ request = w₁.account.network.sessionRequest session.replica options)
      T w trace := by
  refine Program.Secure.ask_lift fun w₁ stores hle hholds => ?_
  subst hholds
  obtain ⟨w', hrun, hnext, hrequest⟩ := w₁.prepare session.replica hfits
  have hanswer : answer setup (.prepareSyncRequest session.replica options) w₁.stores =
    (.ok (w₁.account.network.sessionRequest session.replica options), w'.stores) := hrun
  refine ⟨w', _, hnext, congrArg Prod.snd hanswer.symm, congrArg Prod.fst hanswer, fun later hlater => ⟨?_, ?_, ?_⟩⟩
  · exact List.length_append
  · exact hlater.2.2.1 hrequest
  · exact ⟨w₁, hle, hnext.trans hlater, rfl⟩

theorem secure_synchronize (htotal : setup.Total)
    (hroom : (2 * w.account.network.enqueued.length : Int) ≤ maxSafeInteger) {request : SyncRequest Intent}
    (hrequest : (session.replica, request) ∈ w.account.network.requests)
    (hvalid : ValidRequest request setup.settings.limits) (version : Int) (streamId : String) :
    (session.synchronize ⟨version, streamId, request⟩).Secure (answer setup) (fun stores w => w.stores = stores)
      (fun later trace' envelope => trace'.length = trace.length + 1 ∧
        envelope.protocolVersion = syncProtocolVersion ∧ envelope.streamId = streamId ∧
        (session.replica, envelope.response) ∈ later.account.network.responses ∧
        ∃ w₂ w₃ : World setup, w ≤ w₂ ∧ w₂ ≤ w₃ ∧ w₃ ≤ later ∧
          Synchronized setup.settings w₂.account.authority.toBooks w₃.account.authority.toBooks request
            envelope.response)
      T w trace := by
  refine Program.Secure.ask_lift fun w₂ stores hle hholds => ?_
  subst hholds
  rw [← hle.2.1] at hroom
  obtain ⟨w₃, response, hrun, hnext, hresponse, hsynchronized⟩ :=
    w₂.synchronize htotal hroom (hle.2.2.1 hrequest) hvalid version streamId
  have hanswer : answer setup (.synchronize session.replica ⟨version, streamId, request⟩) w₂.stores =
    (.ok ⟨syncProtocolVersion, streamId, response⟩, w₃.stores) := hrun
  refine ⟨w₃, _, hnext, congrArg Prod.snd hanswer.symm, congrArg Prod.fst hanswer,
    fun later hlater => ⟨?_, rfl, rfl, ?_, ?_⟩⟩
  · exact List.length_append
  · exact hlater.2.2.2 hresponse
  · exact ⟨w₂, w₃, hle, hnext, hlater, hsynchronized⟩

theorem secure_mergeSyncResponse (htotal : setup.Total) {response : SyncResponse Operation Rejection}
    (hresponse : (session.replica, response) ∈ w.account.network.responses) :
    (session.mergeSyncResponse response).Secure (answer setup) (fun stores w => w.stores = stores)
      (fun later trace' _ => trace'.length = trace.length + 1 ∧
        response.knowledge ≤ later.account.knowledge session.replica)
      T w trace := by
  refine Program.Secure.ask_lift fun w₃ stores hle hholds => ?_
  subst hholds
  obtain ⟨w₄, hrun, hnext, hlearned⟩ := w₃.merge htotal (hle.2.2.2 hresponse)
  have hanswer : answer setup (.mergeSyncResponse session.replica response) w₃.stores = (.ok (), w₄.stores) := hrun
  refine ⟨w₄, (), hnext, congrArg Prod.snd hanswer.symm, congrArg Prod.fst hanswer, fun later hlater => ⟨?_, ?_⟩⟩
  · exact List.length_append
  · exact hlearned.trans (hlater.1.knowledge session.replica)

theorem secure_refreshAfterMerge :
    session.refreshAfterMerge.Secure (answer setup) (fun stores w => w.stores = stores)
      (fun later trace' status => trace'.length = trace.length + 1 ∧ ∃ w₅ : World setup, w ≤ w₅ ∧ w₅ ≤ later ∧
        status = statusFromRecord (setup.record (w₅.account.network.replicas session.replica)
          (outstanding (w₅.stores.outcomes session.replica))))
      T w trace := by
  refine Program.Secure.ask_lift fun w₅ stores hle hholds => ?_
  subst hholds
  have hanswer : answer setup (.refreshAfterMerge session.replica) w₅.stores = (.ok _, w₅.stores) :=
    w₅.readStatus_eq session.replica
  refine ⟨w₅, _, le_refl _, congrArg Prod.snd hanswer.symm, congrArg Prod.fst hanswer, fun later hlater => ⟨?_, ?_⟩⟩
  · exact List.length_append
  · exact ⟨w₅, hle, hlater, rfl⟩

/-- What a session that has returned leaves behind, from where it started. -/
def Drained (w w' : World setup) (i : ι) : Prop :=
  (w'.account.network.replicas i).outbox = [] ∧
    w.account.network.server.headSequence ≤ (w'.account.network.replicas i).confirmedSequence

theorem secure_syncRound (htotal : setup.Total) (hfits : session.Fits setup.settings.limits)
    (hroom : (2 * w.account.network.enqueued.length : Int) ≤ maxSafeInteger) :
    (session.syncRound setup.streamId).Secure (answer setup) (fun stores w => w.stores = stores)
      (fun later trace' finished => trace'.length = trace.length + 4 ∧
        if finished = true then w.Drained later session.replica
        else later.stores.learnable (later.account.network.replicas session.replica) <
          w.stores.learnable (w.account.network.replicas session.replica))
      T w trace := by
  refine (secure_prepareSyncRequest hfits).bind fun later₁ trace₁ request hle₁ hrequest => ?_
  obtain ⟨hlength₁, hsent, w₁, hbefore, hprepared, rfl⟩ := hrequest
  have hvalid := w₁.account.consistent.validRequest w₁.account.follows.reachable session.replica hfits
  rw [← hle₁.2.1] at hroom
  refine (secure_synchronize htotal hroom hsent hvalid _ _).bind fun later₂ trace₂ envelope hle₂ henvelope => ?_
  obtain ⟨hlength₂, hversion, hstream, hresponse, w₂, w₃, hasked, hserved, hanswered, hsynchronized⟩ := henvelope
  have hassert : (assertResponseEnvelope setup.streamId envelope : Except (SessionError ε) Unit) = .ok () := by
    rw [assertResponseEnvelope, hversion, hstream]
    simp [throwIf]
  rw [hassert, Program.lift_ok_bind]
  refine (secure_mergeSyncResponse htotal hresponse).bind fun later₃ trace₃ _ hle₃ hmerged => ?_
  obtain ⟨hlength₃, hlearned⟩ := hmerged
  refine secure_refreshAfterMerge.bind fun later₄ trace₄ status hle₄ hstatus => ?_
  obtain ⟨hlength₄, w₅, hread, hlast, rfl⟩ := hstatus
  intro later hlater
  refine ⟨by omega, ?_⟩
  have hprogress := round_progress hfits (hprepared.trans hasked) hserved hsynchronized (hanswered.trans hle₃)
    hlearned hread (outstanding (w₅.stores.outcomes session.replica))
  have hlearnable := learnable_le (hlast.trans hlater) session.replica
  have hhead := head_le hbefore
  have hcursor := cursor_le (hlast.trans hlater) session.replica
  split
  case isTrue hends =>
    rw [if_pos hends] at hprogress
    refine ⟨outbox_nil (hlast.trans hlater) hprogress.1, ?_⟩
    have hlast := hprogress.2
    rw [InMemoryLogServer.headSequence] at hlast ⊢
    omega
  case isFalse hgoesOn =>
    rw [if_neg hgoesOn] at hprogress
    have hstart := learnable_le hbefore session.replica
    omega

/-- The run lemma of the loop: rounds for everything that there is to learn, and one more, are enough. -/
theorem secure_syncRounds (htotal : setup.Total) (hfits : session.Fits setup.settings.limits)
    (hroom : (2 * w.account.network.enqueued.length : Int) ≤ maxSafeInteger) (maximumSyncRounds : Int) {rounds : Nat}
    (hrounds : w.stores.learnable (w.account.network.replicas session.replica) < rounds) :
    (session.syncRounds setup.streamId maximumSyncRounds rounds).Secure (answer setup)
      (fun stores w => w.stores = stores)
      (fun later trace' _ => (trace'.length : Int) ≤
          trace.length + 4 * (w.stores.learnable (w.account.network.replicas session.replica) + 1) ∧
        w.Drained later session.replica)
      T w trace := by
  induction rounds generalizing w trace with
  | zero =>
      have hnonneg := w.learnable_nonneg session.replica
      omega
  | succ rounds ih =>
      refine (secure_syncRound htotal hfits hroom).bind fun w' trace' finished hle hround => ?_
      obtain ⟨hlength, hround⟩ := hround
      have hnonneg := w.learnable_nonneg session.replica
      cases finished with
      | true =>
          rw [if_pos rfl] at hround
          refine fun later hlater => ⟨by omega, outbox_nil hlater hround.1, hround.2.trans ?_⟩
          exact cursor_le hlater session.replica
      | false =>
          rw [if_neg Bool.false_ne_true] at hround
          rw [← hle.2.1] at hroom
          refine (ih hroom (by omega)).imp ?_ fun _ _ _ => id
          intro later trace'' _ hlast
          obtain ⟨hcalls, houtbox, hcursor⟩ := hlast
          have hhead := head_le hle
          refine ⟨by omega, houtbox, le_trans ?_ hcursor⟩
          rw [InMemoryLogServer.headSequence, InMemoryLogServer.headSequence]
          omega

end Session

end StoreNetwork.World

omit [DecidableEq ι] in
theorem SyncSession.stopsWithin_runSyncSession (streamId : String) (session : SyncSession ι) :
    (session.runSyncSession streamId : SessionProgram ι Intent Operation Rejection ε Unit).StopsWithin
      (4 * (session.maximumSyncRounds.getD 100).toNat) := by
  have hround : (session.syncRound streamId : SessionProgram ι Intent Operation Rejection ε Bool).StopsWithin 4 := by
    have hcall : ∀ {c : SessionCall ι Intent Operation Rejection} {α : Type}
        (f : (SessionInterface ι Intent Operation Rejection ε).Answer c → Except (SessionError ε) α),
        (Program.ask (I := SessionInterface ι Intent Operation Rejection ε) c >>= fun answer =>
          Program.lift (f answer)).StopsWithin 1 := fun f =>
      Program.StopsWithin.bind (n := 0) (.ask _) fun _ => .lift _
    refine Program.StopsWithin.bind (m := 1) (n := 3) (hcall _) fun request => ?_
    refine Program.StopsWithin.bind (m := 1) (n := 2) (hcall _) fun envelope => ?_
    refine Program.StopsWithin.bind (m := 0) (n := 2) (.lift _) fun _ => ?_
    refine Program.StopsWithin.bind (m := 1) (n := 1) (hcall _) fun _ => ?_
    exact Program.StopsWithin.bind (m := 1) (n := 0) (hcall _) fun status => .pure _
  rw [runSyncSession]
  generalize session.maximumSyncRounds.getD 100 = maximumSyncRounds
  generalize maximumSyncRounds.toNat = rounds
  induction rounds with
  | zero => exact .throw _
  | succ rounds ih =>
      rw [syncRounds, Nat.mul_succ, Nat.add_comm]
      refine hround.bind fun finished => ?_
      cases finished with
      | true => exact .pure _
      | false => exact ih

/-! ### Pools of sessions -/

/-- A session may start with options that are accepted and with rounds for what its replica can learn. -/
def StoreSetup.AdmitsSession (setup : StoreSetup ι State Intent Operation Rejection ε)
    (stores : StoreNetwork ι State Intent Operation Rejection) (session : SyncSession ι) : Prop :=
  session.Fits setup.settings.limits ∧ ∃ record, stores.stored session.replica = some record ∧
    stores.learnable record.replica < session.maximumSyncRounds.getD 100

section Pools

variable {before : StoreNetwork ι State Intent Operation Rejection}
  {pool : SessionPool ι State Intent Operation Rejection ε}

namespace StoreNetwork

open World

/-- What a session has done when it returns, where the sessions began at `w₀`. -/
def World.Returned (w₀ : World setup) (session : SyncSession ι) (later : World setup)
    (trace : List (Event (SessionInterface ι Intent Operation Rejection ε))) (_ : Unit) : Prop :=
  (trace.length : Int) ≤ 4 * (w₀.stores.learnable (w₀.account.network.replicas session.replica) + 1) ∧
    w₀.Drained later session.replica

theorem exists_world_of_pool (htotal : setup.Total) (w₀ : World setup)
    (hroom : (2 * w₀.stores.enqueued.length : Int) ≤ maxSafeInteger)
    (hpool : (setup.sessionSystem w₀.stores setup.AdmitsSession).Reachable pool) :
    ∃ w, w₀ ≤ w ∧ w.stores = pool.store ∧ ∀ thread ∈ pool.threads, (∀ error, thread.program ≠ .throw error) ∧
      (thread.program = .pure () → w₀.Returned thread.input w thread.trace ()) := by
  have hbody : ∀ (session : SyncSession ι) stores (w : World setup), setup.AdmitsSession stores session →
      (w.stores = stores ∧ w₀ ≤ w) → (session.runSyncSession setup.streamId).Secure (answer setup)
        (fun stores w => w.stores = stores ∧ w₀ ≤ w) (w₀.Returned session) (fun _ _ _ => False) w [] := by
    intro session stores w hadmits hholds
    obtain ⟨rfl, hle⟩ := hholds
    obtain ⟨hfits, record, hstored, hrounds⟩ := hadmits
    have hrecord : record.replica = w.account.network.replicas session.replica :=
      congrArg IndexedDbReplicaRecord.replica (Option.some.inj (hstored.symm.trans (w.account.follows.stored _)))
    rw [hrecord] at hrounds
    rw [w₀.account.follows.enqueued, ← hle.2.1] at hroom
    have hnonneg := w.learnable_nonneg session.replica
    have hsecure : (session.runSyncSession setup.streamId).Secure (answer setup) (fun stores w => w.stores = stores) _
        (fun _ _ _ => False) w [] := secure_syncRounds htotal hfits hroom _ (by omega)
    refine (hsecure.above w₀).imp (fun later trace _ hreturned => ?_) fun _ _ _ => id
    obtain ⟨hcalls, houtbox, hcursor⟩ := hreturned
    have hlearnable := learnable_le hle session.replica
    have hhead := head_le hle
    rw [List.length_nil] at hcalls
    refine ⟨by omega, houtbox, le_trans ?_ hcursor⟩
    rw [InMemoryLogServer.headSequence, InMemoryLogServer.headSequence]
    omega
  have hstart : ∀ stores, stores = w₀.stores → ∃ w : World setup, w.stores = stores ∧ w₀ ≤ w :=
    fun stores hstores => ⟨w₀, hstores.symm, le_refl w₀⟩
  obtain ⟨w, ⟨hstores, hle⟩, hthreads⟩ := Program.secure_of_reachable hstart hbody hpool
  refine ⟨w, hle, hstores, fun thread hthread => ⟨fun error hprogram => ?_, fun hprogram => ?_⟩⟩
  all_goals have hsecure := hthreads thread hthread
  all_goals rw [hprogram] at hsecure
  · exact hsecure.throws_of_throw
  · exact hsecure.returns_of_pure

end StoreNetwork

open StoreNetwork in
theorem StoreNetwork.returns_of_path (htotal : setup.Total) (w₀ : World setup)
    (hroom : (2 * w₀.stores.enqueued.length : Int) ≤ maxSafeInteger)
    (hpool : (setup.sessionSystem w₀.stores setup.AdmitsSession).Reachable pool)
    {pool' : SessionPool ι State Intent Operation Rejection ε} {actions : List (PoolAction (SyncSession ι))}
    (hpath : (setup.sessionSystem w₀.stores setup.AdmitsSession).Path pool actions pool') {index n : Nat}
    {thread : Thread (SessionInterface ι Intent Operation Rejection ε) (SessionError ε) Unit (SyncSession ι)}
    (hget : pool.threads[index]? = some thread) (hstops : thread.program.StopsWithin n)
    (hturns : n ≤ actions.countP (PoolAction.isTurnOf index)) :
    ∃ thread', pool'.threads[index]? = some thread' ∧ thread'.input = thread.input ∧
      thread'.program = .pure () := by
  obtain ⟨thread', hget', hinput, hstopped⟩ := Pool.stopsWithin_of_path hpath hget hstops
  obtain ⟨w, -, -, hthreads⟩ := exists_world_of_pool htotal w₀ hroom (hpool.path hpath)
  have hnever := (hthreads thread' (List.mem_of_getElem? hget')).1
  refine ⟨thread', hget', hinput, ?_⟩
  rw [Nat.sub_eq_zero_of_le hturns] at hstopped
  generalize thread'.program = program at hstopped hnever
  cases hstopped with
  | pure a => rfl
  | throw error => exact absurd rfl (hnever error)

theorem StoreNetwork.World.admits_mono {w w' : World setup} (h : w ≤ w') {session : SyncSession ι}
    (hadmits : setup.AdmitsSession w.stores session) : setup.AdmitsSession w'.stores session := by
  obtain ⟨hfits, record, hstored, hrounds⟩ := hadmits
  have hrecord : record.replica = w.account.network.replicas session.replica :=
    congrArg IndexedDbReplicaRecord.replica (Option.some.inj (hstored.symm.trans (w.account.follows.stored _)))
  rw [hrecord] at hrounds
  exact ⟨hfits, _, w'.account.follows.stored _, (learnable_le h session.replica).trans_lt hrounds⟩

open StoreNetwork in
theorem StoreNetwork.World.exists_returned (htotal : setup.Total) (w₀ : World setup)
    (hroom : (2 * w₀.stores.enqueued.length : Int) ≤ maxSafeInteger) {sessions : List (SyncSession ι)}
    (hadmits : ∀ session ∈ sessions, setup.AdmitsSession w₀.stores session) :
    ∃ pool : SessionPool ι State Intent Operation Rejection ε,
      (setup.sessionSystem w₀.stores setup.AdmitsSession).Reachable pool ∧ ∀ session ∈ sessions,
        ∃ thread ∈ pool.threads, thread.input = session ∧ thread.program = .pure () := by
  induction sessions with
  | nil => exact ⟨⟨w₀.stores, []⟩, .of_start ⟨rfl, rfl⟩, by simp⟩
  | cons session sessions ih =>
      rw [List.forall_mem_cons] at hadmits
      obtain ⟨pool, hpool, hreturned⟩ := ih hadmits.2
      obtain ⟨w, hle, hstores, -⟩ := exists_world_of_pool htotal w₀ hroom hpool
      have hnow : setup.AdmitsSession pool.store session := hstores ▸ World.admits_mono hle hadmits.1
      have hstarted := Pool.reachable_start hpool hnow
      obtain ⟨turns, hturns⟩ : ∃ turns, turns = 4 * (session.maximumSyncRounds.getD 100).toNat := ⟨_, rfl⟩
      have hpath : (setup.sessionSystem w₀.stores setup.AdmitsSession).Path
          (pool.next (answer setup) (SyncSession.runSyncSession setup.streamId) (.start session)) _ _ :=
        Pool.path_run _ (List.replicate turns pool.threads.length)
      refine ⟨_, hstarted.path hpath, List.forall_mem_cons.mpr ⟨?_, fun other hother => ?_⟩⟩
      · have hget := List.getElem?_concat_length (l := pool.threads)
          (a := ⟨session, [], session.runSyncSession setup.streamId⟩)
        have hcount : turns ≤ ((List.replicate turns pool.threads.length).map PoolAction.step).countP
            (PoolAction.isTurnOf (ρ := SyncSession ι) pool.threads.length) := by
          rw [List.map_replicate, List.countP_replicate, PoolAction.isTurnOf, if_pos (decide_eq_true rfl)]
        obtain ⟨thread, hthread, hinput, hprogram⟩ := returns_of_path htotal w₀ hroom hstarted hpath hget
          (hturns ▸ session.stopsWithin_runSyncSession setup.streamId) hcount
        exact ⟨thread, List.mem_of_getElem? hthread, hinput, hprogram⟩
      · obtain ⟨thread, hthread, hinput, hprogram⟩ := hreturned other hother
        obtain ⟨index, hindex⟩ := List.mem_iff_getElem?.mp (List.mem_append_left _ hthread)
        have hstops : thread.program.StopsWithin 0 := by
          rw [hprogram]
          exact .pure ()
        obtain ⟨last, hlast, hsame, hdone⟩ :=
          returns_of_path htotal w₀ hroom hstarted hpath hindex hstops (Nat.zero_le _)
        exact ⟨last, List.mem_of_getElem? hlast, hsame.trans hinput, hdone⟩

theorem exists_returned (htotal : setup.Total) (hreachable : setup.storeSystem.Reachable before)
    (hroom : (2 * before.enqueued.length : Int) ≤ maxSafeInteger) {sessions : List (SyncSession ι)}
    (hadmits : ∀ session ∈ sessions, setup.AdmitsSession before session) :
    ∃ pool : SessionPool ι State Intent Operation Rejection ε,
      (setup.sessionSystem before setup.AdmitsSession).Reachable pool ∧ setup.storeSystem.Reachable pool.store ∧
      pool.store.enqueued = before.enqueued ∧ (∀ session ∈ sessions, setup.AdmitsSession pool.store session) ∧
      ∀ session ∈ sessions, ∃ thread ∈ pool.threads, thread.input = session ∧ thread.program = .pure () := by
  obtain ⟨account⟩ := StoreNetwork.exists_account hreachable
  let w₀ : StoreNetwork.World setup := ⟨before, account, hreachable⟩
  obtain ⟨pool, hpool, hreturned⟩ := w₀.exists_returned htotal hroom hadmits
  obtain ⟨w, hle, hstores, -⟩ := StoreNetwork.exists_world_of_pool htotal w₀ hroom hpool
  have henqueued : w.stores.enqueued = before.enqueued :=
    w.account.follows.enqueued.trans (hle.2.1.trans account.follows.enqueued.symm)
  refine ⟨pool, hpool, ?_⟩
  rw [← hstores]
  exact ⟨w.reachable, henqueued,
    fun session hsession => StoreNetwork.World.admits_mono hle (hadmits session hsession), hreturned⟩

/-- Once every replica has an empty outbox, everything that was enqueued is decided. -/
theorem StoreNetwork.World.undecided_eq_nil (w : World setup)
    (hdrained : ∀ i, (w.account.network.replicas i).outbox = []) : w.stores.undecided = [] := by
  rw [undecided, List.filter_eq_nil_iff]
  intro entry hentry
  obtain ⟨i, proposal⟩ := entry
  rw [w.account.follows.enqueued] at hentry
  have hnone := hdrained i
  rw [(w.account.consistent.participants i).reflects.outbox, outboxOf, List.filterMap_eq_nil_iff] at hnone
  have hsettled : Settled w.account.authority.ledger (w.account.knowledge i) proposal := by
    by_contra hpending
    have hkept := hnone proposal (Network.mem_proposalsOf.mpr hentry)
    rw [settle_of_not_settled hpending] at hkept
    simp at hkept
  obtain ⟨record, hrecord, -⟩ := hsettled
  rw [w.account.follows.server, w.account.consistent.getDecision_eq, hrecord]
  simp

theorem StoreNetwork.World.confirmedState_eq (w : World setup) (hlawful : setup.Lawful) {i : ι}
    (hlast : (w.account.network.replicas i).confirmedSequence = w.account.network.server.headSequence) :
    (w.account.network.replicas i).confirmedState = w.account.network.server.state := by
  have hreplica := (w.account.consistent.participants i).reflects.confirmedState
  have hserver := w.account.authority.justified.foldlM_apply
  have hcursor := (w.account.consistent.cursor_le i).1
  have hthrough : (w.account.knowledge i).through = (canonicalLog w.account.authority.ledger).length := by
    rw [InMemoryLogServer.headSequence, w.account.consistent.log_eq] at hlast
    omega
  rw [hthrough, List.take_length, applyEntries, hlawful.applyCommitted] at hreplica
  rw [w.account.consistent.server.represents.state]
  exact Except.ok.inj (hreplica.symm.trans hserver)

open StoreNetwork in
/-- Sessions of any replicas start at any time and take turns in any order. The stores stay reachable, no session
fails, and one that has had enough turns has returned. A session that has returned made four calls for each thing
there was to learn, and four more, and left an empty outbox and the cursor at least where the head was at first. -/
theorem interleaved_sessions_return (setup : StoreSetup ι State Intent Operation Rejection ε) (htotal : setup.Total)
    {before : StoreNetwork ι State Intent Operation Rejection} (hreachable : setup.storeSystem.Reachable before)
    (hroom : (2 * before.enqueued.length : Int) ≤ maxSafeInteger)
    {pool : SessionPool ι State Intent Operation Rejection ε}
    (hpool : (setup.sessionSystem before setup.AdmitsSession).Reachable pool) :
    setup.storeSystem.Reachable pool.store ∧
    (∀ thread ∈ pool.threads, (∀ error, thread.program ≠ .throw error) ∧ (thread.program = .pure () →
      ∃ first last, before.stored thread.input.replica = some first ∧
        pool.store.stored thread.input.replica = some last ∧ last.replica.outbox = [] ∧
        before.server.headSequence ≤ last.replica.confirmedSequence ∧
        (thread.trace.length : Int) ≤ 4 * (before.learnable first.replica + 1))) ∧
    ∀ actions pool', (setup.sessionSystem before setup.AdmitsSession).Path pool actions pool' →
      ∀ index thread, pool.threads[index]? = some thread →
        4 * (thread.input.maximumSyncRounds.getD 100).toNat ≤ actions.countP (PoolAction.isTurnOf index) →
          ∃ thread', pool'.threads[index]? = some thread' ∧ thread'.input = thread.input ∧
            thread'.program = .pure () := by
  obtain ⟨account⟩ := exists_account hreachable
  obtain ⟨w, -, hstores, hthreads⟩ := exists_world_of_pool htotal ⟨before, account, hreachable⟩ hroom hpool
  refine ⟨hstores ▸ w.reachable, fun thread hthread => ⟨(hthreads thread hthread).1, fun hprogram => ?_⟩, ?_⟩
  · obtain ⟨hcalls, houtbox, hcursor⟩ := (hthreads thread hthread).2 hprogram
    have hlast := (congrArg (fun stores => stores.stored thread.input.replica) hstores.symm).trans
      (w.account.follows.stored thread.input.replica)
    refine ⟨_, _, account.follows.stored _, hlast, houtbox, ?_, hcalls⟩
    rw [account.follows.server]
    exact hcursor
  · intro actions pool' hpath index thread hget hturns
    have hstops := Pool.stopsWithin_of_reachable (fun session => session.stopsWithin_runSyncSession setup.streamId)
      hpool thread (List.mem_of_getElem? hget)
    exact returns_of_path htotal ⟨before, account, hreachable⟩ hroom hpool hpath hget hstops hturns

open StoreNetwork in
/-- Two times sessions of all replicas run, interleaved in any way, and nobody enqueues. After the first time, when
each replica has had a session that returned, every operation is decided. A session that returns in the second time
leaves its replica with the whole log and the state of the server. -/
theorem interleaved_sessions_converge (setup : StoreSetup ι State Intent Operation Rejection ε)
    (htotal : setup.Total) (hlawful : setup.Lawful) {before : StoreNetwork ι State Intent Operation Rejection}
    (hreachable : setup.storeSystem.Reachable before) (hroom : (2 * before.enqueued.length : Int) ≤ maxSafeInteger)
    {first : SessionPool ι State Intent Operation Rejection ε}
    (hfirst : (setup.sessionSystem before setup.AdmitsSession).Reachable first)
    (hall : ∀ i, ∃ thread ∈ first.threads, thread.input.replica = i ∧ thread.program = .pure ())
    {second : SessionPool ι State Intent Operation Rejection ε}
    (hsecond : (setup.sessionSystem first.store setup.AdmitsSession).Reachable second) :
    first.store.undecided = [] ∧ second.store.server.headSequence = first.store.server.headSequence ∧
    ∀ thread ∈ second.threads, thread.program = .pure () → ∃ record,
      second.store.stored thread.input.replica = some record ∧ record.replica.outbox = [] ∧
      record.replica.confirmedSequence = second.store.server.headSequence ∧
      record.replica.confirmedState = second.store.server.state := by
  obtain ⟨account⟩ := exists_account hreachable
  obtain ⟨w₁, hle₁, hstores₁, hthreads₁⟩ :=
    exists_world_of_pool htotal ⟨before, account, hreachable⟩ hroom hfirst
  have hundecided : w₁.stores.undecided = [] := by
    refine w₁.undecided_eq_nil fun i => ?_
    obtain ⟨thread, hthread, rfl, hprogram⟩ := hall i
    exact ((hthreads₁ thread hthread).2 hprogram).2.1
  have henqueued : w₁.stores.enqueued = before.enqueued :=
    w₁.account.follows.enqueued.trans (hle₁.2.1.trans account.follows.enqueued.symm)
  rw [← hstores₁] at hsecond ⊢
  obtain ⟨w₂, hle₂, hstores₂, hthreads₂⟩ := exists_world_of_pool htotal w₁ (henqueued ▸ hroom) hsecond
  have hceiling := World.ceiling_le hle₂
  have hhead := World.head_le hle₂
  rw [hundecided, List.length_nil] at hceiling
  rw [← hstores₂]
  refine ⟨hundecided, ?_, fun thread hthread hprogram => ?_⟩
  · rw [w₁.account.follows.server, w₂.account.follows.server, InMemoryLogServer.headSequence,
      InMemoryLogServer.headSequence]
    omega
  · obtain ⟨-, houtbox, hreaches⟩ := (hthreads₂ thread hthread).2 hprogram
    have hcursor := w₂.account.consistent.cursor_le thread.input.replica
    have hlast : (w₂.account.network.replicas thread.input.replica).confirmedSequence =
        w₂.account.network.server.headSequence := by
      rw [InMemoryLogServer.headSequence] at hreaches ⊢
      omega
    refine ⟨_, w₂.account.follows.stored _, houtbox, ?_, ?_⟩
    all_goals rw [w₂.account.follows.server]
    · exact hlast
    · exact w₂.confirmedState_eq hlawful hlast

end Pools

/-! ### Three sessions of a counter -/

def enteredSessions : List (SyncSession Bool) :=
  [true, true, false].map fun replica => { replica := replica, maximumSyncRounds := some 3 }

theorem enteredSessions_admitted :
    ∀ session ∈ enteredSessions, counterStoreSetup.AdmitsSession enteredStores session := by
  have hadmits : ∀ replica : Bool, counterStoreSetup.AdmitsSession enteredStores ⟨replica, none, none, some 3⟩ := by
    intro replica
    refine ⟨{ proposals := ?_, proposalsSafe := ?_, limit := ?_, entries := ?_, entriesSafe := ?_ }, ?_⟩
    case refine_6 =>
      cases replica with
      | true => exact ⟨(enteredStores.stored true).get rfl, (Option.some_get rfl).symm, by decide⟩
      | false => exact ⟨(enteredStores.stored false).get rfl, (Option.some_get rfl).symm, by decide⟩
    all_goals revert replica
    all_goals decide
  intro session hsession
  obtain ⟨replica, -, rfl⟩ := List.mem_map.mp hsession
  exact hadmits replica

def enteredPool : SessionPool Bool Int Int Int String Empty :=
  enteredSessions.foldl (fun pool session => pool.next (StoreNetwork.answer counterStoreSetup)
    (SyncSession.runSyncSession counterStoreSetup.streamId) (.start session)) ⟨enteredStores, []⟩

theorem enteredPool_reachable :
    (counterStoreSetup.sessionSystem enteredStores counterStoreSetup.AdmitsSession).Reachable enteredPool :=
  Pool.reachable_starts (.of_start ⟨rfl, rfl⟩) enteredSessions_admitted

def enteredLast : SessionPool Bool Int Int Int String Empty :=
  enteredPool.run (StoreNetwork.answer counterStoreSetup) (SyncSession.runSyncSession counterStoreSetup.streamId)
    ((List.replicate 12 [0, 1, 2]).flatten.map .step)

theorem interleaved_sessions_return_entered :
    (∃ thread, enteredLast.threads[0]? = some thread ∧ thread.program = .pure ()) ∧
      (∃ thread, enteredLast.threads[1]? = some thread ∧ thread.program = .pure ()) ∧
      ∃ thread, enteredLast.threads[2]? = some thread ∧ thread.program = .pure () := by
  obtain ⟨-, -, hreturn⟩ := interleaved_sessions_return counterStoreSetup counterStoreSetup_total
    enteredStores_reachable (by decide) enteredPool_reachable
  have hturns : ∀ index < 3, 4 * 3 ≤ ((List.replicate 12 [0, 1, 2]).flatten.map PoolAction.step).countP
      (PoolAction.isTurnOf (ρ := SyncSession Bool) index) := by decide
  have hthread : ∀ index < 3, ∀ replica, enteredPool.threads[index]? = some ⟨⟨replica, none, none, some 3⟩, [],
      SyncSession.runSyncSession counterStoreSetup.streamId ⟨replica, none, none, some 3⟩⟩ →
        ∃ thread, enteredLast.threads[index]? = some thread ∧ thread.program = .pure () := by
    intro index hindex replica hstarted
    obtain ⟨thread, hlast, -, hprogram⟩ :=
      hreturn _ _ (Pool.path_run enteredPool _) index _ hstarted (hturns index hindex)
    exact ⟨thread, hlast, hprogram⟩
  exact ⟨hthread 0 (by decide) true rfl, hthread 1 (by decide) true rfl, hthread 2 (by decide) false rfl⟩

theorem interleaved_sessions_converge_entered :
    ∃ pool : SessionPool Bool Int Int Int String Empty, counterStoreSetup.storeSystem.Reachable pool.store ∧
      ∀ i, ∃ record, pool.store.stored i = some record ∧ record.replica.outbox = [] ∧
        record.replica.confirmedState = pool.store.server.state := by
  have hroom : (2 * enteredStores.enqueued.length : Int) ≤ maxSafeInteger := by decide
  have hall : ∀ i : Bool, ∃ session ∈ enteredSessions, session.replica = i := by decide
  obtain ⟨first, hfirst, hreachable, henqueued, hadmits, hreturned⟩ :=
    exists_returned counterStoreSetup_total enteredStores_reachable hroom enteredSessions_admitted
  obtain ⟨second, hsecond, hreachable', -, -, hreturned'⟩ :=
    exists_returned counterStoreSetup_total hreachable (henqueued ▸ hroom) hadmits
  have hthreads : ∀ i, ∃ thread ∈ first.threads, thread.input.replica = i ∧ thread.program = .pure () := by
    intro i
    obtain ⟨session, hsession, rfl⟩ := hall i
    obtain ⟨thread, hthread, rfl, hprogram⟩ := hreturned session hsession
    exact ⟨thread, hthread, rfl, hprogram⟩
  obtain ⟨-, -, hconverge⟩ := interleaved_sessions_converge counterStoreSetup counterStoreSetup_total
    counterSetup_lawful enteredStores_reachable hroom hfirst hthreads hsecond
  refine ⟨second, hreachable', fun i => ?_⟩
  obtain ⟨session, hsession, rfl⟩ := hall i
  obtain ⟨thread, hthread, rfl, hprogram⟩ := hreturned' session hsession
  obtain ⟨record, hstored, houtbox, -, hstate⟩ := hconverge thread hthread hprogram
  exact ⟨record, hstored, houtbox, hstate⟩

end SyncEngine
