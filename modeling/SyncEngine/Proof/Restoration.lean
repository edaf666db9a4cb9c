import SyncEngine.Proof.Batch

/-!
# What the constructor accepts

The checks of the snapshot branch compare the log and the decisions in everything but the payload: an
accepted decision and its entry hold the operation twice, and the two copies are never compared. A
snapshot whose copies agree restores to a server that answers from its log for ever; one whose copies
differ is accepted all the same.
-/

namespace SyncEngine

open JavaScript Throwing

variable {State Intent Operation Rejection ε : Type}

/-- Contiguous from the first sequence, each operation and each client position once; accepted decisions
and entries determine each other; no decision repeats an operation or a client position. -/
structure LogServerSnapshot.Sound (snapshot : LogServerSnapshot State Operation Rejection) : Prop where
  sequences : ∀ (i : Nat) (entry : CommittedOperation Operation), snapshot.log[i]? = some entry →
    entry.sequence = i + 1
  operationIds : (snapshot.log.map CommittedOperation.operationId).Nodup
  clientPositions : (snapshot.log.map fun entry => entry.origin.position).Nodup
  accepted : Set.BijOn (fun i : Fin snapshot.log.length => snapshot.log[i].decisionRecord) Set.univ
    {record | record ∈ snapshot.decisions ∧ record.IsAccepted}
  decisionIds : (snapshot.decisions.map fun record => record.identity.operationId).Nodup
  decisionPositions : (snapshot.decisions.map fun record => record.identity.position).Nodup

def LogServerSnapshot.PayloadsAgree (snapshot : LogServerSnapshot State Operation Rejection) : Prop :=
  ∀ record ∈ snapshot.decisions, ∀ operationId sequence operation,
    record.decision = .accepted operationId sequence operation →
      ∀ entry ∈ snapshot.log, entry.sequence = sequence → entry.operation = operation

theorem LogServerSnapshot.Sound.payloadsAgree {snapshot : LogServerSnapshot State Operation Rejection}
    (h : snapshot.Sound) : snapshot.PayloadsAgree := by
  intro record hrecord operationId sequence operation hdecision entry hentry hsequence
  obtain ⟨i, -, hi⟩ := h.accepted.surjOn ⟨hrecord, operationId, sequence, operation, hdecision⟩
  obtain ⟨j, hj⟩ := List.getElem?_of_mem hentry
  have haccepted := congrArg StoredProposalDecision.decision hi
  rw [hdecision] at haccepted
  obtain ⟨-, hplace, hpayload⟩ := ProposalDecision.accepted.inj haccepted
  have hi' := h.sequences i _ (List.getElem?_eq_getElem i.isLt)
  have hj' := h.sequences j entry hj
  change snapshot.log[i].sequence = i + 1 at hi'
  obtain rfl : (i : Nat) = j := by omega
  obtain rfl := Option.some.inj ((List.getElem?_eq_getElem i.isLt).symm.trans hj)
  exact hpayload

/-! ### The checks of the constructor -/

theorem assertIdentityMatchesEntry_eq_ok (identity : OperationSubmissionIdentity)
    (entry : CommittedOperation Operation) (u : Unit) :
    (assertIdentityMatchesEntry identity entry : Result ε Unit) = .ok u ↔ identity = entry.submission := by
  obtain ⟨⟨operationId, clientId, clientSequence⟩, intentHash⟩ := identity
  simp only [assertIdentityMatchesEntry, throwIf_eq_ok, CommittedOperation.submission, not_or, ne_eq, not_not,
    OperationSubmissionIdentity.mk.injEq, OperationIdentity.mk.injEq, and_assoc]

namespace InMemoryLogServer

variable {settings : LogServerSettings State Intent Operation Rejection ε} {initialState : State}
  {server next : InMemoryLogServer State Operation Rejection}
  {snapshot : LogServerSnapshot State Operation Rejection}

theorem validateRestoredEntry_eq_ok_iff (entry : CommittedOperation Operation) (u : Unit) :
    (server.validateRestoredEntry entry : Result ε Unit) = .ok u ↔
      ∃ operationId operation, server.decisionsByOperationId.get? entry.operationId =
        some ⟨entry.submission, .accepted operationId entry.sequence operation⟩ := by
  rw [validateRestoredEntry]
  cases hget : server.decisionsByOperationId.get? entry.operationId with
  | none => simp
  | some record =>
      obtain ⟨identity, decision⟩ := record
      cases decision with
      | rejected => simp
      | accepted operationId sequence operation =>
          simp only [bind_unit_eq_ok, throwIf_eq_ok, assertIdentityMatchesEntry_eq_ok, ne_eq, not_not,
            Option.some.injEq, StoredProposalDecision.mk.injEq, ProposalDecision.accepted.injEq]
          constructor
          · intro hparts
            obtain ⟨rfl, rfl⟩ := hparts
            exact ⟨operationId, operation, rfl, rfl, rfl, rfl⟩
          · intro hparts
            obtain ⟨_, _, rfl, -, rfl, -⟩ := hparts
            exact ⟨rfl, rfl⟩

theorem validateRestoredDecision_eq_ok_iff (record : StoredProposalDecision Operation Rejection) (u : Unit) :
    (server.validateRestoredDecision record : Result ε Unit) = .ok u ↔
      ∀ operationId sequence operation, record.decision = .accepted operationId sequence operation →
        ∃ entry, element? server.log (sequence - 1) = some entry ∧ record.identity = entry.submission := by
  rw [validateRestoredDecision]
  cases hdecision : record.decision with
  | rejected => simp
  | accepted operationId sequence operation =>
      cases helement : element? server.log (sequence - 1) with
      | none =>
          simp only [helement]
          constructor
          · simp
          · intro h
            obtain ⟨entry, hentry, -⟩ := h operationId sequence operation rfl
            rw [helement] at hentry
            simp at hentry
      | some entry =>
          simp only [helement, bind_unit_eq_ok, throwIf_eq_ok, assertIdentityMatchesEntry_eq_ok, ne_eq, not_not]
          constructor
          · intro hparts operationId' sequence' operation' haccepted
            obtain ⟨rfl, rfl, rfl⟩ := ProposalDecision.accepted.inj haccepted
            exact ⟨entry, helement, hparts.2⟩
          · intro h
            obtain ⟨entry', hentry, hidentity⟩ := h operationId sequence operation rfl
            obtain rfl := Option.some.inj (helement.symm.trans hentry)
            exact ⟨by rw [hidentity]; rfl, hidentity⟩

/-- What the constructor has made of a snapshot it accepts, and what it has checked on the way. -/
structure Restored (snapshot : LogServerSnapshot State Operation Rejection)
    (server : InMemoryLogServer State Operation Rejection) : Prop where
  log : server.log = snapshot.log
  decisions : server.decisionsByOperationId.entries = decisionRows snapshot.decisions
  positions : server.operationIdByClientPosition.entries = positionRows snapshot.decisions
  page : ValidPage 1 snapshot.log
  restorable : ∀ record ∈ snapshot.decisions, Restorable record
  distinct : snapshot.decisions.Pairwise fun earlier later =>
    earlier.identity.operationId ≠ later.identity.operationId ∧
      earlier.identity.position ≠ later.identity.position
  decided : ∀ entry ∈ snapshot.log, ∃ record ∈ snapshot.decisions, record.identity = entry.submission ∧
    ∃ operation, record.decision = .accepted entry.operationId entry.sequence operation
  committed : ∀ record ∈ snapshot.decisions, ∀ operationId sequence operation,
    record.decision = .accepted operationId sequence operation →
      ∃ entry ∈ snapshot.log, entry.sequence = sequence ∧ record.identity = entry.submission

theorem restore_restored {options : InMemoryLogServerOptions State Intent Operation Rejection ε}
    (hrestore : restore options snapshot = .ok (settings, server)) :
    Restored snapshot server ∧ settings.limits.Resolved := by
  obtain ⟨limits, hlimits, hrestore⟩ := bind_eq_ok.mp hrestore
  obtain ⟨hlog, hrestore⟩ := bind_unit_eq_ok.mp hrestore
  obtain ⟨restored, hfold, hrestore⟩ := bind_eq_ok.mp hrestore
  obtain ⟨hvalidate, hfields⟩ := bind_unit_eq_ok.mp hrestore
  obtain ⟨rfl, rfl⟩ := Prod.mk.inj (Except.ok.inj hfields)
  obtain ⟨hrestorable, -, hdistinct, -, hserverLog, hdecisions, hpositions⟩ :=
    (foldlM_restoreDecision_eq_ok (show _ = decisionRows [] from rfl) rfl).mp hfold
  obtain ⟨hentries, hrecords⟩ := bind_unit_eq_ok.mp hvalidate
  have hpage := (assertContiguousLog_eq_ok _ _).mp hlog
  have hvalues : restored.decisionsByOperationId.values = snapshot.decisions := by
    rw [InsertionMap.values, hdecisions, decisionRows, List.map_map]
    exact List.map_id' _
  refine ⟨⟨hserverLog, hdecisions, hpositions, hpage, hrestorable, hdistinct, ?_, ?_⟩,
    resolveProtocolLimits_resolved hlimits⟩
  · intro entry hentry
    have hcheck := forall_of_forM_eq_ok hentries entry (hserverLog ▸ hentry)
    obtain ⟨operationId, operation, hget⟩ := (validateRestoredEntry_eq_ok_iff entry ()).mp hcheck
    rw [get?_of_decisionRows hdecisions] at hget
    have hrecord := List.mem_of_find?_eq_some hget
    have hown : operationId = entry.operationId := (hrestorable _ hrecord).own
    exact ⟨_, hrecord, rfl, operation, by rw [hown]⟩
  · intro record hrecord operationId sequence operation hdecision
    have hcheck := forall_of_forM_eq_ok hrecords record (hvalues ▸ hrecord)
    obtain ⟨entry, helement, hidentity⟩ :=
      (validateRestoredDecision_eq_ok_iff record ()).mp hcheck operationId sequence operation hdecision
    have hsequence := ((hrestorable record hrecord).sequence _
      (StoredProposalDecision.committed?_of_accepted hdecision)).1
    change 1 ≤ sequence at hsequence
    rw [hserverLog] at helement
    have hindex : snapshot.log[(sequence - 1).toNat]? = some entry := by
      rw [← element?_natCast, Int.toNat_of_nonneg (by omega)]
      exact helement
    have := hpage.contiguous _ entry hindex
    exact ⟨entry, List.mem_of_getElem? hindex, by omega, hidentity⟩

end InMemoryLogServer

/-! ### Ledgers in any order -/

theorem nodup_of_distinct {log : List (CommittedOperation Operation)}
    (h : log.Pairwise fun earlier later =>
      earlier.operationId ≠ later.operationId ∧ earlier.origin.position ≠ later.origin.position) :
    log.Nodup :=
  h.imp fun hne he => hne.1 (congrArg CommittedOperation.operationId he)

namespace Books

variable {interpreter : LogInterpreter State Intent Operation Rejection ε}
  {books next : Books State Operation Rejection} {proposal : ProposedOperation Intent}
  {decision : ProposalDecision Operation Rejection} {proposals : List (ProposedOperation Intent)}
  {decisions : List (ProposalDecision Operation Rejection)}

/-- Every record carries its own operation identifier, and from the first `length` entries on, the
entries are numbered by their places. -/
structure NumberedFrom (length : Nat) (books : Books State Operation Rejection) : Prop where
  own : ∀ record ∈ books.ledger, record.decision.operationId = record.identity.operationId
  sequence : ∀ (i : Nat) entry, length ≤ i → books.log[i]? = some entry → entry.sequence = i + 1

theorem NumberedFrom.submitted {length : Nat} (h : books.NumberedFrom length)
    (hsubmitted : Submitted interpreter books proposal decision next) : next.NumberedFrom length := by
  cases hsubmitted with
  | replayed => exact h
  | rejected reason =>
      refine ⟨List.forall_mem_append.mpr ⟨h.own, by simp [ProposalDecision.operationId]⟩, ?_⟩
      intro i entry hi hentry
      rw [log, canonicalLog_append, canonicalLog_rejected, List.append_nil] at hentry
      exact h.sequence i entry hi hentry
  | accepted operation state =>
      refine ⟨List.forall_mem_append.mpr ⟨h.own, by simp [ProposalDecision.operationId]⟩, ?_⟩
      intro i entry hi hentry
      rw [log, canonicalLog_append, canonicalLog_accepted] at hentry
      by_cases hold : i < (canonicalLog books.ledger).length
      · rw [List.getElem?_append_left hold] at hentry
        exact h.sequence i entry hi hentry
      · rw [List.getElem?_append_right (by omega)] at hentry
        obtain hlast : i - (canonicalLog books.ledger).length = 0 := by
          have := (List.getElem?_eq_some_iff.mp hentry).1
          rw [List.length_singleton] at this
          omega
        rw [hlast] at hentry
        obtain rfl := Option.some.inj hentry
        have hi' : i = (canonicalLog books.ledger).length := by omega
        rw [hi']
        rfl

theorem NumberedFrom.submitAll {length : Nat} (h : books.NumberedFrom length)
    (hall : Books.submitAll interpreter books proposals = .ok (decisions, next)) :
    next.NumberedFrom length := by
  induction proposals generalizing books decisions with
  | nil =>
      obtain ⟨-, rfl⟩ := Prod.mk.inj (Except.ok.inj hall)
      exact h
  | cons proposal proposals ih =>
      obtain ⟨⟨decision, middle⟩, hfirst, hall⟩ := bind_eq_ok.mp hall
      obtain ⟨⟨rest, last⟩, hrest, hall⟩ := bind_eq_ok.mp hall
      obtain ⟨-, rfl⟩ := Prod.mk.inj (Except.ok.inj hall)
      exact ih (h.submitted (submit_eq_ok hfirst)) hrest

end Books

namespace InMemoryLogServer

variable {settings : LogServerSettings State Intent Operation Rejection ε}
  {server next : InMemoryLogServer State Operation Rejection} {request : SyncRequest Intent}
  {response : SyncResponse Operation Rejection} {ledger : Ledger Operation Rejection}

/-- The indexes hold the records of a ledger, and the log holds its entries in the order of their
sequences, whatever the order of the records is. -/
structure Coherent (server : InMemoryLogServer State Operation Rejection)
    (ledger : Ledger Operation Rejection) : Prop where
  decisions : server.decisionsByOperationId.entries = decisionRows ledger
  positions : server.operationIdByClientPosition.entries = positionRows ledger
  page : ValidPage 1 server.log
  distinct : ledger.Pairwise fun earlier later =>
    earlier.identity.operationId ≠ later.identity.operationId ∧
      earlier.identity.position ≠ later.identity.position
  own : ∀ record ∈ ledger, record.decision.operationId = record.identity.operationId
  log : server.log.Perm (canonicalLog ledger)

/-- A call reads of the log only how long it is. -/
theorem processProposals_congr (server' : InMemoryLogServer State Operation Rejection)
    (hlog : server.log.length = server'.log.length)
    (hdecisions : server.decisionsByOperationId = server'.decisionsByOperationId)
    (hpositions : server.operationIdByClientPosition = server'.operationIdByClientPosition)
    (proposals : List (ProposedOperation Intent))
    (staged : StagedServerTransition State Operation Rejection) :
    processProposals settings server proposals staged = processProposals settings server' proposals staged := by
  have hstep (proposal : ProposedOperation Intent) (staged : StagedServerTransition State Operation Rejection) :
      processProposal settings server proposal staged = processProposal settings server' proposal staged := by
    simp only [processProposal, decideProposal, hlog, hdecisions, hpositions]
  induction proposals generalizing staged with
  | nil => rfl
  | cons proposal proposals ih => simp only [processProposals, hstep, ih]

def inOrderOf (server : InMemoryLogServer State Operation Rejection) (ledger : Ledger Operation Rejection) :
    InMemoryLogServer State Operation Rejection :=
  { server with log := canonicalLog ledger }

/-- The step lemma: a call keeps the coherence, and every decision it returns is on record. -/
theorem Coherent.synchronize (h : server.Coherent ledger)
    (hcall : InMemoryLogServer.synchronize settings server request = .ok (response, next)) :
    ∃ ledger', next.Coherent ledger' ∧
      ∀ decision ∈ response.decisions, ∃ record ∈ ledger', record.decision = decision := by
  obtain ⟨hrequest, hcall⟩ := bind_unit_eq_ok.mp hcall
  obtain ⟨-, hcall⟩ := bind_unit_eq_ok.mp hcall
  obtain ⟨⟨decisions, staged⟩, hprocess, hcall⟩ := bind_eq_ok.mp hcall
  obtain ⟨hresponse, hcall⟩ := bind_unit_eq_ok.mp hcall
  obtain ⟨rfl, rfl⟩ := Prod.mk.inj (Except.ok.inj hcall)
  rw [assertSyncRequest_eq_ok] at hrequest
  -- the call does what it would do on a log in the order of the records
  have hordered : (server.inOrderOf ledger).Represents ⟨ledger, server.state⟩ :=
    ⟨rfl, rfl, h.decisions, h.positions⟩
  have hagree : Agree _ (processProposals settings (server.inOrderOf ledger) request.proposals
      (server.inOrderOf ledger).stage) _ :=
    processProposals_agree hordered (stage_stages hordered) h.distinct _
  rw [processProposals_congr (server.inOrderOf ledger) h.log.length_eq rfl rfl] at hprocess
  obtain ⟨⟨_, books⟩, hsubmit, hdecisions, hdistinct, new, hstaged⟩ := hagree.of_left_eq_ok hprocess
  obtain rfl : decisions = _ := hdecisions
  have hnext := publish_represents hordered hstaged hdistinct
  have hnumbered : books.NumberedFrom (canonicalLog ledger).length := by
    refine Books.NumberedFrom.submitAll ⟨h.own, fun i entry hi hentry => ?_⟩ hsubmit
    have hlt := (List.getElem?_eq_some_iff.mp hentry).1
    exact absurd hlt (Nat.not_lt.mpr hi)
  have hlog : (server.log ++ staged.entries).Perm books.log := by
    rw [hstaged.entries, Books.log, hstaged.ledger, canonicalLog_append]
    exact h.log.append_right _
  refine ⟨books.ledger, ⟨hnext.decisions, hnext.positions, ?_, hdistinct, hnumbered.own, hlog⟩, ?_⟩
  · change ValidPage 1 (server.log ++ staged.entries)
    have hcontiguous : ∀ (i : Nat) entry, (server.log ++ staged.entries)[i]? = some entry →
        entry.sequence = 1 + i := by
      intro i entry hentry
      by_cases hold : i < server.log.length
      · rw [List.getElem?_append_left hold] at hentry
        exact h.page.contiguous i entry hentry
      · have hplace : books.log[i]? = some entry := by
          rw [List.getElem?_append_right (by omega), h.log.length_eq] at hentry
          rw [Books.log, hstaged.ledger, canonicalLog_append,
            List.getElem?_append_right (by rw [← h.log.length_eq]; omega), ← hstaged.entries]
          exact hentry
        have := hnumbered.sequence i entry (by rw [← h.log.length_eq]; omega) hplace
        omega
    refine ⟨fun entry hentry => ?_, hcontiguous, ?_⟩
    · obtain ⟨i, hi⟩ := List.getElem?_of_mem hentry
      have hhead := ((assertSyncResponse_eq_ok _ _ _).mp hresponse).headSafe
      change ((server.log ++ staged.entries).length : Int) ≤ maxSafeInteger at hhead
      have hlt := (List.getElem?_eq_some_iff.mp hi).1
      rcases List.mem_append.mp hentry with hold | hstagedEntry
      · exact h.page.valid entry hold
      · rw [hstaged.entries] at hstagedEntry
        obtain ⟨record, hrecord, hcommitted⟩ := mem_canonicalLog.mp hstagedEntry
        obtain ⟨new', hledger, hsublist⟩ := Books.submitAll_extends hsubmit
        obtain rfl := List.append_cancel_left (hstaged.ledger.symm.trans hledger)
        obtain ⟨proposal, hproposal, hidentity⟩ :=
          List.mem_map.mp (hsublist.subset (List.mem_map_of_mem hrecord))
        have hvalid := hrequest.batch.valid proposal hproposal
        rw [hidentity] at hvalid
        obtain ⟨hid, horigin, -⟩ := StoredProposalDecision.committed?_eq_some hcommitted
        have hsequence := hcontiguous i entry hi
        exact {
          sequence := by omega
          sequenceSafe := by omega
          operationId := hid ▸ hvalid.operationId
          clientId := horigin ▸ hvalid.clientId
          clientSequence := horigin ▸ hvalid.clientSequence
          clientSequenceSafe := horigin ▸ hvalid.safe
          intentHash := horigin ▸ hvalid.intentHash }
    · refine (hlog.pairwise_iff ?_).mpr (canonicalLog_distinct hdistinct)
      exact fun {earlier later} hne => ⟨hne.1.symm, hne.2.symm⟩
  · intro decision hdecision
    exact (Books.submitAll_recorded hsubmit).exists_record hdecision

theorem Coherent.run (settings : LogServerSettings State Intent Operation Rejection ε)
    (h : server.Coherent ledger) (requests : List (SyncRequest Intent)) :
    ∃ ledger', (run settings server requests).Coherent ledger' := by
  induction requests generalizing server ledger with
  | nil => exact ⟨ledger, h⟩
  | cons request requests ih =>
      change ∃ ledger', (InMemoryLogServer.run settings (afterSynchronize settings server request)
        requests).Coherent ledger'
      rw [afterSynchronize]
      cases hcall : InMemoryLogServer.synchronize settings server request with
      | error => exact ih h
      | ok result =>
          obtain ⟨response, next⟩ := result
          obtain ⟨ledger', hnext, -⟩ := h.synchronize hcall
          exact ih hnext

theorem Coherent.element?_log (h : server.Coherent ledger)
    {record : StoredProposalDecision Operation Rejection} (hrecord : record ∈ ledger)
    {operationId : String} {sequence : Int} {operation : Operation}
    (hdecision : record.decision = .accepted operationId sequence operation) :
    ∃ entry, element? server.log (sequence - 1) = some entry ∧ entry.operationId = operationId ∧
      entry.sequence = sequence ∧ entry.operation = operation := by
  have hcommitted := StoredProposalDecision.committed?_of_accepted hdecision
  have hmem := h.log.mem_iff.mpr (mem_canonicalLog.mpr ⟨record, hrecord, hcommitted⟩)
  obtain ⟨i, hi⟩ := List.getElem?_of_mem hmem
  have hsequence := h.page.contiguous i _ hi
  change sequence = 1 + i at hsequence
  have hown := h.own record hrecord
  rw [hdecision] at hown
  refine ⟨⟨sequence, record.identity.operationId, ⟨record.identity.clientId, record.identity.clientSequence,
    record.identity.intentHash⟩, operation⟩, ?_, hown.symm, rfl, rfl⟩
  rw [show sequence - 1 = (i : Int) by omega, element?_natCast]
  exact hi

/-! ### The restored server -/

variable {snapshot : LogServerSnapshot State Operation Rejection}

/-- Records and entries whose payloads agree are two copies of one log. -/
theorem Restored.coherent (h : Restored snapshot server) (hpayloads : snapshot.PayloadsAgree) :
    server.Coherent snapshot.decisions := by
  have hmem : ∀ entry, entry ∈ snapshot.log ↔ entry ∈ canonicalLog snapshot.decisions := by
    intro entry
    rw [mem_canonicalLog]
    constructor
    · intro hentry
      obtain ⟨⟨identity, decision⟩, hrecord, hidentity, operation, hdecision⟩ := h.decided entry hentry
      have hpayload := hpayloads _ hrecord _ _ _ hdecision entry hentry rfl
      obtain rfl : identity = entry.submission := hidentity
      obtain rfl : decision = .accepted entry.operationId entry.sequence operation := hdecision
      refine ⟨_, hrecord, ?_⟩
      rw [← hpayload]
      rfl
    · intro hexists
      obtain ⟨record, hrecord, hcommitted⟩ := hexists
      obtain ⟨hid, horigin, operationId, hdecision⟩ := StoredProposalDecision.committed?_eq_some hcommitted
      obtain ⟨found, hfound, hsequence, hidentity⟩ := h.committed record hrecord _ _ _ hdecision
      have hpayload := hpayloads record hrecord _ _ _ hdecision found hfound hsequence
      rw [hidentity] at hid horigin
      have hsame : entry = found := by
        obtain ⟨sequence, entryId, origin, operation⟩ := entry
        obtain ⟨sequence', foundId, origin', operation'⟩ := found
        obtain rfl : sequence' = sequence := hsequence
        obtain rfl : operation' = operation := hpayload
        obtain rfl : entryId = foundId := hid
        obtain rfl : origin = origin' := horigin
        rfl
      rw [hsame]
      exact hfound
  refine ⟨h.decisions, h.positions, h.log ▸ h.page, h.distinct, fun record hrecord =>
    (h.restorable record hrecord).own, ?_⟩
  rw [h.log]
  exact (List.perm_ext_iff_of_nodup (nodup_of_distinct h.page.distinct)
    (nodup_of_distinct (canonicalLog_distinct h.distinct))).mpr hmem

theorem Restored.sound (h : Restored snapshot server) (hpayloads : snapshot.PayloadsAgree) :
    snapshot.Sound := by
  have hcoherent := h.coherent hpayloads
  have hlog : snapshot.log.Perm (canonicalLog snapshot.decisions) := h.log ▸ hcoherent.log
  have hsequences : ∀ (i : Nat) (entry : CommittedOperation Operation), snapshot.log[i]? = some entry →
      entry.sequence = i + 1 := by
    intro i entry hentry
    have := h.page.contiguous i entry hentry
    omega
  refine ⟨hsequences, List.pairwise_map.mpr (h.page.distinct.imp fun hne => hne.1),
    List.pairwise_map.mpr (h.page.distinct.imp fun hne => hne.2), ⟨?_, ?_, ?_⟩,
    List.pairwise_map.mpr (h.distinct.imp fun hne => hne.1),
    List.pairwise_map.mpr (h.distinct.imp fun hne => hne.2)⟩
  · intro i _
    have hmem := hlog.mem_iff.mp (List.getElem_mem i.isLt)
    obtain ⟨record, hrecord, hcommitted⟩ := mem_canonicalLog.mp hmem
    have hsame := (StoredProposalDecision.committed?_eq_some_iff (hcoherent.own record hrecord)).mp hcommitted
    have hown : snapshot.log[(i : Nat)].decisionRecord ∈ snapshot.decisions := hsame ▸ hrecord
    exact ⟨hown, _, _, _, rfl⟩
  · intro i _ j _ hsame
    obtain ⟨-, hsequence, -⟩ := ProposalDecision.accepted.inj (congrArg StoredProposalDecision.decision hsame)
    have hi := hsequences i _ (List.getElem?_eq_getElem i.isLt)
    have hj := hsequences j _ (List.getElem?_eq_getElem j.isLt)
    change snapshot.log[i].sequence = i + 1 at hi
    change snapshot.log[j].sequence = j + 1 at hj
    exact Fin.ext (by omega)
  · intro record hparts
    obtain ⟨hrecord, operationId, sequence, operation, hdecision⟩ := hparts
    have hcommitted := StoredProposalDecision.committed?_of_accepted hdecision
    have hmem := hlog.mem_iff.mpr (mem_canonicalLog.mpr ⟨record, hrecord, hcommitted⟩)
    obtain ⟨i, hi⟩ := List.getElem?_of_mem hmem
    obtain ⟨hlt, hget⟩ := List.getElem?_eq_some_iff.mp hi
    refine ⟨⟨i, hlt⟩, Set.mem_univ _, ?_⟩
    rw [(StoredProposalDecision.committed?_eq_some_iff (hcoherent.own record hrecord)).mp hcommitted]
    exact congrArg CommittedOperation.decisionRecord hget

/-- Whatever is asked of the server later, an accepted decision it returns is the entry of its log at the
sequence of the decision. -/
def AnswersFromLog (settings : LogServerSettings State Intent Operation Rejection ε)
    (server : InMemoryLogServer State Operation Rejection) : Prop :=
  ∀ (requests : List (SyncRequest Intent)) (request : SyncRequest Intent) response next,
    synchronize settings (run settings server requests) request = .ok (response, next) →
      ∀ operationId sequence operation, .accepted operationId sequence operation ∈ response.decisions →
        ∃ entry, element? next.log (sequence - 1) = some entry ∧ entry.operationId = operationId ∧
          entry.sequence = sequence ∧ entry.operation = operation

/-- A snapshot that the constructor accepts is sound, and the restored server answers from its log,
exactly when the payloads of the accepted decisions are those of the log. -/
theorem restore_sound_iff {options : InMemoryLogServerOptions State Intent Operation Rejection ε}
    {settings : LogServerSettings State Intent Operation Rejection ε}
    (hrestore : restore options snapshot = .ok (settings, server)) :
    (snapshot.Sound ∧ server.log = snapshot.log ∧
        server.decisionsByOperationId.values = snapshot.decisions ∧ AnswersFromLog settings server) ↔
      snapshot.PayloadsAgree := by
  obtain ⟨hrestored, -⟩ := restore_restored hrestore
  refine ⟨fun h => h.1.payloadsAgree, fun hpayloads => ⟨hrestored.sound hpayloads, hrestored.log, ?_, ?_⟩⟩
  · rw [InsertionMap.values, hrestored.decisions, decisionRows, List.map_map]
    exact List.map_id' _
  · intro requests request response next hcall operationId sequence operation hdecision
    obtain ⟨ledger, hreached⟩ := (hrestored.coherent hpayloads).run settings requests
    obtain ⟨ledger', hnext, hrecorded⟩ := hreached.synchronize hcall
    obtain ⟨record, hrecord, hsame⟩ := hrecorded _ hdecision
    exact hnext.element?_log hrecord hsame

def counterSnapshot (logged decided : Int) : LogServerSnapshot Int Int String where
  materializedState := logged
  log := [(counterProposal "op-1" "client-a" 1 2).committedAt 1 logged]
  decisions := [⟨(counterProposal "op-1" "client-a" 1 2).toOperationSubmissionIdentity,
    .accepted "op-1" 1 decided⟩]

theorem restore_sound_iff_counter :
    (counterSnapshot 2 2).Sound ∧ ∃ server,
      restore counterOptions (counterSnapshot 2 2) = .ok (counterSettings, server) ∧
      AnswersFromLog counterSettings server := by
  obtain ⟨server, hrestore⟩ : ∃ server,
      restore counterOptions (counterSnapshot 2 2) = .ok (counterSettings, server) := ⟨_, rfl⟩
  have hpayloads : (counterSnapshot 2 2).PayloadsAgree := by
    intro record hrecord operationId sequence operation hdecision entry hentry _
    obtain rfl := List.mem_singleton.mp hrecord
    obtain rfl := List.mem_singleton.mp hentry
    obtain ⟨-, -, rfl⟩ := ProposalDecision.accepted.inj hdecision
    rfl
  obtain ⟨hsound, -, -, hanswers⟩ := (restore_sound_iff hrestore).mpr hpayloads
  exact ⟨hsound, server, hrestore, hanswers⟩

/-- A tampered decision is restored, and a retry is answered with an operation the log does not have. -/
theorem restore_accepts_tampered_decision :
    ¬(counterSnapshot 2 5).Sound ∧ ∃ server response,
      restore counterOptions (counterSnapshot 2 5) = .ok (counterSettings, server) ∧
      synchronize counterSettings server
          (counterRequest 0 [counterProposal "op-1" "client-a" 1 2]) = .ok (response, server) ∧
      response.decisions = [.accepted "op-1" 1 5] ∧
      response.entries.map CommittedOperation.operation = [2] := by
  refine ⟨fun hsound => ?_, _, _, rfl, rfl, rfl, rfl⟩
  have hpayload := hsound.payloadsAgree _ List.mem_cons_self _ _ _ rfl _ List.mem_cons_self rfl
  exact absurd hpayload (by decide)

end InMemoryLogServer

end SyncEngine
