import SyncEngine.Proof.Replica
import SyncEngine.Model.Counter
import Mathlib.Data.List.Forall2

/-!
# Merging whatever arrives

What a merge that returns has done, for every response that passes the validator, honest or not, and
every interpreter. Each pass is inverted once; the postcondition of a merge is read off the three
passes, and so is what a second merge of the same response meets: a page that is confirmed, decisions
that are settled, and no outbox entry left for either.
-/

namespace SyncEngine

open JavaScript Throwing

variable {State Intent Operation Rejection ε : Type}

/-- What the decisions of a response may make of an outbox entry that stays. -/
inductive Updated (decisions : List (ProposalDecision Operation Rejection)) :
    OutboxEntry Intent Operation → OutboxEntry Intent Operation → Prop
  | same (entry : OutboxEntry Intent Operation) : Updated decisions entry entry
  | accepted (proposal : ProposedOperation Intent) (sequence : Int) (operation : Operation)
      (hdecision : .accepted proposal.operationId sequence operation ∈ decisions) :
      Updated decisions (.pending proposal) (.accepted proposal sequence operation)

/-- Why an outbox entry may go: it was rejected while it was pending, or a retained entry of the log
carries its identity. -/
inductive Released (decisions : List (ProposalDecision Operation Rejection))
    (log : List (CommittedOperation Operation)) : OutboxEntry Intent Operation → Prop
  | rejected (proposal : ProposedOperation Intent) (reason : Rejection)
      (hdecision : .rejected proposal.operationId reason ∈ decisions) :
      Released decisions log (.pending proposal)
  | committed (entry : OutboxEntry Intent Operation) (committed : CommittedOperation Operation)
      (hcommitted : committed ∈ log)
      (hsame : entry.proposal.toOperationSubmissionIdentity = committed.submission) :
      Released decisions log entry

namespace Updated

variable {decisions : List (ProposalDecision Operation Rejection)}
  {first second third : OutboxEntry Intent Operation}

theorem proposal_eq (h : Updated decisions first second) : second.proposal = first.proposal := by
  cases h with
  | same => rfl
  | accepted => rfl

theorem trans (h : Updated decisions first second) (h' : Updated decisions second third) :
    Updated decisions first third := by
  cases h with
  | same => exact h'
  | accepted proposal sequence operation hdecision =>
      cases h' with
      | same => exact .accepted proposal sequence operation hdecision

end Updated

instance (decisions : List (ProposalDecision Operation Rejection)) :
    IsTrans (OutboxEntry Intent Operation) fun new old => Updated decisions old new :=
  ⟨fun _ _ _ h h' => h'.trans h⟩

/-- An outbox during a merge, seen from the outbox before it. -/
structure Traced (decisions : List (ProposalDecision Operation Rejection))
    (log : List (CommittedOperation Operation)) (before after : List (OutboxEntry Intent Operation)) :
    Prop where
  updated : List.SublistForall₂ (fun new old => Updated decisions old new) after before
  released : ∀ entry ∈ before, (∀ kept ∈ after, kept.operationId ≠ entry.operationId) →
    Released decisions log entry

namespace Traced

variable {decisions : List (ProposalDecision Operation Rejection)}
  {log log' : List (CommittedOperation Operation)} {before after : List (OutboxEntry Intent Operation)}

theorem refl (decisions : List (ProposalDecision Operation Rejection))
    (log : List (CommittedOperation Operation)) (outbox : List (OutboxEntry Intent Operation)) :
    Traced decisions log outbox outbox where
  updated := List.sublistForall₂_iff.mpr
    ⟨outbox, List.forall₂_same.mpr fun entry _ => .same entry, List.Sublist.refl _⟩
  released := fun entry hentry habsent => absurd rfl (habsent entry hentry)

theorem mono (h : Traced decisions log before after) (hlog : log ⊆ log') :
    Traced decisions log' before after where
  updated := h.updated
  released := by
    intro entry hentry habsent
    cases h.released entry hentry habsent with
    | rejected proposal reason hdecision => exact .rejected proposal reason hdecision
    | committed _ committed hcommitted hsame => exact .committed _ committed (hlog hcommitted) hsame

theorem origin (h : Traced decisions log before after) {kept : OutboxEntry Intent Operation}
    (hkept : kept ∈ after) : ∃ entry ∈ before, Updated decisions entry kept := by
  have hupdated := h.updated
  clear h
  induction hupdated with
  | nil => simp at hkept
  | cons hfirst _ ih =>
      rcases List.mem_cons.mp hkept with rfl | hrest
      · exact ⟨_, List.mem_cons_self, hfirst⟩
      · obtain ⟨entry, hentry, hupdated⟩ := ih hrest
        exact ⟨entry, List.mem_cons_of_mem _ hentry, hupdated⟩
  | cons_right _ ih =>
      obtain ⟨entry, hentry, hupdated⟩ := ih hkept
      exact ⟨entry, List.mem_cons_of_mem _ hentry, hupdated⟩

theorem shrink (h : Traced decisions log before after)
    (hbefore : (before.map OutboxEntry.operationId).Nodup)
    {fewer : List (OutboxEntry Intent Operation)} (hsublist : fewer.Sublist after)
    (hdropped : ∀ kept ∈ after, kept ∉ fewer → ∀ entry, Updated decisions entry kept →
      Released decisions log entry) : Traced decisions log before fewer where
  updated := by
    have hfewer : List.SublistForall₂ (fun new old => Updated decisions old new) fewer after :=
      List.sublistForall₂_iff.mpr ⟨fewer, List.forall₂_same.mpr fun entry _ => .same entry, hsublist⟩
    exact IsTrans.trans _ _ _ hfewer h.updated
  released := by
    intro entry hentry habsent
    by_cases hpresent : ∃ kept ∈ after, kept.operationId = entry.operationId
    · obtain ⟨kept, hkept, hid⟩ := hpresent
      obtain ⟨old, hold, hupdated⟩ := h.origin hkept
      have hsame : old.operationId = entry.operationId := by
        rw [← hid, OutboxEntry.operationId, OutboxEntry.operationId, hupdated.proposal_eq]
      obtain rfl := KeyedList.eq_of_key_eq hbefore hold hentry hsame
      exact hdropped kept hkept (fun hmem => habsent kept hmem hid) _ hupdated
    · exact h.released entry hentry fun kept hkept hid => hpresent ⟨kept, hkept, hid⟩

theorem accept (h : Traced decisions log before after) (hafter : (after.map OutboxEntry.operationId).Nodup)
    {proposal : ProposedOperation Intent} (hpending : .pending proposal ∈ after) {sequence : Int}
    {operation : Operation} (hdecision : .accepted proposal.operationId sequence operation ∈ decisions) :
    Traced decisions log before (after.map fun entry =>
      if entry.operationId = proposal.operationId then .accepted proposal sequence operation else entry) where
  updated := by
    refine IsTrans.trans _ _ _ (List.sublistForall₂_iff.mpr ⟨after, ?_, List.Sublist.refl _⟩) h.updated
    rw [List.forall₂_map_left_iff]
    refine List.forall₂_same.mpr fun entry hentry => ?_
    by_cases hid : entry.operationId = proposal.operationId
    · obtain rfl := KeyedList.eq_of_key_eq hafter hentry hpending hid
      rw [if_pos hid]
      exact .accepted proposal sequence operation hdecision
    · rw [if_neg hid]
      exact .same entry
  released := by
    intro entry hentry habsent
    refine h.released entry hentry fun kept hkept hid => habsent _ (List.mem_map_of_mem hkept) ?_
    split
    · rename_i hsame
      exact hsame.symm.trans hid
    · exact hid

end Traced

/-! ### The decision pass -/

section Merge

variable {replica : ReplicaInterpreter State Intent Operation ε}
  {decisions : List (ProposalDecision Operation Rejection)}
  {before : List (OutboxEntry Intent Operation)}

/-- What a decision does to the outbox of a merge. -/
inductive DecidedTo (replica : ReplicaInterpreter State Intent Operation ε)
    (current : MergeOutbox Intent Operation Rejection) :
    ProposalDecision Operation Rejection → MergeOutbox Intent Operation Rejection → Prop
  | absent (decision : ProposalDecision Operation Rejection)
      (habsent : ∀ entry ∈ current.outbox, entry.operationId ≠ decision.operationId) :
      DecidedTo replica current decision current
  | known (proposal : ProposedOperation Intent) (sequence : Int) (operation operation' : Operation)
      (hentry : .accepted proposal sequence operation' ∈ current.outbox)
      (hequal : operationsAreEqual replica operation' operation = true) :
      DecidedTo replica current (.accepted proposal.operationId sequence operation) current
  | rejected (proposal : ProposedOperation Intent) (reason : Rejection)
      (hentry : .pending proposal ∈ current.outbox) :
      DecidedTo replica current (.rejected proposal.operationId reason) {
        outbox := current.outbox.filter fun entry => entry.operationId ≠ proposal.operationId
        newlyResolved := current.newlyResolved ++ [.rejected proposal.operationId reason] }
  | accepted (proposal : ProposedOperation Intent) (sequence : Int) (operation : Operation)
      (hentry : .pending proposal ∈ current.outbox) :
      DecidedTo replica current (.accepted proposal.operationId sequence operation) {
        outbox := current.outbox.map fun entry =>
          if entry.operationId = proposal.operationId then .accepted proposal sequence operation else entry
        newlyResolved := current.newlyResolved ++ [.accepted proposal.operationId sequence operation] }

theorem mergeDecision_eq_ok {current next : MergeOutbox Intent Operation Rejection}
    (hnodup : (current.outbox.map OutboxEntry.operationId).Nodup)
    {decision : ProposalDecision Operation Rejection}
    (h : mergeDecision replica current decision = .ok next) : DecidedTo replica current decision next := by
  rw [mergeDecision] at h
  cases hfind : current.outbox.findIdx? fun entry => entry.operationId = decision.operationId with
  | none =>
      rw [hfind] at h
      obtain rfl := Except.ok.inj h
      refine .absent decision fun entry hentry hid => ?_
      simpa [hid] using List.findIdx?_eq_none_iff.mp hfind entry hentry
  | some index =>
      obtain ⟨front, entry, back, hsplit, hindex, hid, -⟩ := KeyedList.eq_append_of_findIdx? hnodup hfind
      have hget : current.outbox[index]? = some entry := by
        rw [hsplit, ← hindex]
        simp
      have hentry := List.mem_of_getElem? hget
      have herase := KeyedList.eraseIdx_of_findIdx? hnodup hfind
      have hset := KeyedList.set_of_findIdx? hnodup hfind
      simp only [hfind, hget] at h
      cases entry with
      | pending proposal =>
          cases decision with
          | rejected operationId reason =>
              obtain rfl : proposal.operationId = operationId := hid
              obtain rfl := Except.ok.inj h
              rw [herase]
              exact .rejected proposal reason hentry
          | accepted operationId sequence operation =>
              obtain rfl : proposal.operationId = operationId := hid
              obtain rfl := Except.ok.inj h
              rw [hset]
              exact .accepted proposal sequence operation hentry
      | accepted proposal sequence operation' =>
          cases decision with
          | rejected operationId reason => simp [mergeDecisionInto] at h
          | accepted operationId sequence' operation =>
              obtain rfl : proposal.operationId = operationId := hid
              obtain ⟨hsame, h⟩ := bind_unit_eq_ok.mp h
              obtain rfl := Except.ok.inj h
              rw [throwIf_eq_ok, not_or, not_not, Bool.not_eq_false] at hsame
              obtain ⟨rfl, hequal⟩ := hsame
              exact .known proposal sequence operation operation' hentry hequal

namespace DecidedTo

variable {current next : MergeOutbox Intent Operation Rejection}
  {decision : ProposalDecision Operation Rejection}

theorem nodup (h : DecidedTo replica current decision next)
    (hnodup : (current.outbox.map OutboxEntry.operationId).Nodup) :
    (next.outbox.map OutboxEntry.operationId).Nodup := by
  cases h with
  | absent => exact hnodup
  | known => exact hnodup
  | rejected proposal reason => exact hnodup.sublist (List.filter_sublist.map _)
  | accepted proposal sequence operation =>
      rw [List.map_map]
      have hids : current.outbox.map (OutboxEntry.operationId ∘ fun entry =>
          if entry.operationId = proposal.operationId then .accepted proposal sequence operation
          else entry) = current.outbox.map OutboxEntry.operationId := by
        refine List.map_congr_left fun entry _ => ?_
        rw [Function.comp_apply]
        split
        · rename_i hid
          exact hid.symm
        · rfl
      rw [hids]
      exact hnodup

theorem traced (h : DecidedTo replica current decision next) (hdecision : decision ∈ decisions)
    (hnodup : (current.outbox.map OutboxEntry.operationId).Nodup)
    (hbefore : (before.map OutboxEntry.operationId).Nodup) {log : List (CommittedOperation Operation)}
    (htraced : Traced decisions log before current.outbox) : Traced decisions log before next.outbox := by
  cases h with
  | absent => exact htraced
  | known => exact htraced
  | rejected proposal reason hentry =>
      refine htraced.shrink hbefore List.filter_sublist fun kept hkept hdropped entry hupdated => ?_
      have hid : kept.operationId = proposal.operationId := by
        by_contra hne
        exact hdropped (List.mem_filter.mpr ⟨hkept, by simpa using hne⟩)
      obtain rfl := KeyedList.eq_of_key_eq hnodup hkept hentry hid
      cases hupdated with
      | same => exact .rejected proposal reason hdecision
  | accepted proposal sequence operation hentry => exact htraced.accept hnodup hentry hdecision

theorem mem_of_ne (h : DecidedTo replica current decision next) {entry : OutboxEntry Intent Operation}
    (hentry : entry ∈ next.outbox) (hne : entry.operationId ≠ decision.operationId) :
    entry ∈ current.outbox := by
  cases h with
  | absent => exact hentry
  | known => exact hentry
  | rejected => exact List.mem_of_mem_filter hentry
  | accepted proposal sequence operation =>
      obtain ⟨old, hold, rfl⟩ := List.mem_map.mp hentry
      by_cases hid : old.operationId = proposal.operationId
      · rw [if_pos hid] at hne
        exact absurd rfl hne
      · rw [if_neg hid]
        exact hold

end DecidedTo

def SettledBy (replica : ReplicaInterpreter State Intent Operation ε)
    (decision : ProposalDecision Operation Rejection) (entry : OutboxEntry Intent Operation) : Prop :=
  ∃ proposal sequence operation operation', entry = .accepted proposal sequence operation' ∧
    decision = .accepted proposal.operationId sequence operation ∧
    operationsAreEqual replica operation' operation = true

theorem DecidedTo.settled {current next : MergeOutbox Intent Operation Rejection}
    {decision : ProposalDecision Operation Rejection} (h : DecidedTo replica current decision next)
    (hnodup : (current.outbox.map OutboxEntry.operationId).Nodup) (hreflexive : replica.Reflexive)
    {entry : OutboxEntry Intent Operation} (hentry : entry ∈ next.outbox)
    (hid : entry.operationId = decision.operationId) : SettledBy replica decision entry := by
  cases h with
  | absent _ habsent => exact absurd hid (habsent entry hentry)
  | known proposal sequence operation operation' hknown hequal =>
      obtain rfl := KeyedList.eq_of_key_eq hnodup hentry hknown hid
      exact ⟨proposal, sequence, operation, operation', rfl, rfl, hequal⟩
  | rejected proposal reason =>
      have hne := (List.mem_filter.mp hentry).2
      exact absurd hid (by simpa using hne)
  | accepted proposal sequence operation hpending =>
      obtain ⟨old, hold, rfl⟩ := List.mem_map.mp hentry
      by_cases hsame : old.operationId = proposal.operationId
      · rw [if_pos hsame]
        exact ⟨proposal, sequence, operation, operation, rfl, rfl, hreflexive operation⟩
      · rw [if_neg hsame] at hid
        exact absurd hid hsame

theorem mergeDecision_of_settled {current : MergeOutbox Intent Operation Rejection}
    (hnodup : (current.outbox.map OutboxEntry.operationId).Nodup)
    {decision : ProposalDecision Operation Rejection}
    (hsettled : ∀ entry ∈ current.outbox, entry.operationId = decision.operationId →
      SettledBy replica decision entry) : mergeDecision replica current decision = .ok current := by
  by_cases hpresent : ∃ entry ∈ current.outbox, entry.operationId = decision.operationId
  · obtain ⟨entry, hentry, hid⟩ := hpresent
    obtain ⟨proposal, sequence, operation, operation', rfl, rfl, hequal⟩ := hsettled entry hentry hid
    obtain ⟨index, -, hmerge⟩ := mergeDecision_of_mem (ε := ε) replica hnodup current.newlyResolved
      (.accepted proposal.operationId sequence operation) hentry hid
    rw [hmerge, mergeDecisionInto, throwIf_neg (by simp [hequal])]
    rfl
  · exact mergeDecision_of_absent replica fun entry hentry hid => hpresent ⟨entry, hentry, hid⟩

/-- What the decision pass leaves of an outbox. -/
structure DecisionPass (replica : ReplicaInterpreter State Intent Operation ε)
    (decisions passed : List (ProposalDecision Operation Rejection))
    (before : List (OutboxEntry Intent Operation)) (after : MergeOutbox Intent Operation Rejection) :
    Prop where
  nodup : (after.outbox.map OutboxEntry.operationId).Nodup
  traced : Traced decisions [] before after.outbox
  settled : replica.Reflexive → ∀ decision ∈ passed, ∀ entry ∈ after.outbox,
    entry.operationId = decision.operationId → SettledBy replica decision entry

theorem mergeDecisions_eq_ok (hbefore : (before.map OutboxEntry.operationId).Nodup)
    (hdistinct : (decisions.map ProposalDecision.operationId).Nodup)
    {last : MergeOutbox Intent Operation Rejection}
    (h : decisions.foldlM (mergeDecision replica) ⟨before, []⟩ = .ok last) :
    DecisionPass replica decisions decisions before last := by
  suffices hfrom : ∀ (rest passed : List (ProposalDecision Operation Rejection)) current,
      decisions = passed ++ rest → DecisionPass replica decisions passed before current →
      rest.foldlM (mergeDecision replica) current = .ok last →
        DecisionPass replica decisions decisions before last from
    hfrom decisions [] _ rfl ⟨hbefore, .refl _ _ _, by simp⟩ h
  intro rest
  induction rest with
  | nil =>
      intro passed current hsplit hcurrent hlast
      obtain rfl := Except.ok.inj hlast
      rw [List.append_nil] at hsplit
      exact hsplit ▸ hcurrent
  | cons decision rest ih =>
      intro passed current hsplit hcurrent hlast
      obtain ⟨next, hfirst, hrest⟩ := bind_eq_ok.mp (List.foldlM_cons.symm.trans hlast)
      have hdecided := mergeDecision_eq_ok hcurrent.nodup hfirst
      have hmem : decision ∈ decisions := by
        rw [hsplit]
        exact List.mem_append_right _ List.mem_cons_self
      refine ih (passed ++ [decision]) next (by rw [hsplit, List.append_assoc]; rfl) ?_ hrest
      refine ⟨hdecided.nodup hcurrent.nodup,
        hdecided.traced hmem hcurrent.nodup hbefore hcurrent.traced, fun hreflexive => ?_⟩
      refine List.forall_mem_append.mpr ⟨fun earlier hearlier entry hentry hid => ?_, ?_⟩
      · -- an earlier decision is for another operation
        have hne : entry.operationId ≠ decision.operationId := by
          rw [hsplit, List.map_append, List.map_cons] at hdistinct
          intro hsame
          exact List.disjoint_of_nodup_append hdistinct (List.mem_map_of_mem hearlier)
            (hid.symm.trans hsame ▸ List.mem_cons_self)
        exact hcurrent.settled hreflexive earlier hearlier entry (hdecided.mem_of_ne hentry hne) hid
      · intro other hother entry hentry hid
        obtain rfl := List.mem_singleton.mp hother
        exact hdecided.settled hcurrent.nodup hreflexive hentry hid

/-! ### The entry pass -/

theorem assertProposalMatchesCommitted_eq_ok {proposal : ProposedOperation Intent}
    {committed : CommittedOperation Operation} {u : Unit} :
    (assertProposalMatchesCommitted proposal committed : Result ε Unit) = .ok u ↔
      proposal.toOperationSubmissionIdentity = committed.submission := by
  obtain ⟨⟨⟨operationId, clientId, clientSequence⟩, intentHash⟩, intent⟩ := proposal
  rw [assertProposalMatchesCommitted, proposalDifference]
  simp only [CommittedOperation.submission, OperationSubmissionIdentity.mk.injEq, OperationIdentity.mk.injEq]
  split_ifs <;> simp_all

theorem assertSameCommittedPosition_eq_ok {expected received : CommittedOperation Operation} {u : Unit} :
    (assertSameCommittedPosition replica expected received : Result ε Unit) = .ok u ↔
      expected.submission = received.submission ∧
        replica.areCommittedOperationsEqual expected.operation received.operation = true := by
  obtain ⟨sequence, operationId, ⟨clientId, clientSequence, intentHash⟩, operation⟩ := expected
  rw [assertSameCommittedPosition, throwIf_eq_ok, committedMetadataDifference, operationsAreEqual]
  simp only [CommittedOperation.submission, OperationSubmissionIdentity.mk.injEq, OperationIdentity.mk.injEq]
  split_ifs <;> simp_all

theorem resolveOutboxFromCommitted_eq_ok {current next : MergeOutbox Intent Operation Rejection}
    (hnodup : (current.outbox.map OutboxEntry.operationId).Nodup) {committed : CommittedOperation Operation}
    (h : resolveOutboxFromCommitted replica current committed = .ok next) :
    (next.outbox = current.outbox.filter fun entry => entry.operationId ≠ committed.operationId) ∧
      ∀ entry ∈ current.outbox, entry.operationId = committed.operationId →
        entry.proposal.toOperationSubmissionIdentity = committed.submission := by
  by_cases hpresent : ∃ entry ∈ current.outbox, entry.operationId = committed.operationId
  · obtain ⟨entry, hentry, hid⟩ := hpresent
    rw [resolveOutboxFromCommitted_of_mem replica hnodup hentry hid] at h
    obtain ⟨learned, hresolve, h⟩ := bind_eq_ok.mp h
    obtain rfl := Except.ok.inj h
    refine ⟨rfl, fun other hother hsame => ?_⟩
    obtain rfl := KeyedList.eq_of_key_eq hnodup hother hentry (hsame.trans hid.symm)
    cases other with
    | pending proposal =>
        obtain ⟨hmatches, -⟩ := bind_unit_eq_ok.mp hresolve
        exact assertProposalMatchesCommitted_eq_ok.mp hmatches
    | accepted proposal sequence operation =>
        obtain ⟨hmatches, -⟩ := bind_unit_eq_ok.mp hresolve
        exact assertProposalMatchesCommitted_eq_ok.mp hmatches
  · have habsent : ∀ entry ∈ current.outbox, entry.operationId ≠ committed.operationId :=
      fun entry hentry hid => hpresent ⟨entry, hentry, hid⟩
    rw [show current = ⟨current.outbox, current.newlyResolved⟩ from rfl,
      resolveOutboxFromCommitted_of_absent replica habsent] at h
    obtain rfl := Except.ok.inj h
    refine ⟨(List.filter_eq_self.mpr fun entry hentry => by simpa using habsent entry hentry).symm, ?_⟩
    exact fun entry hentry hid => absurd hid (habsent entry hentry)

/-- What an entry of a page does to a merge. -/
inductive Received (replica : ReplicaInterpreter State Intent Operation ε) (retainedBaseSequence : Int)
    (progress : MergeProgress State Intent Operation Rejection) (received : CommittedOperation Operation) :
    MergeProgress State Intent Operation Rejection → Prop
  | compacted (hcompacted : received.sequence ≤ retainedBaseSequence) :
      Received replica retainedBaseSequence progress received progress
  | confirmed (hretained : retainedBaseSequence < received.sequence)
      (hconfirmed : received.sequence ≤ progress.confirmedSequence) (existing : CommittedOperation Operation)
      (hexisting : element? progress.confirmedLog (received.sequence - retainedBaseSequence - 1) = some existing)
      (hsame : existing.submission = received.submission)
      (hequal : replica.areCommittedOperationsEqual existing.operation received.operation = true)
      (resolved : MergeOutbox Intent Operation Rejection)
      (hresolved : resolveOutboxFromCommitted replica progress.toMergeOutbox received = .ok resolved) :
      Received replica retainedBaseSequence progress received { progress with toMergeOutbox := resolved }
  | appended (hretained : retainedBaseSequence < received.sequence)
      (hnext : received.sequence = progress.confirmedSequence + 1) (state : State)
      (happly : replica.applyCommitted progress.confirmedState received.operation = .ok state)
      (resolved : MergeOutbox Intent Operation Rejection)
      (hresolved : resolveOutboxFromCommitted replica progress.toMergeOutbox received = .ok resolved) :
      Received replica retainedBaseSequence progress received {
        toMergeOutbox := resolved
        confirmedSequence := received.sequence
        confirmedLog := progress.confirmedLog ++ [received]
        confirmedState := state }

theorem mergeEntry_eq_ok {retainedBaseSequence : Int}
    {progress next : MergeProgress State Intent Operation Rejection} {received : CommittedOperation Operation}
    (h : mergeEntry replica retainedBaseSequence progress received = .ok next) :
    Received replica retainedBaseSequence progress received next := by
  rw [mergeEntry] at h
  split at h
  · rename_i hcompacted
    obtain rfl := Except.ok.inj h
    exact .compacted hcompacted
  · rename_i hretained
    split at h
    · rename_i hconfirmed
      cases hexisting : element? progress.confirmedLog (received.sequence - retainedBaseSequence - 1) with
      | none => simp [hexisting] at h
      | some existing =>
          simp only [hexisting] at h
          obtain ⟨hsame, h⟩ := bind_unit_eq_ok.mp h
          obtain ⟨resolved, hresolved, h⟩ := bind_eq_ok.mp h
          obtain rfl := Except.ok.inj h
          obtain ⟨hidentity, hequal⟩ := assertSameCommittedPosition_eq_ok.mp hsame
          exact .confirmed (by omega) hconfirmed existing hexisting hidentity hequal resolved hresolved
    · obtain ⟨hnext, h⟩ := bind_unit_eq_ok.mp h
      obtain ⟨state, happly, h⟩ := bind_eq_ok.mp h
      obtain ⟨resolved, hresolved, h⟩ := bind_eq_ok.mp h
      obtain rfl := Except.ok.inj h
      rw [throwIf_eq_ok, not_not] at hnext
      exact .appended (by omega) hnext state ((application_eq_ok _ _).mp happly) resolved hresolved

def entriesBeyond (confirmedSequence : Int) (entries : List (CommittedOperation Operation)) :
    List (CommittedOperation Operation) :=
  entries.filter fun entry => confirmedSequence < entry.sequence

/-- What the entry pass makes of a merge over a page. -/
structure EntryPass (replica : ReplicaInterpreter State Intent Operation ε)
    (decisions : List (ProposalDecision Operation Rejection)) (retainedBaseSequence : Int)
    (before : List (OutboxEntry Intent Operation)) (entries : List (CommittedOperation Operation))
    (start last : MergeProgress State Intent Operation Rejection) : Prop where
  confirmedSequence : last.confirmedSequence =
    start.confirmedSequence + (entriesBeyond start.confirmedSequence entries).length
  confirmedLog : last.confirmedLog = start.confirmedLog ++ entriesBeyond start.confirmedSequence entries
  confirmedState : applyEntries replica start.confirmedState (entriesBeyond start.confirmedSequence entries) =
    .ok last.confirmedState
  overlap : ∀ received ∈ entries, retainedBaseSequence < received.sequence →
    received.sequence ≤ start.confirmedSequence → ∃ existing,
      element? start.confirmedLog (received.sequence - retainedBaseSequence - 1) = some existing ∧
      existing.submission = received.submission ∧
      replica.areCommittedOperationsEqual existing.operation received.operation = true
  sublist : last.outbox.Sublist start.outbox
  traced : Traced decisions last.confirmedLog before last.outbox
  resolved : ∀ received ∈ entries, retainedBaseSequence < received.sequence →
    ∀ entry ∈ last.outbox, entry.operationId ≠ received.operationId

theorem Traced.resolve {current next : MergeOutbox Intent Operation Rejection}
    {log : List (CommittedOperation Operation)} (h : Traced decisions log before current.outbox)
    (hbefore : (before.map OutboxEntry.operationId).Nodup)
    (hnodup : (current.outbox.map OutboxEntry.operationId).Nodup)
    {received committed : CommittedOperation Operation} (hcommitted : committed ∈ log)
    (hsame : committed.submission = received.submission)
    (hresolved : resolveOutboxFromCommitted replica current received = .ok next) :
    Traced decisions log before next.outbox := by
  obtain ⟨houtbox, hidentity⟩ := resolveOutboxFromCommitted_eq_ok hnodup hresolved
  rw [houtbox]
  refine h.shrink hbefore List.filter_sublist fun kept hkept hdropped entry hupdated => ?_
  have hid : kept.operationId = received.operationId := by
    by_contra hne
    exact hdropped (List.mem_filter.mpr ⟨hkept, by simpa using hne⟩)
  refine .committed entry committed hcommitted ?_
  rw [← hupdated.proposal_eq, hidentity kept hkept hid, hsame]

theorem entriesBeyond_of_all {confirmedSequence : Int} {entries : List (CommittedOperation Operation)}
    (h : ∀ entry ∈ entries, confirmedSequence < entry.sequence) :
    entriesBeyond confirmedSequence entries = entries :=
  List.filter_eq_self.mpr fun entry hentry => by simpa using h entry hentry

theorem mergeEntries_eq_ok {retainedBaseSequence : Int}
    (hbefore : (before.map OutboxEntry.operationId).Nodup) {first : Int}
    {entries : List (CommittedOperation Operation)}
    (hpage : ∀ (i : Nat) (entry : CommittedOperation Operation), entries[i]? = some entry →
      entry.sequence = first + i)
    (start : MergeProgress State Intent Operation Rejection)
    {last : MergeProgress State Intent Operation Rejection}
    (hretained : retainedBaseSequence ≤ start.confirmedSequence)
    (hnodup : (start.outbox.map OutboxEntry.operationId).Nodup)
    (htraced : Traced decisions start.confirmedLog before start.outbox)
    (h : entries.foldlM (mergeEntry replica retainedBaseSequence) start = .ok last) :
    EntryPass replica decisions retainedBaseSequence before entries start last := by
  induction entries generalizing start first with
  | nil =>
      obtain rfl := Except.ok.inj h
      exact ⟨by simp [entriesBeyond], (List.append_nil _).symm, rfl, by simp, List.Sublist.refl _, htraced,
        by simp⟩
  | cons received entries ih =>
      obtain ⟨next, hfirst, hrest⟩ := bind_eq_ok.mp (List.foldlM_cons.symm.trans h)
      have hsequence : received.sequence = first := by simpa using hpage 0 received rfl
      have htail : ∀ (i : Nat) (entry : CommittedOperation Operation), entries[i]? = some entry →
          entry.sequence = first + 1 + i := by
        intro i entry hentry
        have := hpage (i + 1) entry hentry
        push_cast at this
        omega
      have hlater : ∀ entry ∈ entries, received.sequence < entry.sequence := by
        intro entry hentry
        obtain ⟨i, hi⟩ := List.getElem?_of_mem hentry
        have := htail i entry hi
        omega
      cases mergeEntry_eq_ok hfirst with
      | compacted hcompacted =>
          have hpass := ih htail start hretained hnodup htraced hrest
          have hbeyond : entriesBeyond start.confirmedSequence (received :: entries) =
              entriesBeyond start.confirmedSequence entries :=
            List.filter_cons_of_neg (by simp only [decide_eq_true_eq]; omega)
          refine ⟨hbeyond ▸ hpass.confirmedSequence, hbeyond ▸ hpass.confirmedLog,
            hbeyond ▸ hpass.confirmedState, List.forall_mem_cons.mpr ⟨fun hnot => ?_, hpass.overlap⟩,
            hpass.sublist, hpass.traced, List.forall_mem_cons.mpr ⟨fun hnot => ?_, hpass.resolved⟩⟩
          · omega
          · omega
      | confirmed hkept hconfirmed existing hexisting hsame hequal resolved hresolved =>
          have htraced' : Traced decisions start.confirmedLog before resolved.outbox :=
            htraced.resolve hbefore hnodup (mem_of_element? hexisting) hsame hresolved
          obtain ⟨houtbox, -⟩ := resolveOutboxFromCommitted_eq_ok hnodup hresolved
          have hsublist : resolved.outbox.Sublist start.outbox := houtbox ▸ List.filter_sublist
          have hpass := ih htail { start with toMergeOutbox := resolved } hretained
            (hnodup.sublist (hsublist.map _)) htraced' hrest
          have hbeyond : entriesBeyond start.confirmedSequence (received :: entries) =
              entriesBeyond start.confirmedSequence entries :=
            List.filter_cons_of_neg (by simp only [decide_eq_true_eq]; omega)
          refine ⟨hbeyond ▸ hpass.confirmedSequence, hbeyond ▸ hpass.confirmedLog,
            hbeyond ▸ hpass.confirmedState,
            List.forall_mem_cons.mpr ⟨fun _ _ => ⟨existing, hexisting, hsame, hequal⟩, hpass.overlap⟩,
            hpass.sublist.trans hsublist, hpass.traced,
            List.forall_mem_cons.mpr ⟨fun _ entry hentry => ?_, hpass.resolved⟩⟩
          have hmem := hpass.sublist.subset hentry
          rw [show ({ start with toMergeOutbox := resolved } :
            MergeProgress State Intent Operation Rejection).outbox = resolved.outbox from rfl, houtbox] at hmem
          simpa using (List.mem_filter.mp hmem).2
      | appended hkept hnext state happly resolved hresolved =>
          have htraced' : Traced decisions (start.confirmedLog ++ [received]) before resolved.outbox :=
            (htraced.mono (List.subset_append_left _ _)).resolve hbefore hnodup
              (List.mem_append_right _ List.mem_cons_self) rfl hresolved
          obtain ⟨houtbox, -⟩ := resolveOutboxFromCommitted_eq_ok hnodup hresolved
          have hsublist : resolved.outbox.Sublist start.outbox := houtbox ▸ List.filter_sublist
          have hpass := ih htail ⟨resolved, received.sequence, start.confirmedLog ++ [received], state⟩
            (Int.le_of_lt hkept) (hnodup.sublist (hsublist.map _)) htraced' hrest
          have hafter : entriesBeyond received.sequence entries = entries := entriesBeyond_of_all hlater
          have hbeyond : entriesBeyond start.confirmedSequence (received :: entries) = received :: entries :=
            entriesBeyond_of_all (List.forall_mem_cons.mpr ⟨by omega, fun entry hentry => by
              have := hlater entry hentry
              omega⟩)
          refine ⟨?_, ?_, ?_, List.forall_mem_cons.mpr ⟨fun _ hle => ?_, fun entry hentry _ hle => ?_⟩,
            hpass.sublist.trans hsublist, hpass.traced,
            List.forall_mem_cons.mpr ⟨fun _ entry hentry => ?_, hpass.resolved⟩⟩
          · have hlast := hpass.confirmedSequence
            change last.confirmedSequence =
              received.sequence + (entriesBeyond received.sequence entries).length at hlast
            rw [hafter] at hlast
            rw [hlast, hbeyond, List.length_cons, hnext]
            push_cast
            omega
          · have hlast := hpass.confirmedLog
            change last.confirmedLog = start.confirmedLog ++ [received] ++
              entriesBeyond received.sequence entries at hlast
            rw [hlast, hafter, hbeyond, List.append_assoc]
            rfl
          · have hlast := hpass.confirmedState
            change applyEntries replica state (entriesBeyond received.sequence entries) =
              .ok last.confirmedState at hlast
            rw [hafter] at hlast
            rw [hbeyond, applyEntries, List.foldlM_cons, happly]
            exact hlast
          · omega
          · have := hlater entry hentry
            omega
          · have hmem := hpass.sublist.subset hentry
            change entry ∈ resolved.outbox at hmem
            rw [houtbox] at hmem
            simpa using (List.mem_filter.mp hmem).2

/-- In a contiguous page the entries beyond a cursor are a suffix. -/
theorem entriesBeyond_eq_drop {entries : List (CommittedOperation Operation)} {first : Int}
    (hpage : ∀ (i : Nat) (entry : CommittedOperation Operation), entries[i]? = some entry →
      entry.sequence = first + i) (confirmedSequence : Int) :
    entriesBeyond confirmedSequence entries = entries.drop (confirmedSequence + 1 - first).toNat := by
  induction entries generalizing first with
  | nil => rw [List.drop_nil, entriesBeyond, List.filter_nil]
  | cons entry entries ih =>
      have hsequence : entry.sequence = first := by simpa using hpage 0 entry rfl
      by_cases hbeyond : confirmedSequence < first
      · have hall : ∀ later ∈ entry :: entries, confirmedSequence < later.sequence := by
          intro later hlater
          obtain ⟨i, hi⟩ := List.getElem?_of_mem hlater
          have := hpage i later hi
          omega
        rw [entriesBeyond_of_all hall, show (confirmedSequence + 1 - first).toNat = 0 by omega, List.drop_zero]
      · have hskip : entriesBeyond confirmedSequence (entry :: entries) =
            entriesBeyond confirmedSequence entries :=
          List.filter_cons_of_neg (by rw [hsequence]; simpa using hbeyond)
        have hcount : (confirmedSequence + 1 - first).toNat =
            (confirmedSequence + 1 - (first + 1)).toNat + 1 := by omega
        rw [hskip, hcount, List.drop_succ_cons]
        refine ih fun i later hlater => ?_
        have := hpage (i + 1) later hlater
        push_cast at this
        omega

/-! ### The reconciliation -/

/-- What the final filter keeps and drops. -/
structure Reconciled (confirmedSequence : Int) (log : List (CommittedOperation Operation))
    (outbox kept : List (OutboxEntry Intent Operation)) : Prop where
  sublist : kept.Sublist outbox
  beyond : ∀ proposal sequence operation, .accepted proposal sequence operation ∈ kept →
    confirmedSequence < sequence
  dropped : ∀ entry ∈ outbox, entry ∉ kept → ∃ committed ∈ log,
    entry.proposal.toOperationSubmissionIdentity = committed.submission

theorem keepAfterReconciliation_eq_ok {retainedBaseSequence confirmedSequence : Int}
    {log : List (CommittedOperation Operation)} {entry : OutboxEntry Intent Operation} {keep : Bool}
    (h : keepAfterReconciliation replica retainedBaseSequence confirmedSequence log entry = .ok keep) :
    (keep = true ∧ ∀ proposal sequence operation, entry = .accepted proposal sequence operation →
        confirmedSequence < sequence) ∨
      (keep = false ∧ ∃ committed ∈ log,
        entry.proposal.toOperationSubmissionIdentity = committed.submission) := by
  cases entry with
  | pending proposal =>
      obtain rfl := Except.ok.inj h
      exact .inl ⟨rfl, by simp⟩
  | accepted proposal sequence operation =>
      rw [keepAfterReconciliation] at h
      split at h
      · rename_i hbeyond
        obtain rfl := Except.ok.inj h
        refine .inl ⟨rfl, fun _ _ _ hentry => ?_⟩
        obtain ⟨-, rfl, -⟩ := OutboxEntry.accepted.inj hentry
        exact hbeyond
      · obtain ⟨-, h⟩ := bind_unit_eq_ok.mp h
        cases hcommitted : element? log (sequence - retainedBaseSequence - 1) with
        | none => simp [hcommitted] at h
        | some committed =>
            simp only [hcommitted] at h
            obtain ⟨hmatches, h⟩ := bind_unit_eq_ok.mp h
            obtain ⟨-, h⟩ := bind_unit_eq_ok.mp h
            obtain rfl := Except.ok.inj h
            exact .inr ⟨rfl, committed, mem_of_element? hcommitted,
              assertProposalMatchesCommitted_eq_ok.mp hmatches⟩

theorem reconcileOutbox_reconciled {retainedBaseSequence confirmedSequence : Int}
    {log : List (CommittedOperation Operation)} {outbox kept : List (OutboxEntry Intent Operation)}
    (h : reconcileOutbox replica retainedBaseSequence confirmedSequence log outbox = .ok kept) :
    Reconciled confirmedSequence log outbox kept := by
  induction outbox generalizing kept with
  | nil =>
      obtain rfl := Except.ok.inj h
      exact ⟨List.Sublist.refl _, by simp, by simp⟩
  | cons entry outbox ih =>
      rw [reconcileOutbox] at h
      obtain ⟨keep, hkeep, h⟩ := bind_eq_ok.mp h
      obtain ⟨rest, hrest, h⟩ := bind_eq_ok.mp h
      have hreconciled := ih hrest
      obtain rfl := Except.ok.inj h
      rcases keepAfterReconciliation_eq_ok hkeep with ⟨rfl, hbeyond⟩ | ⟨rfl, hcommitted⟩
      · rw [if_pos rfl]
        refine ⟨hreconciled.sublist.cons_cons entry, fun proposal sequence operation hmem => ?_, ?_⟩
        · rcases List.mem_cons.mp hmem with hentry | hmem
          · exact hbeyond proposal sequence operation hentry.symm
          · exact hreconciled.beyond proposal sequence operation hmem
        · refine List.forall_mem_cons.mpr ⟨fun hnot => absurd List.mem_cons_self hnot, ?_⟩
          exact fun other hother hnot => hreconciled.dropped other hother fun hmem =>
            hnot (List.mem_cons_of_mem _ hmem)
      · rw [if_neg Bool.false_ne_true]
        exact ⟨hreconciled.sublist.cons entry, hreconciled.beyond,
          List.forall_mem_cons.mpr ⟨fun _ => hcommitted, hreconciled.dropped⟩⟩

/-! ### The merge -/

/-- The passes of a merge that returns. -/
structure MergePasses (replica : ReplicaInterpreter State Intent Operation ε)
    (state : ReplicaState State Intent Operation) (response : SyncResponse Operation Rejection)
    (decided : MergeOutbox Intent Operation Rejection)
    (progress : MergeProgress State Intent Operation Rejection)
    (kept : List (OutboxEntry Intent Operation)) : Prop where
  valid : ValidResponse response none
  retained : state.Retained
  base : response.requestedBaseSequence ≤ state.confirmedSequence
  decisions : DecisionPass replica response.decisions response.decisions state.outbox decided
  entries : EntryPass replica response.decisions (state.confirmedSequence - state.confirmedLog.length)
    state.outbox response.entries
    ⟨decided, state.confirmedSequence, state.confirmedLog, state.confirmedState⟩ progress
  reconciled : Reconciled progress.confirmedSequence progress.confirmedLog progress.outbox kept

theorem mergeSyncResponse_eq_ok {state : ReplicaState State Intent Operation}
    (hnodup : (state.outbox.map OutboxEntry.operationId).Nodup)
    {response : SyncResponse Operation Rejection}
    {result : MergeSyncResult State Intent Operation Rejection}
    (h : mergeSyncResponse replica state response = .ok result) :
    ∃ decided progress kept, MergePasses replica state response decided progress kept ∧ result = {
      state := { state with
        confirmedSequence := progress.confirmedSequence
        confirmedState := progress.confirmedState
        confirmedLog := progress.confirmedLog
        outbox := kept }
      newlyResolved := progress.newlyResolved
      caughtUpToObservedHead := progress.confirmedSequence ≥ response.headSequence } := by
  rw [mergeSyncResponse] at h
  obtain ⟨hvalid, h⟩ := bind_unit_eq_ok.mp h
  obtain ⟨base, hbase, h⟩ := bind_eq_ok.mp h
  obtain ⟨hrequested, h⟩ := bind_unit_eq_ok.mp h
  obtain ⟨decided, hdecided, h⟩ := bind_eq_ok.mp h
  obtain ⟨progress, hprogress, h⟩ := bind_eq_ok.mp h
  obtain ⟨kept, hkept, h⟩ := bind_eq_ok.mp h
  obtain rfl := Except.ok.inj h
  rw [assertSyncResponse_eq_ok] at hvalid
  obtain ⟨hretained, rfl⟩ := assertRetainedConfirmedLog_eq_ok.mp hbase
  rw [throwIf_eq_ok, not_lt] at hrequested
  have hpass := mergeDecisions_eq_ok hnodup hvalid.decisions.distinct hdecided
  refine ⟨decided, progress, kept, ⟨hvalid, hretained, hrequested, hpass, ?_,
    reconcileOutbox_reconciled hkept⟩, rfl⟩
  refine mergeEntries_eq_ok hnodup hvalid.page.contiguous _ ?_ hpass.nodup
    (hpass.traced.mono (List.nil_subset _)) hprogress
  change state.confirmedSequence - state.confirmedLog.length ≤ state.confirmedSequence
  omega

/-- What a replica holds after a merge that returns, whatever authority has responded. -/
structure Merged (replica : ReplicaInterpreter State Intent Operation ε)
    (state : ReplicaState State Intent Operation) (response : SyncResponse Operation Rejection)
    (next : ReplicaState State Intent Operation) : Prop where
  base : response.requestedBaseSequence ≤ state.confirmedSequence
  confirmedSequence : next.confirmedSequence = max state.confirmedSequence response.throughSequence
  confirmedLog : next.confirmedLog =
    state.confirmedLog ++ entriesBeyond state.confirmedSequence response.entries
  contiguous : ∀ (i : Nat) (entry : CommittedOperation Operation), next.confirmedLog[i]? = some entry →
    entry.sequence = next.confirmedSequence - next.confirmedLog.length + 1 + i
  overlap : ∀ received ∈ response.entries, ∀ existing ∈ state.confirmedLog,
    existing.sequence = received.sequence → existing.submission = received.submission ∧
      replica.areCommittedOperationsEqual existing.operation received.operation = true
  confirmedState : applyEntries replica state.confirmedState
    (entriesBeyond state.confirmedSequence response.entries) = .ok next.confirmedState
  outbox : List.SublistForall₂ (fun new old => Updated response.decisions old new) next.outbox state.outbox
  removed : ∀ entry ∈ state.outbox, (∀ kept ∈ next.outbox, kept.operationId ≠ entry.operationId) →
    Released response.decisions next.confirmedLog entry
  beyond : ∀ proposal sequence operation, .accepted proposal sequence operation ∈ next.outbox →
    next.confirmedSequence < sequence

namespace MergePasses

variable {state : ReplicaState State Intent Operation} {response : SyncResponse Operation Rejection}
  {decided : MergeOutbox Intent Operation Rejection}
  {progress : MergeProgress State Intent Operation Rejection}
  {kept : List (OutboxEntry Intent Operation)}
  (h : MergePasses replica state response decided progress kept)

include h

theorem confirmedSequence_eq :
    progress.confirmedSequence = max state.confirmedSequence response.throughSequence := by
  have hcursor := h.entries.confirmedSequence
  have hbase := h.base
  have hlength := h.valid.length
  change progress.confirmedSequence =
    state.confirmedSequence + (entriesBeyond state.confirmedSequence response.entries).length at hcursor
  rw [entriesBeyond_eq_drop h.valid.page.contiguous, List.length_drop] at hcursor
  omega

theorem base_eq : progress.confirmedSequence - progress.confirmedLog.length =
    state.confirmedSequence - state.confirmedLog.length := by
  have hcursor := h.entries.confirmedSequence
  have hlog := congrArg List.length h.entries.confirmedLog
  rw [List.length_append] at hlog
  dsimp only at hcursor hlog
  omega

theorem contiguous (i : Nat) (entry : CommittedOperation Operation)
    (hentry : progress.confirmedLog[i]? = some entry) :
    entry.sequence = state.confirmedSequence - state.confirmedLog.length + 1 + i := by
  rw [h.entries.confirmedLog, List.getElem?_append] at hentry
  split at hentry
  · exact h.retained.contiguous i entry hentry
  · rename_i hlater
    dsimp only at hentry hlater
    rw [entriesBeyond_eq_drop h.valid.page.contiguous, List.getElem?_drop] at hentry
    have hsequence := h.valid.page.contiguous _ entry hentry
    have hbase := h.base
    push_cast at hsequence
    omega

theorem element?_eq {entry : CommittedOperation Operation} (hentry : entry ∈ progress.confirmedLog) :
    element? progress.confirmedLog
      (entry.sequence - (state.confirmedSequence - state.confirmedLog.length) - 1) = some entry := by
  obtain ⟨i, hi⟩ := List.getElem?_of_mem hentry
  have hsequence := h.contiguous i entry hi
  rw [show entry.sequence - (state.confirmedSequence - state.confirmedLog.length) - 1 = (i : Int) by omega,
    element?_natCast]
  exact hi

theorem log_prefix : state.confirmedLog <+: progress.confirmedLog := by
  rw [h.entries.confirmedLog]
  exact List.prefix_append _ _

theorem agrees (hreflexive : replica.Reflexive) {received : CommittedOperation Operation}
    (hreceived : received ∈ response.entries)
    (habove : state.confirmedSequence - state.confirmedLog.length < received.sequence) :
    ∃ existing ∈ progress.confirmedLog, existing.sequence = received.sequence ∧
      existing.submission = received.submission ∧
      replica.areCommittedOperationsEqual existing.operation received.operation = true := by
  by_cases hold : received.sequence ≤ state.confirmedSequence
  · obtain ⟨existing, hexisting, hsame, hequal⟩ := h.entries.overlap received hreceived habove hold
    refine ⟨existing, h.log_prefix.subset (mem_of_element? hexisting), ?_, hsame, hequal⟩
    have hplace : ((received.sequence - (state.confirmedSequence - state.confirmedLog.length) - 1).toNat : Int) =
        received.sequence - (state.confirmedSequence - state.confirmedLog.length) - 1 := by omega
    rw [← hplace, element?_natCast] at hexisting
    have hsequence := h.retained.contiguous _ existing hexisting
    omega
  · refine ⟨received, ?_, rfl, rfl, hreflexive _⟩
    rw [h.entries.confirmedLog]
    exact List.mem_append_right _ (List.mem_filter.mpr ⟨hreceived, by simpa using hold⟩)

theorem traced (hnodup : (state.outbox.map OutboxEntry.operationId).Nodup) :
    Traced response.decisions progress.confirmedLog state.outbox kept := by
  refine h.entries.traced.shrink hnodup h.reconciled.sublist fun entry hentry hdropped old hupdated => ?_
  obtain ⟨committed, hcommitted, hsame⟩ := h.reconciled.dropped entry hentry hdropped
  exact .committed old committed hcommitted (hupdated.proposal_eq ▸ hsame)

theorem sublist : kept.Sublist decided.outbox := h.reconciled.sublist.trans h.entries.sublist

end MergePasses

/-- Whatever response is merged, honest or not, a merge that returns keeps the contract of the
replica. -/
theorem mergeSyncResponse_merged {state : ReplicaState State Intent Operation}
    (hnodup : (state.outbox.map OutboxEntry.operationId).Nodup)
    (response : SyncResponse Operation Rejection)
    (result : MergeSyncResult State Intent Operation Rejection)
    (hmerge : mergeSyncResponse replica state response = .ok result) :
    Merged replica state response result.state := by
  obtain ⟨decided, progress, kept, hpasses, rfl⟩ := mergeSyncResponse_eq_ok hnodup hmerge
  have htraced := hpasses.traced hnodup
  exact {
    base := hpasses.base
    confirmedSequence := hpasses.confirmedSequence_eq
    confirmedLog := hpasses.entries.confirmedLog
    contiguous := by
      intro i entry hentry
      rw [hpasses.contiguous i entry hentry, hpasses.base_eq]
    overlap := by
      intro received hreceived existing hexisting hsequence
      obtain ⟨i, hi⟩ := List.getElem?_of_mem hexisting
      obtain ⟨hlt, -⟩ := List.getElem?_eq_some_iff.mp hi
      have hplace := hpasses.retained.contiguous i existing hi
      obtain ⟨same, hsame, hidentity, hequal⟩ := hpasses.entries.overlap received hreceived (by omega)
        (by dsimp only; omega)
      dsimp only at hsame
      rw [show received.sequence - (state.confirmedSequence - state.confirmedLog.length) - 1 = (i : Int) by
        omega, element?_natCast, hi] at hsame
      obtain rfl := Option.some.inj hsame
      exact ⟨hidentity, hequal⟩
    confirmedState := hpasses.entries.confirmedState
    outbox := htraced.updated
    removed := htraced.released
    beyond := hpasses.reconciled.beyond }

def counterUnderWay : ReplicaState Int Int Int where
  clientId := "client-a"
  nextClientSequence := 4
  confirmedSequence := 1
  confirmedState := 2
  confirmedLog := [⟨1, "op-1", ⟨"client-a", 1, "test:2"⟩, 2⟩]
  outbox := [.pending (counterProposal "op-2" "client-a" 2 5), .pending (counterProposal "op-3" "client-a" 3 0)]

def pageOverRetained : SyncResponse Int String where
  requestedBaseSequence := 0
  throughSequence := 2
  headSequence := 4
  entries := [⟨1, "op-1", ⟨"client-a", 1, "test:2"⟩, 2⟩, ⟨2, "op-b", ⟨"client-b", 1, "test:7"⟩, 7⟩]
  decisions := [.accepted "op-2" 3 5, .rejected "op-3" "zero-delta"]

theorem mergeSyncResponse_merged_counter :
    ∃ result, mergeSyncResponse counterReplicaInterpreter counterUnderWay pageOverRetained = .ok result ∧
      Merged counterReplicaInterpreter counterUnderWay pageOverRetained result.state ∧
      result.state.confirmedState = 9 ∧
      result.state.outbox = [.accepted (counterProposal "op-2" "client-a" 2 5) 3 5] := by
  refine ⟨_, rfl, mergeSyncResponse_merged (by decide) pageOverRetained _ rfl, rfl, rfl⟩

/-- Merging a response once more changes nothing. -/
theorem mergeSyncResponse_again {state : ReplicaState State Intent Operation}
    (hnodup : (state.outbox.map OutboxEntry.operationId).Nodup) (hreflexive : replica.Reflexive)
    (response : SyncResponse Operation Rejection)
    (result : MergeSyncResult State Intent Operation Rejection)
    (hmerge : mergeSyncResponse replica state response = .ok result) :
    mergeSyncResponse replica result.state response =
      .ok ⟨result.state, [], result.caughtUpToObservedHead⟩ := by
  obtain ⟨decided, progress, kept, hpasses, rfl⟩ := mergeSyncResponse_eq_ok hnodup hmerge
  have hvalid := hpasses.valid
  have hbase := hpasses.base
  have hcursor := hpasses.confirmedSequence_eq
  have hfloor := hpasses.base_eq
  have hsafe := hpasses.retained.safe
  have hfits := hpasses.retained.fits
  have hkept : (kept.map OutboxEntry.operationId).Nodup :=
    hpasses.decisions.nodup.sublist (hpasses.sublist.map _)
  have hthrough := hvalid.throughLe
  have hhead := hvalid.headSafe
  -- the merged log passes the check with the same base
  have hlog : (assertRetainedConfirmedLog ({ state with
      confirmedSequence := progress.confirmedSequence
      confirmedState := progress.confirmedState
      confirmedLog := progress.confirmedLog
      outbox := kept } : ReplicaState State Intent Operation) : Result ε Int) =
        .ok (state.confirmedSequence - state.confirmedLog.length) := by
    refine assertRetainedConfirmedLog_eq_ok.mpr ⟨⟨?_, ?_, fun i entry hentry => ?_⟩, hfloor.symm⟩
    · dsimp only
      omega
    · dsimp only
      omega
    · dsimp only
      rw [hfloor]
      exact hpasses.contiguous i entry hentry
  -- every decision is settled
  have hdecisions : response.decisions.foldlM (mergeDecision replica) ⟨kept, []⟩ =
      .ok (⟨kept, []⟩ : MergeOutbox Intent Operation Rejection) := by
    refine foldlM_eq_self fun decision hdecision => mergeDecision_of_settled hkept fun entry hentry hid => ?_
    exact hpasses.decisions.settled hreflexive decision hdecision entry (hpasses.sublist.subset hentry) hid
  -- every entry is confirmed, and no outbox entry is left for it
  have hentries : response.entries.foldlM
      (mergeEntry replica (state.confirmedSequence - state.confirmedLog.length))
      ⟨⟨kept, []⟩, progress.confirmedSequence, progress.confirmedLog, progress.confirmedState⟩ =
        .ok (⟨⟨kept, []⟩, progress.confirmedSequence, progress.confirmedLog, progress.confirmedState⟩ :
          MergeProgress State Intent Operation Rejection) := by
    refine foldlM_eq_self fun received hreceived => ?_
    rw [mergeEntry]
    split
    · rfl
    · rename_i habove
      have habsent : ∀ entry ∈ kept, entry.operationId ≠ received.operationId := fun entry hentry =>
        hpasses.entries.resolved received hreceived (by omega) entry
          (hpasses.reconciled.sublist.subset hentry)
      obtain ⟨existing, hexisting, hsequence, hsame, hequal⟩ :=
        hpasses.agrees hreflexive hreceived (by omega)
      have hplace := hpasses.element?_eq hexisting
      rw [hsequence] at hplace
      have hconfirmed : received.sequence ≤ progress.confirmedSequence := by
        obtain ⟨i, hi⟩ := List.getElem?_of_mem hreceived
        obtain ⟨hlt, -⟩ := List.getElem?_eq_some_iff.mp hi
        have hpage := hvalid.page.contiguous i received hi
        have hlength := hvalid.length
        omega
      dsimp only
      rw [if_pos hconfirmed, hplace]
      dsimp only
      rw [(assertSameCommittedPosition_eq_ok (u := ())).mpr ⟨hsame, hequal⟩, ok_bind,
        resolveOutboxFromCommitted_of_absent replica habsent, ok_bind, pure_eq_ok]
  rw [mergeSyncResponse, (assertSyncResponse_eq_ok response none ()).mpr hvalid, ok_bind, hlog, ok_bind]
  dsimp only
  rw [throwIf_neg (by omega), ok_bind, hdecisions, ok_bind, hentries, ok_bind,
    reconcileOutbox_eq_ok replica _ _ hpasses.reconciled.beyond]
  rfl

theorem mergeSyncResponse_again_counter :
    ∃ result, mergeSyncResponse counterReplicaInterpreter counterUnderWay pageOverRetained = .ok result ∧
      mergeSyncResponse counterReplicaInterpreter result.state pageOverRetained =
        .ok ⟨result.state, [], result.caughtUpToObservedHead⟩ := by
  have hreflexive : counterReplicaInterpreter.Reflexive := fun operation => decide_eq_true rfl
  have hnodup : (counterUnderWay.outbox.map OutboxEntry.operationId).Nodup := by decide
  exact ⟨_, rfl, mergeSyncResponse_again hnodup hreflexive pageOverRetained _ rfl⟩

end Merge

end SyncEngine
