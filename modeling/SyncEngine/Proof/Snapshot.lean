import SyncEngine.Model.Snapshot
import SyncEngine.Proof.AuthorityRun

/-!
# Restarting the in-memory authority

A snapshot of a server that stands for a justified ledger passes every check of the constructor, and
the decisions it lists rebuild both indexes in the order they were filled in. The restored server is
the server the snapshot was taken from, so a life with restarts is the life without them.
-/

namespace SyncEngine

open JavaScript Throwing

variable {State Intent Operation Rejection ε : Type}

/-! ### The log of a snapshot -/

theorem assertLogEntry_eq_ok (seen next : ContiguousLogIndex) (entry : CommittedOperation Operation) :
    (assertLogEntry seen entry : Result ε ContiguousLogIndex) = .ok next ↔
      entry.Valid ∧ entry.sequence = seen.index + 1 ∧ entry.operationId ∉ seen.operationIds ∧
      seen.operationIdByClientPosition.get? entry.positionKey = none ∧
      next = {
        index := seen.index + 1
        operationIds := insert entry.operationId seen.operationIds
        operationIdByClientPosition :=
          seen.operationIdByClientPosition.set entry.positionKey entry.operationId } := by
  have hfree (existing : Option String) (u : Unit) :
      (assertLogPositionFree existing entry : Result ε Unit) = .ok u ↔ existing = none := by
    cases existing <;> simp [assertLogPositionFree]
  simp only [assertLogEntry, bind_unit_eq_ok, assertCommittedOperation_eq_ok, throwIf_eq_ok, hfree,
    ne_eq, not_not, pure_eq_ok, Except.ok.injEq, CommittedOperation.positionKey, eq_comm (b := next)]

theorem assertLogEntries_eq_ok (seen : ContiguousLogIndex) (log : List (CommittedOperation Operation)) :
    (∃ last, (log.foldlM assertLogEntry seen : Result ε ContiguousLogIndex) = .ok last) ↔
      ValidPage (seen.index + 1) log ∧ ∀ entry ∈ log, entry.operationId ∉ seen.operationIds ∧
        seen.operationIdByClientPosition.get? entry.positionKey = none := by
  induction log generalizing seen with
  | nil => exact ⟨fun _ => ⟨⟨by simp, by simp, List.Pairwise.nil⟩, by simp⟩, fun _ => ⟨seen, rfl⟩⟩
  | cons entry log ih =>
      simp only [List.foldlM_cons, bind_eq_ok, assertLogEntry_eq_ok]
      constructor
      · intro hparts
        obtain ⟨last, _, ⟨hvalid, hsequence, hfreshId, hfreshKey, rfl⟩, hrest⟩ := hparts
        obtain ⟨hpage, hindex⟩ := (ih _).mp ⟨last, hrest⟩
        simp only [Finset.mem_insert, not_or, InsertionMap.get?_set] at hindex
        refine ⟨⟨List.forall_mem_cons.mpr ⟨hvalid, hpage.valid⟩, ?_, ?_⟩,
          List.forall_mem_cons.mpr ⟨⟨hfreshId, hfreshKey⟩, fun later hlater => ⟨(hindex later hlater).1.2, ?_⟩⟩⟩
        · intro i found hfound
          cases i with
          | zero =>
              obtain rfl := Option.some.inj hfound
              simpa using hsequence
          | succ i =>
              have := hpage.contiguous i found hfound
              push_cast at this ⊢
              omega
        · refine List.pairwise_cons.mpr ⟨fun later hlater => ⟨fun he => ?_, fun he => ?_⟩, hpage.distinct⟩
          · exact (hindex later hlater).1.1 he.symm
          · have := (hindex later hlater).2
            rw [if_pos (CommittedOperation.positionKey_eq_iff.mpr he.symm)] at this
            simp at this
        · have := (hindex later hlater).2
          split at this
          · simp at this
          · exact this
      · intro hparts
        obtain ⟨⟨hvalid, hcontiguous, hdistinct⟩, hfresh⟩ := hparts
        rw [List.forall_mem_cons] at hvalid hfresh
        rw [List.pairwise_cons] at hdistinct
        have hrest : ∀ later ∈ log, later.operationId ∉ insert entry.operationId seen.operationIds ∧
            (seen.operationIdByClientPosition.set entry.positionKey entry.operationId).get?
              later.positionKey = none := by
          intro later hlater
          obtain ⟨hid, hposition⟩ := hdistinct.1 later hlater
          rw [Finset.mem_insert, not_or, InsertionMap.get?_set,
            if_neg fun he => hposition (CommittedOperation.positionKey_eq_iff.mp he).symm]
          exact ⟨⟨fun he => hid he.symm, (hfresh.2 later hlater).1⟩, (hfresh.2 later hlater).2⟩
        have hpage : ValidPage ((seen.index + 1 : Nat) + 1) log := by
          refine ⟨hvalid.2, fun i found hfound => ?_, hdistinct.2⟩
          have := hcontiguous (i + 1) found hfound
          push_cast at this ⊢
          omega
        obtain ⟨last, hlast⟩ := (ih ⟨_, _, _⟩).mpr ⟨hpage, hrest⟩
        refine ⟨last, _, ⟨hvalid.1, ?_, hfresh.1.1, hfresh.1.2, rfl⟩, hlast⟩
        simpa using hcontiguous 0 entry rfl

theorem assertContiguousLog_eq_ok (log : List (CommittedOperation Operation)) (u : Unit) :
    (assertContiguousLog log : Result ε Unit) = .ok u ↔ ValidPage 1 log := by
  have hloop := assertLogEntries_eq_ok (ε := ε) ⟨0, ∅, InsertionMap.empty⟩ log
  simp only [Finset.notMem_empty, not_false_eq_true, InsertionMap.get?_empty, and_self, implies_true,
    and_true] at hloop
  change _ ↔ ValidPage 1 log at hloop
  rw [← hloop, assertContiguousLog, bind_eq_ok]
  exact exists_congr fun last => and_iff_left rfl

/-- The log of a justified ledger with a safe head is one valid page. -/
theorem Justified.validLog {interpreter : LogInterpreter State Intent Operation Rejection ε}
    {initialState state : State} {ledger : Ledger Operation Rejection}
    (h : Justified interpreter initialState ledger state)
    (hsafe : ((canonicalLog ledger).length : Int) ≤ maxSafeInteger) :
    ValidPage 1 (canonicalLog ledger) where
  valid := by
    intro entry hentry
    obtain ⟨i, hi⟩ := List.getElem?_of_mem hentry
    obtain ⟨hlt, -⟩ := List.getElem?_eq_some_iff.mp hi
    exact h.entry_valid hi (by omega)
  contiguous := by
    intro i entry hentry
    rw [h.sequence_eq hentry, Int.add_comm]
  distinct := h.log_distinct

/-! ### The decisions of a snapshot -/

namespace InMemoryLogServer

/-- What the constructor asks of a stored decision by itself. -/
structure Restorable (record : StoredProposalDecision Operation Rejection) : Prop where
  identity : record.identity.Valid
  own : record.decision.operationId = record.identity.operationId
  sequence : ∀ entry, record.committed? = some entry →
    1 ≤ entry.sequence ∧ entry.sequence ≤ maxSafeInteger

theorem assertStoredSequence_eq_ok (record : StoredProposalDecision Operation Rejection) (u : Unit) :
    (assertStoredSequence record.decision : Result ε Unit) = .ok u ↔
      ∀ entry, record.committed? = some entry →
        1 ≤ entry.sequence ∧ entry.sequence ≤ maxSafeInteger := by
  obtain ⟨identity, decision⟩ := record
  cases decision with
  | rejected => simp [assertStoredSequence, StoredProposalDecision.committed?]
  | accepted operationId sequence operation =>
      simp [assertStoredSequence, StoredProposalDecision.committed?]

/-- Both indexes with one more record. -/
def withRecord (server : InMemoryLogServer State Operation Rejection)
    (record : StoredProposalDecision Operation Rejection) : InMemoryLogServer State Operation Rejection :=
  { server with
    decisionsByOperationId := server.decisionsByOperationId.set record.identity.operationId record
    operationIdByClientPosition := server.operationIdByClientPosition.set
      record.identity.clientPositionKey record.identity.operationId }

section Restore

variable {server next : InMemoryLogServer State Operation Rejection} {done rest : Ledger Operation Rejection}
  {record : StoredProposalDecision Operation Rejection}

/-- A record is restored when it is valid by itself and new in both indexes. -/
theorem restoreDecision_eq_ok (hdecisions : server.decisionsByOperationId.entries = decisionRows done)
    (hpositions : server.operationIdByClientPosition.entries = positionRows done) :
    (restoreDecision server record : Result ε _) = .ok next ↔
      Restorable record ∧ Undecided done record.identity.toOperationIdentity ∧
        next = server.withRecord record := by
  have hget := get?_of_decisionRows hdecisions record.identity.operationId
  have hposition := get?_of_positionRows hpositions record.identity.toOperationIdentity
  have hfree : (assertRestoredPositionFree
      (server.operationIdByClientPosition.get? record.identity.clientPositionKey) record.identity :
        Result ε Unit) = .ok () ↔ ∀ other ∈ done,
          (done.find? fun found => found.identity.position = record.identity.position) = some other →
            other.identity.operationId = record.identity.operationId := by
    rw [hposition]
    cases hfind : done.find? fun found => found.identity.position = record.identity.position with
    | none => simp [assertRestoredPositionFree]
    | some other =>
        have hmem := List.mem_of_find?_eq_some hfind
        simp only [assertRestoredPositionFree, Option.map_some, throwIf_eq_ok, ne_eq, not_not,
          Option.some.injEq]
        exact ⟨fun h _ _ he => he ▸ h, fun h => h other hmem rfl⟩
  simp only [restoreDecision, bind_unit_eq_ok, assertSubmissionIdentity_eq_ok, assertNonEmptyString_eq_ok,
    throwIf_eq_ok, assertStoredSequence_eq_ok, hfree, hget, ne_eq, not_not, pure_eq_ok, Except.ok.injEq,
    Bool.not_eq_true, Option.isSome_eq_false_iff, Option.isNone_iff_eq_none, KeyedList.find?_eq_none_iff]
  constructor
  · intro hparts
    obtain ⟨hvalid, -, hown, hsequence, hids, hpositions, rfl⟩ := hparts
    refine ⟨⟨hvalid, hown, hsequence⟩, fun other hother => ⟨hids other hother, fun he => ?_⟩, rfl⟩
    cases hfind : done.find? fun found => found.identity.position = record.identity.position with
    | none => exact KeyedList.find?_eq_none_iff.mp hfind other hother he
    | some occupant =>
        have hmem := List.mem_of_find?_eq_some hfind
        exact hids occupant hmem (hpositions occupant hmem hfind)
  · intro hparts
    obtain ⟨⟨hvalid, hown, hsequence⟩, hundecided, rfl⟩ := hparts
    refine ⟨hvalid, hown ▸ hvalid.operationId, hown, hsequence, fun other hother => (hundecided other hother).1,
      fun other hother hfind => absurd ?_ (hundecided other hother).2, rfl⟩
    have hoccupies := List.find?_some hfind
    exact of_decide_eq_true hoccupies

/-- A record that is new in both indexes is appended to both. -/
theorem withRecord_rows (hdecisions : server.decisionsByOperationId.entries = decisionRows done)
    (hpositions : server.operationIdByClientPosition.entries = positionRows done)
    (hundecided : Undecided done record.identity.toOperationIdentity) :
    (server.withRecord record).decisionsByOperationId.entries = decisionRows (done ++ [record]) ∧
      (server.withRecord record).operationIdByClientPosition.entries = positionRows (done ++ [record]) := by
  have hfreshId : server.decisionsByOperationId.get? record.identity.operationId = none := by
    rw [get?_of_decisionRows hdecisions, KeyedList.find?_eq_none_iff]
    intro other hother
    exact (hundecided other hother).1
  have hfreshKey :
      server.operationIdByClientPosition.get? record.identity.clientPositionKey = none := by
    rw [get?_of_positionRows hpositions, Option.map_eq_none_iff, KeyedList.find?_eq_none_iff]
    intro other hother
    exact (hundecided other hother).2
  refine ⟨?_, ?_⟩
  · rw [withRecord, InsertionMap.entries_set_of_fresh _ _ _ hfreshId, hdecisions, decisionRows,
      decisionRows, List.map_append]
    rfl
  · rw [withRecord, InsertionMap.entries_set_of_fresh _ _ _ hfreshKey, hpositions, positionRows,
      positionRows, List.map_append]
    rfl

/-- The fold over the decisions of a snapshot returns when each is valid by itself and none repeats an
operation or a position. It fills both indexes in the order of the decisions. -/
theorem foldlM_restoreDecision_eq_ok
    (hdecisions : server.decisionsByOperationId.entries = decisionRows done)
    (hpositions : server.operationIdByClientPosition.entries = positionRows done) :
    (rest.foldlM restoreDecision server : Result ε _) = .ok next ↔
      (∀ record ∈ rest, Restorable record) ∧
      (∀ record ∈ rest, Undecided done record.identity.toOperationIdentity) ∧
      (rest.Pairwise fun earlier later => earlier.identity.operationId ≠ later.identity.operationId ∧
        earlier.identity.position ≠ later.identity.position) ∧
      next.state = server.state ∧ next.log = server.log ∧
      next.decisionsByOperationId.entries = decisionRows (done ++ rest) ∧
      next.operationIdByClientPosition.entries = positionRows (done ++ rest) := by
  induction rest generalizing server done with
  | nil =>
      rw [List.append_nil, ← hdecisions, ← hpositions]
      constructor
      · intro h
        obtain rfl := Except.ok.inj h
        simp
      · intro hparts
        obtain ⟨-, -, -, hstate, hlog, hrows, hrows'⟩ := hparts
        obtain ⟨state, log, decisions, positions⟩ := next
        obtain rfl := hstate
        obtain rfl := hlog
        obtain rfl : decisions = server.decisionsByOperationId := InsertionMap.ext hrows
        obtain rfl : positions = server.operationIdByClientPosition := InsertionMap.ext hrows'
        rfl
  | cons record rest ih =>
      simp only [List.foldlM_cons, bind_eq_ok, restoreDecision_eq_ok hdecisions hpositions,
        List.forall_mem_cons, List.pairwise_cons]
      rw [List.append_cons]
      -- a later record is new after this one when it is new now and differs from this one
      have hlater : (∀ later ∈ rest, Undecided (done ++ [record]) later.identity.toOperationIdentity) ↔
          (∀ later ∈ rest, Undecided done later.identity.toOperationIdentity) ∧
          ∀ later ∈ rest, record.identity.operationId ≠ later.identity.operationId ∧
            record.identity.position ≠ later.identity.position := by
        simp only [Undecided, List.forall_mem_append, List.forall_mem_singleton, ← forall₂_and]
      constructor
      · intro hparts
        obtain ⟨_, ⟨hrecord, hundecided, rfl⟩, hrest⟩ := hparts
        obtain ⟨hrows, hrows'⟩ := withRecord_rows hdecisions hpositions hundecided
        obtain ⟨hrestorable, hfresh, hpairwise, hend⟩ := (ih hrows hrows').mp hrest
        obtain ⟨hfresh, hapart⟩ := hlater.mp hfresh
        exact ⟨⟨hrecord, hrestorable⟩, ⟨hundecided, hfresh⟩, ⟨hapart, hpairwise⟩, hend⟩
      · intro hparts
        obtain ⟨⟨hrecord, hrestorable⟩, ⟨hundecided, hfresh⟩, ⟨hapart, hpairwise⟩, hend⟩ := hparts
        obtain ⟨hrows, hrows'⟩ := withRecord_rows hdecisions hpositions hundecided
        refine ⟨_, ⟨hrecord, hundecided, rfl⟩, (ih hrows hrows').mpr ?_⟩
        exact ⟨hrestorable, hlater.mpr ⟨hfresh, hapart⟩, hpairwise, hend⟩

end Restore

/-! ### The checks between the log and the decisions -/

theorem assertIdentityMatchesEntry_of_committed? {record : StoredProposalDecision Operation Rejection}
    {entry : CommittedOperation Operation} (h : record.committed? = some entry) :
    (assertIdentityMatchesEntry record.identity entry : Result ε Unit) = .ok () := by
  obtain ⟨hid, horigin, -⟩ := StoredProposalDecision.committed?_eq_some h
  rw [assertIdentityMatchesEntry, throwIf_eq_ok, hid, horigin]
  simp

variable {settings : LogServerSettings State Intent Operation Rejection ε} {initialState : State}
  {server : InMemoryLogServer State Operation Rejection}
  {authority : Authority settings.interpreter initialState}

theorem validateRestoredEntry_eq_ok (hserver : server.Represents authority.toBooks)
    {entry : CommittedOperation Operation} (hentry : entry ∈ server.log) :
    (server.validateRestoredEntry entry : Result ε Unit) = .ok () := by
  rw [hserver.log] at hentry
  have hrecord := authority.justified.mem_log_iff.mp hentry
  have hget : server.decisionsByOperationId.get? entry.operationId = some entry.decisionRecord := by
    rw [get?_of_decisionRows hserver.decisions]
    exact (KeyedList.find?_eq_some_iff authority.justified.operationIds_nodup).mpr ⟨hrecord, rfl⟩
  have hcommitted : (entry.decisionRecord : StoredProposalDecision Operation Rejection).committed? =
      some entry := rfl
  rw [validateRestoredEntry, hget]
  exact bind_unit_eq_ok.mpr
    ⟨throwIf_neg fun h => h rfl, assertIdentityMatchesEntry_of_committed? hcommitted⟩

theorem validateRestoredDecision_eq_ok (hserver : server.Represents authority.toBooks)
    {record : StoredProposalDecision Operation Rejection} (hrecord : record ∈ authority.ledger) :
    (server.validateRestoredDecision record : Result ε Unit) = .ok () := by
  rw [validateRestoredDecision]
  cases hdecision : record.decision with
  | rejected => rfl
  | accepted operationId sequence operation =>
      have hcommitted := StoredProposalDecision.committed?_of_accepted hdecision
      obtain ⟨i, hi, hsequence⟩ := authority.justified.getElem?_of_committed? hrecord hcommitted
      change sequence = i + 1 at hsequence
      have hindex : sequence - 1 = i := by omega
      have helement := (element?_natCast authority.log i).trans hi
      rw [← hserver.log] at helement
      simp only [hindex, helement]
      exact bind_unit_eq_ok.mpr
        ⟨throwIf_neg fun h => h rfl, assertIdentityMatchesEntry_of_committed? hcommitted⟩

theorem validateRestoredSnapshot_eq_ok (hserver : server.Represents authority.toBooks) :
    (server.validateRestoredSnapshot : Result ε Unit) = .ok () := by
  rw [validateRestoredSnapshot]
  refine bind_unit_eq_ok.mpr ⟨forM_eq_ok fun entry hentry => ?_, forM_eq_ok fun record hrecord => ?_⟩
  · exact validateRestoredEntry_eq_ok hserver hentry
  · rw [hserver.values_eq] at hrecord
    exact validateRestoredDecision_eq_ok hserver hrecord

/-! ### Restoring -/

theorem Justified.restorable {interpreter : LogInterpreter State Intent Operation Rejection ε}
    {state : State} {ledger : Ledger Operation Rejection}
    (h : Justified interpreter initialState ledger state)
    (hsafe : ((canonicalLog ledger).length : Int) ≤ maxSafeInteger)
    {record : StoredProposalDecision Operation Rejection} (hrecord : record ∈ ledger) :
    Restorable record where
  identity := h.valid record hrecord
  own := h.decision_operationId record hrecord
  sequence := by
    intro entry hentry
    have hvalid := (h.validLog hsafe).valid entry (mem_canonicalLog.mpr ⟨record, hrecord, hentry⟩)
    exact ⟨hvalid.sequence, hvalid.sequenceSafe⟩

/-- The constructor rebuilds the server that the snapshot was taken from. -/
theorem restore_snapshot {options : InMemoryLogServerOptions State Intent Operation Rejection ε}
    {fresh : InMemoryLogServer State Operation Rejection}
    (hcreate : create options = .ok (settings, fresh)) (hserver : server.Holds authority) :
    restore options server.snapshot = .ok (settings, server) := by
  obtain ⟨limits, hlimits, hfields⟩ := bind_eq_ok.mp hcreate
  obtain ⟨rfl, -⟩ := Prod.mk.inj (Except.ok.inj hfields)
  have hjustified := authority.justified
  have hrepresents := hserver.represents
  have hlog : (assertContiguousLog server.snapshot.log : Result ε Unit) = .ok () := by
    rw [assertContiguousLog_eq_ok, snapshot, hrepresents.log]
    exact hjustified.validLog hserver.safe
  have hvalues : server.snapshot.decisions = authority.ledger := hrepresents.values_eq
  have hfold : (server.snapshot.decisions.foldlM restoreDecision
      { initial server.snapshot.materializedState with log := server.snapshot.log } : Result ε _) =
        .ok server := by
    rw [hvalues]
    refine (foldlM_restoreDecision_eq_ok (show _ = decisionRows [] from rfl) rfl).mpr
      ⟨?_, ?_, hjustified.pairwise_identity,
      rfl, rfl, hrepresents.decisions, hrepresents.positions⟩
    · exact fun record hrecord => Justified.restorable hjustified hserver.safe hrecord
    · exact fun record _ other hother => absurd hother List.not_mem_nil
  rw [restore, hlimits, ok_bind, hlog, ok_bind]
  refine bind_eq_ok.mpr ⟨server, hfold, bind_unit_eq_ok.mpr ⟨?_, rfl⟩⟩
  exact validateRestoredSnapshot_eq_ok hrepresents

theorem create_holds {options : InMemoryLogServerOptions State Intent Operation Rejection ε}
    {fresh : InMemoryLogServer State Operation Rejection}
    (hcreate : create options = .ok (settings, fresh)) :
    fresh.Holds (emptyAuthority settings options.initialState) := by
  obtain ⟨limits, -, hfields⟩ := bind_eq_ok.mp hcreate
  obtain ⟨rfl, rfl⟩ := Prod.mk.inj (Except.ok.inj hfields)
  exact initial_holds _ _

theorem create_resolved {options : InMemoryLogServerOptions State Intent Operation Rejection ε}
    {fresh : InMemoryLogServer State Operation Rejection}
    (hcreate : create options = .ok (settings, fresh)) : settings.limits.Resolved := by
  obtain ⟨limits, hlimits, hfields⟩ := bind_eq_ok.mp hcreate
  obtain ⟨rfl, rfl⟩ := Prod.mk.inj (Except.ok.inj hfields)
  exact resolveProtocolLimits_resolved hlimits

/-- A restart changes nothing, so a life with restarts gives the answers of its requests alone. -/
theorem live_eq {options : InMemoryLogServerOptions State Intent Operation Rejection ε}
    {fresh : InMemoryLogServer State Operation Rejection}
    (hcreate : create options = .ok (settings, fresh)) (hserver : server.Holds authority)
    (events : List (Event Intent)) :
    live options settings server events =
      .ok (server.answers settings (events.filterMap Event.request?), settings,
        run settings server (events.filterMap Event.request?)) := by
  induction events generalizing server authority with
  | nil => rfl
  | cons event events ih =>
      cases event with
      | synchronize request =>
          obtain ⟨authority', hnext, -⟩ := afterSynchronize_holds hserver request
          rw [live, ih hnext]
          rfl
      | restart =>
          rw [live, restore_snapshot hcreate hserver]
          exact ih hserver

theorem ObservablyEqual.refl (settings : LogServerSettings State Intent Operation Rejection ε)
    (server : InMemoryLogServer State Operation Rejection) :
    ObservablyEqual settings server server where
  answers _ := rfl
  headSequence _ := rfl
  committedLog _ := rfl
  materializedState _ := rfl
  getDecision _ _ := rfl
  snapshot _ := rfl

/-- Restoring a snapshot of a reachable server never throws, and nobody can tell the restored server
from the original; nor a server that is restarted at arbitrary points from one that never is. -/
theorem restart_invisible {options : InMemoryLogServerOptions State Intent Operation Rejection ε}
    {settings : LogServerSettings State Intent Operation Rejection ε}
    {fresh : InMemoryLogServer State Operation Rejection}
    (hcreate : create options = .ok (settings, fresh)) :
    (∀ requests : List (SyncRequest Intent), ∃ restored,
      restore options (run settings fresh requests).snapshot = .ok (settings, restored) ∧
      ObservablyEqual settings (run settings fresh requests) restored) ∧
    ∀ events : List (Event Intent), ∃ last,
      live options settings fresh events =
        .ok (fresh.answers settings (events.filterMap Event.request?), settings, last) ∧
      ObservablyEqual settings (run settings fresh (events.filterMap Event.request?)) last := by
  refine ⟨fun requests => ?_, fun events => ?_⟩
  · obtain ⟨authority, hserver, -⟩ := run_holds (create_holds hcreate) requests
    exact ⟨_, restore_snapshot hcreate hserver, .refl _ _⟩
  · exact ⟨_, live_eq hcreate (create_holds hcreate) events, .refl _ _⟩

/-- The counter, restarted between an accepted and a rejected delta. -/
theorem restart_invisible_counter :
    let request (sequence delta : Int) :=
      counterRequest 0 [counterProposal s!"op-{sequence}" "client-a" sequence delta]
    let events := [.synchronize (request 1 2), .restart, .restart, .synchronize (request 2 0),
      .restart, .synchronize (request 1 2)]
    ∃ last, live counterOptions counterSettings (initial 0) events =
        .ok ((initial 0).answers counterSettings (events.filterMap Event.request?),
          counterSettings, last) ∧
      ObservablyEqual counterSettings
        (run counterSettings (initial 0) (events.filterMap Event.request?)) last := by
  intro request events
  have hcreate : create counterOptions = .ok (counterSettings, initial 0) := rfl
  exact (restart_invisible hcreate).2 events

end InMemoryLogServer

end SyncEngine
