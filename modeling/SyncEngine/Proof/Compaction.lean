import SyncEngine.Model.Counter
import SyncEngine.Proof.Network

/-!
# Log compaction is unobservable

A run is followed next to the same run without its compactions. Both replicas have enqueued the same
operations, know the same and face the same server; only how much of the log they retain differs. No
reducer looks at the retained log beyond checks that an honest response passes, so nothing else can
tell the two runs apart.
-/

namespace SyncEngine

open JavaScript Throwing

variable {ι State Intent Operation Rejection ε : Type}

/-- The first replica is the second one with a prefix of its confirmed log deleted. -/
structure ReplicaState.Compacts (state plain : ReplicaState State Intent Operation) : Prop where
  clientId : state.clientId = plain.clientId
  nextClientSequence : state.nextClientSequence = plain.nextClientSequence
  confirmedSequence : state.confirmedSequence = plain.confirmedSequence
  confirmedState : state.confirmedState = plain.confirmedState
  outbox : state.outbox = plain.outbox
  confirmedLog : state.confirmedLog <:+ plain.confirmedLog

structure MergeSyncResult.Compacts (result plain : MergeSyncResult State Intent Operation Rejection) :
    Prop where
  state : result.state.Compacts plain.state
  newlyResolved : result.newlyResolved = plain.newlyResolved
  caughtUpToObservedHead : result.caughtUpToObservedHead = plain.caughtUpToObservedHead

def ReplicaState.withoutLog (state : ReplicaState State Intent Operation) :
    ReplicaState State Intent Operation :=
  { state with confirmedLog := [] }

theorem ReplicaState.Compacts.withoutLog_eq {state plain : ReplicaState State Intent Operation}
    (h : state.Compacts plain) : state.withoutLog = plain.withoutLog := by
  rw [withoutLog, withoutLog, h.clientId, h.nextClientSequence, h.confirmedSequence, h.confirmedState,
    h.outbox]

/-! ### The reducers of one replica -/

section Replica

variable {interpreter : LogInterpreter State Intent Operation Rejection ε} {initialState final : State}
  {ledger : Ledger Operation Rejection} (hledger : Justified interpreter initialState ledger final)
  (hsafe : ((canonicalLog ledger).length : Int) ≤ maxSafeInteger)
  {replica : ReplicaInterpreter State Intent Operation ε} {proposals : List (ProposedOperation Intent)}
  {state plain : ReplicaState State Intent Operation} {knowledge : Knowledge} {retained retained' : Nat}
  (hstate : state.Reflects replica initialState ledger proposals knowledge retained)

include hstate in
theorem ReplicaState.Reflects.withoutLog :
    state.withoutLog.Reflects replica initialState ledger proposals knowledge knowledge.through where
  known := hstate.known
  confirmedSequence := hstate.confirmedSequence
  retainedLe := Nat.le_refl _
  confirmedLog := (List.drop_eq_nil_iff.mpr (List.length_take_le _ _)).symm
  confirmedState := hstate.confirmedState
  outbox := hstate.outbox

/-- Two replicas of one client that know the same differ in how much of the log they retain. -/
theorem ReplicaState.Reflects.compacts
    (hstate : state.Reflects replica initialState ledger proposals knowledge retained)
    (hplain : plain.Reflects replica initialState ledger proposals knowledge retained')
    (hretained : retained' ≤ retained) (hclient : state.clientId = plain.clientId)
    (hnext : state.nextClientSequence = plain.nextClientSequence) : state.Compacts plain where
  clientId := hclient
  nextClientSequence := hnext
  confirmedSequence := hstate.confirmedSequence.trans hplain.confirmedSequence.symm
  confirmedState := Except.ok.inj (hstate.confirmedState.symm.trans hplain.confirmedState)
  outbox := hstate.outbox.trans hplain.outbox.symm
  confirmedLog := by
    rw [hstate.confirmedLog, hplain.confirmedLog, ← Nat.add_sub_cancel' hretained, ← List.drop_drop]
    exact List.drop_suffix _ _

include hledger hsafe hstate

theorem prepareSyncRequest_withoutLog (options : PrepareSyncRequestOptions) :
    (prepareSyncRequest state options : Result ε _) = prepareSyncRequest state.withoutLog options := by
  rw [prepareSyncRequest, hstate.assertRetainedConfirmedLog_eq_ok hledger hsafe, ok_bind,
    prepareSyncRequest, hstate.withoutLog.assertRetainedConfirmedLog_eq_ok hledger hsafe, ok_bind]
  rfl

theorem enqueueOperation_withoutLog {input : EnqueueOperationInput Intent}
    (hfresh : ∀ record ∈ ledger, record.identity.operationId ≠ input.operationId) :
    (enqueueOperation state input : Result ε _) = (do
      let next ← enqueueOperation state.withoutLog input
      return { next with confirmedLog := state.confirmedLog }) := by
  have habsent : ¬∃ entry ∈ state.confirmedLog, entry.operationId = input.operationId := by
    intro hmentioned
    obtain ⟨entry, hentry, hid⟩ := hmentioned
    rw [hstate.confirmedLog] at hentry
    obtain ⟨record, hrecord, hsome⟩ :=
      mem_canonicalLog.mp (List.mem_of_mem_take (List.mem_of_mem_drop hentry))
    exact hfresh record hrecord ((StoredProposalDecision.committed?_eq_some hsome).1.symm.trans hid)
  have hnone : ¬∃ entry ∈ ([] : List (CommittedOperation Operation)),
      entry.operationId = input.operationId := by simp
  rw [enqueueOperation, hstate.assertRetainedConfirmedLog_eq_ok hledger hsafe, enqueueOperation,
    hstate.withoutLog.assertRetainedConfirmedLog_eq_ok hledger hsafe]
  simp only [ok_bind, bind_assoc, pure_bind, habsent, ReplicaState.withoutLog, hnone, false_or]

theorem deleteCommittedLogPrefix_eq_ok {throughSequence : Int}
    {next : ReplicaState State Intent Operation} :
    (deleteCommittedLogPrefix state throughSequence : Result ε _) = .ok next ↔
      (0 ≤ throughSequence ∧ throughSequence ≤ knowledge.through) ∧
      next = { state with
        confirmedLog := ((canonicalLog ledger).take knowledge.through).drop
          (max retained throughSequence.toNat) } := by
  have hthrough := hstate.known.through
  rw [deleteCommittedLogPrefix_eq hledger hsafe hstate, bind_unit_eq_ok, bind_unit_eq_ok,
    throwIf_eq_ok, assertLogSequence_true_eq_ok, hstate.confirmedSequence, pure_eq_ok, Except.ok.injEq,
    ← and_assoc, eq_comm (b := next)]
  refine and_congr_left fun _ => ?_
  omega

/-- Deleting through one sequence and then through another is deleting through the larger one: both
succeed with the same replica, or neither succeeds. -/
theorem deleteCommittedLogPrefix_max {first second : Int} (hfirst : 0 ≤ first) (hsecond : 0 ≤ second)
    (next : ReplicaState State Intent Operation) :
    ((deleteCommittedLogPrefix state first : Result ε _) >>= fun state =>
        deleteCommittedLogPrefix state second) = .ok next ↔
      (deleteCommittedLogPrefix state (max first second) : Result ε _) = .ok next := by
  have hmax : max (max retained first.toNat) second.toNat = max retained (max first second).toNat := by
    omega
  rw [deleteCommittedLogPrefix_eq_ok hledger hsafe hstate, bind_eq_ok, ← hmax]
  constructor
  · intro h
    obtain ⟨middle, hmiddle, hnext⟩ := h
    obtain ⟨hreflects, hsame⟩ := deleteCommittedLogPrefix_reflects hledger hsafe hstate hmiddle
    obtain ⟨hbound, -⟩ := (deleteCommittedLogPrefix_eq_ok hledger hsafe hstate).mp hmiddle
    obtain ⟨hbound', rfl⟩ := (deleteCommittedLogPrefix_eq_ok hledger hsafe hreflects).mp hnext
    exact ⟨by omega, by rw [hsame]⟩
  · intro h
    obtain ⟨hbound, rfl⟩ := h
    have hmiddle : (deleteCommittedLogPrefix state first : Result ε _) = .ok _ :=
      (deleteCommittedLogPrefix_eq_ok hledger hsafe hstate).mpr ⟨by omega, rfl⟩
    have hreflects := (deleteCommittedLogPrefix_reflects hledger hsafe hstate hmiddle).1
    exact ⟨_, hmiddle, (deleteCommittedLogPrefix_eq_ok hledger hsafe hreflects).mpr ⟨by omega, rfl⟩⟩

end Replica

/-! ### The run without compactions -/

variable [DecidableEq ι] {setup : NetworkSetup ι State Intent Operation Rejection ε}
  {network plain : Network ι State Intent Operation Rejection}
  {authority : Authority setup.settings.interpreter setup.initialState} {knowledge : ι → Knowledge}
  {retained retained' : ι → Nat}

/-- The same configuration, except that the replicas of the second one may retain more. -/
structure Network.Twin (setup : NetworkSetup ι State Intent Operation Rejection ε)
    (network plain : Network ι State Intent Operation Rejection)
    (authority : Authority setup.settings.interpreter setup.initialState) (knowledge : ι → Knowledge)
    (retained retained' : ι → Nat) : Prop where
  compacted : network.Consistent setup authority knowledge retained
  uncompacted : plain.Consistent setup authority knowledge retained'
  retainedLe : ∀ i, retained' i ≤ retained i
  server : network.server = plain.server
  requests : network.requests = plain.requests
  responses : network.responses = plain.responses
  enqueued : network.enqueued = plain.enqueued

namespace Network.Twin

variable (h : network.Twin setup plain authority knowledge retained retained')

include h

theorem proposalsOf_eq (i : ι) : network.proposalsOf i = plain.proposalsOf i := by
  rw [proposalsOf, proposalsOf, h.enqueued]

theorem compacts (i : ι) : (network.replicas i).Compacts (plain.replicas i) := by
  have hparticipant := h.compacted.participants i
  have hplain := h.uncompacted.participants i
  rw [← h.proposalsOf_eq] at hplain
  exact hparticipant.reflects.compacts hplain.reflects (h.retainedLe i)
    (hparticipant.sameClient.trans hplain.sameClient.symm)
    (hparticipant.nextClientSequence.trans hplain.nextClientSequence.symm)

theorem prepareSyncRequest_eq (i : ι) (options : PrepareSyncRequestOptions) :
    (prepareSyncRequest (network.replicas i) options : Result ε _) =
      prepareSyncRequest (plain.replicas i) options := by
  rw [prepareSyncRequest_withoutLog authority.justified h.compacted.server.safe
      (h.compacted.participants i).reflects,
    prepareSyncRequest_withoutLog authority.justified h.uncompacted.server.safe
      (h.uncompacted.participants i).reflects, (h.compacts i).withoutLog_eq]

theorem mergeSyncResponse_agree {i : ι} (hreflexive : (setup.replicaInterpreter i).Reflexive)
    {response : SyncResponse Operation Rejection} (hresponse : (i, response) ∈ network.responses) :
    Agree MergeSyncResult.Compacts
      (mergeSyncResponse (setup.replicaInterpreter i) (network.replicas i) response)
      (mergeSyncResponse (setup.replicaInterpreter i) (plain.replicas i) response) := by
  have hcompacts := h.compacts i
  have haddressed := h.compacted.responses _ hresponse
  have hreflects := (h.compacted.participants i).reflects
  have hplain := (h.uncompacted.participants i).reflects
  rw [← h.proposalsOf_eq] at hplain
  have hbase : response.requestedBaseSequence ≤ (network.replicas i).confirmedSequence := by
    rw [hreflects.confirmedSequence]
    exact haddressed.base
  have hmerge := (mergeSyncResponse_unless authority.justified h.compacted.server.safe hreflects
    (h.compacted.proposals_nodup i) (h.compacted.recordsOwn i) haddressed.honest haddressed.valid
    hbase).eq_of_not (not_not.mpr hreflexive)
  have hmerge' := (mergeSyncResponse_unless authority.justified h.compacted.server.safe hplain
    (h.compacted.proposals_nodup i) (h.compacted.recordsOwn i) haddressed.honest haddressed.valid
    (hcompacts.confirmedSequence ▸ hbase)).eq_of_not (not_not.mpr hreflexive)
  rw [hmerge, hmerge', hcompacts.confirmedState]
  refine .bind_same _ fun nextState _ => .ok ?_
  exact {
    state := {
      clientId := hcompacts.clientId
      nextClientSequence := hcompacts.nextClientSequence
      confirmedSequence := rfl
      confirmedState := rfl
      outbox := rfl
      confirmedLog := by
        show List.drop _ _ <:+ List.drop _ _
        rw [← Nat.add_sub_cancel' (h.retainedLe i), ← List.drop_drop]
        exact List.drop_suffix _ _ }
    newlyResolved := rfl
    caughtUpToObservedHead := rfl }

theorem enqueue (i : ι) (input : EnqueueOperationInput Intent)
    (hfresh : ∀ entry ∈ network.enqueued, entry.2.operationId ≠ input.operationId) :
    (network.next setup (.enqueue i input)).Twin setup (plain.next setup (.enqueue i input)) authority
      knowledge retained retained' := by
  have hfresh' : ∀ entry ∈ plain.enqueued, entry.2.operationId ≠ input.operationId := h.enqueued ▸ hfresh
  have hundecided : ∀ record ∈ authority.ledger, record.identity.operationId ≠ input.operationId :=
    fun record hrecord hid => h.compacted.not_decided_of_fresh hfresh ⟨record, hrecord, hid⟩
  have hcall := enqueueOperation_withoutLog authority.justified h.compacted.server.safe
    (h.compacted.participants i).reflects hundecided
  have hcall' := enqueueOperation_withoutLog authority.justified h.uncompacted.server.safe
    (h.uncompacted.participants i).reflects hundecided
  rw [← (h.compacts i).withoutLog_eq] at hcall'
  cases hshared : (enqueueOperation (network.replicas i).withoutLog input : Result ε _) with
  | error e =>
      rw [hshared, error_bind] at hcall hcall'
      rw [next, hcall, next, hcall']
      exact h
  | ok state =>
      rw [hshared, ok_bind, pure_eq_ok] at hcall hcall'
      rw [next, hcall, next, hcall']
      exact {
        compacted := h.compacted.enqueue hcall hfresh
        uncompacted := h.uncompacted.enqueue hcall' hfresh'
        retainedLe := h.retainedLe
        server := h.server
        requests := h.requests
        responses := h.responses
        enqueued := by
          show network.enqueued ++ _ = plain.enqueued ++ _
          rw [h.enqueued] }

theorem prepare (i : ι) (options : PrepareSyncRequestOptions) :
    (network.next setup (.prepare i options)).Twin setup (plain.next setup (.prepare i options)) authority
      knowledge retained retained' := by
  have hsame := h.prepareSyncRequest_eq i options
  cases hcall : (prepareSyncRequest (plain.replicas i) options : Result ε _) with
  | error e =>
      rw [hcall] at hsame
      rw [next, hsame, next, hcall]
      exact h
  | ok request =>
      rw [hcall] at hsame
      rw [next, hsame, next, hcall]
      exact {
        compacted := h.compacted.prepare hsame
        uncompacted := h.uncompacted.prepare hcall
        retainedLe := h.retainedLe
        server := h.server
        requests := by
          show network.requests ++ _ = plain.requests ++ _
          rw [h.requests]
        responses := h.responses
        enqueued := h.enqueued }

theorem deliver (index : Nat) :
    ∃ authority', (network.next setup (.deliver index)).Twin setup (plain.next setup (.deliver index))
      authority' knowledge retained retained' := by
  cases hget : network.requests[index]? with
  | none =>
      have hget' : plain.requests[index]? = none := h.requests ▸ hget
      simp only [next, hget, hget']
      exact ⟨authority, h⟩
  | some entry =>
      obtain ⟨i, request⟩ := entry
      have hget' : plain.requests[index]? = some (i, request) := h.requests ▸ hget
      cases hcall : InMemoryLogServer.synchronize setup.settings network.server request with
      | error e =>
          have hcall' : InMemoryLogServer.synchronize setup.settings plain.server request = .error e :=
            h.server ▸ hcall
          simp only [next, hget, hget', hcall, hcall']
          exact ⟨authority, h⟩
      | ok answer =>
          obtain ⟨response, server⟩ := answer
          have hcall' : InMemoryLogServer.synchronize setup.settings plain.server request =
            .ok (response, server) := h.server ▸ hcall
          obtain ⟨authority', hcompacted, -⟩ := h.compacted.deliver (List.mem_of_getElem? hget) hcall
          obtain ⟨authority'', huncompacted, -⟩ :=
            h.uncompacted.deliver (List.mem_of_getElem? hget') hcall'
          obtain rfl : authority' = authority'' :=
            hcompacted.server.represents.authority_unique huncompacted.server.represents
          simp only [next, hget, hget', hcall, hcall']
          refine ⟨authority', ?_⟩
          exact {
            compacted := hcompacted
            uncompacted := huncompacted
            retainedLe := h.retainedLe
            server := rfl
            requests := h.requests
            responses := by
              show network.responses ++ _ = plain.responses ++ _
              rw [h.responses]
            enqueued := h.enqueued }

theorem merge (hreflexive : ∀ i, (setup.replicaInterpreter i).Reflexive) (index : Nat) :
    ∃ knowledge', (network.next setup (.merge index)).Twin setup (plain.next setup (.merge index))
      authority knowledge' retained retained' := by
  cases hget : network.responses[index]? with
  | none =>
      have hget' : plain.responses[index]? = none := h.responses ▸ hget
      simp only [next, hget, hget']
      exact ⟨knowledge, h⟩
  | some entry =>
      obtain ⟨i, response⟩ := entry
      have hget' : plain.responses[index]? = some (i, response) := h.responses ▸ hget
      have hagree := h.mergeSyncResponse_agree (hreflexive i) (List.mem_of_getElem? hget)
      cases hcall : mergeSyncResponse (setup.replicaInterpreter i) (network.replicas i) response with
      | error e =>
          have hcall' := hagree.of_left_eq_error hcall
          simp only [next, hget, hget', hcall, hcall']
          exact ⟨knowledge, h⟩
      | ok result =>
          obtain ⟨result', hcall', -⟩ := hagree.of_left_eq_ok hcall
          simp only [next, hget, hget', hcall, hcall']
          refine ⟨Function.update knowledge i (knowledge i ⊔ response.knowledge), ?_⟩
          exact {
            compacted := h.compacted.merge (List.mem_of_getElem? hget) hcall
            uncompacted := h.uncompacted.merge (List.mem_of_getElem? hget') hcall'
            retainedLe := h.retainedLe
            server := h.server
            requests := h.requests
            responses := h.responses
            enqueued := h.enqueued }

theorem compact (i : ι) (throughSequence : Int) :
    ∃ retained₁, (network.next setup (.compact i throughSequence)).Twin setup plain authority knowledge
      retained₁ retained' := by
  cases hcall : (deleteCommittedLogPrefix (network.replicas i) throughSequence : Result ε _) with
  | error e =>
      rw [next, hcall]
      exact ⟨retained, h⟩
  | ok state =>
      rw [next, hcall]
      refine ⟨Function.update retained i (max (retained i) throughSequence.toNat), ?_⟩
      exact {
        compacted := h.compacted.compact hcall
        uncompacted := h.uncompacted
        retainedLe := by
          intro j
          have hle := h.retainedLe j
          by_cases hj : j = i
          · subst hj
            rw [Function.update_self]
            exact hle.trans (Nat.le_max_left _ _)
          · rw [Function.update_of_ne hj]
            exact hle
        server := h.server
        requests := h.requests
        responses := h.responses
        enqueued := h.enqueued }

end Network.Twin

def Network.Twins (setup : NetworkSetup ι State Intent Operation Rejection ε)
    (network plain : Network ι State Intent Operation Rejection) : Prop :=
  ∃ authority knowledge retained retained',
    network.Twin setup plain authority knowledge retained retained'

theorem Network.twins_of_start (hstart : setup.system.start network) : network.Twins setup network := by
  obtain ⟨authority, knowledge, retained, h⟩ := Network.consistent_of_reachable (.of_start hstart)
  refine ⟨authority, knowledge, retained, retained, ?_⟩
  exact {
    compacted := h
    uncompacted := h
    retainedLe := fun _ => Nat.le_refl _
    server := rfl
    requests := rfl
    responses := rfl
    enqueued := rfl }

/-- An action that is no compaction is taken on both sides. -/
theorem Network.Twins.step_kept (h : network.Twins setup plain)
    (hreflexive : ∀ i, (setup.replicaInterpreter i).Reflexive) {action : NetworkAction ι Intent}
    (hkept : (!action.isCompact) = true) {network' : Network ι State Intent Operation Rejection}
    (hstep : setup.system.step network action network') :
    ∃ plain', setup.system.step plain action plain' ∧ network'.Twins setup plain' := by
  obtain ⟨authority, knowledge, retained, retained', h⟩ := h
  obtain ⟨hfresh, rfl⟩ := hstep
  have hfresh' : plain.Fresh action := by
    cases action with
    | enqueue i input =>
        show ∀ entry ∈ plain.enqueued, _
        rw [← h.enqueued]
        exact hfresh
    | _ => trivial
  refine ⟨plain.next setup action, ⟨hfresh', rfl⟩, ?_⟩
  cases action with
  | enqueue i input => exact ⟨_, _, _, _, h.enqueue i input hfresh⟩
  | prepare i options => exact ⟨_, _, _, _, h.prepare i options⟩
  | deliver index =>
      obtain ⟨authority', h'⟩ := h.deliver index
      exact ⟨_, _, _, _, h'⟩
  | merge index =>
      obtain ⟨knowledge', h'⟩ := h.merge hreflexive index
      exact ⟨_, _, _, _, h'⟩
  | compact => simp [NetworkAction.isCompact] at hkept

/-- A compaction is matched by doing nothing. -/
theorem Network.Twins.step_hidden (h : network.Twins setup plain) {action : NetworkAction ι Intent}
    (hhidden : (!action.isCompact) = false) {network' : Network ι State Intent Operation Rejection}
    (hstep : setup.system.step network action network') : network'.Twins setup plain := by
  obtain ⟨authority, knowledge, retained, retained', h⟩ := h
  obtain ⟨-, rfl⟩ := hstep
  cases action with
  | compact i throughSequence =>
      obtain ⟨retained₁, h'⟩ := h.compact i throughSequence
      exact ⟨_, _, _, _, h'⟩
  | _ => simp [NetworkAction.isCompact] at hhidden

/-- What nothing but the retained log of a replica can tell apart: the same server and messages, and
replicas that prepare, materialize and merge alike. -/
structure Network.CompactionOf (setup : NetworkSetup ι State Intent Operation Rejection ε)
    (network plain : Network ι State Intent Operation Rejection) : Prop where
  server : network.server = plain.server
  requests : network.requests = plain.requests
  responses : network.responses = plain.responses
  replicas : ∀ i, (network.replicas i).Compacts (plain.replicas i)
  prepared : ∀ i options, (prepareSyncRequest (network.replicas i) options : Result ε _) =
    prepareSyncRequest (plain.replicas i) options
  materialized : ∀ i,
    materializeOptimisticState (setup.replicaInterpreter i) (network.replicas i) =
      materializeOptimisticState (setup.replicaInterpreter i) (plain.replicas i)
  merged : ∀ i response, (i, response) ∈ network.responses → Agree MergeSyncResult.Compacts
    (mergeSyncResponse (setup.replicaInterpreter i) (network.replicas i) response)
    (mergeSyncResponse (setup.replicaInterpreter i) (plain.replicas i) response)
  deleted : ∀ i (first second : Int), 0 ≤ first → 0 ≤ second → ∀ state,
    ((deleteCommittedLogPrefix (network.replicas i) first : Result ε _) >>= fun state =>
        deleteCommittedLogPrefix state second) = .ok state ↔
      (deleteCommittedLogPrefix (network.replicas i) (max first second) : Result ε _) = .ok state

theorem Network.Twin.compactionOf (h : network.Twin setup plain authority knowledge retained retained')
    (hreflexive : ∀ i, (setup.replicaInterpreter i).Reflexive) : network.CompactionOf setup plain where
  server := h.server
  requests := h.requests
  responses := h.responses
  replicas := h.compacts
  prepared := h.prepareSyncRequest_eq
  materialized i := by
    rw [materializeOptimisticState, materializeOptimisticState, (h.compacts i).outbox,
      (h.compacts i).confirmedState]
  merged i _ hresponse := h.mergeSyncResponse_agree (hreflexive i) hresponse
  deleted i _ _ hfirst hsecond := deleteCommittedLogPrefix_max authority.justified
    h.compacted.server.safe (h.compacted.participants i).reflects hfirst hsecond

/-- Log compaction is unobservable: every run has a twin that takes the same actions except the
compactions, and whatever that leads to is, up to the retained logs, where the run itself leads. -/
theorem compaction_unobservable (setup : NetworkSetup ι State Intent Operation Rejection ε)
    (hreflexive : ∀ i, (setup.replicaInterpreter i).Reflexive)
    {start network : Network ι State Intent Operation Rejection} (hstart : setup.system.start start)
    {actions : List (NetworkAction ι Intent)} (hpath : setup.system.Path start actions network) :
    ∃! plain, setup.system.Path start (actions.filter fun action => !action.isCompact) plain ∧
      network.CompactionOf setup plain := by
  obtain ⟨plain, hplain, authority, knowledge, retained, retained', h⟩ :=
    hpath.erase (T := setup.system) (R := Network.Twins setup)
      (fun _ _ _ _ h hkept hstep => h.step_kept hreflexive hkept hstep)
      (fun _ _ _ _ h hhidden hstep => h.step_hidden hhidden hstep) (Network.twins_of_start hstart)
  refine ⟨plain, ⟨hplain, h.compactionOf hreflexive⟩, fun other hother => ?_⟩
  -- The steps are functions, so the twin is the only one.
  refine hother.1.deterministic ?_ hplain
  intro _ _ _ _ hstep hstep'
  exact hstep.2.trans hstep'.2.symm

theorem compaction_unobservable_counter :
    ((counterAfter counterActions).replicas true).confirmedLog = [] ∧
    ∃! plain, counterSetup.system.Path counterStart
        (counterActions.filter fun action => !action.isCompact) plain ∧
      (counterAfter counterActions).CompactionOf counterSetup plain :=
  ⟨rfl, compaction_unobservable counterSetup (fun _ _ => decide_eq_true rfl) counterStart_start
    (counterSetup.path_run counterActions_fresh)⟩

end SyncEngine
