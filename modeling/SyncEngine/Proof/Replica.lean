import SyncEngine.Proof.Merge

/-!
# A replica reflects the ledger

The whole state of a replica, as a function of what it enqueued, what it knows and how much of its
log it still retains. Every reducer of the replica is a step of this function: enqueueing adds a
proposal, a merge joins knowledge, compaction retains less.
-/

namespace SyncEngine

open JavaScript Throwing

variable {State Intent Operation Rejection ε : Type}

/-- The replica has enqueued `proposals`, knows the ledger as far as `knowledge` says and has dropped
the first `retained` entries of its confirmed log. -/
structure ReplicaState.Reflects (state : ReplicaState State Intent Operation)
    (replica : ReplicaInterpreter State Intent Operation ε) (initialState : State)
    (ledger : Ledger Operation Rejection) (proposals : List (ProposedOperation Intent))
    (knowledge : Knowledge) (retained : Nat) : Prop where
  known : knowledge.From ledger
  confirmedSequence : state.confirmedSequence = knowledge.through
  retainedLe : retained ≤ knowledge.through
  confirmedLog : state.confirmedLog = ((canonicalLog ledger).take knowledge.through).drop retained
  confirmedState : applyEntries replica initialState ((canonicalLog ledger).take knowledge.through) =
    .ok state.confirmedState
  outbox : state.outbox = outboxOf ledger knowledge proposals

def SyncResponse.knowledge (response : SyncResponse Operation Rejection) : Knowledge where
  through := response.throughSequence.toNat
  decided := decidedIds response.decisions

def newEntries (ledger : Ledger Operation Rejection) (knowledge : Knowledge)
    (response : SyncResponse Operation Rejection) : List (CommittedOperation Operation) :=
  ((canonicalLog ledger).take response.knowledge.through).drop knowledge.through

/-- The notifications of a merge: decisions first, then what only the entries tell. -/
def announcements (ledger : Ledger Operation Rejection) (proposals : List (ProposedOperation Intent))
    (knowledge : Knowledge) (response : SyncResponse Operation Rejection) :
    List (ProposalDecision Operation Rejection) :=
  response.decisions.flatMap (announce (outboxOf ledger knowledge proposals)) ++
    (newEntries ledger knowledge response).flatMap fun entry =>
      announce (outboxOf ledger (knowledge.learnAll response.knowledge.decided) proposals)
        entry.decision

def mergedResult (state : ReplicaState State Intent Operation) (ledger : Ledger Operation Rejection)
    (proposals : List (ProposedOperation Intent)) (knowledge : Knowledge) (retained : Nat)
    (response : SyncResponse Operation Rejection) (confirmedState : State) :
    MergeSyncResult State Intent Operation Rejection where
  state := { state with
    confirmedSequence := (knowledge ⊔ response.knowledge).through
    confirmedState := confirmedState
    confirmedLog := ((canonicalLog ledger).take (knowledge ⊔ response.knowledge).through).drop retained
    outbox := outboxOf ledger (knowledge ⊔ response.knowledge) proposals }
  newlyResolved := announcements ledger proposals knowledge response
  caughtUpToObservedHead :=
    ((knowledge ⊔ response.knowledge).through : Int) ≥ response.headSequence

theorem assertSequencesFrom_eq_ok {first : Int} {entries : List (CommittedOperation Operation)} {u : Unit} :
    (assertSequencesFrom first entries : Result ε Unit) = .ok u ↔
      ∀ (i : Nat) (entry : CommittedOperation Operation), entries[i]? = some entry →
        entry.sequence = first + i := by
  induction entries generalizing first with
  | nil => simp [assertSequencesFrom]
  | cons entry entries ih =>
      rw [assertSequencesFrom, bind_unit_eq_ok, throwIf_eq_ok, not_not, ih]
      constructor
      · intro hparts i later hlater
        cases i with
        | zero =>
            obtain rfl := Option.some.inj hlater
            simpa using hparts.1
        | succ i =>
            have := hparts.2 i later hlater
            push_cast
            omega
      · intro hsequences
        refine ⟨by simpa using hsequences 0 entry rfl, fun i later hlater => ?_⟩
        have := hsequences (i + 1) later hlater
        push_cast at this
        omega

/-- The retained logs that pass their check: contiguous, ending at the cursor. -/
structure ReplicaState.Retained (state : ReplicaState State Intent Operation) : Prop where
  safe : state.confirmedSequence ≤ maxSafeInteger
  fits : (state.confirmedLog.length : Int) ≤ state.confirmedSequence
  contiguous : ∀ (i : Nat) (entry : CommittedOperation Operation), state.confirmedLog[i]? = some entry →
    entry.sequence = state.confirmedSequence - state.confirmedLog.length + 1 + i

theorem assertRetainedConfirmedLog_eq_ok {state : ReplicaState State Intent Operation} {base : Int} :
    (assertRetainedConfirmedLog state : Result ε Int) = .ok base ↔
      state.Retained ∧ base = state.confirmedSequence - state.confirmedLog.length := by
  simp only [assertRetainedConfirmedLog, bind_unit_eq_ok, assertLogSequence_true_eq_ok, throwIf_eq_ok,
    assertSequencesFrom_eq_ok, pure_eq_ok, Except.ok.injEq]
  constructor
  · intro hparts
    obtain ⟨⟨-, hsafe⟩, hfits, hcontiguous, rfl⟩ := hparts
    exact ⟨⟨hsafe, by omega, hcontiguous⟩, rfl⟩
  · intro hparts
    obtain ⟨⟨hsafe, hfits, hcontiguous⟩, rfl⟩ := hparts
    exact ⟨⟨by omega, hsafe⟩, by omega, hcontiguous, rfl⟩

theorem reconcileOutbox_eq_ok (replica : ReplicaInterpreter State Intent Operation ε)
    (retainedBaseSequence : Int) {confirmedSequence : Int}
    (confirmedLog : List (CommittedOperation Operation)) {outbox : List (OutboxEntry Intent Operation)}
    (hbeyond : ∀ proposal sequence operation, .accepted proposal sequence operation ∈ outbox →
      confirmedSequence < sequence) :
    reconcileOutbox replica retainedBaseSequence confirmedSequence confirmedLog outbox = .ok outbox := by
  induction outbox with
  | nil => rfl
  | cons entry outbox ih =>
      have hkeep : keepAfterReconciliation replica retainedBaseSequence confirmedSequence confirmedLog
          entry = .ok true := by
        cases entry with
        | pending => rfl
        | accepted proposal sequence operation =>
            have := hbeyond proposal sequence operation List.mem_cons_self
            rw [keepAfterReconciliation, if_pos (by omega)]
      rw [reconcileOutbox, hkeep, ok_bind, ih fun proposal sequence operation hmem =>
        hbeyond proposal sequence operation (List.mem_cons_of_mem _ hmem)]
      rfl

section Reflects

variable {interpreter : LogInterpreter State Intent Operation Rejection ε} {initialState final : State}
  {ledger : Ledger Operation Rejection} (hledger : Justified interpreter initialState ledger final)
  (hsafe : ((canonicalLog ledger).length : Int) ≤ maxSafeInteger)
  {replica : ReplicaInterpreter State Intent Operation ε} {proposals : List (ProposedOperation Intent)}
  {state : ReplicaState State Intent Operation} {knowledge : Knowledge} {retained : Nat}
  (hstate : state.Reflects replica initialState ledger proposals knowledge retained)

theorem accepted_beyond {proposal : ProposedOperation Intent} {sequence : Int} {operation : Operation}
    (h : .accepted proposal sequence operation ∈ outboxOf ledger knowledge proposals) :
    (knowledge.through : Int) < sequence := by
  obtain ⟨-, hsettle⟩ := mem_outboxOf.mp h
  rw [OutboxEntry.proposal_accepted] at hsettle
  by_cases hsettled : Settled ledger knowledge proposal
  · rcases settle_of_settled hsettled with hnone | ⟨_, _, _, _, -, -, hbeyond, -, haccepted⟩
    · rw [hnone] at hsettle
      simp at hsettle
    · rw [haccepted] at hsettle
      obtain ⟨-, rfl, -⟩ := OutboxEntry.accepted.inj (Option.some.inj hsettle)
      omega
  · rw [settle_of_not_settled hsettled] at hsettle
    simp at hsettle

include hledger hsafe hstate in
theorem ReplicaState.Reflects.assertRetainedConfirmedLog_eq_ok :
    (assertRetainedConfirmedLog state : Result ε Int) = .ok (retained : Int) := by
  have hthrough := hstate.known.through
  have hretained := hstate.retainedLe
  have hcursor := hstate.confirmedSequence
  have hlength : (state.confirmedLog.length : Int) = knowledge.through - retained := by
    rw [hstate.confirmedLog, List.length_drop, List.length_take]
    omega
  refine SyncEngine.assertRetainedConfirmedLog_eq_ok.mpr ⟨⟨by omega, by omega, ?_⟩, by omega⟩
  intro i entry hentry
  rw [hstate.confirmedLog, List.getElem?_drop] at hentry
  obtain ⟨hlt, hget⟩ := List.getElem?_eq_some_iff.mp hentry
  rw [List.getElem_take] at hget
  have hlog : (canonicalLog ledger)[retained + i]? = some entry := hget ▸ List.getElem?_eq_getElem _
  have := hledger.sequence_eq hlog
  push_cast at this
  omega

variable (hnodup : (proposals.map fun proposal => proposal.operationId).Nodup)
  (hown : RecordsOwn ledger proposals) {response : SyncResponse Operation Rejection}
  (hhonest : HonestResponse ledger response) (hvalid : ValidResponse response none)
  (hbase : response.requestedBaseSequence ≤ state.confirmedSequence)

include hledger hhonest in
theorem knowledge_from : response.knowledge.From ledger where
  through := by
    have := hhonest.throughLe
    have := hhonest.head
    change response.throughSequence.toNat ≤ _
    omega
  decided := by
    intro operationId hdecided
    rw [SyncResponse.knowledge, decidedIds, List.mem_toFinset, List.mem_map] at hdecided
    obtain ⟨decision, hdecision, rfl⟩ := hdecided
    obtain ⟨record, hrecord, rfl⟩ := hhonest.decisions decision hdecision
    exact ⟨record, hrecord, (hledger.decision_operationId record hrecord).symm⟩

include hledger hsafe hstate hnodup hown hhonest hvalid hbase in
/-- Merging an honest response joins what it teaches to what the replica knows. -/
theorem mergeSyncResponse_unless :
    Unless (¬replica.Reflexive) (mergeSyncResponse replica state response) (do
      let nextState ← application
        (applyEntries replica state.confirmedState (newEntries ledger knowledge response))
      return mergedResult state ledger proposals knowledge retained response nextState) := by
  have hthrough := hhonest.through
  have hnonneg := hhonest.baseNonneg
  rw [hstate.confirmedSequence] at hbase
  have hresponse : (assertSyncResponse response none : Result ε Unit) = .ok () :=
    (assertSyncResponse_eq_ok response none ()).mpr hvalid
  have hretained := hstate.assertRetainedConfirmedLog_eq_ok hledger hsafe
  have hcursor : ¬response.requestedBaseSequence > state.confirmedSequence := by
    rw [hstate.confirmedSequence]
    omega
  have hpage : ∀ (i : Nat) (entry : CommittedOperation Operation), response.entries[i]? = some entry →
      (canonicalLog ledger)[response.requestedBaseSequence.toNat + i]? = some entry :=
    fun i entry hentry => hhonest.getElem? hentry
  have hend : response.requestedBaseSequence.toNat + response.entries.length =
      response.knowledge.through := by
    change _ = response.throughSequence.toNat
    omega
  let learned := knowledge.learnAll (decidedIds response.decisions)
  have hstart : ({ outbox := outboxOf ledger learned proposals
                   newlyResolved := response.decisions.flatMap
                     (announce (outboxOf ledger knowledge proposals))
                   confirmedSequence := state.confirmedSequence
                   confirmedLog := state.confirmedLog
                   confirmedState := state.confirmedState } :
      MergeProgress State Intent Operation Rejection) =
      progressAt ledger proposals retained learned
        (response.decisions.flatMap (announce (outboxOf ledger knowledge proposals)))
        state.confirmedState := by
    rw [progressAt, hstate.confirmedSequence, hstate.confirmedLog]
    rfl
  rw [mergeSyncResponse, hresponse, ok_bind, hretained, ok_bind, throwIf_neg hcursor, ok_bind,
    hstate.outbox]
  refine (mergeDecisions_unless hledger replica hnodup hhonest.decisions hvalid.decisions.distinct
    knowledge []).bind_ok ?_
  rw [List.nil_append, hstart]
  have hfirst : response.requestedBaseSequence.toNat ≤ learned.through := by
    change _ ≤ knowledge.through
    omega
  have hkept : retained ≤ learned.through := hstate.retainedLe
  refine ((mergeEntries_unless hledger replica hnodup hown hpage hfirst hkept _ _).bind
    fun _ _ => .refl _).trans ?_
  have hlast : learned.extendTo response.knowledge.through = knowledge ⊔ response.knowledge := rfl
  simp only [hend, hlast, bind_assoc, pure_bind]
  refine (Unless.refl _).bind fun nextState _ => .of_eq ?_
  rw [progressAt, reconcileOutbox_eq_ok replica _ _ fun _ _ _ hmem => accepted_beyond hmem]
  rfl

theorem take_sup_through (ledger : Ledger Operation Rejection) (knowledge : Knowledge)
    (response : SyncResponse Operation Rejection) :
    (canonicalLog ledger).take (knowledge ⊔ response.knowledge).through =
      (canonicalLog ledger).take knowledge.through ++ newEntries ledger knowledge response := by
  rw [Knowledge.sup_through, newEntries]
  rcases Nat.le_total response.knowledge.through knowledge.through with hle | hle
  · rw [Nat.max_eq_left hle, List.drop_eq_nil_iff.mpr (by rw [List.length_take]; omega),
      List.append_nil]
  · have hprefix : ((canonicalLog ledger).take response.knowledge.through).take knowledge.through =
        (canonicalLog ledger).take knowledge.through := by
      rw [List.take_take, Nat.min_eq_left hle]
    rw [Nat.max_eq_right hle, ← hprefix, List.take_append_drop]

theorem applyEntries_append (replica : ReplicaInterpreter State Intent Operation ε) (state : State)
    (first second : List (CommittedOperation Operation)) :
    applyEntries replica state (first ++ second) =
      (applyEntries replica state first >>= fun next => applyEntries replica next second) :=
  List.foldlM_append

include hledger hsafe hstate hnodup hown hhonest hvalid hbase in
theorem mergeSyncResponse_reflects {result : MergeSyncResult State Intent Operation Rejection}
    (hmerge : mergeSyncResponse replica state response = .ok result) :
    result.state.Reflects replica initialState ledger proposals (knowledge ⊔ response.knowledge)
        retained ∧
      result = mergedResult state ledger proposals knowledge retained response
        result.state.confirmedState := by
  have hreturned := (mergeSyncResponse_unless hledger hsafe hstate hnodup hown hhonest hvalid
    hbase).eq_ok hmerge
  obtain ⟨nextState, happly, hresult⟩ := bind_eq_ok.mp hreturned
  rw [application_eq_ok] at happly
  obtain rfl := Except.ok.inj hresult
  refine ⟨?_, rfl⟩
  exact {
    known := hstate.known.sup (knowledge_from hledger hhonest)
    confirmedSequence := rfl
    retainedLe := Nat.le_trans hstate.retainedLe (Nat.le_max_left _ _)
    confirmedLog := rfl
    confirmedState := by
      rw [take_sup_through, applyEntries_append, hstate.confirmedState, ok_bind]
      exact happly
    outbox := rfl }

include hledger in
/-- A replica that applies what the authority applies can follow the whole log. -/
theorem applyEntries_log (happly : replica.applyCommitted = interpreter.apply) (through : Nat) :
    ∃ reached, applyEntries replica initialState ((canonicalLog ledger).take through) = .ok reached := by
  have hfold : applyEntries replica initialState (canonicalLog ledger) = .ok final := by
    rw [applyEntries, happly]
    exact hledger.foldlM_apply
  rw [← List.take_append_drop through (canonicalLog ledger), applyEntries_append, bind_eq_ok] at hfold
  obtain ⟨reached, hreached, -⟩ := hfold
  exact ⟨reached, hreached⟩

include hledger hsafe hstate hnodup hown hhonest hvalid hbase in
/-- Nothing can make the merge of an honest response fail when the application keeps its contract. -/
theorem mergeSyncResponse_succeeds (hreflexive : replica.Reflexive)
    (happly : replica.applyCommitted = interpreter.apply) :
    ∃ result, mergeSyncResponse replica state response = .ok result := by
  rw [(mergeSyncResponse_unless hledger hsafe hstate hnodup hown hhonest hvalid
    hbase).eq_of_not (not_not.mpr hreflexive)]
  obtain ⟨reached, hreached⟩ :=
    applyEntries_log hledger happly (knowledge ⊔ response.knowledge).through
  rw [take_sup_through, applyEntries_append, hstate.confirmedState, ok_bind] at hreached
  rw [hreached]
  exact ⟨_, rfl⟩

/-! ### Enqueueing, compaction and preparation -/

theorem outboxOf_concat (proposal : ProposedOperation Intent)
    (hfresh : ∀ record ∈ ledger, record.identity.operationId ≠ proposal.operationId) :
    outboxOf ledger knowledge (proposals ++ [proposal]) =
      outboxOf ledger knowledge proposals ++ [.pending proposal] := by
  have hundecided : recordOf ledger proposal.operationId = none :=
    KeyedList.find?_eq_none_iff.mpr hfresh
  rw [outboxOf, List.filterMap_append, List.filterMap_cons, settle_of_undecided hundecided]
  rfl

def ReplicaState.propose (state : ReplicaState State Intent Operation)
    (input : EnqueueOperationInput Intent) : ProposedOperation Intent where
  operationId := input.operationId
  clientId := state.clientId
  clientSequence := state.nextClientSequence
  intentHash := input.intentHash
  intent := input.intent

structure Enqueued (ε : Type) (state : ReplicaState State Intent Operation)
    (input : EnqueueOperationInput Intent) (next : ReplicaState State Intent Operation) : Prop where
  valid : (state.propose input).toOperationSubmissionIdentity.Valid
  room : state.nextClientSequence < maxSafeInteger
  retained : ∃ base, (assertRetainedConfirmedLog state : Result ε Int) = .ok base
  fresh : ¬((∃ entry ∈ state.confirmedLog, entry.operationId = input.operationId) ∨
    ∃ entry ∈ state.outbox, entry.operationId = input.operationId)
  result : next = { state with
    nextClientSequence := state.nextClientSequence + 1
    outbox := state.outbox ++ [.pending (state.propose input)] }

omit hstate in
theorem enqueueOperation_eq_ok {state next : ReplicaState State Intent Operation}
    {input : EnqueueOperationInput Intent} :
    (enqueueOperation state input : Result ε _) = .ok next ↔ Enqueued ε state input next := by
  simp only [enqueueOperation, bind_unit_eq_ok, assertNonEmptyString_eq_ok, assertClientSequence,
    assertLogSequence_false_eq_ok]
  constructor
  · intro h
    obtain ⟨hclient, ⟨hpositive, hsafe⟩, ⟨-, hroom⟩, hid, hhash, h⟩ := h
    obtain ⟨base, hretained, h⟩ := bind_eq_ok.mp h
    obtain ⟨hfresh, hnext⟩ := bind_unit_eq_ok.mp h
    exact {
      valid := ⟨hid, hclient, hpositive, hsafe, hhash⟩
      room := by omega
      retained := ⟨base, hretained⟩
      fresh := (throwIf_eq_ok _ _ _).mp hfresh
      result := (Except.ok.inj hnext).symm }
  · intro h
    obtain ⟨⟨hid, hclient, hpositive, hsafe, hhash⟩, hroom, ⟨base, hretained⟩, hfresh, rfl⟩ := h
    have hpositive' : 1 ≤ state.nextClientSequence := hpositive
    refine ⟨hclient, ⟨hpositive, hsafe⟩, ⟨by omega, by omega⟩, hid, hhash, ?_⟩
    rw [hretained, ok_bind, throwIf_neg hfresh]
    rfl

include hstate in
theorem enqueueOperation_reflects {input : EnqueueOperationInput Intent}
    {next : ReplicaState State Intent Operation}
    (henqueue : (enqueueOperation state input : Result ε _) = .ok next)
    (hfresh : ∀ record ∈ ledger, record.identity.operationId ≠ input.operationId) :
    ∃ proposal : ProposedOperation Intent, proposal.operationId = input.operationId ∧
      proposal.clientId = state.clientId ∧ proposal.clientSequence = state.nextClientSequence ∧
      next.clientId = state.clientId ∧ next.nextClientSequence = state.nextClientSequence + 1 ∧
      next.outbox = state.outbox ++ [.pending proposal] ∧
      next.confirmedLog = state.confirmedLog ∧
      next.Reflects replica initialState ledger (proposals ++ [proposal]) knowledge retained := by
  obtain rfl := (enqueueOperation_eq_ok.mp henqueue).result
  refine ⟨state.propose input, rfl, rfl, rfl, rfl, rfl, rfl, rfl, ?_⟩
  exact {
    known := hstate.known
    confirmedSequence := hstate.confirmedSequence
    retainedLe := hstate.retainedLe
    confirmedLog := hstate.confirmedLog
    confirmedState := hstate.confirmedState
    outbox := by rw [outboxOf_concat _ hfresh, hstate.outbox] }

include hledger hsafe hstate in
/-- Compaction retains less and changes nothing else. -/
theorem deleteCommittedLogPrefix_eq (throughSequence : Int) :
    (deleteCommittedLogPrefix state throughSequence : Result ε _) = (do
      assertLogSequence "throughSequence" throughSequence true
      throwIf (throughSequence > state.confirmedSequence)
        (.logGapError (state.confirmedSequence + 1) throughSequence)
      return { state with
        confirmedLog := ((canonicalLog ledger).take knowledge.through).drop
          (max retained throughSequence.toNat) }) := by
  rw [deleteCommittedLogPrefix, hstate.assertRetainedConfirmedLog_eq_ok hledger hsafe]
  cases hassert : (assertLogSequence "throughSequence" throughSequence true : Result ε Unit) with
  | error e => rfl
  | ok u =>
      rw [assertLogSequence_true_eq_ok] at hassert
      simp only [ok_bind]
      congr 1
      funext _
      split
      · rename_i hle
        rw [Nat.max_eq_left (by omega), ← hstate.confirmedLog]
      · rename_i hlt
        have hdistance : throughSequence - retained = ((throughSequence.toNat - retained : Nat) : Int) := by
          omega
        rw [hdistance, sliceFrom_natCast, hstate.confirmedLog, List.drop_drop,
          Nat.max_eq_right (by omega), show retained + (throughSequence.toNat - retained) =
            throughSequence.toNat by omega]

include hledger hsafe hstate in
theorem deleteCommittedLogPrefix_reflects {throughSequence : Int}
    {next : ReplicaState State Intent Operation}
    (hdelete : (deleteCommittedLogPrefix state throughSequence : Result ε _) = .ok next) :
    next.Reflects replica initialState ledger proposals knowledge
        (max retained throughSequence.toNat) ∧
      next = { state with
        confirmedLog := ((canonicalLog ledger).take knowledge.through).drop
          (max retained throughSequence.toNat) } := by
  rw [deleteCommittedLogPrefix_eq hledger hsafe hstate, bind_unit_eq_ok, bind_unit_eq_ok,
    throwIf_eq_ok] at hdelete
  obtain ⟨-, hbound, hnext⟩ := hdelete
  have hretained := hstate.retainedLe
  rw [hstate.confirmedSequence] at hbound
  obtain rfl := Except.ok.inj hnext
  refine ⟨?_, rfl⟩
  exact {
    known := hstate.known
    confirmedSequence := hstate.confirmedSequence
    retainedLe := by omega
    confirmedLog := rfl
    confirmedState := hstate.confirmedState
    outbox := hstate.outbox }

end Reflects

def pendingProposals (outbox : List (OutboxEntry Intent Operation)) : List (ProposedOperation Intent) :=
  outbox.filterMap fun
    | .pending proposal => some proposal
    | .accepted _ _ _ => none

theorem collectPending_eq {maximumProposals : Int} (outbox : List (OutboxEntry Intent Operation))
    (proposals : List (ProposedOperation Intent)) (hroom : (proposals.length : Int) < maximumProposals) :
    collectPending maximumProposals outbox proposals =
      proposals ++ (pendingProposals outbox).take (maximumProposals.toNat - proposals.length) := by
  induction outbox generalizing proposals with
  | nil => simp [collectPending, pendingProposals]
  | cons entry outbox ih =>
      cases entry with
      | accepted => exact ih proposals hroom
      | pending proposal =>
          have hpending : pendingProposals (.pending proposal :: outbox : List (OutboxEntry Intent Operation)) =
              proposal :: pendingProposals outbox := rfl
          have hone : maximumProposals.toNat - proposals.length =
              maximumProposals.toNat - (proposals ++ [proposal]).length + 1 := by
            rw [List.length_append, List.length_singleton]
            omega
          rw [collectPending, hpending, hone, List.take_succ_cons]
          split
          · rename_i hfull
            rw [List.length_append, List.length_singleton] at hfull ⊢
            rw [show maximumProposals.toNat - (proposals.length + 1) = 0 by omega, List.take_zero]
          · rename_i hmore
            rw [ih _ (by omega), List.append_assoc, List.singleton_append]

theorem prepareSyncRequest_eq_ok {state : ReplicaState State Intent Operation}
    {options : PrepareSyncRequestOptions} {request : SyncRequest Intent}
    (hprepare : (prepareSyncRequest state options : Result ε _) = .ok request) :
    request.baseSequence = state.confirmedSequence ∧
      ∃ count, request.proposals = (pendingProposals state.outbox).take count := by
  simp only [prepareSyncRequest, bind_eq_ok] at hprepare
  obtain ⟨_, -, _, hnonneg, _, -, hrequest⟩ := hprepare
  obtain rfl := Except.ok.inj hrequest
  rw [assertNonNegativeSafeInteger_eq_ok] at hnonneg
  refine ⟨rfl, ?_⟩
  -- The batch size the options ask for.
  generalize options.maximumProposals.getD defaultProtocolLimits.maximumProposalsPerRequest = maximum
    at hnonneg ⊢
  by_cases hnone : maximum = 0
  · exact ⟨0, by rw [if_pos hnone, List.take_zero]⟩
  · refine ⟨maximum.toNat, ?_⟩
    rw [if_neg hnone, collectPending_eq _ _ (by rw [List.length_nil]; omega), List.nil_append,
      List.length_nil, Nat.sub_zero]

end SyncEngine
