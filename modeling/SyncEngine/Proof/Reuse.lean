import SyncEngine.Model.Counter
import SyncEngine.Proof.Places

/-!
# Reused operation identifiers

`enqueueOperation` looks for an identifier in the outbox and in the retained log, so it recognizes an
identifier for as long as the replica remembers the operation: until its rejection is learned, or its
canonical entry is compacted away. As long as nobody comes back to an identifier after that, every
enqueue that succeeds is a fresh one, and the authority finds no reuse in any request.
-/

namespace SyncEngine

open JavaScript Throwing

variable {ι State Intent Operation Rejection ε : Type}

/-! ### Validation never reports a reuse -/

/-- An operation identifier came with another identity, or with another intent. -/
def SyncEngineError.IsReuse : SyncEngineError ε → Prop
  | .operationIdentityConflictError _ => True
  | .operationIntentConflictError _ => True
  | _ => False

abbrev ReportsNoReuse {α : Type} (x : Result ε α) : Prop := Throws (fun e => ¬e.IsReuse) x

theorem SyncEngineError.IsInvalid.not_isReuse {e : SyncEngineError ε} (h : e.IsInvalid) : ¬e.IsReuse := by
  cases e <;> simp_all [IsInvalid, IsReuse]

/-! ### The authority on requests without reuse -/

theorem application_reportsNoReuse {α : Type} (x : Except ε α) : ReportsNoReuse (application x) := by
  cases x with
  | ok a => exact .ok a
  | error e => exact .error id

namespace Books

variable {interpreter : LogInterpreter State Intent Operation Rejection ε}
  {books : Books State Operation Rejection}

theorem submit_reportsNoReuse {proposal : ProposedOperation Intent}
    (hown : ∀ record ∈ books.ledger, record.identity.operationId = proposal.operationId →
      record.identity = proposal.toOperationSubmissionIdentity) :
    ReportsNoReuse (submit interpreter books proposal) := by
  rw [submit]
  cases hfind : books.find? proposal.operationId with
  | some existing =>
      have hidentity := hown existing (List.mem_of_find?_eq_some hfind)
        (by simpa using List.find?_some hfind)
      have hreplay : (InMemoryLogServer.replayDecision existing proposal : Result ε _) =
          .ok existing.decision := by
        rw [replayDecision_eq_ok, ← hidentity]
      simp only [hreplay, ok_bind, pure_eq_ok]
      exact .ok _
  | none =>
      have hposition : ReportsNoReuse (InMemoryLogServer.assertClientPositionFree
          (books.occupant? proposal.position) proposal : Result ε Unit) := by
        cases books.occupant? proposal.position with
        | none => exact .ok ()
        | some occupant => exact .throwIf id
      refine hposition.seq fun _ => (application_reportsNoReuse _).seq fun draft => ?_
      cases draft with
      | rejected reason => exact .ok _
      | accepted operation => exact (application_reportsNoReuse _).seq fun _ => .ok _

theorem submitAll_reportsNoReuse {proposals : List (ProposedOperation Intent)}
    (hown : RecordsOwn books.ledger proposals)
    (hnodup : (proposals.map fun proposal => proposal.operationId).Nodup) :
    ReportsNoReuse (submitAll interpreter books proposals) := by
  induction proposals generalizing books with
  | nil => exact .ok _
  | cons proposal proposals ih =>
      rw [List.map_cons, List.nodup_cons] at hnodup
      refine (submit_reportsNoReuse fun record hrecord hid =>
        hown record hrecord proposal List.mem_cons_self hid).bind fun result hresult => ?_
      obtain ⟨new, hledger, hnew⟩ := (submit_eq_ok hresult).extends_ledger
      refine (ih ?_ hnodup.2).seq fun _ => .ok _
      -- The record a submission adds is about its own proposal, and no later one shares its identifier.
      intro record hrecord later hlater hid
      rw [hledger] at hrecord
      rcases List.mem_append.mp hrecord with hold | hadded
      · exact hown record hold later (List.mem_cons_of_mem _ hlater) hid
      · have hidentity := List.mem_singleton.mp (hnew.subset (List.mem_map_of_mem hadded))
        rw [hidentity] at hid
        exact absurd (List.mem_map.mpr ⟨later, hlater, hid.symm⟩) hnodup.1

end Books

/-- A request whose proposals are on record as they are, or not at all, is not refused for reuse. -/
theorem InMemoryLogServer.synchronize_reportsNoReuse
    {settings : LogServerSettings State Intent Operation Rejection ε} {initialState : State}
    {server : InMemoryLogServer State Operation Rejection}
    {authority : Authority settings.interpreter initialState} (hserver : server.Holds authority)
    {request : SyncRequest Intent} (hown : RecordsOwn authority.ledger request.proposals) :
    ReportsNoReuse (synchronize settings server request) := by
  have hagree := synchronize_agree settings hserver.represents
    authority.justified.pairwise_identity request
  intro e he
  have hbooks := hagree.of_left_eq_error he
  have hchecks : ReportsNoReuse (assertSyncRequest request (some settings.limits) : Result ε Unit) :=
    (assertSyncRequest_throwsInvalid request _).mono fun _ => SyncEngineError.IsInvalid.not_isReuse
  refine hchecks.bind (fun _ hrequest => ?_) e hbooks
  have hvalid := (assertSyncRequest_eq_ok request settings.limits _).mp hrequest
  have hnodup : (request.proposals.map fun proposal => proposal.operationId).Nodup :=
    List.pairwise_map.mpr (hvalid.batch.ordered.imp fun hne => hne.1)
  exact (Throws.throwIf id).seq fun _ => (Books.submitAll_reportsNoReuse hown hnodup).seq fun _ =>
    ((assertSyncResponse_throwsInvalid _ _).mono fun _ => SyncEngineError.IsInvalid.not_isReuse).seq fun _ => .ok _

/-! ### Replicas that remember -/

variable [DecidableEq ι] {setup : NetworkSetup ι State Intent Operation Rejection ε}
  {network network' : Network ι State Intent Operation Rejection}
  {authority : Authority setup.settings.interpreter setup.initialState} {knowledge : ι → Knowledge}
  {retained : ι → Nat}

namespace Network

/-- The two places `enqueueOperation` looks for an identifier. -/
def Remembered (network : Network ι State Intent Operation Rejection) (i : ι) (operationId : String) :
    Prop :=
  (∃ entry ∈ (network.replicas i).confirmedLog, entry.operationId = operationId) ∨
    ∃ entry ∈ (network.replicas i).outbox, entry.operationId = operationId

theorem Consistent.remembered (h : network.Consistent setup authority knowledge retained) {i : ι}
    {operationId : String} (hused : network.Used i operationId)
    (hkept : ¬network.Forgotten i operationId) : network.Remembered i operationId := by
  obtain ⟨⟨i, proposal⟩, henqueued, rfl, rfl⟩ := hused
  by_cases hpresent : ∃ entry ∈ (network.replicas i).outbox, entry.operationId = proposal.operationId
  · exact Or.inr hpresent
  · have habsent : (network.replicas i).Absent proposal :=
      fun entry hentry hid => hpresent ⟨entry, hentry, hid⟩
    have hsettle := (h.absent_iff henqueued).mp habsent
    have hreflects := (h.participants i).reflects
    cases hrecord : recordOf authority.ledger proposal.operationId with
    | none =>
        rw [settle_of_undecided hrecord] at hsettle
        simp at hsettle
    | some record =>
        obtain ⟨hmem, hid⟩ :=
          (recordOf_eq_some_iff authority.justified.operationIds_nodup).mp hrecord
        have hown := authority.justified.decision_operationId record hmem
        have hdecision := h.getDecision_eq proposal.operationId
        rw [hrecord, Option.map_some] at hdecision
        cases hcase : record.decision with
        | rejected decidedId reason =>
            rw [hcase] at hdecision hown
            obtain rfl : decidedId = proposal.operationId := hown.trans hid
            exact absurd (Or.inl ⟨reason, hdecision, habsent⟩) hkept
        | accepted decidedId sequence operation =>
            rw [hcase] at hdecision hown
            obtain rfl : decidedId = proposal.operationId := hown.trans hid
            -- The entry is confirmed, and it is not below the retained log.
            have hconfirmed : sequence ≤ (knowledge i).through := by
              by_contra hbeyond
              rw [settle_of_accepted hrecord hcase, if_neg hbeyond] at hsettle
              split at hsettle <;> simp at hsettle
            have hlength : ((network.replicas i).confirmedLog.length : Int) =
                (knowledge i).through - retained i := by
              have := hreflects.known.through
              have := hreflects.retainedLe
              rw [hreflects.confirmedLog, List.length_drop, List.length_take]
              omega
            have habove : (retained i : Int) < sequence := by
              by_contra hbelow
              refine hkept (Or.inr ⟨sequence, operation, hdecision, ?_⟩)
              rw [hreflects.confirmedSequence, hlength]
              omega
            obtain ⟨index, hindex, hsequence⟩ := authority.justified.getElem?_of_committed? hmem
              (StoredProposalDecision.committed?_of_accepted hcase)
            change sequence = index + 1 at hsequence
            have hretained : (network.replicas i).confirmedLog[index - retained i]? =
                (canonicalLog authority.ledger)[index]? := by
              rw [hreflects.confirmedLog, List.getElem?_drop,
                show retained i + (index - retained i) = index by omega,
                List.getElem?_take_of_lt (by omega)]
            exact Or.inl ⟨_, List.mem_of_getElem? (hretained.trans hindex), hid⟩

omit [DecidableEq ι] in
theorem Remembered.refused {i : ι} {input : EnqueueOperationInput Intent}
    (h : network.Remembered i input.operationId) (state : ReplicaState State Intent Operation) :
    (enqueueOperation (network.replicas i) input : Result ε _) ≠ .ok state := by
  intro henqueue
  exact (enqueueOperation_eq_ok.mp henqueue).fresh h

/-- The step lemma of callers that come back to no forgotten identifier: an enqueue is fresh, or it is
refused and changes nothing. -/
theorem Consistent.next_mindful (h : network.Consistent setup authority knowledge retained)
    {action : NetworkAction ι Intent} (hunshared : network.Unshared action)
    (hmindful : network.Mindful action) :
    network.Fresh action ∨ network.next setup action = network := by
  cases action with
  | enqueue i input =>
      by_cases hfresh : ∀ entry ∈ network.enqueued, entry.2.operationId ≠ input.operationId
      · exact Or.inl hfresh
      · right
        push Not at hfresh
        obtain ⟨entry, hentry, hid⟩ := hfresh
        have hused : network.Used i input.operationId :=
          ⟨entry, hentry, hunshared entry hentry hid, hid⟩
        have hremembered := h.remembered hused (hmindful hused)
        rw [Network.next]
        split
        · rename_i state hcall
          exact absurd hcall (hremembered.refused state)
        · rfl
  | prepare | deliver | merge | compact => exact Or.inl trivial

/-- The run lemma: what such callers reach is reached by fresh enqueues. -/
theorem reachable_of_mindful (hreachable : setup.mindfulSystem.Reachable network) :
    setup.system.Reachable network := by
  refine hreachable.invariant (fun start hstart => .of_start hstart) ?_
  intro network action network' _ hsystem hstep
  obtain ⟨hunshared, hmindful, rfl⟩ := hstep
  obtain ⟨authority, knowledge, retained, h⟩ := consistent_of_reachable hsystem
  rcases h.next_mindful hunshared hmindful with hfresh | hsame
  · exact hsystem.step ⟨hfresh, rfl⟩
  · rwa [hsame]

theorem valid_of_reachable (hreachable : setup.system.Reachable network) (i : ι) :
    (setup.replicaOptions i).clientId.length ≠ 0 ∧ 1 ≤ setup.firstSequence i := by
  obtain ⟨start, -, ⟨-, hreplicas, -⟩, -⟩ := hreachable
  have hcreate := hreplicas i
  simp only [createReplicaState, bind_unit_eq_ok, assertNonEmptyString_eq_ok, assertClientSequence,
    assertLogSequence_false_eq_ok] at hcreate
  exact ⟨hcreate.1, hcreate.2.1.1⟩

theorem Consistent.enqueue_duplicate (h : network.Consistent setup authority knowledge retained) {i : ι}
    {input : EnqueueOperationInput Intent} (hclient : (setup.replicaOptions i).clientId.length ≠ 0)
    (hfirst : 1 ≤ setup.firstSequence i) (hid : input.operationId.length ≠ 0)
    (hremembered : network.Remembered i input.operationId) (hhash : input.intentHash.length ≠ 0)
    (hroom : (network.replicas i).nextClientSequence < maxSafeInteger) :
    (enqueueOperation (network.replicas i) input : Result ε _) =
      .error (.duplicateOperationIdError input.operationId) := by
  have hparticipant := h.participants i
  have hnext := hparticipant.nextClientSequence
  rw [← hparticipant.sameClient] at hclient
  have hnow : (assertClientSequence "nextClientSequence" (network.replicas i).nextClientSequence :
      Result ε Unit) = .ok () := (assertLogSequence_false_eq_ok _ _ _).mpr (by omega)
  have hlater : (assertClientSequence "nextClientSequence"
      ((network.replicas i).nextClientSequence + 1) : Result ε Unit) = .ok () :=
    (assertLogSequence_false_eq_ok _ _ _).mpr (by omega)
  have hretained := hparticipant.reflects.assertRetainedConfirmedLog_eq_ok (ε := ε)
    authority.justified h.server.safe
  simp only [enqueueOperation, (assertNonEmptyString_eq_ok _ _ ()).mpr hclient, hnow, hlater,
    (assertNonEmptyString_eq_ok _ _ ()).mpr hid, (assertNonEmptyString_eq_ok _ _ ()).mpr hhash,
    hretained, ok_bind]
  rw [throwIf_pos (by exact hremembered)]
  rfl

end Network

/-- As long as no caller comes back to an identifier that its replica has forgotten, `enqueueOperation`
refuses every identifier the replica has used and not forgotten, and the server finds no reuse in any
request that was prepared. -/
theorem enqueue_refuses_reuse (setup : NetworkSetup ι State Intent Operation Rejection ε)
    {network : Network ι State Intent Operation Rejection}
    (hreachable : setup.mindfulSystem.Reachable network) :
    (∀ i (input : EnqueueOperationInput Intent), network.Used i input.operationId →
      ¬network.Forgotten i input.operationId →
        (∀ state, (enqueueOperation (network.replicas i) input : Result ε _) ≠ .ok state) ∧
        (input.intentHash.length ≠ 0 → (network.replicas i).nextClientSequence < maxSafeInteger →
          (enqueueOperation (network.replicas i) input : Result ε _) =
            .error (.duplicateOperationIdError input.operationId))) ∧
    ∀ entry ∈ network.requests, ∀ e,
      InMemoryLogServer.synchronize setup.settings network.server entry.2 = .error e → ¬e.IsReuse := by
  have hsystem := Network.reachable_of_mindful hreachable
  obtain ⟨authority, knowledge, retained, h⟩ := Network.consistent_of_reachable hsystem
  refine ⟨fun i input hused hkept => ?_, fun entry hentry => ?_⟩
  · have hremembered := h.remembered hused hkept
    obtain ⟨hclient, hfirst⟩ := Network.valid_of_reachable hsystem i
    obtain ⟨entry, hentry, -, hid⟩ := hused
    have hnonempty := (Network.enqueued_valid hsystem entry hentry).operationId
    rw [hid] at hnonempty
    exact ⟨hremembered.refused, fun hhash hroom =>
      h.enqueue_duplicate hclient hfirst hnonempty hremembered hhash hroom⟩
  · apply InMemoryLogServer.synchronize_reportsNoReuse h.server
    intro record hrecord proposal hproposal hid
    exact h.recordsOwn entry.1 record hrecord proposal
      ((h.requests entry hentry).own proposal hproposal) hid

/-! ### Counters that come back to an identifier -/

def synchronizedDelta (delta : Int) : List (NetworkAction Bool Int) := [
  .enqueue true { operationId := "op-a1", intentHash := "test", intent := delta },
  .prepare true {},
  .deliver 0,
  .merge 0]

def usedAgain : List (NetworkAction Bool Int) := [
  .enqueue true { operationId := "op-a1", intentHash := "test", intent := 7 },
  .prepare true {}]

theorem counter_unshared_reachable {actions : List (NetworkAction Bool Int)}
    (halone : ∀ i input, .enqueue i input ∈ actions → i = true) :
    counterSetup.unsharedSystem.Reachable (counterAfter actions) ∧
      ∀ entry ∈ (counterAfter actions).enqueued, entry.1 = true := by
  induction actions using List.reverseRecOn with
  | nil => exact ⟨.of_start counterStart_start, fun entry hentry => absurd hentry List.not_mem_nil⟩
  | append_singleton actions action ih =>
      obtain ⟨hreachable, hown⟩ := ih fun i input hmem => halone i input (List.mem_append_left _ hmem)
      have hnext : counterAfter (actions ++ [action]) = (counterAfter actions).next counterSetup action := by
        rw [counterAfter, Network.run, List.foldl_append]
        rfl
      rw [hnext]
      refine ⟨hreachable.step ⟨?_, rfl⟩, ?_⟩
      · cases action with
        | enqueue i input =>
            obtain rfl := halone i input (by simp)
            exact fun entry hentry _ => hown entry hentry
        | prepare | deliver | merge | compact => trivial
      · rcases Network.enqueued_next (counterAfter actions) action with
          hsame | ⟨i, input, state, haction, -, hadded⟩
        · rwa [hsame]
        · rw [hadded]
          intro entry hentry
          rcases List.mem_append.mp hentry with hold | hnew
          · exact hown entry hold
          · obtain rfl := List.mem_singleton.mp hnew
            exact halone i input (by simp [haction])

theorem reachable_next {network : Network Bool Int Int Int String}
    (h : counterSetup.mindfulSystem.Reachable network) (action : NetworkAction Bool Int)
    (hunshared : network.Unshared action) (hmindful : network.Mindful action) :
    counterSetup.mindfulSystem.Reachable (network.next counterSetup action) :=
  h.step ⟨hunshared, hmindful, rfl⟩

theorem synchronizedDelta_reachable :
    counterSetup.mindfulSystem.Reachable (counterAfter (synchronizedDelta 5)) := by
  have hstart : counterSetup.mindfulSystem.Reachable counterStart := .of_start counterStart_start
  have hunused : ¬counterStart.Used true "op-a1" := by
    intro hused
    simp [Network.Used, counterStart] at hused
  have henqueued := reachable_next hstart
    (.enqueue true { operationId := "op-a1", intentHash := "test", intent := 5 })
    (fun entry hentry => absurd hentry List.not_mem_nil) fun hused => absurd hused hunused
  have hprepared := reachable_next henqueued (.prepare true {}) trivial trivial
  have hdelivered := reachable_next hprepared (.deliver 0) trivial trivial
  exact reachable_next hdelivered (.merge 0) trivial trivial

theorem enqueue_refuses_reuse_counter :
    let network := counterAfter (synchronizedDelta 5)
    (enqueueOperation (network.replicas true)
        { operationId := "op-a1", intentHash := "test", intent := 7 } : Result Empty _) =
      .error (.duplicateOperationIdError "op-a1") ∧
    ∀ entry ∈ network.requests, ∀ e,
      InMemoryLogServer.synchronize counterSettings network.server entry.2 = .error e → ¬e.IsReuse := by
  intro network
  have hdecision : network.server.getDecision "op-a1" = some (.accepted "op-a1" 1 5) := rfl
  have hkept : ¬network.Forgotten true "op-a1" := by
    intro hforgotten
    rcases hforgotten with ⟨reason, hrejected, -⟩ | ⟨sequence, operation, haccepted, hbelow⟩
    · simp [hdecision] at hrejected
    · rw [hdecision] at haccepted
      obtain ⟨-, rfl, -⟩ := ProposalDecision.accepted.inj (Option.some.inj haccepted)
      exact absurd hbelow (by decide)
  obtain ⟨hrefused, hrequests⟩ := enqueue_refuses_reuse counterSetup synchronizedDelta_reachable
  refine ⟨?_, hrequests⟩
  exact (hrefused true { operationId := "op-a1", intentHash := "test", intent := 7 }
    ⟨_, List.mem_singleton.mpr rfl, rfl, rfl⟩ hkept).2 (by decide) (by decide)

/-- After these actions a used identifier is enqueued again, and the request that carries it is refused. -/
def AcceptsReuse (actions : List (NetworkAction Bool Int)) : Prop :=
  counterSetup.unsharedSystem.Reachable (counterAfter (actions ++ usedAgain)) ∧
  (counterAfter actions).Used true "op-a1" ∧
  (∃ state, (enqueueOperation ((counterAfter actions).replicas true)
    { operationId := "op-a1", intentHash := "test", intent := 7 } : Result Empty _) = .ok state) ∧
  ∃ entry ∈ (counterAfter (actions ++ usedAgain)).requests,
    InMemoryLogServer.synchronize counterSettings (counterAfter (actions ++ usedAgain)).server entry.2 =
      .error (.operationIdentityConflictError "op-a1")

/-- Both ways of forgetting: the operation was rejected, or its entry was compacted away. -/
theorem enqueue_accepts_reuse :
    AcceptsReuse (synchronizedDelta 0) ∧ AcceptsReuse (synchronizedDelta 5 ++ [.compact true 1]) := by
  refine ⟨⟨(counter_unshared_reachable ?_).1, ?_⟩, ⟨(counter_unshared_reachable ?_).1, ?_⟩⟩
  · simp [synchronizedDelta, usedAgain]
  · exact ⟨⟨_, List.mem_singleton.mpr rfl, rfl, rfl⟩, ⟨_, rfl⟩, _,
      List.mem_cons_of_mem _ (List.mem_singleton.mpr rfl), rfl⟩
  · simp [synchronizedDelta, usedAgain]
  · exact ⟨⟨_, List.mem_singleton.mpr rfl, rfl, rfl⟩, ⟨_, rfl⟩, _,
      List.mem_cons_of_mem _ (List.mem_singleton.mpr rfl), rfl⟩

end SyncEngine
