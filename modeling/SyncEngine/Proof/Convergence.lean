import SyncEngine.Model.Counter
import SyncEngine.Proof.Network

/-!
# Agreement and confluence

Every replica of a reachable network stands on a prefix of the server's log, every response that is
addressed to it can be merged, and the outcome of merging several of them depends on nothing but
which ones they are.
-/

namespace SyncEngine

open JavaScript Throwing

variable {ι State Intent Operation Rejection ε : Type}

/-- The contract of the applications on a network: replicas apply what the server applies, and take
every operation to be equal to itself. -/
structure NetworkSetup.Lawful (setup : NetworkSetup ι State Intent Operation Rejection ε) : Prop where
  applyCommitted : ∀ i, (setup.replicaInterpreter i).applyCommitted = setup.settings.interpreter.apply
  reflexive : ∀ i, (setup.replicaInterpreter i).Reflexive

/-- A replica agrees with a server: its cursor is inside the log, its retained log is the slice of the
server's log that ends at the cursor, and its state is the fold of the log up to there. -/
structure ReplicaState.AgreesWith (state : ReplicaState State Intent Operation)
    (interpreter : LogInterpreter State Intent Operation Rejection ε) (initialState : State)
    (server : InMemoryLogServer State Operation Rejection) : Prop where
  cursor : 0 ≤ state.confirmedSequence ∧ state.confirmedSequence ≤ server.headSequence
  retained : (state.confirmedLog.length : Int) ≤ state.confirmedSequence
  confirmedLog : state.confirmedLog = slice server.log
    (state.confirmedSequence - state.confirmedLog.length) state.confirmedSequence
  confirmedState : (slice server.log 0 state.confirmedSequence).foldlM
    (fun state entry => interpreter.apply state entry.operation) initialState = .ok state.confirmedState

section Agreement

variable {interpreter : LogInterpreter State Intent Operation Rejection ε} {initialState : State}
  {replica : ReplicaInterpreter State Intent Operation ε}
  {server : InMemoryLogServer State Operation Rejection} {books : Books State Operation Rejection}
  {proposals : List (ProposedOperation Intent)} {knowledge : Knowledge} {retained : Nat}
  {state : ReplicaState State Intent Operation}

theorem ReplicaState.Reflects.agreesWith
    (h : state.Reflects replica initialState books.ledger proposals knowledge retained)
    (hserver : server.Represents books) (happly : replica.applyCommitted = interpreter.apply) :
    state.AgreesWith interpreter initialState server := by
  have hthrough := h.known.through
  have hretained := h.retainedLe
  have hlog : server.log = canonicalLog books.ledger := hserver.log
  have hlength : (state.confirmedLog.length : Int) = knowledge.through - retained := by
    rw [h.confirmedLog, List.length_drop, List.length_take]
    omega
  constructor
  case cursor =>
    rw [InMemoryLogServer.headSequence, hlog, h.confirmedSequence]
    omega
  case retained =>
    rw [hlength, h.confirmedSequence]
    omega
  case confirmedLog =>
    have hfirst : state.confirmedSequence - state.confirmedLog.length = (retained : Int) := by
      rw [hlength, h.confirmedSequence]
      omega
    rw [hfirst, h.confirmedSequence, hlog, slice_natCast, h.confirmedLog]
  case confirmedState =>
    have hfold := h.confirmedState
    rw [applyEntries, happly] at hfold
    rw [hlog, h.confirmedSequence, ← Int.natCast_zero, slice_natCast, List.drop_zero]
    exact hfold

end Agreement

variable [DecidableEq ι] {setup : NetworkSetup ι State Intent Operation Rejection ε}
  {network : Network ι State Intent Operation Rejection}
  {authority : Authority setup.settings.interpreter setup.initialState} {knowledge : ι → Knowledge}
  {retained : ι → Nat}

theorem Network.Consistent.merge_succeeds
    (h : network.Consistent setup authority knowledge retained) (hlawful : setup.Lawful) {i : ι}
    {response : SyncResponse Operation Rejection} (hresponse : (i, response) ∈ network.responses) :
    ∃ result, mergeSyncResponse (setup.replicaInterpreter i) (network.replicas i) response =
      .ok result := by
  have haddressed := h.responses _ hresponse
  have hreflects := (h.participants i).reflects
  refine mergeSyncResponse_succeeds authority.justified h.server.safe hreflects (h.proposals_nodup i)
    (h.recordsOwn i) haddressed.honest haddressed.valid ?_ (hlawful.reflexive i)
    (hlawful.applyCommitted i)
  rw [hreflects.confirmedSequence]
  exact haddressed.base

/-- Prefix agreement: in every reachable configuration every replica agrees with the server, and no
response that is on its way to a replica can fail to merge. -/
theorem replicas_agree (setup : NetworkSetup ι State Intent Operation Rejection ε)
    (hlawful : setup.Lawful) {network : Network ι State Intent Operation Rejection}
    (hreachable : setup.system.Reachable network) (i : ι) :
    (network.replicas i).AgreesWith setup.settings.interpreter setup.initialState network.server ∧
      ∀ response, (i, response) ∈ network.responses →
        ∃ result, mergeSyncResponse (setup.replicaInterpreter i) (network.replicas i) response =
          .ok result := by
  obtain ⟨authority, knowledge, retained, h⟩ := Network.consistent_of_reachable hreachable
  refine ⟨?_, fun response hresponse => h.merge_succeeds hlawful hresponse⟩
  exact (h.participants i).reflects.agreesWith h.server.represents (hlawful.applyCommitted i)

theorem counterSetup_lawful : counterSetup.Lawful where
  applyCommitted _ := rfl
  reflexive _ _ := decide_eq_true rfl

theorem replicas_agree_counter :
    ((counterAfter counterActions).replicas true).AgreesWith counterInterpreter 0
        (counterAfter counterActions).server ∧
      ∀ response, (true, response) ∈ (counterAfter counterActions).responses →
        ∃ result, mergeSyncResponse counterReplicaInterpreter
          ((counterAfter counterActions).replicas true) response = .ok result :=
  replicas_agree counterSetup counterSetup_lawful (counterAfter_reachable counterActions_fresh) true

/-! ### Confluence -/

def mergeAll (replica : ReplicaInterpreter State Intent Operation ε)
    (state : ReplicaState State Intent Operation) (responses : List (SyncResponse Operation Rejection)) :
    Result ε (ReplicaState State Intent Operation) :=
  responses.foldlM (fun state response =>
    MergeSyncResult.state <$> mergeSyncResponse replica state response) state

def Knowledge.joinAll (knowledge : Knowledge) (responses : List (SyncResponse Operation Rejection)) :
    Knowledge :=
  responses.foldl (fun knowledge response => knowledge ⊔ response.knowledge) knowledge

theorem joinAll_le_iff {knowledge bound : Knowledge}
    {responses : List (SyncResponse Operation Rejection)} :
    knowledge.joinAll responses ≤ bound ↔
      knowledge ≤ bound ∧ ∀ response ∈ responses, response.knowledge ≤ bound := by
  induction responses generalizing knowledge with
  | nil => simp [Knowledge.joinAll]
  | cons response responses ih =>
      rw [Knowledge.joinAll, List.foldl_cons, ← Knowledge.joinAll, ih, sup_le_iff, List.forall_mem_cons,
        and_assoc]

theorem joinAll_congr (knowledge : Knowledge) {left right : List (SyncResponse Operation Rejection)}
    (hsame : ∀ response, response ∈ left ↔ response ∈ right) :
    knowledge.joinAll left = knowledge.joinAll right := by
  apply eq_of_forall_ge_iff
  intro bound
  simp only [joinAll_le_iff, hsame]

theorem ReplicaState.Reflects.unique {replica : ReplicaInterpreter State Intent Operation ε}
    {initialState : State} {ledger : Ledger Operation Rejection}
    {proposals : List (ProposedOperation Intent)} {knowledge : Knowledge} {retained : Nat}
    {left right : ReplicaState State Intent Operation}
    (hleft : left.Reflects replica initialState ledger proposals knowledge retained)
    (hright : right.Reflects replica initialState ledger proposals knowledge retained)
    (hclient : left.clientId = right.clientId)
    (hnext : left.nextClientSequence = right.nextClientSequence) : left = right := by
  have hstate : left.confirmedState = right.confirmedState :=
    Except.ok.inj (hleft.confirmedState.symm.trans hright.confirmedState)
  have hsequence := hleft.confirmedSequence.trans hright.confirmedSequence.symm
  have hlog := hleft.confirmedLog.trans hright.confirmedLog.symm
  have houtbox := hleft.outbox.trans hright.outbox.symm
  cases left
  cases right
  simp_all

theorem Network.Consistent.mergeAll_reflects
    (h : network.Consistent setup authority knowledge retained) (hlawful : setup.Lawful) {i : ι}
    {responses : List (SyncResponse Operation Rejection)}
    (haddressed : ∀ response ∈ responses, (i, response) ∈ network.responses)
    {current : Knowledge} (hle : knowledge i ≤ current) {state : ReplicaState State Intent Operation}
    (hstate : state.Reflects (setup.replicaInterpreter i) setup.initialState authority.ledger
      (network.proposalsOf i) current (retained i)) :
    ∃ final, mergeAll (setup.replicaInterpreter i) state responses = .ok final ∧
      final.Reflects (setup.replicaInterpreter i) setup.initialState authority.ledger
        (network.proposalsOf i) (current.joinAll responses) (retained i) ∧
      final.clientId = state.clientId ∧ final.nextClientSequence = state.nextClientSequence := by
  induction responses generalizing current state with
  | nil => exact ⟨state, rfl, hstate, rfl, rfl⟩
  | cons response responses ih =>
      rw [List.forall_mem_cons] at haddressed
      have hresponse := (h.responses _ haddressed.1).learn hle
      have hbase : response.requestedBaseSequence ≤ state.confirmedSequence := by
        rw [hstate.confirmedSequence]
        exact hresponse.base
      obtain ⟨result, hmerge⟩ := mergeSyncResponse_succeeds authority.justified h.server.safe hstate
        (h.proposals_nodup i) (h.recordsOwn i) hresponse.honest hresponse.valid hbase
        (hlawful.reflexive i) (hlawful.applyCommitted i)
      obtain ⟨hreflects, hresult⟩ := mergeSyncResponse_reflects authority.justified h.server.safe hstate
        (h.proposals_nodup i) (h.recordsOwn i) hresponse.honest hresponse.valid hbase hmerge
      obtain ⟨final, hrest, hfinal, hclient, hnext⟩ :=
        ih haddressed.2 (hle.trans le_sup_left) hreflects
      refine ⟨final, ?_, hfinal, hclient.trans ?_, hnext.trans ?_⟩
      · rw [mergeAll, List.foldlM_cons, hmerge, map_ok, ok_bind]
        exact hrest
      · rw [hresult]
        rfl
      · rw [hresult]
        rfl

/-- Order and multiplicity of responses do not matter: two lists with the same responses, all of them
addressed to a replica, are merged into the same state. -/
theorem merges_commute (setup : NetworkSetup ι State Intent Operation Rejection ε)
    (hlawful : setup.Lawful) {network : Network ι State Intent Operation Rejection}
    (hreachable : setup.system.Reachable network) (i : ι)
    {left right : List (SyncResponse Operation Rejection)}
    (haddressed : ∀ response ∈ left, (i, response) ∈ network.responses)
    (hsame : ∀ response, response ∈ left ↔ response ∈ right) :
    ∃ final, mergeAll (setup.replicaInterpreter i) (network.replicas i) left = .ok final ∧
      mergeAll (setup.replicaInterpreter i) (network.replicas i) right = .ok final := by
  obtain ⟨authority, knowledge, retained, h⟩ := Network.consistent_of_reachable hreachable
  have hreflects := (h.participants i).reflects
  obtain ⟨final, hleft, hfinal, hclient, hnext⟩ :=
    h.mergeAll_reflects hlawful haddressed (le_refl _) hreflects
  obtain ⟨final', hright, hfinal', hclient', hnext'⟩ := h.mergeAll_reflects hlawful
    (fun response hresponse => haddressed response ((hsame response).mpr hresponse)) (le_refl _) hreflects
  rw [← joinAll_congr (knowledge i) hsame] at hfinal'
  obtain rfl := hfinal.unique hfinal' (hclient.trans hclient'.symm) (hnext.trans hnext'.symm)
  exact ⟨final, hleft, hright⟩

theorem merges_commute_counter :
    ((counterAfter counterActions).responses.map Prod.fst) = [true, true] ∧
    ∃ final, mergeAll counterReplicaInterpreter ((counterAfter counterActions).replicas true)
        ((counterAfter counterActions).responses.map Prod.snd) = .ok final ∧
      mergeAll counterReplicaInterpreter ((counterAfter counterActions).replicas true)
        (((counterAfter counterActions).responses ++
          (counterAfter counterActions).responses.reverse).map Prod.snd) = .ok final := by
  refine ⟨rfl, merges_commute counterSetup counterSetup_lawful
    (counterAfter_reachable counterActions_fresh) true ?_ ?_⟩
  · have haddressed : ∀ entry ∈ (counterAfter counterActions).responses, entry.1 = true := by
      show ∀ entry ∈ [(_, _), (_, _)], _
      simp
    intro response hresponse
    obtain ⟨entry, hentry, rfl⟩ := List.mem_map.mp hresponse
    rw [← haddressed entry hentry]
    exact hentry
  · intro response
    rw [List.map_append, List.map_reverse, List.mem_append, List.mem_reverse, or_self]

end SyncEngine
