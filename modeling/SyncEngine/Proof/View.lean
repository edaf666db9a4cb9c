import SyncEngine.Model.View

/-!
# The view shows one durable version

After every segment the tables, the counters, the client and the optimistic state of a view are those of
one read, and refreshes publish in the order of their calls, as long as no read returns another schema.
A refresh assigns the client and the optimistic state before it checks the schema, so that a read with
another schema breaks this at once.
-/

namespace SyncEngine

open Throwing

variable {Row Failure : Type} {setup : ReplicaViewSetup} {initial : SyncReplicaStoreSnapshot Row}

structure ViewObservation (Row : Type) where
  clientId : String
  optimisticState : ReplicaDatabaseState Row
  tables : JsRecord (List Row)
  confirmedSequence : Int
  pendingProposalCount : Nat
  acceptedAwaitingConfirmationCount : Nat
  unacknowledgedResolutionCount : Nat

/-- What the getters of a view return. -/
def ReplicaView.observe (view : ReplicaView Row Failure) : ViewObservation Row where
  clientId := view.clientId
  optimisticState := view.optimisticState
  tables := view.snapshot.tables
  confirmedSequence := view.snapshot.confirmedSequence
  pendingProposalCount := view.snapshot.pendingProposalCount
  acceptedAwaitingConfirmationCount := view.snapshot.acceptedAwaitingConfirmationCount
  unacknowledgedResolutionCount := view.snapshot.unacknowledgedResolutionCount

def SyncReplicaStoreSnapshot.observation (setup : ReplicaViewSetup) (read : SyncReplicaStoreSnapshot Row) :
    ViewObservation Row where
  clientId := read.clientId
  optimisticState := read.optimisticState
  tables := (makeSnapshot setup read.optimisticState read.status .idle (none : Option (ViewError Empty)) 0).tables
  confirmedSequence := read.status.confirmedSequence
  pendingProposalCount := read.status.pendingProposalCount
  acceptedAwaitingConfirmationCount := read.status.acceptedAwaitingConfirmationCount
  unacknowledgedResolutionCount := read.status.unacknowledgedResolutionCount

def SyncReplicaStoreSnapshot.Matches (setup : ReplicaViewSetup) (read : SyncReplicaStoreSnapshot Row) : Prop :=
  read.optimisticState.schemaHash = setup.schema.schemaHash

def delivered (events : List (ViewEvent Row Failure)) (read : SyncReplicaStoreSnapshot Row) : Prop :=
  ViewEvent.reads (.ok read) ∈ events

/-- The read that was published last. -/
def ViewRun.current (initial : SyncReplicaStoreSnapshot Row) (run : ViewRun Row Failure) :
    SyncReplicaStoreSnapshot Row := (run.published.getLast?.map Prod.snd).getD initial

/-- Everything a client sees comes from one read that passed the schema check: the one published last. -/
structure ViewRun.Coherent (setup : ReplicaViewSetup) (initial : SyncReplicaStoreSnapshot Row)
    (run : ViewRun Row Failure) : Prop where
  matched : (run.current initial).Matches setup
  observed : run.view.observe = (run.current initial).observation setup

/-- Refreshes have published in the order they were called. -/
def ViewRun.Ordered (run : ViewRun Row Failure) : Prop :=
  (run.published.map Prod.fst).Pairwise (· < ·)

/-- An event that publishes no read, such as a refresh that fails or a new phase, changes nothing that a
client sees. -/
def ViewRun.Steady (setup : ReplicaViewSetup) (run : ViewRun Row Failure)
    (event : ViewEvent Row Failure) : Prop :=
  ∀ run', run.next setup event = some run' → run'.published = run.published →
    run'.view.observe = run.view.observe

namespace ViewRun

variable {run run' : ViewRun Row Failure} {event : ViewEvent Row Failure}

/-! ### The variables of the view -/

/-- The variables that the next snapshot is made of are those of the read published last. -/
structure Settled (setup : ReplicaViewSetup) (initial : SyncReplicaStoreSnapshot Row)
    (run : ViewRun Row Failure) : Prop extends Coherent setup initial run where
  status : run.view.status = (run.current initial).status

theorem observe_emit {view : ReplicaView Row Failure} {read : SyncReplicaStoreSnapshot Row}
    (hclient : view.clientId = read.clientId) (hstate : view.optimisticState = read.optimisticState)
    (hstatus : view.status = read.status) : (view.emit setup).observe = read.observation setup := by
  simp [ReplicaView.observe, ReplicaView.emit, SyncReplicaStoreSnapshot.observation, makeSnapshot, hclient,
    hstate, hstatus]

theorem Settled.clientId (h : run.Settled setup initial) :
    run.view.clientId = (run.current initial).clientId :=
  congrArg ViewObservation.clientId h.observed

theorem Settled.optimisticState (h : run.Settled setup initial) :
    run.view.optimisticState = (run.current initial).optimisticState :=
  congrArg ViewObservation.optimisticState h.observed

theorem Settled.emit (h : run.Settled setup initial) (phase : SyncClientPhase)
    (error : Option (ViewError Failure)) :
    ({ run with view := { run.view with phase := phase, error := error }.emit setup }).Settled setup
      initial where
  matched := h.matched
  observed := observe_emit h.clientId h.optimisticState h.status
  status := h.status

theorem settled_created {view : ReplicaView Row Failure}
    (hcreate : createReplicaView setup initial = .ok view) : (created view).Settled setup initial := by
  rw [createReplicaView, bind_unit_eq_ok] at hcreate
  obtain ⟨hmatch, hview⟩ := hcreate
  obtain rfl := Except.ok.inj hview
  rw [assertDatabaseStateSchema, throwIf_eq_ok, not_not] at hmatch
  exact { matched := hmatch, observed := rfl, status := rfl }

theorem settled_settle {call : RefreshCall Failure} {rest : List (RefreshCall Failure)}
    {next : SyncReplicaStoreSnapshot Row} (hmatch : next.Matches setup) :
    (run.settle setup call rest (.ok next)).Settled setup initial := by
  have hassert : assertDatabaseStateSchema setup.schema next.optimisticState = .ok () :=
    throwIf_neg (not_not.mpr hmatch)
  have hcurrent : (run.settle setup call rest (.ok next)).current initial = next := by
    simp [settle, ReplicaView.endRefresh, hassert, current]
  have hview : (run.settle setup call rest (.ok next)).view =
      ({ run.view with
        clientId := next.clientId
        optimisticState := next.optimisticState
        status := next.status
        revision := run.view.revision + 1 } : ReplicaView Row Failure).emit setup := by
    simp [settle, ReplicaView.endRefresh, hassert]
  exact {
    matched := by rwa [hcurrent]
    observed := by
      rw [hcurrent, hview]
      exact observe_emit rfl rfl rfl
    status := by
      rw [hcurrent, hview]
      rfl }

theorem next_begins (hnext : run.next setup .begins = some run') : ∃ call rest,
    run.refreshTail = call :: rest ∧
      run' = { run with view := run.view.beginRefresh call.options, reading := true } := by
  rw [next] at hnext
  cases htail : run.refreshTail with
  | nil =>
      rw [htail] at hnext
      contradiction
  | cons call rest =>
      rw [htail] at hnext
      by_cases hreading : run.reading
      · simp [hreading] at hnext
      · simp only [hreading, Bool.false_eq_true, if_false, Option.some.injEq] at hnext
        exact ⟨call, rest, rfl, hnext.symm⟩

theorem next_reads {result : Except Failure (SyncReplicaStoreSnapshot Row)}
    (hnext : run.next setup (.reads result) = some run') : ∃ call rest,
    run.refreshTail = call :: rest ∧ run' = run.settle setup call rest result := by
  rw [next] at hnext
  cases htail : run.refreshTail with
  | nil =>
      rw [htail] at hnext
      contradiction
  | cons call rest =>
      rw [htail] at hnext
      by_cases hreading : run.reading
      · simp only [hreading, if_true, Option.some.injEq] at hnext
        exact ⟨call, rest, rfl, hnext.symm⟩
      · simp [hreading] at hnext

theorem observe_beginRefresh (view : ReplicaView Row Failure)
    (options : Option (ReplicaViewRefreshOptions Failure)) :
    (view.beginRefresh options).observe = view.observe ∧ (view.beginRefresh options).status = view.status := by
  cases options <;> exact ⟨rfl, rfl⟩

theorem Settled.next (h : run.Settled setup initial) (hnext : run.next setup event = some run')
    (hmatch : ∀ read, event = .reads (.ok read) → read.Matches setup) : run'.Settled setup initial := by
  cases event with
  | refresh options =>
      obtain rfl := Option.some.inj hnext
      exact { h with }
  | begins =>
      obtain ⟨call, _, _, rfl⟩ := next_begins hnext
      obtain ⟨hobserve, hstatus⟩ := observe_beginRefresh run.view call.options
      exact { matched := h.matched, observed := hobserve.trans h.observed, status := hstatus.trans h.status }
  | reads result =>
      obtain ⟨call, rest, _, rfl⟩ := next_reads hnext
      cases result with
      | error failure => exact { h with }
      | ok read => exact settled_settle (hmatch read rfl)
  | setPhase phase error =>
      obtain rfl := Option.some.inj hnext
      exact h.emit phase error
  | close =>
      obtain rfl := Option.some.inj hnext
      exact h.emit .closed run.view.error

theorem Settled.steady (h : run.Settled setup initial)
    (hmatch : ∀ read, event = .reads (.ok read) → read.Matches setup) : run.Steady setup event := by
  intro run' hnext hpublished
  have hcurrent : run'.current initial = run.current initial := by
    rw [current, current, hpublished]
  rw [(h.next hnext hmatch).observed, h.observed, hcurrent]

/-! ### The order of refreshes -/

def numbers (run : ViewRun Row Failure) : List Nat :=
  run.published.map Prod.fst ++ run.refreshTail.map RefreshCall.number

/-- Calls wait and publish in the order of their numbers, and the next number is new. -/
structure InTurn (run : ViewRun Row Failure) : Prop where
  pairwise : run.numbers.Pairwise (· < ·)
  below : ∀ number ∈ run.numbers, number < run.calls

theorem InTurn.of_sublist (h : run.InTurn) (hsublist : run'.numbers.Sublist run.numbers)
    (hcalls : run'.calls = run.calls) : run'.InTurn where
  pairwise := h.pairwise.sublist hsublist
  below number hmem := hcalls ▸ h.below number (hsublist.subset hmem)

theorem InTurn.next (h : run.InTurn) (hnext : run.next setup event = some run') : run'.InTurn := by
  cases event with
  | refresh options =>
      obtain rfl := Option.some.inj hnext
      have hnumbers : (run.published.map Prod.fst ++
          (run.refreshTail ++ [(⟨run.calls, options⟩ : RefreshCall Failure)]).map RefreshCall.number) =
          run.numbers ++ [run.calls] := by
        rw [List.map_append, ← List.append_assoc]
        rfl
      constructor
      · rw [numbers, hnumbers, List.pairwise_append]
        refine ⟨h.pairwise, List.pairwise_singleton _ _, fun number hmem other hother => ?_⟩
        rw [List.mem_singleton.mp hother]
        exact h.below number hmem
      · intro number hmem
        rw [numbers, hnumbers, List.mem_append, List.mem_singleton] at hmem
        rcases hmem with hmem | rfl
        · exact (h.below number hmem).trans (Nat.lt_succ_self _)
        · exact Nat.lt_succ_self _
  | begins =>
      obtain ⟨call, rest, _, rfl⟩ := next_begins hnext
      exact { h with }
  | reads result =>
      obtain ⟨call, rest, htail, rfl⟩ := next_reads hnext
      have hdropped : (run.published.map Prod.fst ++ rest.map RefreshCall.number).Sublist run.numbers := by
        rw [numbers, htail]
        exact List.Sublist.append_left (List.sublist_cons_self _ _) _
      refine h.of_sublist ?_ rfl
      rcases result with failure | read
      · exact hdropped
      · cases hassert : assertDatabaseStateSchema setup.schema read.optimisticState with
        | error mismatch =>
            simpa [numbers, settle, ReplicaView.endRefresh, hassert] using hdropped
        | ok =>
            have hkept : (run.published.map Prod.fst ++ call.number :: rest.map RefreshCall.number).Sublist
                run.numbers := by
              rw [numbers, htail]
              exact List.Sublist.refl _
            simpa [numbers, settle, ReplicaView.endRefresh, hassert] using hkept
  | setPhase phase error =>
      obtain rfl := Option.some.inj hnext
      exact { h with }
  | close =>
      obtain rfl := Option.some.inj hnext
      exact { h with }

theorem InTurn.ordered (h : run.InTurn) : run.Ordered :=
  h.pairwise.sublist (List.sublist_append_left _ _)

/-! ### Runs -/

theorem settled_of_path {start : ViewRun Row Failure} {events : List (ViewEvent Row Failure)}
    (hstart : (setup.system initial).start start) (hpath : (setup.system initial).Path start events run)
    (hmatch : ∀ read, delivered events read → read.Matches setup) :
    run.Settled setup initial ∧ run.InTurn := by
  induction hpath with
  | nil =>
      obtain ⟨view, hcreate, rfl⟩ := hstart
      exact ⟨settled_created hcreate, { pairwise := List.Pairwise.nil, below := by simp [numbers, created] }⟩
  | snoc _ hlast ih =>
      obtain ⟨hsettled, hturn⟩ := ih fun read hread => hmatch read (List.mem_append_left _ hread)
      exact ⟨hsettled.next hlast fun read heq => hmatch read (by simp [delivered, heq]), hturn.next hlast⟩

/-- A read with another schema shows at once in the optimistic state, with nothing published. -/
theorem mismatch_next {read : SyncReplicaStoreSnapshot Row} (hmismatch : ¬read.Matches setup)
    (hnext : run.next setup (.reads (.ok read)) = some run') :
    run'.view.optimisticState = read.optimisticState := by
  obtain ⟨call, rest, _, rfl⟩ := next_reads hnext
  have hassert : assertDatabaseStateSchema setup.schema read.optimisticState =
      .error ⟨setup.schema.schemaHash, read.optimisticState.schemaHash⟩ := throwIf_pos hmismatch
  simp [settle, ReplicaView.endRefresh, hassert]

/-- A run is right when after every event the view is coherent and has published in order, and the next
event changes what it shows only by publishing. Exactly the runs in which no refresh reads another schema
are right. -/
theorem view_coherent_iff {start final : ViewRun Row Failure} {events : List (ViewEvent Row Failure)}
    (hstart : (setup.system initial).start start) (hpath : (setup.system initial).Path start events final) :
    (∀ before after run, events = before ++ after → (setup.system initial).Path start before run →
      run.Coherent setup initial ∧ run.Ordered ∧
        ∀ event rest, after = event :: rest → run.Steady setup event) ↔
      ∀ read, delivered events read → read.Matches setup := by
  constructor
  · intro hright read hread
    by_contra hmismatch
    obtain ⟨before, after, rfl⟩ := List.append_of_mem hread
    rw [← List.singleton_append, ← List.append_assoc] at hpath
    obtain ⟨run, hbefore, _⟩ := hpath.split
    obtain ⟨hcoherent, _⟩ := hright (before ++ [.reads (.ok read)]) after run (by simp) hbefore
    obtain ⟨previous, _, hlast⟩ := hbefore.split
    have hstep : previous.next setup (.reads (.ok read)) = some run := hlast.step_of_singleton
    have hshown := congrArg ViewObservation.optimisticState hcoherent.observed
    have hstate : read.optimisticState = (run.current initial).optimisticState :=
      (mismatch_next hmismatch hstep).symm.trans hshown
    exact hmismatch (by rw [SyncReplicaStoreSnapshot.Matches, hstate]; exact hcoherent.matched)
  · intro hmatch before after run hevents hbefore
    have hearlier : ∀ read, delivered before read → read.Matches setup :=
      fun read hread => hmatch read (hevents ▸ List.mem_append_left _ hread)
    obtain ⟨hsettled, hturn⟩ := settled_of_path hstart hbefore hearlier
    refine ⟨hsettled.toCoherent, hturn.ordered, fun event rest hafter => hsettled.steady ?_⟩
    intro read heq
    refine hmatch read ?_
    rw [hevents, hafter, heq]
    exact List.mem_append_right _ List.mem_cons_self

/-! ### A read with another schema -/

def sampleSetup : ReplicaViewSetup where
  schema := ⟨[0], ⟨[([1], { primaryKey := [], columns := InsertionMap.empty })], by decide⟩⟩
  localeCompare _ _ := 0

def sampleInitial : SyncReplicaStoreSnapshot Unit where
  clientId := "a"
  optimisticState := ⟨[0], InsertionMap.empty⟩
  status := ⟨0, 0, 0, 0⟩

def sampleMismatch : SyncReplicaStoreSnapshot Unit where
  clientId := "a"
  optimisticState := ⟨[2], ⟨[([1], ⟨[([], ())], by decide⟩)], by decide⟩⟩
  status := ⟨1, 0, 0, 0⟩

def sampleView : ReplicaView Unit Unit where
  clientId := "a"
  phase := .idle
  error := none
  revision := 0
  optimisticState := sampleInitial.optimisticState
  status := sampleInitial.status
  snapshot := makeSnapshot sampleSetup sampleInitial.optimisticState sampleInitial.status .idle none 0

/-- A refresh reads another schema and fails. The optimistic state is the rejected one, and the phase
that the failing synchronization sets publishes its row with the old counters. -/
theorem view_incoherent_example : ∃ start failed final : ViewRun Unit Unit,
    (sampleSetup.system sampleInitial).start start ∧
    (sampleSetup.system sampleInitial).Path start [.refresh none, .begins, .reads (.ok sampleMismatch)] failed ∧
    (sampleSetup.system sampleInitial).Path failed [.setPhase .error none] final ∧
    failed.published = [] ∧ ¬failed.Coherent sampleSetup sampleInitial ∧
    final.view.snapshot.tables.entries = [([1], [()])] ∧ final.view.snapshot.confirmedSequence = 0 := by
  have hcreate : createReplicaView sampleSetup sampleInitial = .ok sampleView := rfl
  have hfailed : List.foldlM (fun run event => next sampleSetup run event) (created sampleView)
      [.refresh none, .begins, .reads (.ok sampleMismatch)] = some _ := rfl
  refine ⟨_, _, _, ⟨_, hcreate, rfl⟩, .of_foldlM (fun _ _ _ h => h) hfailed,
    .of_foldlM (fun _ _ _ h => h) (rfl : List.foldlM (fun run event => next sampleSetup run event) _
      [.setPhase .error none] = some _), rfl, ?_, rfl, rfl⟩
  intro hcoherent
  have hshown := congrArg (fun observation => observation.optimisticState.schemaHash) hcoherent.observed
  revert hshown
  decide

def sampleUpdate : SyncReplicaStoreSnapshot Unit where
  clientId := "a"
  optimisticState := ⟨[0], sampleMismatch.optimisticState.tables⟩
  status := sampleMismatch.status

theorem view_coherent_iff_sample : ∃ final : ViewRun Unit Unit,
    (sampleSetup.system sampleInitial).Path (created sampleView)
      [.refresh none, .begins, .reads (.ok sampleUpdate), .setPhase .syncing none] final ∧
    final.view.snapshot.tables.entries = [([1], [()])] ∧ final.view.snapshot.confirmedSequence = 1 ∧
    ((∀ before after run,
        [.refresh none, .begins, .reads (.ok sampleUpdate), .setPhase .syncing none] = before ++ after →
        (sampleSetup.system sampleInitial).Path (created sampleView) before run →
        run.Coherent sampleSetup sampleInitial ∧ run.Ordered ∧
          ∀ event rest, after = event :: rest → run.Steady sampleSetup event) ↔
      ∀ read, delivered
        ([.refresh none, .begins, .reads (.ok sampleUpdate), .setPhase .syncing none] :
          List (ViewEvent Unit Unit)) read →
        read.Matches sampleSetup) := by
  have hfinal : List.foldlM (fun run event => next sampleSetup run event) (created sampleView)
      [.refresh none, .begins, .reads (.ok sampleUpdate), .setPhase .syncing none] = some _ := rfl
  have hpath : (sampleSetup.system sampleInitial).Path (created sampleView)
      [.refresh none, .begins, .reads (.ok sampleUpdate), .setPhase .syncing none] _ :=
    .of_foldlM (fun _ _ _ h => h) hfinal
  exact ⟨_, hpath, rfl, rfl, view_coherent_iff ⟨sampleView, rfl, rfl⟩ hpath⟩

end ViewRun

end SyncEngine
