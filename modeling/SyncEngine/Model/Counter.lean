import SyncEngine.Model.Network
import Mathlib.Data.Bool.Basic

/-!
# The counter application

The application that the repository's own tests run the protocol with: a counter whose intents are
deltas, where the authority rejects a delta of zero.
-/

namespace SyncEngine

def applyCounter (value delta : Int) : Except Empty Int := .ok (value + delta)

def counterInterpreter : LogInterpreter Int Int Int String Empty where
  decide _ proposal :=
    if proposal.intent = 0 then .ok (.rejected "zero-delta") else .ok (.accepted proposal.intent)
  apply := applyCounter

def counterReplicaInterpreter : ReplicaInterpreter Int Int Int Empty where
  applyCommitted := applyCounter
  applyOptimistic := applyCounter
  areCommittedOperationsEqual left right := left = right

def counterOptions : InMemoryLogServerOptions Int Int Int String Empty where
  initialState := 0
  interpreter := counterInterpreter
  limits := {}

def counterSettings : LogServerSettings Int Int Int String Empty where
  interpreter := counterInterpreter
  limits := defaultProtocolLimits

def counterProposal (operationId clientId : String) (clientSequence delta : Int) :
    ProposedOperation Int where
  operationId := operationId
  clientId := clientId
  clientSequence := clientSequence
  intentHash := s!"test:{delta}"
  intent := delta

def counterRequest (baseSequence : Int) (proposals : List (ProposedOperation Int)) : SyncRequest Int where
  baseSequence := baseSequence
  maximumEntries := 256
  proposals := proposals

/-- Two counters over one authority. -/
def counterSetup : NetworkSetup Bool Int Int Int String Empty where
  settings := counterSettings
  resolved := ⟨by decide, by decide⟩
  initialState := 0
  replicaOptions i := { clientId := if i then "client-a" else "client-b", initialState := 0 }
  replicaInterpreter _ := counterReplicaInterpreter
  startsFromServerState _ := rfl
  distinctClientIds := Bool.injective_iff.mpr (by decide)

def counterStart : Network Bool Int Int Int String where
  server := .initial 0
  replicas i := {
    clientId := if i then "client-a" else "client-b"
    nextClientSequence := 1
    confirmedSequence := 0
    confirmedState := 0
    confirmedLog := []
    outbox := [] }
  requests := []
  responses := []
  enqueued := []

/-- The counters after some actions. -/
def counterAfter (actions : List (NetworkAction Bool Int)) : Network Bool Int Int Int String :=
  counterStart.run counterSetup actions

/-- One client sends an increment twice, the second time together with a delta of zero, merges the
first response and compacts its log. -/
def counterActions : List (NetworkAction Bool Int) := [
  .enqueue true { operationId := "op-a1", intentHash := "test:5", intent := 5 },
  .prepare true {},
  .enqueue true { operationId := "op-a2", intentHash := "test:0", intent := 0 },
  .prepare true {},
  .deliver 0,
  .deliver 1,
  .merge 0,
  .compact true 1]

theorem counterStart_start : counterSetup.system.start counterStart :=
  ⟨rfl, fun i => by cases i <;> rfl, rfl, rfl, rfl⟩

theorem counterAfter_reachable {actions : List (NetworkAction Bool Int)}
    (hfresh : counterStart.FreshRun counterSetup actions) :
    counterSetup.system.Reachable (counterAfter actions) :=
  ⟨counterStart, actions, counterStart_start, counterSetup.path_run hfresh⟩

theorem counterActions_fresh : counterStart.FreshRun counterSetup counterActions := by
  refine ⟨?_, trivial, ?_, trivial, trivial, trivial, trivial, trivial, trivial⟩
  · show ∀ entry ∈ [], _
    simp
  · show ∀ entry ∈ [_], _
    decide

end SyncEngine
