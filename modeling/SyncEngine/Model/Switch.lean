import SyncEngine.Model.D1

/-!
# The switch application

The application that the repository tests the D1 commit guard with, without the values that are
written: writes are rejected until a switch is enabled.
-/

namespace SyncEngine

inductive SwitchIntent where
  | enable
  | write
  deriving DecidableEq

def switchInterpreter : LogInterpreter Bool SwitchIntent SwitchIntent Unit Empty where
  decide
    | _, ⟨_, .enable⟩ => .ok (.accepted .enable)
    | true, ⟨_, .write⟩ => .ok (.accepted .write)
    | false, ⟨_, .write⟩ => .ok (.rejected ())
  apply
    | _, .enable => .ok true
    | enabled, .write => .ok enabled

def switchStateCodec : JsonCodec Bool Empty where
  serializeJson enabled := if enabled then "true" else "false"
  deserializeJson text := .ok (text = "true")

def switchOperationCodec : JsonCodec SwitchIntent Empty where
  serializeJson
    | .enable => "\"enable\""
    | .write => "\"write\""
  deserializeJson text := if text = "\"enable\"" then .ok .enable else .ok .write

def switchRejectionCodec : JsonCodec Unit Empty where
  serializeJson _ := "\"disabled\""
  deserializeJson _ := .ok ()

def switchOptions : CreateD1LogSyncAuthorityOptions Bool SwitchIntent SwitchIntent Unit Empty where
  streamId := "workspace:guarded"
  initialState := false
  interpreter := switchInterpreter
  stateCodec := switchStateCodec
  operationCodec := switchOperationCodec
  rejectionCodec := switchRejectionCodec

/-- The stream of the switch, with the default schema hash. -/
def switchStream : D1StreamSettings Bool SwitchIntent SwitchIntent Unit Empty where
  streamId := "workspace:guarded"
  schemaHash := "unversioned"
  initialState := false
  interpreter := switchInterpreter
  stateCodec := switchStateCodec
  operationCodec := switchOperationCodec
  rejectionCodec := switchRejectionCodec

/-- The authority of the switch, with the default limits and retries. -/
def switchAuthority : D1AuthoritySettings Bool SwitchIntent SwitchIntent Unit Empty :=
  { switchStream with
    limits := defaultProtocolLimits
    maximumCommitRetries := 4 }

theorem createD1LogSyncAuthority_switch :
    createD1LogSyncAuthority switchOptions = .ok switchAuthority := rfl

def switchDelivery (operationId clientId : String) (intent : SwitchIntent) : D1Delivery SwitchIntent where
  limits := defaultProtocolLimits
  maximumCommitRetries := 4
  request := {
    baseSequence := 0
    maximumEntries := 10
    proposals := [{
      operationId := operationId
      clientId := clientId
      clientSequence := 1
      intentHash := s!"hash:{operationId}"
      intent := intent }] }

/-- Two deliveries over empty tables. -/
def switchStart (first second : D1Delivery SwitchIntent) : D1Pool SwitchIntent SwitchIntent Unit Empty :=
  let initial : D1Pool SwitchIntent SwitchIntent Unit Empty := { store := ⟨[], [], []⟩, threads := [] }
  (initial.next D1Tables.answer switchStream.deliver (.start first)).next D1Tables.answer
    switchStream.deliver (.start second)

/-- The two deliveries taking turns as scheduled. -/
def switchPool (first second : D1Delivery SwitchIntent) (schedule : List Nat) :
    D1Pool SwitchIntent SwitchIntent Unit Empty :=
  (switchStart first second).run D1Tables.answer switchStream.deliver (schedule.map .step)

theorem switchStream_unopened : switchStream.Unopened ⟨[], [], []⟩ := by
  constructor <;> simp

theorem switchPool_reachable {admits : D1Tables → D1Delivery SwitchIntent → Prop}
    {first second : D1Delivery SwitchIntent} (hfirst : admits ⟨[], [], []⟩ first)
    (hsecond : admits ⟨[], [], []⟩ second) (schedule : List Nat) :
    (switchStream.system admits).Reachable (switchPool first second schedule) := by
  have hstart := TransitionSystem.Reachable.of_start (S := switchStream.system admits)
    (s := { store := ⟨[], [], []⟩, threads := [] }) ⟨switchStream_unopened, rfl⟩
  apply Pool.reachable_run
  exact (Pool.reachable_start hstart hfirst).step ⟨fun other hother => PoolAction.start.inj hother ▸ hsecond, rfl⟩

/-- The first thread decides a write on the disabled switch. It commits after the second thread has
enabled it. -/
def guardedSchedule : List Nat := [0, 0, 0, 0, 1, 1, 1, 1, 1, 1, 0, 0, 0, 0, 0, 0, 0]

def guardedPool : D1Pool SwitchIntent SwitchIntent Unit Empty :=
  switchPool (switchDelivery "write" "stale" .write) (switchDelivery "enable" "winner" .enable)
    guardedSchedule

/-- The first commit is rolled back, and the second attempt of the write is accepted. -/
example :
    guardedPool.threads.map (fun thread => match thread.program with
        | .pure response => some (response.headSequence, response.decisions)
        | _ => none) =
      [some (2, [.accepted "write" 2 .write]), some (1, [.accepted "enable" 1 .enable])] := by
  rfl

/-- The first thread has read the head when the second one commits the same proposal. -/
def duplicateSchedule : List Nat := [0, 0, 1, 1, 1, 1, 1, 1, 0, 0]

def duplicatePool : D1Pool SwitchIntent SwitchIntent Unit Empty :=
  switchPool (switchDelivery "enable" "winner" .enable) (switchDelivery "enable" "winner" .enable)
    duplicateSchedule

end SyncEngine
