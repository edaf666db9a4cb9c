import SyncEngine.Lib.JavaScript
import SyncEngine.Lib.TransitionSystem

/-!
# The scheduling of synchronization passes

`requestSync`, `runRequestedSync` and `syncWithRetry` of `client/client.ts`, cut into the segments of
code that run without interruption: up to an `await`, in a promise reaction, or in a call from outside.
Every call of `runRequestedSync` is a runner with the promise that its `finally` returns; the position
of a runner says which segment comes next. What a pass does is the environment's choice of when its
promise settles, and how.
-/

namespace SyncEngine

open JavaScript

inductive ClientError where
  | syncClientClosedError
  | syncClientHttpError (code : Option String) (message : String)
  | error (message : String)
  deriving DecidableEq

def ClientError.message : ClientError → String
  | .syncClientClosedError => "sync client is closed"
  | .syncClientHttpError _ message => message
  | .error message => message

abbrev Settlement := Except ClientError Unit

def isRetryableSyncError (error : ClientError) : Bool :=
  (match error with
    | .syncClientHttpError code _ => code = some "sync-conflict"
    | _ => false) ||
  includes error.message "D1 sync stream changed while committing" ||
    includes error.message "retry the sync request"

/-- `SyncRetryOptions`. The delays only say how long a wait takes. -/
structure SyncRetryOptions where
  maximumAttempts : Option Int := none
  shouldRetry : Option (ClientError → Nat → Except ClientError Bool) := none

/-- `SyncRetryPolicy | undefined`, where `none` is `false`. -/
abbrev SyncRetryPolicy := Option SyncRetryOptions

def defaultSyncRetryAttempts : Int := 5

namespace SyncRetryOptions

def attempts (options : SyncRetryOptions) : Int :=
  options.maximumAttempts.getD defaultSyncRetryAttempts

def retries (options : SyncRetryOptions) : ClientError → Nat → Except ClientError Bool :=
  options.shouldRetry.getD fun error _ => .ok (isRetryableSyncError error)

end SyncRetryOptions

/-- Where a call of `runRequestedSync` stands. -/
inductive RunnerPhase where
  | performing (attempt : Nat)
  /-- The promise of `performSync` has settled, and `syncWithRetry` continues next. -/
  | performed (attempt : Nat) (result : Settlement)
  | waiting (attempt : Nat)
  /-- `syncWithRetry` has settled, and the loop continues next. -/
  | retried (result : Settlement)
  /-- The loop has ended, and the `finally` callback comes next. -/
  | finished (result : Settlement)
  /-- The callback has run, and the promise that callers hold settles next. -/
  | cleared (result : Settlement)
  | settled (result : Settlement)
  deriving DecidableEq

structure SyncVariables where
  closed : Bool
  syncRequested : Bool
  passes : Nat

/-- The client between two segments. Promises are named by the index of their runner. -/
structure SyncScheduler extends SyncVariables where
  syncPromise : Option Nat
  runners : List RunnerPhase

namespace SyncVariables

def performSync (shared : SyncVariables) (attempt : Nat) : RunnerPhase × SyncVariables :=
  if shared.closed then (.performed attempt (.error .syncClientClosedError), shared)
  else (.performing attempt, { shared with passes := shared.passes + 1 })

/-- The head of the `for` loop of `syncWithRetry`. -/
def attemptSync (shared : SyncVariables) (options : SyncRetryOptions) (attempt : Nat) :
    RunnerPhase × SyncVariables :=
  if attempt < options.attempts then shared.performSync attempt else (.retried (.ok ()), shared)

def afterWait (shared : SyncVariables) (options : SyncRetryOptions) (attempt : Nat) :
    Settlement → RunnerPhase × SyncVariables
  | .ok () => shared.attemptSync options (attempt + 1)
  | .error error => (.retried (.error error), shared)

def syncWithRetry (shared : SyncVariables) : SyncRetryPolicy → RunnerPhase × SyncVariables
  | none => shared.performSync 0
  | some options =>
      if ¬IsSafeInteger options.attempts ∨ options.attempts ≤ 0 then
        (.retried (.error (.error "sync retry maximumAttempts must be a positive integer")), shared)
      else shared.attemptSync options 0

/-- The check of `while (syncRequested)`, and the body up to its `await`. -/
def checkRequested (shared : SyncVariables) (policy : SyncRetryPolicy) :
    RunnerPhase × SyncVariables :=
  if shared.syncRequested then { shared with syncRequested := false }.syncWithRetry policy
  else (.finished (.ok ()), shared)

end SyncVariables

def afterAttempt (policy : SyncRetryPolicy) (attempt : Nat) : Settlement → RunnerPhase
  | .ok () => .retried (.ok ())
  | .error error =>
      match policy with
      | none => .retried (.error error)
      | some options =>
          if (attempt : Int) = options.attempts - 1 then .retried (.error error)
          else
            match options.retries error attempt with
            | .error thrown => .retried (.error thrown)
            | .ok false => .retried (.error error)
            | .ok true => .waiting attempt

inductive SyncEvent where
  | requestSync
  | performSettles (runner : Nat) (result : Settlement)
  | retryContinues (runner : Nat)
  | waitEnds (runner : Nat) (result : Settlement)
  | loopContinues (runner : Nat)
  | finallyRuns (runner : Nat)
  | promiseSettles (runner : Nat)
  | close

namespace SyncScheduler

variable (scheduler : SyncScheduler) (policy : SyncRetryPolicy)

def setRunner (runner : Nat) (phase : RunnerPhase) : SyncScheduler :=
  { scheduler with runners := scheduler.runners.set runner phase }

def advance (runner : Nat) (reached : RunnerPhase × SyncVariables) : SyncScheduler :=
  { scheduler with
    toSyncVariables := reached.2
    runners := scheduler.runners.set runner reached.1 }

def requestSync : Except ClientError (Nat × SyncScheduler) :=
  if scheduler.closed then .error .syncClientClosedError
  else
    let requested := { scheduler with syncRequested := true }
    match scheduler.syncPromise with
    | some promise => .ok (promise, requested)
    | none =>
        let (phase, shared) := requested.toSyncVariables.checkRequested policy
        .ok (scheduler.runners.length, {
          toSyncVariables := shared
          syncPromise := some scheduler.runners.length
          runners := scheduler.runners ++ [phase] })

def next : SyncEvent → Option SyncScheduler
  | .requestSync =>
      match scheduler.requestSync policy with
      | .ok (_, next) => some next
      | .error _ => some scheduler
  | .performSettles runner result =>
      match scheduler.runners[runner]? with
      | some (.performing attempt) => some (scheduler.setRunner runner (.performed attempt result))
      | _ => none
  | .retryContinues runner =>
      match scheduler.runners[runner]? with
      | some (.performed attempt result) =>
          some (scheduler.setRunner runner (afterAttempt policy attempt result))
      | _ => none
  | .waitEnds runner result =>
      match scheduler.runners[runner]? with
      | some (.waiting attempt) =>
          policy.map fun options =>
            scheduler.advance runner (scheduler.afterWait options attempt result)
      | _ => none
  | .loopContinues runner =>
      match scheduler.runners[runner]? with
      | some (.retried (.ok ())) =>
          some (scheduler.advance runner (scheduler.checkRequested policy))
      | some (.retried (.error error)) => some (scheduler.setRunner runner (.finished (.error error)))
      | _ => none
  | .finallyRuns runner =>
      match scheduler.runners[runner]? with
      | some (.finished result) =>
          some { scheduler.setRunner runner (.cleared result) with syncPromise := none }
      | _ => none
  | .promiseSettles runner =>
      match scheduler.runners[runner]? with
      | some (.cleared result) => some (scheduler.setRunner runner (.settled result))
      | _ => none
  | .close => some { scheduler with closed := true }

def initial : SyncScheduler where
  closed := false
  syncRequested := false
  passes := 0
  syncPromise := none
  runners := []

def system : TransitionSystem SyncScheduler SyncEvent where
  start scheduler := scheduler = initial
  step scheduler event scheduler' := scheduler.next policy event = some scheduler'

def Fulfilled (promise : Nat) : Prop := scheduler.runners[promise]? = some (.settled (.ok ()))

/-- The loop of the current runner has found nothing requested, and its promise is still handed out. -/
def LoopEnded : Prop :=
  ∃ promise, scheduler.syncPromise = some promise ∧
    scheduler.runners[promise]? = some (.finished (.ok ()))

end SyncScheduler

end SyncEngine
