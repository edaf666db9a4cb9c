import SyncEngine.Model.Scheduling

/-!
# Which synchronization requests are served

A promise that `requestSync` hands out belongs to a runner. As long as the runner has not ended its
loop, the flag that the call sets makes it start another pass before it can fulfil its promise. After
the loop has ended, and before the `finally` callback has run, the promise is still handed out, and a
call at that moment is lost.
-/

namespace SyncEngine

open JavaScript

variable {policy : SyncRetryPolicy} {shared shared' : SyncVariables} {phase phase' : RunnerPhase}
  {scheduler scheduler' : SyncScheduler}

/-! ### What a step can do -/

/-- One segment of a runner: where it stands before and after, and what becomes of the variables. -/
inductive Moves (policy : SyncRetryPolicy) (shared : SyncVariables) :
    RunnerPhase → RunnerPhase × SyncVariables → Prop
  | settles (attempt : Nat) (result : Settlement) :
      Moves policy shared (.performing attempt) (.performed attempt result, shared)
  | retries (attempt : Nat) (result : Settlement) :
      Moves policy shared (.performed attempt result) (afterAttempt policy attempt result, shared)
  | again (attempt : Nat) (options : SyncRetryOptions) (hpolicy : policy = some options) :
      Moves policy shared (.waiting attempt) (shared.attemptSync options (attempt + 1))
  | waitFails (attempt : Nat) (error : ClientError) :
      Moves policy shared (.waiting attempt) (.retried (.error error), shared)
  | checks : Moves policy shared (.retried (.ok ())) (shared.checkRequested policy)
  | fails (error : ClientError) :
      Moves policy shared (.retried (.error error)) (.finished (.error error), shared)
  | clears (result : Settlement) : Moves policy shared (.finished result) (.cleared result, shared)
  | fulfils (result : Settlement) : Moves policy shared (.cleared result) (.settled result, shared)

def RunnerPhase.Uncleared : RunnerPhase → Prop
  | .cleared _ => False
  | .settled _ => False
  | _ => True

namespace SyncScheduler

inductive Stepped (policy : SyncRetryPolicy) (scheduler : SyncScheduler) : SyncScheduler → Prop
  | refused (hclosed : scheduler.closed = true) : Stepped policy scheduler scheduler
  | joined (promise : Nat) (hpromise : scheduler.syncPromise = some promise) :
      Stepped policy scheduler { scheduler with syncRequested := true }
  | started (hnone : scheduler.syncPromise = none) :
      Stepped policy scheduler {
        toSyncVariables :=
          ({ scheduler.toSyncVariables with syncRequested := true }.checkRequested policy).2
        syncPromise := some scheduler.runners.length
        runners := scheduler.runners ++
          [({ scheduler.toSyncVariables with syncRequested := true }.checkRequested policy).1] }
  | closed : Stepped policy scheduler { scheduler with closed := true }
  | moved (runner : Nat) {phase : RunnerPhase} {reached : RunnerPhase × SyncVariables}
      {syncPromise : Option Nat} (hphase : scheduler.runners[runner]? = some phase)
      (hmoves : Moves policy scheduler.toSyncVariables phase reached)
      (hpromise : syncPromise = scheduler.syncPromise ∧ (reached.1.Uncleared ↔ phase.Uncleared) ∨
        syncPromise = none ∧ phase.Uncleared ∧ ¬reached.1.Uncleared) :
      Stepped policy scheduler {
        toSyncVariables := reached.2
        syncPromise := syncPromise
        runners := scheduler.runners.set runner reached.1 }

theorem requestSync_eq_ok {promise : Nat} (h : scheduler.requestSync policy = .ok (promise, scheduler')) :
    scheduler.closed = false ∧
      (scheduler.syncPromise = some promise ∧ scheduler' = { scheduler with syncRequested := true } ∨
      scheduler.syncPromise = none ∧ promise = scheduler.runners.length ∧
        scheduler' = {
          toSyncVariables :=
            ({ scheduler.toSyncVariables with syncRequested := true }.checkRequested policy).2
          syncPromise := some scheduler.runners.length
          runners := scheduler.runners ++
            [({ scheduler.toSyncVariables with syncRequested := true }.checkRequested policy).1] }) := by
  rw [requestSync] at h
  split at h
  · simp at h
  · rename_i hopen
    refine ⟨by simpa using hopen, ?_⟩
    cases hpromise : scheduler.syncPromise with
    | some current =>
        simp only [hpromise] at h
        obtain ⟨rfl, rfl⟩ := Prod.mk.inj (Except.ok.inj h)
        exact Or.inl ⟨rfl, rfl⟩
    | none =>
        simp only [hpromise] at h
        obtain ⟨rfl, rfl⟩ := Prod.mk.inj (Except.ok.inj h)
        exact Or.inr ⟨rfl, rfl, rfl⟩

end SyncScheduler

theorem checkRequested_uncleared : (shared.checkRequested policy).1.Uncleared := by
  have hperform : ∀ (shared : SyncVariables) attempt, (shared.performSync attempt).1.Uncleared := by
    intro shared attempt
    rw [SyncVariables.performSync]
    split <;> trivial
  rw [SyncVariables.checkRequested]
  split
  · cases policy with
    | none => exact hperform _ _
    | some options =>
        rw [SyncVariables.syncWithRetry]
        split
        · trivial
        · rw [SyncVariables.attemptSync]
          split
          · exact hperform _ _
          · trivial
  · trivial

theorem attemptSync_uncleared {options : SyncRetryOptions} {attempt : Nat} :
    (shared.attemptSync options attempt).1.Uncleared := by
  rw [SyncVariables.attemptSync, SyncVariables.performSync]
  split
  · split <;> trivial
  · trivial

theorem afterAttempt_uncleared {attempt : Nat} {result : Settlement} :
    (afterAttempt policy attempt result).Uncleared := by
  cases result with
  | ok => trivial
  | error error =>
      cases policy with
      | none => trivial
      | some options =>
          rw [afterAttempt]
          split
          · trivial
          · cases options.retries error attempt with
            | error => trivial
            | ok retry => cases retry <;> trivial

namespace SyncScheduler

/-- The inversion lemma of the step function. -/
theorem next_stepped {event : SyncEvent} (h : scheduler.next policy event = some scheduler') :
    Stepped policy scheduler scheduler' := by
  cases event with
  | requestSync =>
      rw [next] at h
      split at h
      · rename_i promise after hcall
        obtain rfl := Option.some.inj h
        obtain ⟨-, ⟨hpromise, rfl⟩ | ⟨hnone, -, rfl⟩⟩ := requestSync_eq_ok hcall
        · exact .joined promise hpromise
        · exact .started hnone
      · rename_i error hcall
        obtain rfl := Option.some.inj h
        by_cases hclosed : scheduler.closed = true
        · exact .refused hclosed
        · rw [requestSync, if_neg hclosed] at hcall
          cases hpromise : scheduler.syncPromise <;> simp [hpromise] at hcall
  | performSettles runner result =>
      rw [next] at h
      split at h
      · rename_i attempt hphase
        obtain rfl := Option.some.inj h
        exact .moved runner hphase (.settles attempt result) (Or.inl ⟨rfl, Iff.rfl⟩)
      · simp at h
  | retryContinues runner =>
      rw [next] at h
      split at h
      · rename_i attempt result hphase
        obtain rfl := Option.some.inj h
        exact .moved runner hphase (.retries attempt result)
          (Or.inl ⟨rfl, iff_of_true afterAttempt_uncleared trivial⟩)
      · simp at h
  | waitEnds runner result =>
      rw [next] at h
      split at h
      · rename_i attempt hphase
        obtain ⟨options, hpolicy, rfl⟩ := Option.map_eq_some_iff.mp h
        cases result with
        | ok =>
            exact .moved runner hphase (.again attempt options hpolicy)
              (Or.inl ⟨rfl, iff_of_true attemptSync_uncleared trivial⟩)
        | error error =>
            exact .moved runner hphase (.waitFails attempt error) (Or.inl ⟨rfl, Iff.rfl⟩)
      · simp at h
  | loopContinues runner =>
      rw [next] at h
      split at h
      · rename_i hphase
        obtain rfl := Option.some.inj h
        exact .moved runner hphase .checks
          (Or.inl ⟨rfl, iff_of_true checkRequested_uncleared trivial⟩)
      · rename_i error hphase
        obtain rfl := Option.some.inj h
        exact .moved runner hphase (.fails error) (Or.inl ⟨rfl, Iff.rfl⟩)
      · simp at h
  | finallyRuns runner =>
      rw [next] at h
      split at h
      · rename_i result hphase
        obtain rfl := Option.some.inj h
        exact .moved runner hphase (.clears result) (Or.inr ⟨rfl, trivial, id⟩)
      · simp at h
  | promiseSettles runner =>
      rw [next] at h
      split at h
      · rename_i result hphase
        obtain rfl := Option.some.inj h
        exact .moved runner hphase (.fulfils result) (Or.inl ⟨rfl, Iff.rfl⟩)
      · simp at h
  | close =>
      obtain rfl := Option.some.inj h
      exact .closed

end SyncScheduler

/-! ### The invariant of every schedule -/

def RunnerPhase.WithinAttempts (policy : SyncRetryPolicy) : RunnerPhase → Prop
  | .performing attempt => ∀ options, policy = some options → attempt < options.attempts
  | .performed attempt _ => ∀ options, policy = some options → attempt < options.attempts
  | .waiting attempt => ∀ options, policy = some options → attempt + 1 < options.attempts
  | _ => True

theorem performSync_within {attempt : Nat}
    (h : ∀ options, policy = some options → attempt < options.attempts) :
    (shared.performSync attempt).1.WithinAttempts policy := by
  rw [SyncVariables.performSync]
  split <;> exact h

theorem Moves.within {reached : RunnerPhase × SyncVariables} (h : Moves policy shared phase reached)
    (hwithin : phase.WithinAttempts policy) : reached.1.WithinAttempts policy := by
  cases h with
  | settles attempt result => exact hwithin
  | retries attempt result =>
      cases result with
      | ok => trivial
      | error error =>
          cases policy with
          | none => trivial
          | some options =>
              have hbound := hwithin options rfl
              rw [afterAttempt]
              split
              · trivial
              · cases options.retries error attempt with
                | error => trivial
                | ok retry =>
                    cases retry with
                    | false => trivial
                    | true =>
                        intro other hother
                        obtain rfl := Option.some.inj hother
                        omega
  | again attempt options hpolicy =>
      rw [SyncVariables.attemptSync]
      split
      · rename_i hbound
        apply performSync_within
        intro other hother
        obtain rfl := Option.some.inj (hpolicy.symm.trans hother)
        exact hbound
      · trivial
  | waitFails => trivial
  | checks =>
      rw [SyncVariables.checkRequested]
      split
      · cases policy with
        | none => exact performSync_within fun options hoptions => by simp at hoptions
        | some options =>
            rw [SyncVariables.syncWithRetry]
            split
            · trivial
            · rename_i hvalid
              rw [SyncVariables.attemptSync]
              split
              · rename_i hbound
                apply performSync_within
                intro other hother
                obtain rfl := Option.some.inj hother
                exact hbound
              · trivial
      · trivial
  | fails | clears | fulfils => trivial

namespace SyncScheduler

/-- At most one runner has not run its `finally` callback, and its promise is the one handed out. -/
structure Orderly (policy : SyncRetryPolicy) (scheduler : SyncScheduler) : Prop where
  current : ∀ promise, scheduler.syncPromise = some promise →
    ∃ phase, scheduler.runners[promise]? = some phase ∧ phase.Uncleared
  only : ∀ (runner : Nat) phase, scheduler.runners[runner]? = some phase → phase.Uncleared →
    scheduler.syncPromise = some runner
  attempts : ∀ phase ∈ scheduler.runners, phase.WithinAttempts policy

theorem initial_orderly : initial.Orderly policy where
  current promise h := by simp [initial] at h
  only runner phase h := by simp [initial] at h
  attempts phase h := by simp [initial] at h

theorem Orderly.stepped (h : scheduler.Orderly policy) (hstep : Stepped policy scheduler scheduler') :
    scheduler'.Orderly policy := by
  cases hstep with
  | refused => exact h
  | joined => exact ⟨h.current, h.only, h.attempts⟩
  | closed => exact ⟨h.current, h.only, h.attempts⟩
  | started hnone =>
      constructor
      case current =>
        intro promise hpromise
        obtain rfl := Option.some.inj hpromise
        exact ⟨_, List.getElem?_concat_length, checkRequested_uncleared⟩
      case only =>
        intro runner phase hphase huncleared
        rw [List.getElem?_append] at hphase
        split at hphase
        · have hcurrent := h.only runner phase hphase huncleared
          rw [hnone] at hcurrent
          simp at hcurrent
        · obtain ⟨hlt, -⟩ := List.getElem?_eq_some_iff.mp hphase
          rw [List.length_singleton] at hlt
          exact congrArg some (by omega)
      case attempts =>
        intro phase hphase
        rcases List.mem_append.mp hphase with hold | hnew
        · exact h.attempts phase hold
        · obtain rfl := List.mem_singleton.mp hnew
          exact Moves.checks.within trivial
  | @moved runner phase reached syncPromise hphase hmoves hpromise =>
      have hlt := (List.getElem?_eq_some_iff.mp hphase).1
      have hmember := List.mem_of_getElem? hphase
      constructor
      case current =>
        intro promise hcurrent
        rcases hpromise with ⟨rfl, hsame⟩ | ⟨rfl, -, -⟩
        · obtain ⟨other, hother, huncleared⟩ := h.current promise hcurrent
          by_cases heq : runner = promise
          · subst heq
            rw [hphase] at hother
            obtain rfl := Option.some.inj hother
            exact ⟨reached.1, by simp [hlt], hsame.mpr huncleared⟩
          · exact ⟨other, by rw [List.getElem?_set_ne heq]; exact hother, huncleared⟩
        · simp at hcurrent
      case only =>
        intro other otherPhase hother huncleared
        by_cases heq : runner = other
        · subst heq
          rw [List.getElem?_set_self hlt] at hother
          obtain rfl := Option.some.inj hother
          rcases hpromise with ⟨rfl, hsame⟩ | ⟨-, -, hcleared⟩
          · exact h.only runner phase hphase (hsame.mp huncleared)
          · exact absurd huncleared hcleared
        · rw [List.getElem?_set_ne heq] at hother
          have hcurrent := h.only other otherPhase hother huncleared
          rcases hpromise with ⟨rfl, -⟩ | ⟨-, hfirst, -⟩
          · exact hcurrent
          · -- Two runners before their callbacks would both be the current one.
            rw [h.only runner phase hphase hfirst] at hcurrent
            exact absurd (Option.some.inj hcurrent) heq
      case attempts =>
        intro other hother
        rcases List.mem_or_eq_of_mem_set hother with hold | rfl
        · exact h.attempts other hold
        · exact hmoves.within (h.attempts phase hmember)

theorem orderly_of_reachable (hreachable : (system policy).Reachable scheduler) :
    scheduler.Orderly policy := by
  apply hreachable.invariant
  · intro start hstart
    obtain rfl : start = initial := hstart
    exact initial_orderly
  · intro scheduler event scheduler' _ h hstep
    exact h.stepped (next_stepped hstep)

end SyncScheduler

/-! ### A promise that cannot fulfil without another pass -/

/-- The runner starts another pass before it fulfils its promise, or never fulfils it. -/
def RunnerPhase.Owes (shared : SyncVariables) : RunnerPhase → Prop
  | .performing _ => shared.syncRequested = true
  | .performed _ (.ok ()) => shared.syncRequested = true
  | .performed _ (.error _) => shared.syncRequested = true ∨ shared.closed = true
  | .waiting _ => shared.syncRequested = true ∨ shared.closed = true
  | .retried (.ok ()) => shared.syncRequested = true
  | .finished (.ok ()) => False
  | .cleared (.ok ()) => False
  | .settled (.ok ()) => False
  | _ => True

theorem performSync_owes (shared : SyncVariables) (attempt : Nat) :
    shared.passes < (shared.performSync attempt).2.passes ∨
      (shared.performSync attempt).1.Owes (shared.performSync attempt).2 := by
  rw [SyncVariables.performSync]
  split
  · rename_i hclosed
    exact Or.inr (Or.inr hclosed)
  · exact Or.inl (Nat.lt_succ_self _)

theorem checkRequested_owes (policy : SyncRetryPolicy) (shared : SyncVariables)
    (hrequested : shared.syncRequested = true) :
    shared.passes < (shared.checkRequested policy).2.passes ∨
      (shared.checkRequested policy).1.Owes (shared.checkRequested policy).2 := by
  rw [SyncVariables.checkRequested, if_pos hrequested]
  cases policy with
  | none => exact performSync_owes { shared with syncRequested := false } 0
  | some options =>
      rw [SyncVariables.syncWithRetry]
      split
      · exact Or.inr trivial
      · rename_i hvalid
        rw [SyncVariables.attemptSync, if_pos (by push_cast; omega)]
        exact performSync_owes { shared with syncRequested := false } 0

/-- The key step: a runner that owes a pass starts one, or goes on owing it. -/
theorem Moves.owes {reached : RunnerPhase × SyncVariables} (h : Moves policy shared phase reached)
    (hwithin : phase.WithinAttempts policy) (howes : phase.Owes shared) :
    shared.passes < reached.2.passes ∨ reached.1.Owes reached.2 := by
  cases h with
  | settles attempt result =>
      cases result with
      | ok => exact Or.inr howes
      | error => exact Or.inr (Or.inl howes)
  | retries attempt result =>
      right
      cases result with
      | ok => exact howes
      | error error =>
          cases policy with
          | none => trivial
          | some options =>
              rw [afterAttempt]
              split
              · trivial
              · cases options.retries error attempt with
                | error => trivial
                | ok retry =>
                    cases retry with
                    | false => trivial
                    | true => exact howes
  | again attempt options hpolicy =>
      have hbound := hwithin options hpolicy
      rw [SyncVariables.attemptSync, if_pos (by push_cast; exact hbound)]
      exact performSync_owes shared (attempt + 1)
  | waitFails => exact Or.inr trivial
  | checks => exact checkRequested_owes policy shared howes
  | fails => exact Or.inr trivial
  | clears result =>
      right
      cases result with
      | ok => exact howes
      | error => trivial
  | fulfils result =>
      right
      cases result with
      | ok => exact howes
      | error => trivial

theorem Moves.passes_le {reached : RunnerPhase × SyncVariables} (h : Moves policy shared phase reached) :
    shared.passes ≤ reached.2.passes := by
  have hperform : ∀ (shared : SyncVariables) attempt,
      shared.passes ≤ (shared.performSync attempt).2.passes := by
    intro shared attempt
    rw [SyncVariables.performSync]
    split
    · exact Nat.le_refl _
    · exact Nat.le_succ _
  have hattempt : ∀ (shared : SyncVariables) options attempt,
      shared.passes ≤ (shared.attemptSync options attempt).2.passes := by
    intro shared options attempt
    rw [SyncVariables.attemptSync]
    split
    · exact hperform _ _
    · exact Nat.le_refl _
  cases h with
  | again attempt options _ => exact hattempt _ _ _
  | checks =>
      rw [SyncVariables.checkRequested]
      split
      · cases policy with
        | none => exact hperform { shared with syncRequested := false } _
        | some options =>
            rw [SyncVariables.syncWithRetry]
            split
            · exact Nat.le_refl _
            · exact hattempt { shared with syncRequested := false } _ _
      · exact Nat.le_refl _
  | settles | retries | waitFails | fails | clears | fulfils => exact Nat.le_refl _

theorem checkRequested_passes_le (policy : SyncRetryPolicy) (shared : SyncVariables) :
    shared.passes ≤ (shared.checkRequested policy).2.passes :=
  Moves.passes_le (.checks : Moves policy shared _ _)

/-- After its `finally` callback a runner only settles its promise. -/
theorem Moves.shared_eq {reached : RunnerPhase × SyncVariables} (h : Moves policy shared phase reached)
    (hcleared : ¬phase.Uncleared) : reached.2 = shared := by
  cases h with
  | fulfils => rfl
  | settles | retries | again | waitFails | checks | fails | clears => exact absurd trivial hcleared

theorem RunnerPhase.Owes.of_cleared (h : phase.Owes shared) (hcleared : ¬phase.Uncleared) :
    phase.Owes shared' := by
  cases phase with
  | cleared result => cases result <;> exact h
  | settled result => cases result <;> exact h
  | performing | performed | waiting | retried | finished => exact absurd trivial hcleared

theorem RunnerPhase.Owes.mono (h : phase.Owes shared)
    (hrequested : shared.syncRequested = true → shared'.syncRequested = true)
    (hclosed : shared.closed = true → shared'.closed = true) : phase.Owes shared' := by
  cases phase with
  | performing => exact hrequested h
  | performed attempt result =>
      cases result with
      | ok => exact hrequested h
      | error => exact h.imp hrequested hclosed
  | waiting => exact h.imp hrequested hclosed
  | retried result =>
      cases result with
      | ok => exact hrequested h
      | error => trivial
  | finished result => cases result <;> exact h
  | cleared result => cases result <;> exact h
  | settled result => cases result <;> exact h

/-! ### Calls and their promises -/

namespace SyncScheduler

/-- Since `passes` passes had started, another one has, or the promise still owes one. -/
def Serves (passes promise : Nat) (scheduler : SyncScheduler) : Prop :=
  passes < scheduler.passes ∨
    passes ≤ scheduler.passes ∧ ∃ phase, scheduler.runners[promise]? = some phase ∧
      phase.Owes scheduler.toSyncVariables

theorem Serves.stepped {passes promise : Nat} (h : Serves passes promise scheduler)
    (horderly : scheduler.Orderly policy) (hstep : Stepped policy scheduler scheduler') :
    Serves passes promise scheduler' := by
  cases hstep with
  | refused => exact h
  | joined =>
      exact h.imp_right fun ⟨hle, phase, hphase, howes⟩ =>
        ⟨hle, phase, hphase, howes.mono (fun _ => rfl) id⟩
  | closed =>
      exact h.imp_right fun ⟨hle, phase, hphase, howes⟩ =>
        ⟨hle, phase, hphase, howes.mono id fun _ => rfl⟩
  | started hnone =>
      have hpasses := checkRequested_passes_le policy { scheduler.toSyncVariables with syncRequested := true }
      rcases h with hlt | ⟨hle, phase, hphase, howes⟩
      · exact Or.inl (Nat.lt_of_lt_of_le hlt hpasses)
      · have hcleared : ¬phase.Uncleared := by
          intro huncleared
          have hcurrent := horderly.only promise phase hphase huncleared
          rw [hnone] at hcurrent
          simp at hcurrent
        refine Or.inr ⟨Nat.le_trans hle hpasses, phase, ?_, howes.of_cleared hcleared⟩
        rw [List.getElem?_append_left (List.getElem?_eq_some_iff.mp hphase).1]
        exact hphase
  | @moved runner moving reached syncPromise hmoving hmoves hpromise =>
      rcases h with hlt | ⟨hle, phase, hphase, howes⟩
      · exact Or.inl (Nat.lt_of_lt_of_le hlt hmoves.passes_le)
      · by_cases heq : runner = promise
        · subst heq
          obtain rfl := Option.some.inj (hmoving.symm.trans hphase)
          have hlt := (List.getElem?_eq_some_iff.mp hphase).1
          rcases hmoves.owes (horderly.attempts _ (List.mem_of_getElem? hphase)) howes with hpass | hstill
          · exact Or.inl (Nat.lt_of_le_of_lt hle hpass)
          · exact Or.inr ⟨Nat.le_trans hle hmoves.passes_le, reached.1,
              List.getElem?_set_self hlt, hstill⟩
        · refine Or.inr ⟨Nat.le_trans hle hmoves.passes_le, phase, ?_, ?_⟩
          · rw [List.getElem?_set_ne heq]
            exact hphase
          · by_cases hcleared : phase.Uncleared
            · -- The other runner is behind its callback, so it touches no variable.
              have hothers : ¬moving.Uncleared := by
                intro huncleared
                have hfirst := horderly.only runner moving hmoving huncleared
                rw [horderly.only promise phase hphase hcleared] at hfirst
                exact heq (Option.some.inj hfirst).symm
              rw [hmoves.shared_eq hothers]
              exact howes
            · exact howes.of_cleared hcleared

theorem Serves.path {passes promise : Nat} (h : Serves passes promise scheduler)
    (hreachable : (system policy).Reachable scheduler) {events : List SyncEvent}
    (hpath : (system policy).Path scheduler events scheduler') : Serves passes promise scheduler' := by
  induction hpath with
  | nil => exact h
  | snoc hpath hstep ih =>
      exact ih.stepped (orderly_of_reachable (hreachable.path hpath)) (next_stepped hstep)

theorem Serves.fulfilled {passes promise : Nat} (h : Serves passes promise scheduler)
    (hfulfilled : scheduler.Fulfilled promise) : passes < scheduler.passes := by
  rcases h with hlt | ⟨-, phase, hphase, howes⟩
  · exact hlt
  · obtain rfl := Option.some.inj (hphase.symm.trans hfulfilled)
    exact absurd howes id

theorem requestSync_serves {next : SyncScheduler} {promise : Nat} (h : scheduler.Orderly policy)
    (hcall : scheduler.requestSync policy = .ok (promise, next)) (hopen : ¬scheduler.LoopEnded) :
    Serves scheduler.passes promise next := by
  obtain ⟨-, ⟨hpromise, rfl⟩ | ⟨-, rfl, rfl⟩⟩ := requestSync_eq_ok hcall
  · obtain ⟨phase, hphase, huncleared⟩ := h.current promise hpromise
    refine Or.inr ⟨Nat.le_refl _, phase, hphase, ?_⟩
    cases phase with
    | performing => rfl
    | performed attempt result =>
        cases result with
        | ok => rfl
        | error => exact Or.inl rfl
    | waiting => exact Or.inl rfl
    | retried result =>
        cases result with
        | ok => rfl
        | error => trivial
    | finished result =>
        cases result with
        | ok => exact absurd ⟨promise, hpromise, hphase⟩ hopen
        | error => trivial
    | cleared => exact absurd huncleared id
    | settled => exact absurd huncleared id
  · have howes := checkRequested_owes policy { scheduler.toSyncVariables with syncRequested := true } rfl
    have hpasses := checkRequested_passes_le policy { scheduler.toSyncVariables with syncRequested := true }
    exact howes.imp_right fun howes =>
      ⟨hpasses, _, List.getElem?_concat_length, howes⟩

theorem requestSync_swallowed {next : SyncScheduler} {promise : Nat}
    (hcall : scheduler.requestSync policy = .ok (promise, next)) (hended : scheduler.LoopEnded) :
    ∃ events later, (system policy).Path next events later ∧ later.Fulfilled promise ∧
      later.passes = scheduler.passes := by
  obtain ⟨current, hcurrent, hphase⟩ := hended
  obtain ⟨-, ⟨hpromise, rfl⟩ | ⟨hnone, -, -⟩⟩ := requestSync_eq_ok hcall
  · obtain rfl := Option.some.inj (hcurrent.symm.trans hpromise)
    have hlt := (List.getElem?_eq_some_iff.mp hphase).1
    let requested : SyncScheduler := { scheduler with syncRequested := true }
    let cleared : SyncScheduler :=
      { requested.setRunner current (.cleared (.ok ())) with syncPromise := none }
    have hfinally : requested.next policy (.finallyRuns current) = some cleared := by
      simp only [SyncScheduler.next, requested, hphase]
      rfl
    have hsettles : cleared.next policy (.promiseSettles current) =
        some (cleared.setRunner current (.settled (.ok ()))) := by
      simp [SyncScheduler.next, cleared, requested, setRunner, hlt]
    refine ⟨[.finallyRuns current, .promiseSettles current],
      cleared.setRunner current (.settled (.ok ())),
      ((TransitionSystem.Path.nil requested).snoc hfinally).snoc hsettles, ?_, rfl⟩
    simp [Fulfilled, setRunner, cleared, requested, hlt]
  · rw [hnone] at hcurrent
    simp at hcurrent

/-- The promise of a call fulfils only after a pass that was started later, on every schedule, exactly
when the call is not made between the end of a loop and the `finally` callback of its runner. -/
theorem requestSync_served_iff (policy : SyncRetryPolicy) {scheduler next : SyncScheduler}
    {promise : Nat} (hreachable : (system policy).Reachable scheduler)
    (hcall : scheduler.requestSync policy = .ok (promise, next)) :
    (∀ events later, (system policy).Path next events later → later.Fulfilled promise →
      scheduler.passes < later.passes) ↔ ¬scheduler.LoopEnded := by
  have hnext : (system policy).Reachable next := by
    apply hreachable.step (a := .requestSync)
    change scheduler.next policy .requestSync = some next
    rw [SyncScheduler.next, hcall]
  constructor
  · intro hserved hended
    obtain ⟨events, later, hpath, hfulfilled, hpasses⟩ := requestSync_swallowed hcall hended
    have hlt := hserved events later hpath hfulfilled
    omega
  · intro hopen events later hpath hfulfilled
    have hserves := requestSync_serves (orderly_of_reachable hreachable) hcall hopen
    exact (hserves.path hnext hpath).fulfilled hfulfilled

/-! ### A swallowed request -/

def swallowing : List SyncEvent :=
  [.requestSync, .performSettles 0 (.ok ()), .retryContinues 0, .loopContinues 0]

def after (policy : SyncRetryPolicy) (scheduler : SyncScheduler) : List SyncEvent → Option SyncScheduler
  | [] => some scheduler
  | event :: events => (scheduler.next policy event).bind fun next => after policy next events

theorem path_after {events : List SyncEvent} (h : after policy scheduler events = some scheduler') :
    (system policy).Path scheduler events scheduler' := by
  induction events generalizing scheduler with
  | nil =>
      obtain rfl := Option.some.inj h
      exact .nil _
  | cons event events ih =>
      obtain ⟨middle, hfirst, hrest⟩ := Option.bind_eq_some_iff.mp h
      exact ((TransitionSystem.Path.nil scheduler).snoc hfirst).trans (ih hrest)

/-- One pass succeeds; a call comes after the loop has found nothing requested and before the
callback. Its promise fulfils, and still only one pass has started. -/
theorem requestSync_swallowed_example : ∃ scheduler next promise events later,
    (system none).Reachable scheduler ∧ scheduler.requestSync none = .ok (promise, next) ∧
    (system none).Path next events later ∧ later.Fulfilled promise ∧
    ¬scheduler.passes < later.passes := by
  have hreachable : (system none).Reachable _ :=
    ⟨initial, swallowing, rfl, path_after (rfl : after none initial swallowing = some _)⟩
  exact ⟨_, _, _, [.finallyRuns 0, .promiseSettles 0], _, hreachable, rfl, path_after rfl, rfl,
    Nat.lt_irrefl _⟩

theorem requestSync_served_iff_running : ∃ scheduler next, (system none).Reachable scheduler ∧
    scheduler.passes = 1 ∧ scheduler.runners = [.performing 0] ∧ scheduler.requestSync none = .ok (0, next) ∧
    ((∀ events later, (system none).Path next events later → later.Fulfilled 0 → 1 < later.passes) ↔
      ¬scheduler.LoopEnded) := by
  have hrunning : (system none).Reachable _ :=
    ⟨initial, [.requestSync], rfl, path_after (rfl : after none initial [.requestSync] = some _)⟩
  exact ⟨_, _, hrunning, rfl, rfl, rfl, requestSync_served_iff none hrunning rfl⟩

end SyncScheduler

end SyncEngine
