import SyncEngine.Lib.TransitionSystem
import Mathlib.Order.Basic

/-!
# Programs over a shared store

A program is a tree of calls, each answered by a store in one atomic step. It can be run alone, or in
a pool of programs that take turns at every call. For the pool there is a program logic: a world says
what is known about the store, worlds only grow, and a program is secure when from any world that may
have grown in the meantime each of its calls leads to a world again.
-/

/-- What can be asked of a store, and the type of each answer. -/
structure Interface where
  Call : Type
  Answer : Call → Type

/-- A computation that returns, throws, or asks and goes on with the answer. -/
inductive Program (I : Interface) (ε α : Type) where
  | pure (a : α)
  | throw (e : ε)
  | call (c : I.Call) (next : I.Answer c → Program I ε α)

/-- How a store answers a call, and what the call makes of it. -/
abbrev Handler (I : Interface) (σ : Type) := (c : I.Call) → σ → I.Answer c × σ

namespace Program

variable {I : Interface} {ε ε' α β σ : Type}

def bind : Program I ε α → (α → Program I ε β) → Program I ε β
  | .pure a, f => f a
  | .throw e, _ => .throw e
  | .call c next, f => .call c fun answer => (next answer).bind f

instance : Monad (Program I ε) where
  pure := .pure
  bind := bind

def handle : Program I ε α → (ε → Program I ε' α) → Program I ε' α
  | .pure a, _ => .pure a
  | .throw e, f => f e
  | .call c next, f => .call c fun answer => (next answer).handle f

def ask (c : I.Call) : Program I ε (I.Answer c) := .call c .pure

def lift : Except ε α → Program I ε α
  | .ok a => .pure a
  | .error e => .throw e

/-- A program as one that asks a larger store. -/
def within {J : Interface} (call : I.Call → J.Call) (answer : (c : I.Call) → J.Answer (call c) → I.Answer c) :
    Program I ε α → Program J ε α
  | .pure a => .pure a
  | .throw e => .throw e
  | .call c next => .call (call c) fun a => (next (answer c a)).within call answer

/-! ### Running alone -/

def run (handler : Handler I σ) : Program I ε α → σ → Except ε α × σ
  | .pure a, s => (.ok a, s)
  | .throw e, s => (.error e, s)
  | .call c next, s => (next (handler c s).1).run handler (handler c s).2

variable (handler : Handler I σ) (s : σ)

@[simp] theorem run_lift (x : Except ε α) : (lift x : Program I ε α).run handler s = (x, s) := by
  cases x <;> rfl

/-- The second program runs where the first one has returned. -/
theorem run_bind (p : Program I ε α) (f : α → Program I ε β) :
    (p >>= f).run handler s = match p.run handler s with
      | (.ok a, t) => (f a).run handler t
      | (.error e, t) => (.error e, t) := by
  change (p.bind f).run handler s = _
  induction p generalizing s with
  | pure a => rfl
  | throw e => rfl
  | call c next ih => exact ih _ _

theorem run_handle (p : Program I ε α) (f : ε → Program I ε' α) :
    (p.handle f).run handler s = match p.run handler s with
      | (.ok a, t) => (.ok a, t)
      | (.error e, t) => (f e).run handler t := by
  induction p generalizing s with
  | pure a => rfl
  | throw e => rfl
  | call c next ih => exact ih _ _

theorem run_bind_ok {p : Program I ε α} {f : α → Program I ε β} {a : α} {t : σ}
    (hrun : p.run handler s = (.ok a, t)) : (p >>= f).run handler s = (f a).run handler t := by
  rw [run_bind, hrun]

theorem run_bind_error {p : Program I ε α} {f : α → Program I ε β} {e : ε} {t : σ}
    (hrun : p.run handler s = (.error e, t)) : (p >>= f).run handler s = (.error e, t) := by
  rw [run_bind, hrun]

/-- In a larger store that answers its calls from a part of itself, a program runs on that part. -/
theorem run_within {J : Interface} {τ : Type} {call : I.Call → J.Call}
    {answer : (c : I.Call) → J.Answer (call c) → I.Answer c} {outer : Handler J τ} {get : τ → σ}
    {put : τ → σ → τ} (hanswer : ∀ c t, answer c (outer (call c) t).1 = (handler c (get t)).1)
    (hstore : ∀ c t, (outer (call c) t).2 = put t (handler c (get t)).2) (hput : ∀ t s, get (put t s) = s)
    (hputs : ∀ t s s', put (put t s) s' = put t s') (hself : ∀ t, put t (get t) = t) (p : Program I ε α) (t : τ) :
    (p.within call answer).run outer t = ((p.run handler (get t)).1, put t (p.run handler (get t)).2) := by
  induction p generalizing t with
  | pure a => exact congrArg (Prod.mk (Except.ok a)) (hself t).symm
  | throw e => exact congrArg (Prod.mk (Except.error e)) (hself t).symm
  | call c next ih =>
      show ((next (answer c (outer (call c) t).1)).within call answer).run outer (outer (call c) t).2 = _
      rw [hanswer, hstore, ih, hput, hputs]
      rfl

omit s handler in
@[simp] theorem lift_ok_bind (a : α) (f : α → Program I ε β) :
    (lift (.ok a) : Program I ε α) >>= f = f a := rfl

end Program

/-! ### Running together -/

abbrev Event (I : Interface) := (c : I.Call) × I.Answer c

/-- A program on its way: what it was started with, what it has asked so far, and what is left. -/
structure Thread (I : Interface) (ε α ρ : Type) where
  input : ρ
  trace : List (Event I)
  program : Program I ε α

structure Pool (I : Interface) (σ ε α ρ : Type) where
  store : σ
  threads : List (Thread I ε α ρ)

inductive PoolAction (ρ : Type) where
  | start (input : ρ)
  | step (thread : Nat)

namespace Pool

variable {I : Interface} {σ ε α ρ : Type}

/-- The pool after an action. A thread that has returned or thrown makes no more steps. -/
def next (handler : Handler I σ) (body : ρ → Program I ε α) (pool : Pool I σ ε α ρ) :
    PoolAction ρ → Pool I σ ε α ρ
  | .start input => { pool with threads := pool.threads ++ [⟨input, [], body input⟩] }
  | .step index =>
      match pool.threads[index]? with
      | some ⟨input, trace, .call c next⟩ =>
          { store := (handler c pool.store).2
            threads := pool.threads.set index
              ⟨input, trace ++ [⟨c, (handler c pool.store).1⟩], next (handler c pool.store).1⟩ }
      | _ => pool

def run (handler : Handler I σ) (body : ρ → Program I ε α) (pool : Pool I σ ε α ρ)
    (actions : List (PoolAction ρ)) : Pool I σ ε α ρ :=
  actions.foldl (next handler body) pool

/-- Any number of threads of one program, started with admitted inputs and scheduled in any order. -/
def system (handler : Handler I σ) (body : ρ → Program I ε α) (start : σ → Prop)
    (admits : σ → ρ → Prop) : TransitionSystem (Pool I σ ε α ρ) (PoolAction ρ) where
  start pool := start pool.store ∧ pool.threads = []
  step pool action pool' :=
    (∀ input, action = .start input → admits pool.store input) ∧ pool' = pool.next handler body action

section Runs

variable {handler : Handler I σ} {body : ρ → Program I ε α} {start : σ → Prop} {admits : σ → ρ → Prop}
  {pool : Pool I σ ε α ρ}

theorem reachable_start (h : (system handler body start admits).Reachable pool) {input : ρ}
    (hadmits : admits pool.store input) :
    (system handler body start admits).Reachable (pool.next handler body (.start input)) := by
  refine h.step ⟨fun other hother => ?_, rfl⟩
  obtain rfl := PoolAction.start.inj hother
  exact hadmits

theorem reachable_starts {inputs : List ρ} (h : (system handler body start admits).Reachable pool)
    (hadmits : ∀ input ∈ inputs, admits pool.store input) :
    (system handler body start admits).Reachable
      (inputs.foldl (fun pool input => pool.next handler body (.start input)) pool) := by
  induction inputs generalizing pool with
  | nil => exact h
  | cons input inputs ih =>
      rw [List.forall_mem_cons] at hadmits
      exact ih (reachable_start h hadmits.1) hadmits.2

theorem path_run (pool : Pool I σ ε α ρ) (schedule : List Nat) :
    (system handler body start admits).Path pool (schedule.map .step)
      (pool.run handler body (schedule.map .step)) := by
  induction schedule generalizing pool with
  | nil => exact .nil pool
  | cons index schedule ih =>
      have hfirst : (system handler body start admits).Path pool [.step index] (pool.next handler body (.step index)) :=
        (TransitionSystem.Path.nil pool).snoc ⟨fun _ hstart => (by simp at hstart), rfl⟩
      exact hfirst.trans (ih _)

theorem reachable_run (h : (system handler body start admits).Reachable pool) (schedule : List Nat) :
    (system handler body start admits).Reachable (pool.run handler body (schedule.map .step)) :=
  h.path (path_run pool schedule)

end Runs

section Inputs

variable {handler : Handler I σ} {body : ρ → Program I ε α}

theorem mem_inputs_next {pool : Pool I σ ε α ρ} {action : PoolAction ρ} {input : ρ} :
    (∃ thread ∈ (pool.next handler body action).threads, thread.input = input) ↔
      (∃ thread ∈ pool.threads, thread.input = input) ∨ action = .start input := by
  cases action with
  | start started => simp [next, or_and_right, exists_or, eq_comm]
  | step index =>
      rw [next]
      split
      · rename_i input' trace c rest hget
        have hmap : (pool.threads.set index ⟨input', trace ++ [⟨c, (handler c pool.store).1⟩],
            rest (handler c pool.store).1⟩).map Thread.input = pool.threads.map Thread.input := by
          obtain ⟨hlt, hthread⟩ := List.getElem?_eq_some_iff.mp hget
          have hlt' : index < (pool.threads.map Thread.input).length := by rwa [List.length_map]
          have hinput : (pool.threads.map Thread.input)[index] = input' := by
            rw [List.getElem_map, hthread]
          rw [List.map_set]
          exact hinput ▸ List.set_getElem_self hlt'
        have hmem : ∀ threads : List (Thread I ε α ρ),
            (∃ thread ∈ threads, thread.input = input) ↔ input ∈ threads.map Thread.input :=
          fun threads => List.mem_map.symm
        rw [hmem, hmem, hmap]
        simp
      · simp

/-- A run is a run of the system that admits only what was started in it. -/
theorem reachable_of_inputs {start : σ → Prop} {admits : σ → ρ → Prop} {P : ρ → Prop}
    {pool : Pool I σ ε α ρ} (h : (system handler body start admits).Reachable pool)
    (hinputs : ∀ thread ∈ pool.threads, P thread.input) :
    (system handler body start fun s input => admits s input ∧ P input).Reachable pool := by
  obtain ⟨first, labels, hstart, hpath⟩ := h
  induction hpath with
  | nil => exact .of_start hstart
  | @snoc _ _ _ action hpath hstep ih =>
      obtain ⟨hadmits, rfl⟩ := hstep
      have hearlier := ih fun thread hthread => by
        obtain ⟨later, hlater, hsame⟩ := mem_inputs_next.mpr (.inl ⟨thread, hthread, rfl⟩)
        exact hsame ▸ hinputs later hlater
      refine hearlier.step ⟨fun input haction => ⟨hadmits input haction, ?_⟩, rfl⟩
      obtain ⟨thread, hthread, hinput⟩ := mem_inputs_next.mpr (.inr haction)
      exact hinput ▸ hinputs thread hthread

end Inputs

end Pool

/-! ### Secure programs -/

namespace Program

variable {I : Interface} {ε ε' α β σ ρ W : Type} [Preorder W]

/-- From every world beyond this one, each call leads to a world, and what is returned or thrown at
the end satisfies its postcondition. -/
def Secure (handler : Handler I σ) (holds : σ → W → Prop) (returns : W → List (Event I) → α → Prop)
    (throws : W → List (Event I) → ε → Prop) : Program I ε α → W → List (Event I) → Prop
  | .pure a, w, trace => ∀ w', w ≤ w' → returns w' trace a
  | .throw e, w, trace => ∀ w', w ≤ w' → throws w' trace e
  | .call c next, w, trace => ∀ w' s, w ≤ w' → holds s w' →
      ∃ w'', w' ≤ w'' ∧ holds (handler c s).2 w'' ∧
        (next (handler c s).1).Secure handler holds returns throws w''
          (trace ++ [⟨c, (handler c s).1⟩])

namespace Secure

variable {handler : Handler I σ} {holds : σ → W → Prop} {Q : W → List (Event I) → α → Prop}
  {T : W → List (Event I) → ε → Prop} {w w' : W} {trace : List (Event I)}

theorem mono {p : Program I ε α} (h : p.Secure handler holds Q T w trace) (hle : w ≤ w') :
    p.Secure handler holds Q T w' trace := by
  cases p with
  | pure a => exact fun later hlater => h later (hle.trans hlater)
  | throw e => exact fun later hlater => h later (hle.trans hlater)
  | call c next => exact fun later s hlater hholds => h later s (hle.trans hlater) hholds

theorem bind {p : Program I ε α} {f : α → Program I ε β} {Q' : W → List (Event I) → β → Prop}
    (h : p.Secure handler holds Q T w trace)
    (hrest : ∀ w' trace' a, w ≤ w' → Q w' trace' a →
      (f a).Secure handler holds Q' T w' trace') :
    (p >>= f).Secure handler holds Q' T w trace := by
  change (p.bind f).Secure handler holds Q' T w trace
  induction p generalizing w trace with
  | pure a => exact hrest w trace a (le_refl w) (h w (le_refl w))
  | throw e => exact h
  | call c next ih =>
      intro w₁ s hle hholds
      obtain ⟨w₂, hle', hholds', hnext⟩ := h w₁ s hle hholds
      refine ⟨w₂, hle', hholds', ih _ hnext ?_⟩
      intro w₃ trace' a hle''
      exact hrest w₃ trace' a ((hle.trans hle').trans hle'')

theorem handle {p : Program I ε α} {f : ε → Program I ε' α} {T' : W → List (Event I) → ε' → Prop}
    (h : p.Secure handler holds Q T w trace)
    (hrest : ∀ w' trace' e, w ≤ w' → T w' trace' e →
      (f e).Secure handler holds Q T' w' trace') :
    (p.handle f).Secure handler holds Q T' w trace := by
  induction p generalizing w trace with
  | pure a => exact h
  | throw e => exact hrest w trace e (le_refl w) (h w (le_refl w))
  | call c next ih =>
      intro w₁ s hle hholds
      obtain ⟨w₂, hle', hholds', hnext⟩ := h w₁ s hle hholds
      refine ⟨w₂, hle', hholds', ih _ hnext ?_⟩
      intro w₃ trace' e hle''
      exact hrest w₃ trace' e ((hle.trans hle').trans hle'')

theorem lift {x : Except ε α} (hok : ∀ a, x = .ok a → ∀ w', w ≤ w' → Q w' trace a)
    (herror : ∀ e, x = .error e → ∀ w', w ≤ w' → T w' trace e) :
    (Program.lift x : Program I ε α).Secure handler holds Q T w trace := by
  cases x with
  | ok a => exact hok a rfl
  | error e => exact herror e rfl

/-- The rule of consequence. -/
theorem imp {p : Program I ε α} {Q' : W → List (Event I) → α → Prop} {T' : W → List (Event I) → ε → Prop}
    (h : p.Secure handler holds Q T w trace) (hreturns : ∀ w trace a, Q w trace a → Q' w trace a)
    (hthrows : ∀ w trace e, T w trace e → T' w trace e) : p.Secure handler holds Q' T' w trace := by
  induction p generalizing w trace with
  | pure a => exact fun later hlater => hreturns later trace a (h later hlater)
  | throw e => exact fun later hlater => hthrows later trace e (h later hlater)
  | call c next ih =>
      intro w₁ s hle hholds
      obtain ⟨w₂, hle', hholds', hnext⟩ := h w₁ s hle hholds
      exact ⟨w₂, hle', hholds', ih _ hnext⟩

theorem above {p : Program I ε α} (h : p.Secure handler holds Q T w trace) (w₀ : W) :
    p.Secure handler (fun s w => holds s w ∧ w₀ ≤ w) Q T w trace := by
  induction p generalizing w trace with
  | pure a => exact h
  | throw e => exact h
  | call c next ih =>
      intro w₁ s hle hholds
      obtain ⟨w₂, hle', hholds', hnext⟩ := h w₁ s hle hholds.1
      exact ⟨w₂, hle', ⟨hholds', hholds.2.trans hle'⟩, ih _ hnext⟩

/-- One call: the world it leads to, and what its answer guarantees from then on. -/
theorem ask {c : I.Call} {Q : W → List (Event I) → I.Answer c → Prop}
    (h : ∀ w' s, w ≤ w' → holds s w' → ∃ w'', w' ≤ w'' ∧ holds (handler c s).2 w'' ∧
      ∀ later, w'' ≤ later → Q later (trace ++ [⟨c, (handler c s).1⟩]) (handler c s).1) :
    (Program.ask c : Program I ε _).Secure handler holds Q T w trace := h

theorem ask_lift {c : I.Call} {f : I.Answer c → Except ε α}
    (h : ∀ w' s, w ≤ w' → holds s w' → ∃ w'' a, w' ≤ w'' ∧ holds (handler c s).2 w'' ∧ f (handler c s).1 = .ok a ∧
      ∀ later, w'' ≤ later → Q later (trace ++ [⟨c, (handler c s).1⟩]) a) :
    (Program.ask c >>= fun answer => Program.lift (f answer)).Secure handler holds Q T w trace := by
  intro w' s hle hholds
  obtain ⟨w'', a, hle', hholds', hanswer, hreturns⟩ := h w' s hle hholds
  refine ⟨w'', hle', hholds', ?_⟩
  change (Program.lift (f (handler c s).1)).Secure _ _ _ _ _ _
  rw [hanswer]
  exact hreturns

theorem run {p : Program I ε α} (h : p.Secure handler holds Q T w trace) {s : σ} (hholds : holds s w) :
    ∃ w', w ≤ w' ∧ holds (p.run handler s).2 w' := by
  induction p generalizing w trace s with
  | pure a => exact ⟨w, le_refl w, hholds⟩
  | throw e => exact ⟨w, le_refl w, hholds⟩
  | call c next ih =>
      obtain ⟨w', hle, hholds', hnext⟩ := h w s (le_refl w) hholds
      obtain ⟨w'', hle', hholds''⟩ := ih _ hnext hholds'
      exact ⟨w'', hle.trans hle', hholds''⟩

/-- A loop keeps an invariant of the world, the trace and the part of the list it has done. -/
theorem foldlM_from {f : β → α → Program I ε β} {P : List α → W → List (Event I) → β → Prop}
    (hmono : ∀ done w w' trace b, w ≤ w' → P done w trace b → P done w' trace b) {l : List α}
    (hbody : ∀ a ∈ l, ∀ done w trace b, P done w trace b →
      (f b a).Secure handler holds (P (done ++ [a])) T w trace) {done : List α} {b : β}
    (hstart : P done w trace b) :
    (l.foldlM f b).Secure handler holds (P (done ++ l)) T w trace := by
  induction l generalizing done w trace b with
  | nil =>
      rw [List.append_nil]
      exact fun w' hle => hmono done w w' trace b hle hstart
  | cons a l ih =>
      rw [List.forall_mem_cons] at hbody
      rw [List.foldlM_cons]
      apply (hbody.1 done w trace b hstart).bind
      intro w' trace' next _ hnext
      rw [show done ++ a :: l = (done ++ [a]) ++ l by simp]
      exact ih hbody.2 hnext

theorem foldlM {f : β → α → Program I ε β} {P : List α → W → List (Event I) → β → Prop}
    (hmono : ∀ done w w' trace b, w ≤ w' → P done w trace b → P done w' trace b) {l : List α}
    (hbody : ∀ a ∈ l, ∀ done w trace b, P done w trace b →
      (f b a).Secure handler holds (P (done ++ [a])) T w trace) {b : β} (hstart : P [] w trace b) :
    (l.foldlM f b).Secure handler holds (P l) T w trace :=
  foldlM_from hmono hbody hstart

theorem returns_of_pure {a : α}
    (h : (.pure a : Program I ε α).Secure handler holds Q T w trace) : Q w trace a :=
  h w (le_refl w)

theorem throws_of_throw {e : ε}
    (h : (.throw e : Program I ε α).Secure handler holds Q T w trace) : T w trace e :=
  h w (le_refl w)

end Secure

/-- The run lemma of pools: if every admitted thread is secure when it starts, then there is a world
at any time, and every thread is secure in it. -/
theorem secure_of_reachable {handler : Handler I σ} {holds : σ → W → Prop}
    {body : ρ → Program I ε α} {start : σ → Prop} {admits : σ → ρ → Prop}
    {returns : ρ → W → List (Event I) → α → Prop} {throws : ρ → W → List (Event I) → ε → Prop}
    (hstart : ∀ s, start s → ∃ w, holds s w)
    (hbody : ∀ input s w, admits s input → holds s w →
      (body input).Secure handler holds (returns input) (throws input) w [])
    {pool : Pool I σ ε α ρ} (hreachable : (Pool.system handler body start admits).Reachable pool) :
    ∃ w, holds pool.store w ∧ ∀ thread ∈ pool.threads,
      thread.program.Secure handler holds (returns thread.input) (throws thread.input) w thread.trace := by
  refine hreachable.invariant (I := fun pool => ∃ w, holds pool.store w ∧ ∀ thread ∈ pool.threads,
    thread.program.Secure handler holds (returns thread.input) (throws thread.input) w thread.trace)
    ?_ ?_
  · intro pool hpool
    obtain ⟨w, hw⟩ := hstart pool.store hpool.1
    refine ⟨w, hw, ?_⟩
    rw [hpool.2]
    simp
  · intro pool action pool' _ hinvariant hstep
    obtain ⟨w, hw, hthreads⟩ := hinvariant
    obtain ⟨hadmits, rfl⟩ := hstep
    cases action with
    | start input =>
        refine ⟨w, hw, fun thread hthread => ?_⟩
        rcases List.mem_append.mp hthread with hold | hnew
        · exact hthreads thread hold
        · obtain rfl := List.mem_singleton.mp hnew
          exact hbody input pool.store w (hadmits input rfl) hw
    | step index =>
        rw [Pool.next]
        split
        · rename_i input trace c next hget
          obtain ⟨w', hle, hw', hnext⟩ :=
            hthreads _ (List.mem_of_getElem? hget) w pool.store (le_refl w) hw
          refine ⟨w', hw', fun thread hthread => ?_⟩
          rcases List.mem_or_eq_of_mem_set hthread with hold | rfl
          · exact (hthreads thread hold).mono hle
          · exact hnext
        · exact ⟨w, hw, hthreads⟩

/-! ### Calls that fail -/

section Interruption

variable {handler : Handler I σ} {P : I.Call → Prop} {Q : α → Prop}

/-- Whatever the store answers, every call satisfies `P`, and what is returned satisfies `Q`. -/
inductive Asks (P : I.Call → Prop) (Q : α → Prop) : Program I ε α → Prop
  | pure {a : α} (h : Q a) : Asks P Q (.pure a)
  | throw {e : ε} : Asks P Q (.throw e)
  | call {c : I.Call} {next : I.Answer c → Program I ε α} (h : P c) (hrest : ∀ answer, Asks P Q (next answer)) :
      Asks P Q (.call c next)

/-- The stores that a program may leave when its calls can fail: it stops at any of them, or goes on with any
answer, whether the call was carried out or not. -/
inductive Leaves (handler : Handler I σ) : Program I ε α → σ → σ → Prop
  | stopped (p : Program I ε α) (s : σ) : Leaves handler p s s
  | carriedOut {c : I.Call} {next : I.Answer c → Program I ε α} {s s' : σ} (answer : I.Answer c)
      (hrest : Leaves handler (next answer) (handler c s).2 s') : Leaves handler (.call c next) s s'
  | failed {c : I.Call} {next : I.Answer c → Program I ε α} {s s' : σ} (answer : I.Answer c)
      (hrest : Leaves handler (next answer) s s') : Leaves handler (.call c next) s s'

namespace Asks

theorem mono {p : Program I ε α} {Q' : α → Prop} (h : p.Asks P Q) (hQ : ∀ a, Q a → Q' a) : p.Asks P Q' := by
  induction h with
  | pure h => exact .pure (hQ _ h)
  | throw => exact .throw
  | call h _ ih => exact .call h ih

theorem bind {p : Program I ε α} {f : α → Program I ε β} {R : β → Prop} (h : p.Asks P Q)
    (hrest : ∀ a, Q a → (f a).Asks P R) : (p >>= f).Asks P R := by
  change (p.bind f).Asks P R
  induction h with
  | pure h => exact hrest _ h
  | throw => exact .throw
  | call h _ ih => exact .call h ih

theorem handle {p : Program I ε α} {f : ε → Program I ε' α} (h : p.Asks P Q) (hrest : ∀ e, (f e).Asks P Q) :
    (p.handle f).Asks P Q := by
  induction h with
  | pure h => exact .pure h
  | throw => exact hrest _
  | call h _ ih => exact .call h ih

theorem lift {x : Except ε α} (h : ∀ a, x = .ok a → Q a) : (Program.lift x : Program I ε α).Asks P Q := by
  cases x with
  | ok a => exact .pure (h a rfl)
  | error e => exact .throw

theorem lifted (x : Except ε α) : (Program.lift x : Program I ε α).Asks P fun _ => True := lift fun _ _ => trivial

theorem ask {c : I.Call} (h : P c) : (Program.ask c : Program I ε _).Asks P fun _ => True :=
  .call h fun _ => .pure trivial

theorem within {J : Interface} {call : I.Call → J.Call} {answer : (c : I.Call) → J.Answer (call c) → I.Answer c}
    {P' : J.Call → Prop} {p : Program I ε α} (h : p.Asks P Q) (hcall : ∀ c, P c → P' (call c)) :
    (p.within call answer).Asks P' Q := by
  induction h with
  | pure h => exact .pure h
  | throw => exact .throw
  | call h _ ih => exact .call (hcall _ h) fun received => ih (answer _ received)

theorem foldlM {f : β → α → Program I ε β} {R : β → Prop} {l : List α}
    (hstep : ∀ a ∈ l, ∀ b, R b → (f b a).Asks P R) {b : β} (hb : R b) : (l.foldlM f b).Asks P R := by
  induction l generalizing b with
  | nil => exact .pure hb
  | cons a l ih =>
      rw [List.forall_mem_cons] at hstep
      rw [List.foldlM_cons]
      exact (hstep.1 b hb).bind fun b' hb' => ih hstep.2 hb'

end Asks

theorem leaves_run (p : Program I ε α) (s : σ) : Leaves handler p s (p.run handler s).2 := by
  induction p generalizing s with
  | pure a => exact .stopped _ s
  | throw e => exact .stopped _ s
  | call c next ih => exact .carriedOut _ (ih _ _)

/-- What every call of a program keeps holds of whatever store it leaves. -/
theorem Leaves.invariant {J : σ → Prop} {p : Program I ε α} {s s' : σ} (h : Leaves handler p s s')
    (hasks : p.Asks P Q) (hstep : ∀ c s, P c → J s → J (handler c s).2) (hs : J s) : J s' := by
  induction h with
  | stopped => exact hs
  | carriedOut answer _ ih =>
      cases hasks with
      | call hcall hrest => exact ih (hrest answer) (hstep _ _ hcall hs)
  | failed answer _ ih =>
      cases hasks with
      | call _ hrest => exact ih (hrest answer) hs

/-- A program that is secure over a store is secure over a larger one, where each of its calls keeps what the
larger world says of the rest. What it sees of the larger trace is its own trace. -/
theorem Secure.within {τ : Type} {J : Interface} {call : I.Call → J.Call}
    {answer : (c : I.Call) → J.Answer (call c) → I.Answer c} {outer : Handler J τ} {part : τ → σ}
    {holds : σ → W → Prop} {holds' : τ → W → Prop} {sees : List (Event J) → List (Event I) → Prop}
    {R : W → List (Event I) → α → Prop} {T : W → List (Event I) → ε → Prop} {p : Program I ε α} (hasks : p.Asks P Q)
    (hpart : ∀ t w, holds' t w → holds (part t) w)
    (hanswer : ∀ c t, answer c (outer (call c) t).1 = (handler c (part t)).1)
    (hkeeps : ∀ c t w w', P c → holds' t w → w ≤ w' → holds (handler c (part t)).2 w' → holds' (outer (call c) t).2 w')
    (hsees : ∀ trace trace' c a, sees trace trace' → sees (trace ++ [⟨call c, a⟩]) (trace' ++ [⟨c, answer c a⟩]))
    {w : W} {trace : List (Event J)} {trace' : List (Event I)} (hstart : sees trace trace')
    (h : p.Secure handler holds R T w trace') :
    (p.within call answer).Secure outer holds' (fun w trace a => ∃ trace', sees trace trace' ∧ R w trace' a)
      (fun w trace e => ∃ trace', sees trace trace' ∧ T w trace' e) w trace := by
  induction hasks generalizing w trace trace' with
  | pure => exact fun later hlater => ⟨trace', hstart, h later hlater⟩
  | throw => exact fun later hlater => ⟨trace', hstart, h later hlater⟩
  | @call c _ hcall _ ih =>
      intro w₁ t hle hholds
      obtain ⟨w₂, hle', hholds', hnext⟩ := h w₁ (part t) hle (hpart t w₁ hholds)
      refine ⟨w₂, hle', hkeeps c t w₁ w₂ hcall hholds hle' hholds', ?_⟩
      refine ih _ (hsees trace trace' c _ hstart) ?_
      rw [hanswer]
      exact hnext

end Interruption

/-! ### Programs that stop -/

/-- Whatever the store answers, the program makes at most so many calls. -/
inductive StopsWithin : Nat → Program I ε α → Prop
  | pure {n : Nat} (a : α) : StopsWithin n (.pure a)
  | throw {n : Nat} (e : ε) : StopsWithin n (.throw e)
  | call {n : Nat} {c : I.Call} {next : I.Answer c → Program I ε α} (hrest : ∀ answer, StopsWithin n (next answer)) :
      StopsWithin (n + 1) (.call c next)

namespace StopsWithin

variable {m n : Nat} {p : Program I ε α}

theorem mono (h : p.StopsWithin m) (hle : m ≤ n) : p.StopsWithin n := by
  induction h generalizing n with
  | pure a => exact .pure a
  | throw e => exact .throw e
  | call _ ih =>
      cases n with
      | zero => exact absurd hle (Nat.not_succ_le_zero _)
      | succ n => exact .call fun answer => ih answer (Nat.le_of_succ_le_succ hle)

theorem bind {f : α → Program I ε β} (h : p.StopsWithin m) (hrest : ∀ a, (f a).StopsWithin n) :
    (p >>= f).StopsWithin (m + n) := by
  change (p.bind f).StopsWithin (m + n)
  induction h with
  | pure a => exact (hrest a).mono (Nat.le_add_left _ _)
  | throw e => exact .throw e
  | call _ ih =>
      rw [Nat.succ_add]
      exact .call ih

theorem lift (x : Except ε α) : (Program.lift x : Program I ε α).StopsWithin n := by
  cases x with
  | ok a => exact .pure a
  | error e => exact .throw e

theorem ask (c : I.Call) : (Program.ask c : Program I ε _).StopsWithin 1 := .call fun answer => .pure answer

end StopsWithin

end Program

def PoolAction.isTurnOf {ρ : Type} (thread : Nat) : PoolAction ρ → Bool
  | .start _ => false
  | .step index => index = thread

namespace Pool

variable {I : Interface} {σ ε α ρ : Type} {handler : Handler I σ} {body : ρ → Program I ε α}
  {pool pool' : Pool I σ ε α ρ} {index n : Nat} {thread : Thread I ε α ρ}

theorem stopsWithin_next (handler : Handler I σ) (body : ρ → Program I ε α)
    (hget : pool.threads[index]? = some thread) (hstops : thread.program.StopsWithin n) (action : PoolAction ρ) :
    ∃ thread', (pool.next handler body action).threads[index]? = some thread' ∧ thread'.input = thread.input ∧
      thread'.program.StopsWithin (n - if action.isTurnOf index then 1 else 0) := by
  cases action with
  | start input =>
      have hlt := (List.getElem?_eq_some_iff.mp hget).choose
      exact ⟨thread, (List.getElem?_append_left hlt).trans hget, rfl, hstops⟩
  | step other =>
      by_cases hturn : other = index
      · subst hturn
        rw [next, hget]
        obtain ⟨input, trace, program⟩ := thread
        cases hstops with
        | pure a => exact ⟨_, hget, rfl, .pure a⟩
        | throw e => exact ⟨_, hget, rfl, .throw e⟩
        | call hrest =>
            have hlt := (List.getElem?_eq_some_iff.mp hget).choose
            refine ⟨_, List.getElem?_set_self hlt, rfl, ?_⟩
            rw [PoolAction.isTurnOf, if_pos (decide_eq_true rfl), Nat.add_sub_cancel]
            exact hrest _
      · have hother : (PoolAction.step other : PoolAction ρ).isTurnOf index = false := decide_eq_false hturn
        rw [next, hother]
        split
        · exact ⟨thread, (List.getElem?_set_ne hturn).trans hget, rfl, hstops⟩
        · exact ⟨thread, hget, rfl, hstops⟩

/-- A thread that gets enough turns stops, whatever the others do in between. -/
theorem stopsWithin_of_path {start : σ → Prop} {admits : σ → ρ → Prop} {actions : List (PoolAction ρ)}
    (hpath : (system handler body start admits).Path pool actions pool')
    (hget : pool.threads[index]? = some thread) (hstops : thread.program.StopsWithin n) :
    ∃ thread', pool'.threads[index]? = some thread' ∧ thread'.input = thread.input ∧
      thread'.program.StopsWithin (n - actions.countP (PoolAction.isTurnOf index)) := by
  induction hpath with
  | nil => exact ⟨thread, hget, rfl, hstops⟩
  | @snoc _ _ actions action _ hstep ih =>
      obtain ⟨earlier, hearlier, hinput, hleft⟩ := ih
      obtain ⟨-, rfl⟩ := hstep
      obtain ⟨later, hlater, hsame, hless⟩ := stopsWithin_next handler body hearlier hleft action
      refine ⟨later, hlater, hsame.trans hinput, ?_⟩
      rw [List.countP_append, List.countP_singleton, ← Nat.sub_sub]
      exact hless

theorem forall_threads {start : σ → Prop} {admits : σ → ρ → Prop} {P : Thread I ε α ρ → Prop}
    (hstart : ∀ input, P ⟨input, [], body input⟩)
    (hstep : ∀ input trace c next answer, P ⟨input, trace, .call c next⟩ →
      P ⟨input, trace ++ [⟨c, answer⟩], next answer⟩)
    (hreachable : (system handler body start admits).Reachable pool) : ∀ thread ∈ pool.threads, P thread := by
  refine hreachable.invariant (I := fun pool => ∀ thread ∈ pool.threads, P thread) ?_ ?_
  · intro first hfirst
    rw [hfirst.2]
    simp
  · intro earlier action later _ hthreads hnext
    obtain ⟨-, rfl⟩ := hnext
    cases action with
    | start input =>
        intro thread hthread
        rcases List.mem_append.mp hthread with hold | hnew
        · exact hthreads thread hold
        · obtain rfl := List.mem_singleton.mp hnew
          exact hstart input
    | step index =>
        rw [next]
        split
        · rename_i input trace c rest hget
          intro thread hthread
          rcases List.mem_or_eq_of_mem_set hthread with hold | rfl
          · exact hthreads thread hold
          · exact hstep input trace c rest _ (hthreads _ (List.mem_of_getElem? hget))
        · exact hthreads

theorem stopsWithin_of_reachable {start : σ → Prop} {admits : σ → ρ → Prop} {limit : ρ → Nat}
    (hbody : ∀ input, (body input).StopsWithin (limit input))
    (hreachable : (system handler body start admits).Reachable pool) :
    ∀ thread ∈ pool.threads, thread.program.StopsWithin (limit thread.input) := by
  refine forall_threads (P := fun thread => thread.program.StopsWithin (limit thread.input)) hbody ?_ hreachable
  intro input trace c rest answer hstops
  dsimp only at hstops ⊢
  generalize limit input = n at hstops ⊢
  cases hstops with
  | call hrest => exact (hrest answer).mono (Nat.le_succ _)

end Pool
