import Mathlib.Data.List.Basic

/-!
# Labelled transition systems

A system is a set of start states and a labelled step relation. A path is a sequence of steps with
the labels it took. The rules below are the ones a safety proof uses: an invariant holds of every
reachable state, a preorder every step respects holds along every path, and a run can be followed
with some of its labels left out.
-/

structure TransitionSystem (σ α : Type*) where
  start : σ → Prop
  step : σ → α → σ → Prop

namespace TransitionSystem

variable {σ τ α β : Type*} (S : TransitionSystem σ α)

/-- A sequence of steps, with its labels in order. -/
inductive Path : σ → List α → σ → Prop
  | nil (s : σ) : Path s [] s
  | snoc {s t u : σ} {labels : List α} {a : α} (hpath : Path s labels t) (hstep : S.step t a u) :
      Path s (labels ++ [a]) u

def Reachable (s : σ) : Prop := ∃ s₀ labels, S.start s₀ ∧ S.Path s₀ labels s

variable {S}

theorem Path.trans {s t u : σ} {first second : List α} (hfirst : S.Path s first t)
    (hsecond : S.Path t second u) : S.Path s (first ++ second) u := by
  induction hsecond with
  | nil => simpa using hfirst
  | snoc _ hstep ih =>
      rw [← List.append_assoc]
      exact ih.snoc hstep

theorem Path.split {s u : σ} {first second : List α} (hpath : S.Path s (first ++ second) u) :
    ∃ t, S.Path s first t ∧ S.Path t second u := by
  generalize hlabels : first ++ second = labels at hpath
  induction hpath generalizing second with
  | nil =>
      obtain ⟨rfl, rfl⟩ := List.append_eq_nil_iff.mp hlabels
      exact ⟨_, .nil _, .nil _⟩
  | snoc hinit hlast ih =>
      rcases List.eq_nil_or_concat second with rfl | ⟨rest, last, rfl⟩
      · rw [List.append_nil] at hlabels
        subst hlabels
        exact ⟨_, hinit.snoc hlast, .nil _⟩
      · rw [List.concat_eq_append, ← List.append_assoc] at hlabels
        obtain ⟨hrest, hsame⟩ := List.append_inj' hlabels rfl
        obtain rfl := List.singleton_injective hsame
        obtain ⟨t, hfirst, hsecond⟩ := ih hrest
        exact ⟨t, hfirst, List.concat_eq_append ▸ hsecond.snoc hlast⟩

theorem Path.eq_of_nil {s u : σ} (hpath : S.Path s [] u) : s = u := by
  generalize hlabels : ([] : List α) = labels at hpath
  cases hpath with
  | nil => rfl
  | snoc => simp at hlabels

theorem Path.step_of_singleton {s u : σ} {a : α} (hpath : S.Path s [a] u) : S.step s a u := by
  generalize hlabels : [a] = labels at hpath
  cases hpath with
  | nil => simp at hlabels
  | @snoc _ _ init last hinit hlast =>
      obtain ⟨rfl, hsame⟩ := List.append_inj' (show [] ++ [a] = init ++ [last] from hlabels) rfl
      obtain rfl := List.singleton_injective hsame
      obtain rfl := hinit.eq_of_nil
      exact hlast

theorem Reachable.of_start {s : σ} (hstart : S.start s) : S.Reachable s :=
  ⟨s, [], hstart, .nil s⟩

theorem Reachable.path {s t : σ} {labels : List α} (hs : S.Reachable s) (hpath : S.Path s labels t) :
    S.Reachable t := by
  obtain ⟨s₀, first, hstart, hfirst⟩ := hs
  exact ⟨s₀, first ++ labels, hstart, hfirst.trans hpath⟩

theorem Reachable.step {s t : σ} {a : α} (hs : S.Reachable s) (hstep : S.step s a t) :
    S.Reachable t :=
  hs.path ((Path.nil s).snoc hstep)

/-- The invariant rule: what holds at the start and is kept by the steps out of reachable states
holds of every reachable state. -/
theorem Reachable.invariant {I : σ → Prop} (hstart : ∀ s, S.start s → I s)
    (hstep : ∀ s a t, S.Reachable s → I s → S.step s a t → I t) {s : σ} (hs : S.Reachable s) : I s := by
  obtain ⟨s₀, labels, hs₀, hpath⟩ := hs
  induction hpath with
  | nil => exact hstart _ hs₀
  | snoc hpath hlast ih => exact hstep _ _ _ ((Reachable.of_start hs₀).path hpath) ih hlast

theorem Path.of_foldlM {next : σ → α → Option σ} (hnext : ∀ s a t, next s a = some t → S.step s a t)
    {s t : σ} {labels : List α} (h : labels.foldlM next s = some t) : S.Path s labels t := by
  induction labels generalizing s with
  | nil =>
      obtain rfl := Option.some.inj h
      exact .nil s
  | cons a labels ih =>
      rw [List.foldlM_cons] at h
      obtain ⟨middle, hfirst, hrest⟩ := Option.bind_eq_some_iff.mp h
      exact ((Path.nil s).snoc (hnext _ _ _ hfirst)).trans (ih hrest)

theorem Path.deterministic (hdet : ∀ s a t u, S.step s a t → S.step s a u → t = u) {s t u : σ}
    {labels : List α} (ht : S.Path s labels t) (hu : S.Path s labels u) : t = u := by
  induction ht generalizing u with
  | nil =>
      generalize hlabels : ([] : List α) = labels at hu
      cases hu with
      | nil => rfl
      | snoc => simp at hlabels
  | @snoc _ _ labels a _ hstep ih =>
      generalize hlabels : labels ++ [a] = labels' at hu
      cases hu with
      | nil => simp at hlabels
      | snoc hpath hlast =>
          obtain ⟨rfl, hsame⟩ := List.append_inj' hlabels rfl
          obtain rfl := List.singleton_injective hsame
          obtain rfl := ih hpath
          exact hdet _ _ _ _ hstep hlast

/-- Following a run in a system whose labels are part of the labels: a step with a label there is
matched by a step with that label, any other step by standing still. -/
theorem Path.project {T : TransitionSystem τ β} {label : α → Option β} {R : σ → τ → Prop}
    (hkept : ∀ s t a b s', R s t → label a = some b → S.step s a s' → ∃ t', T.step t b t' ∧ R s' t')
    (hhidden : ∀ s t a s', R s t → label a = none → S.step s a s' → R s' t)
    {s s' : σ} {t : τ} {labels : List α} (hpath : S.Path s labels s') (hrelated : R s t) :
    ∃ t', T.Path t (labels.filterMap label) t' ∧ R s' t' := by
  induction hpath with
  | nil => exact ⟨t, .nil t, hrelated⟩
  | @snoc _ _ _ a _ hlast ih =>
      obtain ⟨t', hrest, hrelated'⟩ := ih
      cases hlabel : label a with
      | some b =>
          obtain ⟨t'', hmatch, hrelated''⟩ := hkept _ _ _ _ _ hrelated' hlabel hlast
          refine ⟨t'', ?_, hrelated''⟩
          rw [List.filterMap_append, List.filterMap_cons, hlabel, List.filterMap_nil]
          exact hrest.snoc hmatch
      | none =>
          refine ⟨t', ?_, hhidden _ _ _ _ hrelated' hlabel hlast⟩
          rw [List.filterMap_append, List.filterMap_cons, hlabel, List.filterMap_nil, List.append_nil]
          exact hrest

/-- Following a run with some labels left out: a kept step is matched by the same step, a hidden
step by standing still. -/
theorem Path.erase {T : TransitionSystem τ α} {keep : α → Bool} {R : σ → τ → Prop}
    (hkept : ∀ s t a s', R s t → keep a = true → S.step s a s' → ∃ t', T.step t a t' ∧ R s' t')
    (hhidden : ∀ s t a s', R s t → keep a = false → S.step s a s' → R s' t)
    {s s' : σ} {t : τ} {labels : List α} (hpath : S.Path s labels s') (hrelated : R s t) :
    ∃ t', T.Path t (labels.filter keep) t' ∧ R s' t' := by
  rw [← List.filterMap_eq_filter]
  refine hpath.project (R := R) (fun s t a b s' hrelated hlabel hstep => ?_)
    (fun s t a s' hrelated hlabel hstep => hhidden s t a s' hrelated (by simpa using hlabel) hstep) hrelated
  obtain ⟨rfl, hkeep⟩ := Option.guard_eq_some_iff.mp hlabel
  exact hkept s t a s' hrelated hkeep hstep

end TransitionSystem
