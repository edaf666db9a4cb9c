import Mathlib.Data.List.Basic
import Mathlib.Data.List.Forall2

/-!
# Computations that may throw

`Except` read as a computation that returns or throws: a guard that throws when a condition holds,
and what it means for a sequence or a loop of such steps to return.
-/

namespace Throwing

variable {ε α β : Type}

/-- Throw an error if a condition holds. -/
def throwIf (condition : Prop) [Decidable condition] (error : ε) : Except ε Unit :=
  if condition then .error error else .ok ()

@[simp] theorem throwIf_eq_ok (condition : Prop) [Decidable condition] (error : ε) (u : Unit) :
    throwIf condition error = .ok u ↔ ¬condition := by
  by_cases h : condition <;> simp [throwIf, h]

theorem throwIf_pos {condition : Prop} [Decidable condition] {error : ε} (h : condition) :
    throwIf condition error = .error error := if_pos h

theorem throwIf_neg {condition : Prop} [Decidable condition] {error : ε} (h : ¬condition) :
    throwIf condition error = .ok () := if_neg h

@[simp] theorem ok_bind (a : α) (f : α → Except ε β) : (Except.ok a >>= f) = f a := rfl

@[simp] theorem error_bind (e : ε) (f : α → Except ε β) : (Except.error e >>= f) = .error e := rfl

@[simp] theorem pure_eq_ok (a : α) : (pure a : Except ε α) = .ok a := rfl

@[simp] theorem map_ok (f : α → β) (a : α) : (f <$> (Except.ok a : Except ε α)) = .ok (f a) := rfl

/-- A sequence returns when its first step does and the rest returns from there. -/
theorem bind_eq_ok {x : Except ε α} {f : α → Except ε β} {b : β} :
    (x >>= f) = .ok b ↔ ∃ a, x = .ok a ∧ f a = .ok b := by
  cases x with
  | error e => simp
  | ok a => simp

/-- A sequence throws when its first step does, or the rest from there. -/
theorem bind_eq_error {x : Except ε α} {f : α → Except ε β} {e : ε} :
    (x >>= f) = .error e ↔ x = .error e ∨ ∃ a, x = .ok a ∧ f a = .error e := by
  cases x with
  | error e' => simp
  | ok a => simp

/-- After a check there is nothing to pass on. -/
theorem bind_unit_eq_ok {x : Except ε Unit} {f : Unit → Except ε β} {b : β} :
    (x >>= f) = .ok b ↔ x = .ok () ∧ f () = .ok b := by
  rw [bind_eq_ok]
  exact ⟨fun ⟨(), h⟩ => h, fun h => ⟨(), h⟩⟩

/-- A loop of checks returns when every check does. -/
theorem forM_eq_ok {f : α → Except ε PUnit} {l : List α} (h : ∀ a ∈ l, f a = .ok ⟨⟩) :
    l.forM f = .ok ⟨⟩ := by
  induction l with
  | nil => rfl
  | cons a l ih =>
      rw [List.forall_mem_cons] at h
      change (f a >>= fun _ => l.forM f) = _
      rw [h.1]
      exact ih h.2

theorem forall_of_forM_eq_ok {f : α → Except ε Unit} {l : List α} (h : l.forM f = .ok ()) :
    ∀ a ∈ l, f a = .ok () := by
  induction l with
  | nil => simp
  | cons a l ih =>
      obtain ⟨hfirst, hrest⟩ := bind_unit_eq_ok.mp (show (f a >>= fun _ => l.forM f) = _ from h)
      exact List.forall_mem_cons.mpr ⟨hfirst, ih hrest⟩

/-- A list of results is returned when every element has its result. -/
theorem mapM_eq_ok {f : α → Except ε β} {g : α → β} {l : List α} (h : ∀ a ∈ l, f a = .ok (g a)) :
    l.mapM f = .ok (l.map g) := by
  induction l with
  | nil => rfl
  | cons a l ih =>
      rw [List.forall_mem_cons] at h
      rw [List.mapM_cons, h.1, ok_bind, ih h.2]
      rfl

/-- A list is mapped when every element is. -/
theorem mapM_eq_ok_iff {f : α → Except ε β} {l : List α} {l' : List β} :
    l.mapM f = .ok l' ↔ List.Forall₂ (fun a b => f a = .ok b) l l' := by
  induction l generalizing l' with
  | nil =>
      rw [List.mapM_nil, List.forall₂_nil_left_iff, pure_eq_ok, Except.ok.injEq, eq_comm]
  | cons a l ih =>
      rw [List.mapM_cons, bind_eq_ok, List.forall₂_cons_left_iff]
      constructor
      · intro hparts
        obtain ⟨b, hfirst, hrest⟩ := hparts
        obtain ⟨rest, hrest, hwhole⟩ := bind_eq_ok.mp hrest
        exact ⟨b, rest, hfirst, ih.mp hrest, (Except.ok.inj hwhole).symm⟩
      · intro hparts
        obtain ⟨b, rest, hfirst, hrest, rfl⟩ := hparts
        exact ⟨b, hfirst, bind_eq_ok.mpr ⟨rest, ih.mpr hrest, rfl⟩⟩

/-- Every element of a list that is mapped is mapped. -/
theorem returns_of_mapM_eq_ok {f : α → Except ε β} {l : List α} {l' : List β} (h : l.mapM f = .ok l') :
    ∀ a ∈ l, ∃ b, f a = .ok b := by
  induction l generalizing l' with
  | nil => simp
  | cons a l ih =>
      rw [List.mapM_cons] at h
      obtain ⟨b, hfirst, h⟩ := bind_eq_ok.mp h
      obtain ⟨rest, hrest, -⟩ := bind_eq_ok.mp h
      exact List.forall_mem_cons.mpr ⟨⟨b, hfirst⟩, ih hrest⟩

/-- A list fails to be mapped with the first element that does. -/
theorem mapM_eq_error {f : α → Except ε β} {front back : List α} {a : α} {e : ε}
    (hfront : ∀ b ∈ front, ∃ c, f b = .ok c) (herror : f a = .error e) :
    (front ++ a :: back).mapM f = .error e := by
  induction front with
  | nil => rw [List.nil_append, List.mapM_cons, herror, error_bind]
  | cons first front ih =>
      rw [List.forall_mem_cons] at hfront
      obtain ⟨c, hc⟩ := hfront.1
      rw [List.cons_append, List.mapM_cons, hc, ok_bind, ih hfront.2, error_bind]

theorem mapM_congr {f g : α → Except ε β} {l : List α} (h : ∀ a ∈ l, f a = g a) : l.mapM f = l.mapM g := by
  induction l with
  | nil => rfl
  | cons a l ih =>
      rw [List.forall_mem_cons] at h
      rw [List.mapM_cons, List.mapM_cons, h.1, ih h.2]

/-- A fold whose steps return and keep an invariant returns and keeps it. -/
theorem foldlM_returns {f : β → α → Except ε β} {I : β → Prop} {l : List α}
    (h : ∀ a ∈ l, ∀ b, I b → ∃ b', f b a = .ok b' ∧ I b') {b : β} (hb : I b) :
    ∃ b', l.foldlM f b = .ok b' ∧ I b' := by
  induction l generalizing b with
  | nil => exact ⟨b, rfl, hb⟩
  | cons a l ih =>
      obtain ⟨middle, hfirst, hmiddle⟩ := h a List.mem_cons_self b hb
      obtain ⟨last, hrest, hlast⟩ := ih (fun a' ha' => h a' (List.mem_cons_of_mem a ha')) hmiddle
      refine ⟨last, ?_, hlast⟩
      rw [List.foldlM_cons, hfirst, ok_bind]
      exact hrest

/-- What every step of a fold keeps, the fold keeps. -/
theorem foldlM_invariant {f : β → α → Except ε β} {I : β → Prop} {l : List α}
    (hstep : ∀ a ∈ l, ∀ b b', I b → f b a = .ok b' → I b') {b b' : β} (hb : I b) (h : l.foldlM f b = .ok b') :
    I b' := by
  induction l generalizing b with
  | nil => exact Except.ok.inj h ▸ hb
  | cons a l ih =>
      rw [List.forall_mem_cons] at hstep
      rw [List.foldlM_cons] at h
      obtain ⟨middle, hfirst, hrest⟩ := bind_eq_ok.mp h
      exact ih hstep.2 (hstep.1 b middle hb hfirst) hrest

/-- A fold whose steps return, from where an invariant holds, exactly under a condition on the element, returns
when every element meets the condition. -/
theorem foldlM_returns_iff {f : β → α → Except ε β} {I : β → Prop} {P : α → Prop} {l : List α}
    (hstep : ∀ a ∈ l, ∀ b, I b → ((∃ b', f b a = .ok b') ↔ P a))
    (hkeep : ∀ a ∈ l, ∀ b b', f b a = .ok b' → I b') {b : β} (hb : I b) :
    (∃ b', l.foldlM f b = .ok b') ↔ ∀ a ∈ l, P a := by
  induction l generalizing b with
  | nil => simp
  | cons a l ih =>
      rw [List.forall_mem_cons] at hstep hkeep
      rw [List.foldlM_cons, List.forall_mem_cons, ← hstep.1 b hb]
      cases hfirst : f b a with
      | error e => simp
      | ok middle =>
          rw [ok_bind, ih hstep.2 hkeep.2 (hkeep.1 b middle hfirst)]
          simp

/-- A fold whose steps change nothing returns where it starts. -/
theorem foldlM_eq_self {f : β → α → Except ε β} {l : List α} {b : β} (h : ∀ a ∈ l, f b a = .ok b) :
    l.foldlM f b = .ok b := by
  induction l with
  | nil => rfl
  | cons a l ih =>
      rw [List.forall_mem_cons] at h
      rw [List.foldlM_cons, h.1]
      exact ih h.2

/-- The loop rule: a loop over the elements with their positions returns when an invariant about the
elements passed carries every step. -/
theorem foldlM_zipIdx_eq_ok {f : β → α × Nat → Except ε β} {I : List α → β → Prop} {l : List α} {b : β}
    (hstart : I [] b)
    (hstep : ∀ passed a rest b, l = passed ++ a :: rest → I passed b →
      ∃ b', f b (a, passed.length) = .ok b' ∧ I (passed ++ [a]) b') :
    ∃ b', l.zipIdx.foldlM f b = .ok b' ∧ I l b' := by
  suffices hfrom : ∀ rest passed b, l = passed ++ rest → I passed b →
      ∃ b', (rest.zipIdx passed.length).foldlM f b = .ok b' ∧ I l b' from hfrom l [] b rfl hstart
  intro rest
  induction rest with
  | nil =>
      intro passed b hl hb
      rw [List.append_nil] at hl
      exact ⟨b, rfl, hl ▸ hb⟩
  | cons a rest ih =>
      intro passed b hl hb
      obtain ⟨b₁, hfirst, hb₁⟩ := hstep passed a rest b hl hb
      obtain ⟨b₂, hrest, hb₂⟩ := ih (passed ++ [a]) b₁ (by rw [hl, List.append_assoc]; rfl) hb₁
      rw [List.length_append, List.length_singleton] at hrest
      refine ⟨b₂, ?_, hb₂⟩
      rw [List.zipIdx_cons, List.foldlM_cons, hfirst, ok_bind]
      exact hrest

/-- Two folds whose steps agree on the elements of the list are equal. -/
theorem foldlM_congr {f g : β → α → Except ε β} {l : List α} (h : ∀ a ∈ l, ∀ b, f b a = g b a) (b : β) :
    l.foldlM f b = l.foldlM g b := by
  induction l generalizing b with
  | nil => rfl
  | cons a l ih =>
      rw [List.foldlM_cons, List.foldlM_cons, h a List.mem_cons_self b]
      exact bind_congr fun b' => ih (fun a' ha' => h a' (List.mem_cons_of_mem a ha')) b'

theorem mapError_eq_ok {ε' : Type} {x : Except ε α} {f : ε → ε'} {a : α} :
    x.mapError f = .ok a ↔ x = .ok a := by
  cases x with
  | error e => simp [Except.mapError]
  | ok b => simp [Except.mapError]

/-! ### Two computations side by side -/

/-- Two computations throw the same error, or return related values. -/
inductive Agree {ε α β : Type} (R : α → β → Prop) : Except ε α → Except ε β → Prop
  | ok {a : α} {b : β} (hrelated : R a b) : Agree R (.ok a) (.ok b)
  | error (e : ε) : Agree R (.error e) (.error e)

namespace Agree

variable {ε α β α' β' : Type} {R S : α → β → Prop} {R' : α' → β' → Prop}

theorem refl (x : Except ε α) : Agree (fun a b => a = b) x x := by
  cases x with
  | error e => exact .error e
  | ok a => exact .ok rfl

theorem mono {x : Except ε α} {y : Except ε β} (h : Agree R x y) (hRS : ∀ a b, R a b → S a b) :
    Agree S x y := by
  cases h with
  | error e => exact .error e
  | ok hrelated => exact .ok (hRS _ _ hrelated)

/-- Sequences agree when their first steps agree and related values are continued alike. -/
theorem bind {x : Except ε α} {y : Except ε β} {f : α → Except ε α'} {g : β → Except ε β'}
    (h : Agree R x y) (hrest : ∀ a b, R a b → Agree R' (f a) (g b)) : Agree R' (x >>= f) (y >>= g) := by
  cases h with
  | error e => exact .error e
  | ok hrelated => exact hrest _ _ hrelated

/-- A common first step. -/
theorem bind_same {γ : Type} (x : Except ε γ) {f : γ → Except ε α'} {g : γ → Except ε β'}
    (hrest : ∀ c, x = .ok c → Agree R' (f c) (g c)) : Agree R' (x >>= f) (x >>= g) := by
  cases x with
  | error e => exact .error e
  | ok c => exact hrest c rfl

theorem of_right_eq_ok {x : Except ε α} {y : Except ε β} (h : Agree R x y) {b : β} (hy : y = .ok b) :
    ∃ a, x = .ok a ∧ R a b := by
  subst hy
  cases h with
  | ok hrelated => exact ⟨_, rfl, hrelated⟩

theorem of_left_eq_ok {x : Except ε α} {y : Except ε β} (h : Agree R x y) {a : α} (hx : x = .ok a) :
    ∃ b, y = .ok b ∧ R a b := by
  subst hx
  cases h with
  | ok hrelated => exact ⟨_, rfl, hrelated⟩

theorem of_right_eq_error {x : Except ε α} {y : Except ε β} (h : Agree R x y) {e : ε}
    (hy : y = .error e) : x = .error e := by
  subst hy
  cases h with
  | error => rfl

theorem of_left_eq_error {x : Except ε α} {y : Except ε β} (h : Agree R x y) {e : ε}
    (hx : x = .error e) : y = .error e := by
  subst hx
  cases h with
  | error => rfl

end Agree

/-! ### Checks that may only fail under a condition -/

/-- One computation is another one, unless a condition holds that makes it throw. -/
def Unless {ε α : Type} (P : Prop) (x y : Except ε α) : Prop := x = y ∨ P ∧ ∃ e, x = .error e

namespace Unless

variable {ε α β : Type} {P : Prop} {x y : Except ε α}

theorem refl (x : Except ε α) : Unless P x x := Or.inl rfl

theorem of_eq (h : x = y) : Unless P x y := Or.inl h

theorem eq_of_not (h : Unless P x y) (hP : ¬P) : x = y := h.resolve_right fun hthrow => hP hthrow.1

/-- Whatever is returned is the value of the other computation. -/
theorem eq_ok (h : Unless P x y) {a : α} (hx : x = .ok a) : y = .ok a := by
  rcases h with rfl | ⟨-, e, he⟩
  · exact hx
  · rw [he] at hx
    exact absurd hx (by simp)

theorem trans {z : Except ε α} (h : Unless P x y) (h' : Unless P y z) : Unless P x z := by
  rcases h with rfl | hthrow
  · exact h'
  · exact Or.inr hthrow

theorem mono {Q : Prop} (h : Unless P x y) (hPQ : P → Q) : Unless Q x y := by
  rcases h with rfl | ⟨hP, e, rfl⟩
  · exact .refl _
  · exact Or.inr ⟨hPQ hP, e, rfl⟩

theorem bind {f g : α → Except ε β} (h : Unless P x y)
    (hrest : ∀ a, y = .ok a → Unless P (f a) (g a)) : Unless P (x >>= f) (y >>= g) := by
  rcases h with rfl | ⟨hP, e, rfl⟩
  · cases x with
    | error e => exact .refl _
    | ok a => exact hrest a rfl
  · exact Or.inr ⟨hP, e, rfl⟩

/-- A first step whose value is known. -/
theorem bind_ok {f : α → Except ε β} {a : α} {z : Except ε β} (h : Unless P x (.ok a))
    (hrest : Unless P (f a) z) : Unless P (x >>= f) z := by
  rcases h with rfl | ⟨hP, e, rfl⟩
  · exact hrest
  · exact Or.inr ⟨hP, e, rfl⟩

/-- A check that only the condition can fail. -/
theorem throwIf {condition : Prop} [Decidable condition] {e : ε} (h : condition → P) :
    Unless P (Throwing.throwIf condition e) (.ok ()) := by
  by_cases hcondition : condition
  · exact Or.inr ⟨h hcondition, e, throwIf_pos hcondition⟩
  · exact Or.inl (throwIf_neg hcondition)

/-- Every element of a list is read back, unless the condition holds. -/
theorem mapM {f : β → Except ε α} {g : α → β} {l : List α} (h : ∀ a ∈ l, Unless P (f (g a)) (.ok a)) :
    Unless P ((l.map g).mapM f) (.ok l) := by
  induction l with
  | nil => exact .refl _
  | cons a l ih =>
      rw [List.forall_mem_cons] at h
      rw [List.map_cons, List.mapM_cons]
      refine h.1.bind_ok ((ih h.2).bind_ok ?_)
      exact .refl _

end Unless

/-! ### Which errors a computation can throw -/

/-- Whatever the computation throws satisfies the predicate. -/
def Throws {ε α : Type} (P : ε → Prop) (x : Except ε α) : Prop := ∀ e, x = .error e → P e

namespace Throws

variable {P : ε → Prop}

theorem ok (a : α) : Throws P (.ok a : Except ε α) := by
  intro e h
  simp at h

theorem error {e : ε} (h : P e) : Throws P (.error e : Except ε α) := by
  intro e' he
  rwa [← Except.error.inj he]

theorem mono {Q : ε → Prop} {x : Except ε α} (hx : Throws P x) (hPQ : ∀ e, P e → Q e) : Throws Q x :=
  fun e h => hPQ e (hx e h)

theorem bind {x : Except ε α} {f : α → Except ε β} (hx : Throws P x)
    (hf : ∀ a, x = .ok a → Throws P (f a)) : Throws P (x >>= f) := by
  cases x with
  | error e => exact .error (hx e rfl)
  | ok a => exact hf a rfl

/-- Two steps that throw nothing else, whatever the first one returns. -/
theorem seq {x : Except ε α} {f : α → Except ε β} (hx : Throws P x) (hf : ∀ a, Throws P (f a)) :
    Throws P (x >>= f) :=
  hx.bind fun a _ => hf a

theorem throwIf {condition : Prop} [Decidable condition] {e : ε} (h : P e) :
    Throws P (Throwing.throwIf condition e) := by
  by_cases hcondition : condition
  · rw [throwIf_pos hcondition]
    exact .error h
  · rw [throwIf_neg hcondition]
    exact .ok ()

theorem foldlM {f : β → α → Except ε β} (h : ∀ b a, Throws P (f b a)) (l : List α) (b : β) :
    Throws P (l.foldlM f b) := by
  induction l generalizing b with
  | nil => exact .ok b
  | cons a l ih =>
      rw [List.foldlM_cons]
      exact (h b a).seq ih

end Throws

end Throwing
