import SyncEngine.Model.Store

/-!
# The inbox of outcomes

What an inbox of unacknowledged outcomes is for, over the history of a replica: it holds what was
learned and not acknowledged since, in the order in which it was learned.
-/

namespace SyncEngine

variable {Operation Rejection : Type}

/-- The outcomes an event reports. -/
def OutcomeEvent.reported : OutcomeEvent Operation Rejection → List (ProposalDecision Operation Rejection)
  | .learned newlyResolved => newlyResolved
  | .acknowledged _ => []

def OutcomeEvent.Acknowledges (operationId : String) : OutcomeEvent Operation Rejection → Prop
  | .learned _ => False
  | .acknowledged operationIds => operationId ∈ operationIds

instance (operationId : String) (event : OutcomeEvent Operation Rejection) :
    Decidable (event.Acknowledges operationId) := by
  cases event with
  | learned => exact inferInstanceAs (Decidable False)
  | acknowledged operationIds => exact inferInstanceAs (Decidable (operationId ∈ operationIds))

@[simp] theorem not_acknowledges_learned (operationId : String)
    (newlyResolved : List (ProposalDecision Operation Rejection)) :
    ¬(OutcomeEvent.learned newlyResolved).Acknowledges operationId := id

@[simp] theorem acknowledges_acknowledged (operationId : String) (operationIds : List String) :
    (.acknowledged operationIds : OutcomeEvent Operation Rejection).Acknowledges operationId ↔
      operationId ∈ operationIds := Iff.rfl

/-- Everything learned, in order. -/
def learnedOutcomes (events : List (OutcomeEvent Operation Rejection)) :
    List (ProposalDecision Operation Rejection) :=
  events.flatMap OutcomeEvent.reported

/-- What was learned and not acknowledged since. -/
def outstanding : List (OutcomeEvent Operation Rejection) → List (ProposalDecision Operation Rejection)
  | [] => []
  | event :: later =>
      (event.reported.filter fun decision => ∀ event ∈ later, ¬event.Acknowledges decision.operationId) ++
        outstanding later

variable (events : List (OutcomeEvent Operation Rejection))

@[simp] theorem learnedOutcomes_concat (event : OutcomeEvent Operation Rejection) :
    learnedOutcomes (events ++ [event]) = learnedOutcomes events ++ event.reported := by
  rw [learnedOutcomes, List.flatMap_append, List.flatMap_singleton]
  rfl

/-- Later events acknowledge some of what was outstanding, and report more. -/
theorem outstanding_append (later : List (OutcomeEvent Operation Rejection)) :
    outstanding (events ++ later) =
      ((outstanding events).filter fun decision => ∀ event ∈ later, ¬event.Acknowledges decision.operationId) ++
        outstanding later := by
  induction events with
  | nil => rfl
  | cons event events ih =>
      rw [List.cons_append, outstanding, outstanding, ih, List.filter_append, List.filter_filter, List.append_assoc]
      simp only [List.forall_mem_append, ← Bool.decide_and, and_comm]

theorem outstanding_learned (newlyResolved : List (ProposalDecision Operation Rejection)) :
    outstanding (events ++ [.learned newlyResolved]) = outstanding events ++ newlyResolved := by
  rw [outstanding_append]
  simp [outstanding, OutcomeEvent.reported]

theorem outstanding_acknowledged (operationIds : List String) :
    outstanding (events ++ [.acknowledged operationIds]) =
      (outstanding events).filter fun decision => decision.operationId ∉ operationIds := by
  rw [outstanding_append]
  simp [outstanding, OutcomeEvent.reported]

theorem outstanding_sublist : (outstanding events).Sublist (learnedOutcomes events) := by
  induction events with
  | nil => exact List.Sublist.refl _
  | cons event events ih => exact List.filter_sublist.append ih

/-- What was acknowledged after it was learned is not outstanding, and is not learned again when nothing
is learned twice. -/
theorem not_outstanding_of_acknowledged {before after : List (OutcomeEvent Operation Rejection)}
    {operationIds : List String}
    (hnodup : ((learnedOutcomes (before ++ .acknowledged operationIds :: after)).map
      ProposalDecision.operationId).Nodup)
    {decision : ProposalDecision Operation Rejection} (hlearned : decision ∈ learnedOutcomes before)
    (hacknowledged : decision.operationId ∈ operationIds) :
    (∀ other ∈ outstanding (before ++ .acknowledged operationIds :: after),
      other.operationId ≠ decision.operationId) ∧
    ∀ other ∈ learnedOutcomes after, other.operationId ≠ decision.operationId := by
  have hafter : ∀ other ∈ learnedOutcomes after, other.operationId ≠ decision.operationId := by
    intro other hother hid
    rw [learnedOutcomes, List.flatMap_append, List.flatMap_cons, List.map_append, List.nodup_append] at hnodup
    exact hnodup.2.2 _ (List.mem_map_of_mem hlearned) _ (List.mem_map_of_mem hother) hid.symm
  refine ⟨fun other hother hid => ?_, hafter⟩
  rw [outstanding_append, List.mem_append, List.mem_filter] at hother
  rcases hother with ⟨-, hkept⟩ | hlater
  · have hnot := of_decide_eq_true hkept _ List.mem_cons_self
    exact hnot (hid ▸ hacknowledged)
  · exact hafter other ((outstanding_sublist after).subset hlater) hid

end SyncEngine
