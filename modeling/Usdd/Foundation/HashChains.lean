import Usdd.Foundation.Attempts
/-!
# Runs that their tip determines

Where the tip of a state determines the action that led to it and the tip before, the last tip of
a run determines the whole run, given how long it is. This is how a hash chain commits to its
history.
-/
namespace Usdd.Foundation.Attempts

variable {State Action Error Tip : Type} {step : State → Action → Except Error State}

/-- Among some actions, equal tips come from one action and equal tips. -/
def TipsDetermine (step : State → Action → Except Error State) (tip : State → Tip)
    (actions : Set Action) : Prop :=
  ∀ state other action action' next next', action ∈ actions → action' ∈ actions →
    step state action = .ok next → step other action' = .ok next' → tip next = tip next' →
    tip state = tip other ∧ action = action'

variable {tip : State → Tip} {actions : Set Action} {initial leftEnd rightEnd : State}
  {left right : List (Action × State)}

/-- Runs of one length from one state with one tip at their ends are the same run. The induction
goes back from the ends: the tips determine the actions and the tips before them, and the actions
determine the states. -/
theorem Reaches.determined (determine : TipsDetermine step tip actions)
    (leftRun : Reaches step initial left leftEnd) (rightRun : Reaches step initial right rightEnd)
    (leftActions : ∀ entry ∈ left, entry.1 ∈ actions)
    (rightActions : ∀ entry ∈ right, entry.1 ∈ actions) (length : left.length = right.length)
    (tips : tip leftEnd = tip rightEnd) : left = right ∧ leftEnd = rightEnd := by
  induction leftRun generalizing right rightEnd with
  | start =>
    cases rightRun with
    | start => exact ⟨rfl, rfl⟩
    | accept _ _ => simp at length
  | @accept log state next action _ accepted ih =>
    cases rightRun with
    | start => simp at length
    | @accept log' state' next' action' rightRun accepted' =>
      have last : action ∈ actions := leftActions (action, next) (by simp)
      have last' : action' ∈ actions := rightActions (action', rightEnd) (by simp)
      obtain ⟨before, rfl⟩ := determine _ _ _ _ _ _ last last' accepted accepted' tips
      have shorter : log.length = log'.length := by
        simpa using length
      obtain ⟨rfl, rfl⟩ := ih rightRun
        (fun entry member => leftActions entry (List.mem_append_left _ member))
        (fun entry member => rightActions entry (List.mem_append_left _ member)) shorter before
      have same : next = rightEnd := by
        rw [accepted, Except.ok.injEq] at accepted'
        exact accepted'
      rw [same]
      exact ⟨rfl, rfl⟩

end Usdd.Foundation.Attempts
