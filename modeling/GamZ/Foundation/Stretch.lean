import GamZ.Foundation.Transition

/-! # Stretches of executions

What a stretch of an execution keeps when only some of the actions occur in it, and how
far one process gets by its own steps, whatever the other processes do in between. -/

namespace GamZ.Transition

namespace TransitionSystem

variable {State Action : Type*} {system : TransitionSystem State Action}

theorem execute_cons {state final : State} {action : Action} {actions : List Action}
    (executed : system.execute state (action :: actions) = some final) :
    ∃ after, system.step state action = some after ∧ system.execute after actions = some final :=
  Option.bind_eq_some_iff.mp executed

/-- The system without the steps that do not meet a condition. -/
def restrict (system : TransitionSystem State Action) (condition : State → Action → Prop)
    [∀ state action, Decidable (condition state action)] : TransitionSystem State Action where
  Initial := system.Initial
  step state action := if condition state action then system.step state action else none

theorem restrict_step {condition : State → Action → Prop}
    [∀ state action, Decidable (condition state action)] {state after : State} {action : Action} :
    (system.restrict condition).step state action = some after ↔
      condition state action ∧ system.step state action = some after := by
  rw [restrict]
  exact Option.ite_none_right_eq_some

theorem executeWhere_eq_execute {condition : State → Action → Prop}
    [∀ state action, Decidable (condition state action)] (state : State) (actions : List Action) :
    system.executeWhere condition state actions =
      (system.restrict condition).execute state actions := rfl

/-- What the allowed actions preserve, a stretch of them preserves. -/
theorem execute_invariant (Allowed : Action → Prop) (Invariant : State → Prop)
    (preserved : ∀ state action after, Invariant state → Allowed action →
      system.step state action = some after → Invariant after)
    {actions : List Action} (allowed : ∀ action ∈ actions, Allowed action)
    {state final : State} (executed : system.execute state actions = some final)
    (invariant : Invariant state) : Invariant final := by
  induction actions generalizing state with
  | nil =>
      cases executed
      exact invariant
  | cons action actions induction =>
      rcases execute_cons executed with ⟨after, stepped, rest⟩
      apply induction (fun other member => allowed other (List.mem_cons_of_mem action member)) rest
      exact preserved state action after invariant (allowed action List.mem_cons_self) stepped

/-- Each step of its own brings a process nearer to its goal, and no other step takes it
away: the goal is reached after as many own steps as the measure says. -/
theorem measure_le_of_execute (Own : Action → Bool) (Invariant : State → Prop)
    (measure : State → Nat)
    (preserved : ∀ state action after, Invariant state →
      system.step state action = some after → Invariant after)
    (own : ∀ state action after, Invariant state → Own action = true →
      system.step state action = some after → measure after ≤ measure state - 1)
    (others : ∀ state action after, Invariant state → Own action = false →
      system.step state action = some after → measure after ≤ measure state)
    {actions : List Action} {state final : State}
    (executed : system.execute state actions = some final) (invariant : Invariant state) :
    measure final ≤ measure state - actions.countP Own := by
  induction actions generalizing state with
  | nil =>
      cases executed
      exact Nat.le_refl _
  | cons action actions induction =>
      rcases execute_cons executed with ⟨after, stepped, rest⟩
      have onward := induction rest (preserved state action after invariant stepped)
      rw [List.countP_cons]
      cases isOwn : Own action with
      | true =>
          have nearer := own state action after invariant isOwn stepped
          rw [if_pos rfl]
          omega
      | false =>
          have noFarther := others state action after invariant isOwn stepped
          rw [if_neg (by decide)]
          omega

end TransitionSystem

end GamZ.Transition
