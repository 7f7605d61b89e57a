import GamZ.Foundation.Transition

/-! # Reaching a goal with some of the actions

Some of the processes of a system can bring it to a goal by themselves. A measure that
each of their steps makes smaller shows it. -/

namespace GamZ.Transition

namespace TransitionSystem

variable {State Action : Type*}

/-- Helpful actions that meet the condition lead from the state to the goal. -/
inductive LeadsTo (system : TransitionSystem State Action) (condition : State → Action → Prop)
    (Helps : Action → Prop) (Goal : State → Prop) : State → Prop
  | reached {state : State} : Goal state → LeadsTo system condition Helps Goal state
  | step {state after : State} (action : Action) :
      Helps action → condition state action → system.step state action = some after →
      LeadsTo system condition Helps Goal after → LeadsTo system condition Helps Goal state

variable {system : TransitionSystem State Action} {condition : State → Action → Prop}
  {Helps : Action → Prop} {Goal Further : State → Prop}

theorem LeadsTo.trans {state : State} (leads : system.LeadsTo condition Helps Goal state)
    (onward : ∀ state, Goal state → system.LeadsTo condition Helps Further state) :
    system.LeadsTo condition Helps Further state := by
  induction leads with
  | reached goal => exact onward _ goal
  | step action helps meets stepped _ induction => exact .step action helps meets stepped induction

/-- If an invariant leaves room for a step towards the goal until it is reached, the goal
is reached. -/
theorem LeadsTo.of_measure (Invariant : State → Prop) (measure : State → Nat)
    (progress : ∀ state, Invariant state → Goal state ∨ ∃ action after, Helps action ∧
      condition state action ∧ system.step state action = some after ∧ Invariant after ∧
        measure after < measure state)
    {state : State} (invariant : Invariant state) :
    system.LeadsTo condition Helps Goal state := by
  induction bound : measure state using Nat.strongRecOn generalizing state with
  | _ bound induction =>
      rcases progress state invariant with goal | ⟨action, after, helps, meets, stepped, kept, less⟩
      · exact .reached goal
      · subst bound
        exact .step action helps meets stepped (induction _ less kept rfl)

/-- The same where several steps are needed to make the measure smaller. -/
theorem LeadsTo.of_rounds (Invariant : State → Prop) (measure : State → Nat)
    (round : ∀ state, Invariant state → system.LeadsTo condition Helps
      (fun after => Goal after ∨ Invariant after ∧ measure after < measure state) state)
    {state : State} (invariant : Invariant state) :
    system.LeadsTo condition Helps Goal state := by
  induction bound : measure state using Nat.strongRecOn generalizing state with
  | _ bound induction =>
      subst bound
      apply (round state invariant).trans
      intro after reached
      rcases reached with goal | ⟨kept, less⟩
      · exact .reached goal
      · exact induction _ less kept rfl

/-- What the helpful steps preserve still holds at the goal. -/
theorem LeadsTo.keep (Invariant : State → Prop)
    (preserved : ∀ state action after, Helps action → Invariant state →
      system.step state action = some after → Invariant after)
    {state : State} (leads : system.LeadsTo condition Helps Goal state)
    (invariant : Invariant state) :
    system.LeadsTo condition Helps (fun after => Goal after ∧ Invariant after) state := by
  induction leads with
  | reached goal => exact .reached ⟨goal, invariant⟩
  | step action helps meets stepped _ induction =>
      exact .step action helps meets stepped (induction (preserved _ _ _ helps invariant stepped))

/-- The helpful actions prolong any run so that it ends in the goal. -/
theorem LeadsTo.exists_run {state : State} (leads : system.LeadsTo condition Helps Goal state) :
    ∀ {actions : List Action}, system.RunWhere condition actions state →
      ∃ more final, (∀ action ∈ more, Helps action) ∧
        system.RunWhere condition (actions ++ more) final ∧ Goal final := by
  induction leads with
  | reached goal =>
      intro actions run
      exact ⟨[], _, by simp, by simpa using run, goal⟩
  | step action helps meets stepped _ induction =>
      intro actions run
      rcases induction (run.next action meets stepped) with ⟨more, final, allHelp, longer, goal⟩
      refine ⟨action :: more, final, ?_, by simpa using longer, goal⟩
      intro other member
      rcases List.mem_cons.mp member with isFirst | isLater
      · exact isFirst ▸ helps
      · exact allHelp other isLater

end TransitionSystem

end GamZ.Transition
