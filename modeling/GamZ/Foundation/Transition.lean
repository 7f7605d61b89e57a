import Mathlib.Logic.Function.Basic

/-! # Labelled transition systems

A state machine is a guarded step function: an action that is not enabled has no
next state. Runs may be restricted to steps that meet a condition on the state
before the step. -/

namespace GamZ.Transition

variable {State Action : Type*}

structure TransitionSystem (State Action : Type*) where
  Initial : State → Prop
  step : State → Action → Option State

namespace TransitionSystem

variable (system : TransitionSystem State Action)

/-- The runs all of whose steps meet the condition, with their final state. -/
inductive RunWhere (condition : State → Action → Prop) : List Action → State → Prop
  | start {state : State} : system.Initial state → RunWhere condition [] state
  | next {actions : List Action} {state after : State} (action : Action) :
      RunWhere condition actions state → condition state action →
      system.step state action = some after → RunWhere condition (actions ++ [action]) after

abbrev Run : List Action → State → Prop :=
  system.RunWhere fun _ _ => True

/-- The runs that have a property in all their states, the last one included. -/
def RunThrough (Property : State → Prop) (actions : List Action) (state : State) : Prop :=
  system.RunWhere (fun state _ => Property state) actions state ∧ Property state

/-- The state after a list of actions, if all of them are enabled and meet the
condition. -/
def executeWhere (condition : State → Action → Prop)
    [∀ state action, Decidable (condition state action)] (state : State) (actions : List Action) :
    Option State :=
  actions.foldlM
    (fun state action => if condition state action then system.step state action else none) state

def execute (state : State) (actions : List Action) : Option State :=
  actions.foldlM system.step state

theorem execute_concat (state : State) (actions : List Action) (action : Action) :
    system.execute state (actions ++ [action]) =
      (system.execute state actions).bind fun after => system.step after action := by
  rw [execute, execute, List.foldlM_append]
  cases List.foldlM system.step state actions <;> simp

variable {system} {condition : State → Action → Prop}

/-- Where all actions are enabled, so are the first of them. -/
theorem exists_execute_of_isPrefix {first actions : List Action} (isPrefix : first <+: actions)
    {state final : State} (executed : system.execute state actions = some final) :
    ∃ middle, system.execute state first = some middle := by
  rcases isPrefix with ⟨rest, whole⟩
  rw [← whole, execute, List.foldlM_append] at executed
  cases before : system.execute state first with
  | none =>
      rw [execute] at before
      rw [before] at executed
      cases executed
  | some middle => exact ⟨middle, rfl⟩

/-- What holds at the start and is preserved by every step that meets the
condition holds after every such run. -/
theorem RunWhere.invariant (Invariant : List Action → State → Prop)
    (atStart : ∀ state, system.Initial state → Invariant [] state)
    (preserved : ∀ actions state action after, Invariant actions state →
      condition state action → system.step state action = some after →
      Invariant (actions ++ [action]) after)
    {actions : List Action} {state : State} (run : system.RunWhere condition actions state) :
    Invariant actions state := by
  induction run with
  | start initial => exact atStart _ initial
  | next action _ meets stepped induction => exact preserved _ _ _ _ induction meets stepped

/-- What every restricted run leads to holds in all states of such runs. -/
theorem RunWhere.through {Property : State → Prop}
    (reached : ∀ actions state, system.RunWhere condition actions state → Property state)
    {actions : List Action} {state : State} (run : system.RunWhere condition actions state) :
    system.RunThrough Property actions state := by
  induction run with
  | start initial => exact ⟨.start initial, reached _ _ (.start initial)⟩
  | next action earlier meets stepped induction =>
      exact ⟨induction.1.next action induction.2 stepped,
        reached _ _ (earlier.next action meets stepped)⟩

/-- A run whose steps lead out of the property unless they meet the condition. -/
theorem RunThrough.runWhere {Property : State → Prop}
    (needed : ∀ actions state action after, system.RunWhere condition actions state →
      system.step state action = some after → Property after → condition state action)
    {actions : List Action} {state : State} (through : system.RunThrough Property actions state) :
    system.RunWhere condition actions state := by
  rcases through with ⟨run, last⟩
  induction run with
  | start initial => exact .start initial
  | next action _ meets stepped induction =>
      have earlier := induction meets
      exact earlier.next action (needed _ _ _ _ earlier stepped last) stepped

theorem RunWhere.extend [∀ state action, Decidable (condition state action)]
    {before actions : List Action} {state final : State}
    (run : system.RunWhere condition before state)
    (executed : system.executeWhere condition state actions = some final) :
    system.RunWhere condition (before ++ actions) final := by
  induction actions generalizing before state with
  | nil =>
      cases executed
      simpa using run
  | cons action actions induction =>
      rw [executeWhere, List.foldlM_cons] at executed
      by_cases meets : condition state action
      · rw [if_pos meets] at executed
        cases stepped : system.step state action with
        | none =>
            rw [stepped] at executed
            cases executed
        | some after =>
            rw [stepped] at executed
            have extended := induction (run.next action meets stepped) executed
            simpa using extended
      · rw [if_neg meets] at executed
        cases executed

theorem runWhere_of_execute [∀ state action, Decidable (condition state action)]
    {actions : List Action} {state final : State} (initial : system.Initial state)
    (executed : system.executeWhere condition state actions = some final) :
    system.RunWhere condition actions final := by
  simpa using RunWhere.extend (.start initial) executed

theorem run_of_execute {actions : List Action} {state final : State}
    (initial : system.Initial state) (executed : system.execute state actions = some final) :
    system.Run actions final := by
  apply runWhere_of_execute initial
  simpa [executeWhere, execute] using executed

/-- Executing actions shows a run to a state that passes a test. -/
theorem exists_runWhere [∀ state action, Decidable (condition state action)]
    {actions : List Action} {state : State} (test : State → Bool)
    (initial : system.Initial state)
    (passes : (system.executeWhere condition state actions).any test = true) :
    ∃ final, system.RunWhere condition actions final ∧ test final = true := by
  cases executed : system.executeWhere condition state actions with
  | none =>
      rw [executed] at passes
      cases passes
  | some final =>
      rw [executed] at passes
      exact ⟨final, runWhere_of_execute initial executed, passes⟩

theorem exists_run {actions : List Action} {state : State} (test : State → Bool)
    (initial : system.Initial state)
    (passes : (system.execute state actions).any test = true) :
    ∃ final, system.Run actions final ∧ test final = true := by
  apply exists_runWhere test initial
  simpa [executeWhere, execute] using passes

end TransitionSystem

end GamZ.Transition
