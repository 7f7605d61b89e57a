import GamZ.Foundation.Transition

/-! # Simulation between transition systems

One system simulates into another when each of its steps either leaves the related
state alone or is a step of the other system there. Runs of the one then show runs of
the other. -/

namespace GamZ.Transition

namespace TransitionSystem

variable {State Action Image Event : Type*}

/-- The steps of the first system that meet its condition are steps of the second that
meet the condition there, or no steps at all. -/
structure Simulation (system : TransitionSystem State Action) (condition : State → Action → Prop)
    (other : TransitionSystem Image Event) (allowed : Image → Event → Prop)
    (Related : State → Image → Prop) : Prop where
  start : ∀ state, system.Initial state → ∃ image, other.Initial image ∧ Related state image
  step : ∀ state action after image, Related state image → condition state action →
    system.step state action = some after →
      Related after image ∨
        ∃ event next, allowed image event ∧ other.step image event = some next ∧
          Related after next

variable {system : TransitionSystem State Action} {condition : State → Action → Prop}
  {other : TransitionSystem Image Event} {allowed : Image → Event → Prop}
  {Related : State → Image → Prop}

/-- A run of the simulated system goes along with one of the other system. -/
theorem Simulation.run (simulation : Simulation system condition other allowed Related)
    {actions : List Action} {state : State} (run : system.RunWhere condition actions state) :
    ∃ events image, other.RunWhere allowed events image ∧ Related state image := by
  induction run with
  | start initial =>
      rcases simulation.start _ initial with ⟨image, begins, related⟩
      exact ⟨[], image, .start begins, related⟩
  | next action _ meets stepped induction =>
      rcases induction with ⟨events, image, run, related⟩
      rcases simulation.step _ _ _ _ related meets stepped with
        same | ⟨event, next, allowed, otherStep, relatedNext⟩
      · exact ⟨events, image, run, same⟩
      · exact ⟨events ++ [event], next, run.next event allowed otherStep, relatedNext⟩

/-- A part of the state that makes its own steps or none has runs of its own. -/
theorem RunWhere.project (project : State → Image)
    (start : ∀ state, system.Initial state → other.Initial (project state))
    (step : ∀ state action after, condition state action → system.step state action = some after →
      project after = project state ∨ ∃ event, allowed (project state) event ∧
        other.step (project state) event = some (project after))
    {actions : List Action} {state : State} (run : system.RunWhere condition actions state) :
    ∃ events, other.RunWhere allowed events (project state) := by
  have simulation : Simulation system condition other allowed
      fun state image => image = project state := by
    constructor
    · exact fun state initial => ⟨project state, start state initial, rfl⟩
    · intro state action after image related meets stepped
      subst related
      rcases step state action after meets stepped with same | ⟨event, allowed, otherStep⟩
      · exact .inl same.symm
      · exact .inr ⟨event, project after, allowed, otherStep, rfl⟩
  rcases simulation.run run with ⟨events, image, otherRun, related⟩
  subst related
  exact ⟨events, otherRun⟩

/-- A condition may be weakened. -/
theorem RunWhere.weaken {weaker : State → Action → Prop}
    (weakens : ∀ state action, condition state action → weaker state action)
    {actions : List Action} {state : State} (run : system.RunWhere condition actions state) :
    system.RunWhere weaker actions state := by
  induction run with
  | start initial => exact .start initial
  | next action _ meets stepped induction =>
      exact induction.next action (weakens _ _ meets) stepped

end TransitionSystem

end GamZ.Transition
