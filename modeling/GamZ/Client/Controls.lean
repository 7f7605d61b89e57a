import GamZ.Client.HalfSweep
import GamZ.Client.Panel
import GamZ.Foundation.Transition

/-! # The control variables over a run

The panel moves `warn_line` and `up_down_pwm`, `radar_process` moves `side_pwm`, and the
two PWM processes wait as long as they find there. Whatever the order of their steps, the
variables stay in their ranges and no wait is out of bounds. -/

namespace GamZ.Client

open Transition TransitionSystem

/-! ## The processes -/

inductive TurnPoint
  /-- `*side_pwm = 500;` in front of the loop -/
  | entering
  /-- `*side_pwm = 480;` at the start of a cycle -/
  | cycleStart
  /-- The measurements left of a half-sweep, each of which turns the servo. -/
  | measuring (direction : Direction) (remaining : List Bearing)
deriving DecidableEq, Repr

/-- A PWM process: `usleep` of the high time, then of the low time. -/
inductive PulsePoint
  /-- `if(*up_down_flag)` -/
  | polling
  | high (left : Nat)
  | low (left : Nat)
deriving DecidableEq, Repr

/-- The panel, the servo variable and the PWM processes. The times handed to `usleep`
are kept as history. -/
structure ControlState where
  panel : Panel
  sidePwm : Int
  turnPoint : TurnPoint
  upDown : PulsePoint
  rightLeft : PulsePoint
  sleeps : List Int

/-- `main` has set the shared variables. -/
def ControlState.initial : ControlState where
  panel := .initial
  sidePwm := 0
  turnPoint := .entering
  upDown := .polling
  rightLeft := .high 0
  sleeps := []

/-- A step of `radar_process`, as far as it concerns `side_pwm`. -/
def ControlState.radarTurn (state : ControlState) : ControlState :=
  match state.turnPoint with
  | .entering => { state with sidePwm := 500, turnPoint := .cycleStart }
  | .cycleStart =>
      { state with sidePwm := 480, turnPoint := .measuring .forward Direction.forward.bearings }
  | .measuring direction (_ :: remaining) =>
      { state with
        sidePwm := state.sidePwm + direction.turn
        turnPoint := .measuring direction remaining }
  | .measuring .forward [] =>
      { state with turnPoint := .measuring .back Direction.back.bearings }
  | .measuring .back [] => { state with turnPoint := .cycleStart }

/-- A step of `pwm_updown_process`: 200 pulses for each time it finds the flag set. -/
def ControlState.pwmUpdown (state : ControlState) : ControlState :=
  match state.upDown with
  | .polling => { state with upDown := if state.panel.upDownFlag then .high 199 else .polling }
  | .high left =>
      { state with sleeps := state.sleeps ++ [state.panel.upDownPwm], upDown := .low left }
  | .low left =>
      { state with
        sleeps := state.sleeps ++ [20000 - state.panel.upDownPwm]
        upDown := if left = 0 then .polling else .high (left - 1) }

/-- A step of `pwm_right_left_process`, which does not count its pulses. -/
def ControlState.pwmRightLeft (state : ControlState) : ControlState :=
  match state.rightLeft with
  | .polling => { state with rightLeft := .high 0 }
  | .high left =>
      { state with sleeps := state.sleeps ++ [state.sidePwm], rightLeft := .low left }
  | .low left =>
      { state with sleeps := state.sleeps ++ [20000 - state.sidePwm], rightLeft := .high left }

/-- The process that takes the next step, with the touch or the switches it finds. -/
inductive ControlAction
  | set (store : TouchStore)
  | fpga (switches : Switches)
  | radar
  | upDown
  | rightLeft

/-- The client's controls. A process that `SIGINT` has stopped is one that takes no more
steps. -/
def controls : TransitionSystem ControlState ControlAction where
  Initial state := state = .initial
  step state
    | .set store => some { state with panel := state.panel.store store }
    | .fpga switches => some { state with panel := state.panel.fpgaProcess switches }
    | .radar => some state.radarTurn
    | .upDown => some state.pwmUpdown
    | .rightLeft => some state.pwmRightLeft

/-! ## Ranges -/

/-- The panel's variables are on their scales. -/
structure Panel.InRange (panel : Panel) : Prop where
  warnLine : 10 ∣ panel.settings.warnLine ∧ 10 ≤ panel.settings.warnLine ∧
    panel.settings.warnLine ≤ 250
  upDownPwm : 50 ∣ panel.upDownPwm ∧ 1400 ≤ panel.upDownPwm ∧ panel.upDownPwm ≤ 2200

theorem Panel.InRange.fpgaProcess {panel : Panel} (inRange : panel.InRange)
    (switches : Switches) : (panel.fpgaProcess switches).InRange := by
  rcases inRange with ⟨⟨tens, low, high⟩, ⟨fifties, bottom, top⟩⟩
  constructor
  · rcases panel.fpgaProcess_warnLine switches with same | ⟨room, up⟩ | ⟨room, down⟩ <;> omega
  · rcases panel.fpgaProcess_upDownPwm switches with same | ⟨room, up⟩ | ⟨room, down⟩ <;> omega

theorem Panel.InRange.store {panel : Panel} (inRange : panel.InRange) (store : TouchStore) :
    (panel.store store).InRange := by
  cases store <;> exact ⟨inRange.warnLine, inRange.upDownPwm⟩

/-- Where the servo stands: thirty for each measurement made on the way there and for
each one left on the way back. -/
def ServoAt (sidePwm : Int) : TurnPoint → Prop
  | .entering => sidePwm = 0
  | .cycleStart => sidePwm = 500 ∨ sidePwm = 480
  | .measuring .forward remaining =>
      remaining.length ≤ 61 ∧ sidePwm = 480 + 30 * (61 - remaining.length)
  | .measuring .back remaining =>
      remaining.length ≤ 61 ∧ sidePwm = 480 + 30 * remaining.length

theorem ServoAt.bounds {sidePwm : Int} {point : TurnPoint} (servoAt : ServoAt sidePwm point) :
    (sidePwm = 0 ∧ point = .entering) ∨ (480 ≤ sidePwm ∧ sidePwm ≤ 2310) := by
  cases point with
  | entering => exact .inl ⟨servoAt, rfl⟩
  | cycleStart =>
      rcases servoAt with first | later <;> omega
  | measuring direction remaining =>
      cases direction <;> rcases servoAt with ⟨short, position⟩ <;> omega

/-- Every measurement of a half-sweep turns the servo once, so that the way back undoes
the way there. -/
theorem ServoAt.radarTurn {state : ControlState} (servoAt : ServoAt state.sidePwm state.turnPoint) :
    ServoAt state.radarTurn.sidePwm state.radarTurn.turnPoint := by
  unfold ControlState.radarTurn
  split <;> rename_i isPoint <;> rw [isPoint] at servoAt
  · exact .inl rfl
  · simp [ServoAt]
  · rename_i direction bearing remaining
    cases direction <;> rcases servoAt with ⟨short, position⟩ <;>
      simp only [List.length_cons] at short position <;>
      simp only [ServoAt, Direction.turn] <;> omega
  · rcases servoAt with ⟨short, position⟩
    simp only [ServoAt, Direction.length_bearings]
    simp only [List.length_nil] at position
    omega
  · rcases servoAt with ⟨short, position⟩
    simp only [List.length_nil] at position
    exact .inr (by simpa using position)

/-- A time that can be handed to `usleep`. -/
def IsSleep (time : Int) : Prop := 0 ≤ time ∧ time ≤ 20000

structure SafeControls (state : ControlState) : Prop where
  panel : state.panel.InRange
  servoAt : ServoAt state.sidePwm state.turnPoint
  sleeps : ∀ time ∈ state.sleeps, IsSleep time

theorem isSleep_append {sleeps : List Int} (safe : ∀ time ∈ sleeps, IsSleep time) {next : Int}
    (isSleep : IsSleep next) : ∀ time ∈ sleeps ++ [next], IsSleep time := by
  intro time member
  rcases List.mem_append.mp member with earlier | last
  · exact safe time earlier
  · rw [List.mem_singleton.mp last]
    exact isSleep

theorem SafeControls.upDown {state : ControlState} (safe : SafeControls state) :
    SafeControls state.pwmUpdown := by
  have range := safe.panel.upDownPwm
  unfold ControlState.pwmUpdown
  split
  · exact ⟨safe.panel, safe.servoAt, safe.sleeps⟩
  · refine ⟨safe.panel, safe.servoAt, isSleep_append safe.sleeps ?_⟩
    constructor <;> omega
  · refine ⟨safe.panel, safe.servoAt, isSleep_append safe.sleeps ?_⟩
    constructor <;> omega

theorem SafeControls.rightLeft {state : ControlState} (safe : SafeControls state) :
    SafeControls state.pwmRightLeft := by
  have range := safe.servoAt.bounds
  unfold ControlState.pwmRightLeft
  split
  · exact ⟨safe.panel, safe.servoAt, safe.sleeps⟩
  · refine ⟨safe.panel, safe.servoAt, isSleep_append safe.sleeps ?_⟩
    constructor <;> omega
  · refine ⟨safe.panel, safe.servoAt, isSleep_append safe.sleeps ?_⟩
    constructor <;> omega

theorem radarTurn_panel (state : ControlState) :
    state.radarTurn.panel = state.panel ∧ state.radarTurn.sleeps = state.sleeps := by
  unfold ControlState.radarTurn
  split <;> exact ⟨rfl, rfl⟩

theorem SafeControls.step {state after : ControlState} {action : ControlAction}
    (safe : SafeControls state) (stepped : controls.step state action = some after) :
    SafeControls after := by
  cases action <;> cases stepped
  case set store => exact ⟨safe.panel.store store, safe.servoAt, safe.sleeps⟩
  case fpga switches => exact ⟨safe.panel.fpgaProcess switches, safe.servoAt, safe.sleeps⟩
  case radar =>
    rcases radarTurn_panel state with ⟨samePanel, sameSleeps⟩
    constructor
    · rw [samePanel]
      exact safe.panel
    · exact safe.servoAt.radarTurn
    · rw [sameSleeps]
      exact safe.sleeps
  case upDown => exact safe.upDown
  case rightLeft => exact safe.rightLeft

theorem safeControls_initial : SafeControls .initial where
  panel := ⟨by decide, by decide⟩
  servoAt := rfl
  sleeps := by simp [ControlState.initial]

theorem safeControls_of_run {actions : List ControlAction} {state : ControlState}
    (run : controls.Run actions state) : SafeControls state := by
  apply RunWhere.invariant (fun _ state => SafeControls state) _ _ run
  · intro state initial
    rw [initial]
    exact safeControls_initial
  · intro _ _ _ _ safe _ stepped
    exact safe.step stepped

/-- The control variables are in their ranges, the servo is back where it started when
a cycle ends, and no wait was out of bounds. -/
structure ControlsInRange (state : ControlState) : Prop where
  warnLine : 10 ∣ state.panel.settings.warnLine ∧ 10 ≤ state.panel.settings.warnLine ∧
    state.panel.settings.warnLine ≤ 250
  upDownPwm : 50 ∣ state.panel.upDownPwm ∧ 1400 ≤ state.panel.upDownPwm ∧
    state.panel.upDownPwm ≤ 2200
  sidePwm : state.turnPoint ≠ .entering → 480 ≤ state.sidePwm ∧ state.sidePwm ≤ 2310
  cycleEnd : state.turnPoint = .measuring .back [] → state.sidePwm = 480
  sleeps : ∀ time ∈ state.sleeps, 0 ≤ time ∧ time ≤ 20000

theorem controls_in_range {actions : List ControlAction} {state : ControlState}
    (run : controls.Run actions state) : ControlsInRange state := by
  have safe := safeControls_of_run run
  refine ⟨safe.panel.warnLine, safe.panel.upDownPwm, ?_, ?_, safe.sleeps⟩
  · intro entered
    rcases safe.servoAt.bounds with ⟨-, isEntering⟩ | bounds
    · exact absurd isEntering entered
    · exact bounds
  · intro ended
    have servoAt := safe.servoAt
    rw [ended] at servoAt
    simpa using servoAt.2

/-- A whole cycle, then a pulse of the turned servo. -/
def cycleThenPulse : List ControlAction :=
  List.replicate 125 .radar ++ [.rightLeft, .rightLeft]

theorem controls_in_range_after_cycle :
    ∃ state, controls.Run cycleThenPulse state ∧ state.sleeps = [480, 19520] ∧
      ControlsInRange state := by
  have executed : (controls.execute .initial cycleThenPulse).any
      (fun state => decide (state.sleeps = [480, 19520])) = true := by
    decide +kernel
  rcases exists_run _ rfl executed with ⟨state, run, slept⟩
  exact ⟨state, run, of_decide_eq_true slept, controls_in_range run⟩

end GamZ.Client
