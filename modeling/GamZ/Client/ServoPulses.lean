import GamZ.Client.Controls
import GamZ.Foundation.Simulation
import GamZ.Foundation.Stretch

/-! # The pulses of the servos

A PWM process raises and lowers the pin of its servo through the `read` of the pin's
driver and waits in between. It looks at its variable once for the high and once for the
low time, and `pwm_updown_process` only starts when it finds `up_down_flag` set, which
`fpga_process` clears again after 50 ms. -/

namespace GamZ.Client

open CString Transition TransitionSystem

/-! ## The pins -/

/-- `ext_sensor_read`, the same in the drivers of both pins. -/
def extSensorRead (buf : Byte × Byte) : Bool :=
  if buf.1 = 1 then true else false

/-- A wait, with the level of the pin. -/
structure Span where
  level : Bool
  time : Int
deriving DecidableEq, Repr

/-- A pin, with the waits since its process began as history. -/
structure Pin where
  level : Bool
  spans : List Span

/-- `gpio_direction_output(GPIO_DATA,0)` -/
def Pin.initial : Pin where
  level := false
  spans := []

def Pin.read (pin : Pin) (buf : Byte × Byte) : Pin :=
  { pin with level := extSensorRead buf }

def Pin.usleep (pin : Pin) (time : Int) : Pin :=
  { pin with spans := pin.spans ++ [⟨pin.level, time⟩] }

/-- A step of a PWM process at its pin. -/
def Pin.pulse (pin : Pin) (pwm : Int) : PulsePoint → Pin
  | .polling => pin
  | .high _ => (pin.read (1, 0)).usleep pwm
  | .low _ => (pin.read (0, 0)).usleep (20000 - pwm)

/-- The controls and the pins. How often `pwm_updown_process` has stepped since
`up_down_flag` was last raised is kept as history. -/
structure Servos where
  controls : ControlState
  upDownPin : Pin
  rightLeftPin : Pin
  sinceRaised : Nat

def Servos.initial : Servos where
  controls := .initial
  upDownPin := .initial
  rightLeftPin := .initial
  sinceRaised := 0

/-- The servos after a step that leads to the given controls. -/
def Servos.next (state : Servos) (controls : ControlState) : ControlAction → Servos
  | .set _ | .radar => { state with controls := controls }
  | .fpga _ =>
      { state with
        controls := controls
        sinceRaised :=
          match state.controls.panel.point with
          | .flagging => 0
          | _ => state.sinceRaised }
  | .upDown =>
      { state with
        controls := controls
        upDownPin :=
          state.upDownPin.pulse state.controls.panel.upDownPwm state.controls.upDown
        sinceRaised := state.sinceRaised + 1 }
  | .rightLeft =>
      { state with
        controls := controls
        rightLeftPin := state.rightLeftPin.pulse state.controls.sidePwm state.controls.rightLeft }

def servos : TransitionSystem Servos ControlAction where
  Initial state := state = .initial
  step state action :=
    (controls.step state.controls action).map fun controls => state.next controls action

theorem servos_step {state after : Servos} {action : ControlAction}
    (stepped : servos.step state action = some after) :
    ∃ next, controls.step state.controls action = some next ∧ after = state.next next action := by
  rcases Option.map_eq_some_iff.mp stepped with ⟨next, inner, isNext⟩
  exact ⟨next, inner, isNext.symm⟩

@[simp] theorem Servos.next_controls (state : Servos) (controls : ControlState)
    (action : ControlAction) : (state.next controls action).controls = controls := by
  cases action <;> rfl

theorem controls_of_servos {condition : Servos → ControlAction → Prop}
    {actions : List ControlAction} {state : Servos}
    (run : servos.RunWhere condition actions state) :
    ∃ events, controls.Run events state.controls := by
  apply run.project Servos.controls
  · intro state initial
    rw [initial]
    rfl
  · intro state action after _ stepped
    rcases servos_step stepped with ⟨next, inner, isNext⟩
    rw [isNext, Servos.next_controls]
    exact .inr ⟨action, trivial, inner⟩

/-! ## Shape of the signals -/

/-- Whole pulses, or whole pulses and the high time of the next one. The level is the one
the pin comes to next. -/
inductive IsPulses (Time : Int → Prop) : Bool → List Span → Prop
  | none : IsPulses Time true []
  | raised {spans : List Span} {time : Int} :
      IsPulses Time true spans → Time time → IsPulses Time false (spans ++ [⟨true, time⟩])
  | lowered {spans : List Span} {time : Int} :
      IsPulses Time false spans → Time time →
        IsPulses Time true (spans ++ [⟨false, 20000 - time⟩])

def PulsePoint.nextLevel : PulsePoint → Bool
  | .polling | .high _ => true
  | .low _ => false

/-- The halves of pulses that are owed before the process looks at its flag again. -/
def PulsePoint.owed : PulsePoint → Nat
  | .polling => 0
  | .high left => 2 * left + 2
  | .low left => 2 * left + 1

/-- The positions of the vertical servo. -/
def UpDownTime (time : Int) : Prop := 50 ∣ time ∧ 1400 ≤ time ∧ time ≤ 2200

/-- The positions of the horizontal servo: none in front of `*side_pwm = 500;`, then one
for each measurement of a half-sweep. -/
def SideTime (time : Int) : Prop :=
  time = 0 ∨ time = 500 ∨ ∃ turns : Nat, turns ≤ 61 ∧ time = 480 + 30 * turns

theorem ServoAt.sideTime {sidePwm : Int} {point : TurnPoint} (servoAt : ServoAt sidePwm point) :
    SideTime sidePwm := by
  cases point with
  | entering => exact .inl servoAt
  | cycleStart =>
      rcases servoAt with first | later
      · exact .inr (.inl first)
      · exact .inr (.inr ⟨0, by omega, by omega⟩)
  | measuring direction remaining =>
      cases direction <;> rcases servoAt with ⟨short, position⟩
      · exact .inr (.inr ⟨61 - remaining.length, by omega, by omega⟩)
      · exact .inr (.inr ⟨remaining.length, short, position⟩)

/-- How long a level lasts while the variable stays as it is. -/
def heldTime (pwm : Int) (level : Bool) : Int :=
  if level then pwm else 20000 - pwm

/-- All the pin does from the one state to the other is at this value of the variable. -/
def HeldAt (pwm : Int) (before after : Pin) : Prop :=
  ∃ held, after.spans = before.spans ++ held ∧
    ∀ span ∈ held, span.time = heldTime pwm span.level

theorem heldAt_refl (pwm : Int) (pin : Pin) : HeldAt pwm pin pin :=
  ⟨[], (List.append_nil _).symm, fun _ member => nomatch member⟩

theorem HeldAt.pulse {pwm : Int} {before pin : Pin} (held : HeldAt pwm before pin)
    (point : PulsePoint) : HeldAt pwm before (pin.pulse pwm point) := by
  rcases held with ⟨spans, appended, times⟩
  have onward : ∀ span : Span, span.time = heldTime pwm span.level →
      ∀ other ∈ spans ++ [span], other.time = heldTime pwm other.level := by
    intro span time other member
    rcases List.mem_append.mp member with earlier | last
    · exact times other earlier
    · rw [List.mem_singleton.mp last]
      exact time
  cases point with
  | polling => exact ⟨spans, appended, times⟩
  | high left =>
      refine ⟨spans ++ [⟨true, pwm⟩], ?_, onward _ rfl⟩
      rw [← List.append_assoc, ← appended]
      rfl
  | low left =>
      refine ⟨spans ++ [⟨false, 20000 - pwm⟩], ?_, onward _ rfl⟩
      rw [← List.append_assoc, ← appended]
      rfl

/-- The pulses of both servos, over whole runs. -/
structure InPulses (state : Servos) : Prop where
  upDown : IsPulses UpDownTime state.controls.upDown.nextLevel state.upDownPin.spans
  upDownCount : 400 ∣ state.upDownPin.spans.length + state.controls.upDown.owed
  rightLeft : IsPulses SideTime state.controls.rightLeft.nextLevel state.rightLeftPin.spans

theorem inPulses_initial : InPulses .initial where
  upDown := .none
  upDownCount := ⟨0, rfl⟩
  rightLeft := .none

theorem InPulses.upDownStep {state : Servos} (pulses : InPulses state)
    (range : UpDownTime state.controls.panel.upDownPwm) :
    InPulses (state.next state.controls.pwmUpdown .upDown) := by
  have upDown := pulses.upDown
  have count := pulses.upDownCount
  cases point : state.controls.upDown with
  | polling =>
      rw [point] at upDown count
      refine ⟨?_, ?_, ?_⟩ <;> simp only [Servos.next, ControlState.pwmUpdown, point, Pin.pulse]
      · split_ifs <;> exact upDown
      · split_ifs <;> simp only [PulsePoint.owed] at count ⊢ <;> omega
      · exact pulses.rightLeft
  | high left =>
      rw [point] at upDown count
      refine ⟨?_, ?_, ?_⟩ <;> simp only [Servos.next, ControlState.pwmUpdown, point, Pin.pulse]
      · exact .raised upDown range
      · simp only [Pin.usleep, Pin.read, List.length_append, List.length_singleton,
          PulsePoint.owed] at count ⊢
        omega
      · exact pulses.rightLeft
  | low left =>
      rw [point] at upDown count
      refine ⟨?_, ?_, ?_⟩ <;> simp only [Servos.next, ControlState.pwmUpdown, point, Pin.pulse]
      · split_ifs <;> exact .lowered upDown range
      · split_ifs <;> simp only [Pin.usleep, Pin.read, List.length_append, List.length_singleton,
          PulsePoint.owed] at count ⊢ <;> omega
      · exact pulses.rightLeft

theorem InPulses.rightLeftStep {state : Servos} (pulses : InPulses state)
    (range : SideTime state.controls.sidePwm) :
    InPulses (state.next state.controls.pwmRightLeft .rightLeft) := by
  have rightLeft := pulses.rightLeft
  cases point : state.controls.rightLeft <;> rw [point] at rightLeft <;>
    refine ⟨?_, ?_, ?_⟩ <;>
    simp only [Servos.next, ControlState.pwmRightLeft, point, Pin.pulse]
  case polling.refine_3 => exact rightLeft
  case high.refine_3 => exact .raised rightLeft range
  case low.refine_3 => exact .lowered rightLeft range
  all_goals first | exact pulses.upDown | exact pulses.upDownCount

theorem radarTurn_pulsePoints (state : ControlState) :
    state.radarTurn.upDown = state.upDown ∧ state.radarTurn.rightLeft = state.rightLeft := by
  unfold ControlState.radarTurn
  split <;> exact ⟨rfl, rfl⟩

theorem InPulses.step {state after : Servos} {action : ControlAction} (pulses : InPulses state)
    (safe : SafeControls state.controls) (stepped : servos.step state action = some after) :
    InPulses after := by
  rcases servos_step stepped with ⟨next, inner, isNext⟩
  subst isNext
  cases action <;> cases inner
  case set store => exact ⟨pulses.upDown, pulses.upDownCount, pulses.rightLeft⟩
  case fpga switches => exact ⟨pulses.upDown, pulses.upDownCount, pulses.rightLeft⟩
  case radar =>
    rcases radarTurn_pulsePoints state.controls with ⟨sameUpDown, sameRightLeft⟩
    constructor
    · simpa only [Servos.next, sameUpDown] using pulses.upDown
    · simpa only [Servos.next, sameUpDown] using pulses.upDownCount
    · simpa only [Servos.next, sameRightLeft] using pulses.rightLeft
  case upDown => exact pulses.upDownStep safe.panel.upDownPwm
  case rightLeft => exact pulses.rightLeftStep safe.servoAt.sideTime

theorem inPulses_of_run {condition : Servos → ControlAction → Prop}
    {actions : List ControlAction} {state : Servos}
    (run : servos.RunWhere condition actions state) : InPulses state := by
  induction run with
  | start initial =>
      rw [initial]
      exact inPulses_initial
  | next action earlier _ stepped pulses =>
      rcases controls_of_servos earlier with ⟨events, inner⟩
      exact pulses.step (safeControls_of_run inner) stepped

/-! ## Stretches in which a variable is left alone -/

theorem pwmUpdown_frame (state : ControlState) :
    state.pwmUpdown.panel = state.panel ∧ state.pwmUpdown.sidePwm = state.sidePwm := by
  unfold ControlState.pwmUpdown
  split <;> exact ⟨rfl, rfl⟩

theorem pwmRightLeft_frame (state : ControlState) :
    state.pwmRightLeft.panel = state.panel ∧ state.pwmRightLeft.sidePwm = state.sidePwm ∧
      state.pwmRightLeft.upDown = state.upDown := by
  unfold ControlState.pwmRightLeft
  split <;> exact ⟨rfl, rfl, rfl⟩

section Held

variable {state final : Servos} {quiet : List ControlAction}

/-- Nobody but `fpga_process` moves the vertical servo. -/
theorem upDown_held (noFpga : ∀ switches, .fpga switches ∉ quiet)
    (executed : servos.execute state quiet = some final) :
    HeldAt state.controls.panel.upDownPwm state.upDownPin final.upDownPin := by
  have held : final.controls.panel.upDownPwm = state.controls.panel.upDownPwm ∧
      HeldAt state.controls.panel.upDownPwm state.upDownPin final.upDownPin := by
    apply execute_invariant (fun action => ∀ switches, action ≠ .fpga switches)
      (fun after => after.controls.panel.upDownPwm = state.controls.panel.upDownPwm ∧
        HeldAt state.controls.panel.upDownPwm state.upDownPin after.upDownPin) ?_ ?_ executed
    · exact ⟨rfl, heldAt_refl _ _⟩
    · rintro before action after ⟨same, held⟩ allowed stepped
      rcases servos_step stepped with ⟨next, inner, isNext⟩
      subst isNext
      cases action <;> cases inner
      case set store => cases store <;> exact ⟨same, held⟩
      case fpga switches => exact absurd rfl (allowed switches)
      case radar =>
        refine ⟨?_, held⟩
        rw [Servos.next_controls, (radarTurn_panel before.controls).1, same]
      case upDown =>
        constructor
        · rw [Servos.next_controls, (pwmUpdown_frame before.controls).1, same]
        · simpa only [Servos.next, same] using held.pulse before.controls.upDown
      case rightLeft =>
        refine ⟨?_, held⟩
        rw [Servos.next_controls, (pwmRightLeft_frame before.controls).1, same]
    · intro action member switches isFpga
      subst isFpga
      exact noFpga switches member
  exact held.2

/-- Nobody but `radar_process` moves the horizontal servo. -/
theorem rightLeft_held (noRadar : .radar ∉ quiet)
    (executed : servos.execute state quiet = some final) :
    HeldAt state.controls.sidePwm state.rightLeftPin final.rightLeftPin := by
  have held : final.controls.sidePwm = state.controls.sidePwm ∧
      HeldAt state.controls.sidePwm state.rightLeftPin final.rightLeftPin := by
    apply execute_invariant (fun action => action ≠ .radar)
      (fun after => after.controls.sidePwm = state.controls.sidePwm ∧
        HeldAt state.controls.sidePwm state.rightLeftPin after.rightLeftPin) ?_ ?_ executed
    · exact ⟨rfl, heldAt_refl _ _⟩
    · rintro before action after ⟨same, held⟩ allowed stepped
      rcases servos_step stepped with ⟨next, inner, isNext⟩
      subst isNext
      cases action <;> cases inner
      case set store => exact ⟨same, held⟩
      case fpga switches => exact ⟨same, held⟩
      case radar => exact absurd rfl allowed
      case upDown =>
        refine ⟨?_, held⟩
        rw [Servos.next_controls, (pwmUpdown_frame before.controls).2, same]
      case rightLeft =>
        constructor
        · rw [Servos.next_controls, (pwmRightLeft_frame before.controls).2.1, same]
        · simpa only [Servos.next, same] using held.pulse before.controls.rightLeft
    · intro action member isRadar
      subst isRadar
      exact noRadar member
  exact held.2

end Held

/-- What the two servos are sent. -/
structure ServoSignals (state : Servos) : Prop where
  upDown : IsPulses UpDownTime state.controls.upDown.nextLevel state.upDownPin.spans
  rightLeft : IsPulses SideTime state.controls.rightLeft.nextLevel state.rightLeftPin.spans
  /-- 200 pulses for each time the flag was found set -/
  activations : state.controls.upDown = .polling → 400 ∣ state.upDownPin.spans.length
  /-- Two levels together last 20 ms as long as the variable is left alone. -/
  upDownHeld : ∀ quiet final, servos.execute state quiet = some final →
    (∀ switches, .fpga switches ∉ quiet) →
      HeldAt state.controls.panel.upDownPwm state.upDownPin final.upDownPin
  rightLeftHeld : ∀ quiet final, servos.execute state quiet = some final → .radar ∉ quiet →
    HeldAt state.controls.sidePwm state.rightLeftPin final.rightLeftPin

theorem servo_signals {actions : List ControlAction} {state : Servos}
    (run : servos.Run actions state) : ServoSignals state := by
  have pulses := inPulses_of_run run
  refine ⟨pulses.upDown, pulses.rightLeft, ?_, ?_, ?_⟩
  · intro atPolling
    have count := pulses.upDownCount
    rw [atPolling] at count
    exact count
  · exact fun quiet final executed noFpga => upDown_held noFpga executed
  · exact fun quiet final executed noRadar => rightLeft_held noRadar executed

/-- A pulse of each servo while the horizontal one is still on its way to the start. -/
def firstPulses : List ControlAction :=
  [.radar, .upDown, .upDown, .rightLeft, .radar, .rightLeft, .upDown]

theorem first_pulses_signals :
    ∃ state, servos.Run firstPulses state ∧
      state.upDownPin.spans = [⟨true, 1600⟩, ⟨false, 18400⟩] ∧
      state.rightLeftPin.spans = [⟨true, 500⟩, ⟨false, 19520⟩] ∧ ServoSignals state := by
  have executed : (servos.execute .initial firstPulses).any (fun state =>
      decide (state.upDownPin.spans = [⟨true, 1600⟩, ⟨false, 18400⟩] ∧
        state.rightLeftPin.spans = [⟨true, 500⟩, ⟨false, 19520⟩])) = true := by
    decide +kernel
  rcases exists_run _ rfl executed with ⟨state, run, spans⟩
  rcases of_decide_eq_true spans with ⟨upDown, rightLeft⟩
  exact ⟨state, run, upDown, rightLeft, servo_signals run⟩

/-! ## Following the switches -/

/-- `*up_down_flag = 0;` comes next. -/
def PanelPoint.isSettling : PanelPoint → Bool
  | .settling => true
  | _ => false

/-- `*up_down_flag = 1;` comes next. -/
def PanelPoint.isFlagging : PanelPoint → Bool
  | .flagging => true
  | _ => false

/-- `pwm_updown_process` takes two steps while the flag is set for 50 ms. Its waits last
18.6 ms at most. -/
def KeepsPace (state : Servos) : ControlAction → Prop
  | .fpga _ => state.controls.panel.point.isSettling = true → 2 ≤ state.sinceRaised
  | .set _ | .radar | .upDown | .rightLeft => True

instance (state : Servos) (action : ControlAction) : Decidable (KeepsPace state action) :=
  match action with
  | .fpga _ => inferInstanceAs
      (Decidable (state.controls.panel.point.isSettling = true → 2 ≤ state.sinceRaised))
  | .set _ | .radar | .upDown | .rightLeft => inferInstanceAs (Decidable True)

/-- The last pulse is of this position, or there has been no pulse and no switch. -/
def StandsAt (pwm : Int) (spans : List Span) : Prop :=
  (spans = [] ∧ pwm = 1600) ∨
    ∃ earlier, spans = earlier ++ [⟨true, pwm⟩, ⟨false, 20000 - pwm⟩]

/-- The process reads the variable again in front of its next test of the flag, or has
read it as it is. -/
def ReadsAgain (pwm : Int) (spans : List Span) : PulsePoint → Prop
  | .polling => StandsAt pwm spans
  | .low 0 => ∃ earlier, spans = earlier ++ [⟨true, pwm⟩]
  | .high _ | .low (_ + 1) => True

/-- Where the process is while the flag is set: after its second step it has left the
position from in front of the switch. -/
def Turns (panel : Panel) (point : PulsePoint) (spans : List Span) (since : Nat) : Prop :=
  match panel.point with
  | .flagging => True
  | .settling => panel.upDownFlag = true ∧
      (since = 0 ∨ since = 1 ∧ point = .polling ∨ ReadsAgain panel.upDownPwm spans point)
  | .starting => ReadsAgain panel.upDownPwm spans point
  | .scanning | .sounding _ | .switching _ | .polling | .testing _ _ _ | .waiting | .closed =>
      panel.upDownFlag = false ∧ ReadsAgain panel.upDownPwm spans point

section Turning

variable {panel : Panel} {point : PulsePoint} {spans : List Span} {since : Nat}

/-- The points of `pwm_updown_process`, with the flag as it finds it. -/
def PulsePoint.upDownNext (flag : Bool) : PulsePoint → PulsePoint
  | .polling => if flag then .high 199 else .polling
  | .high left => .low left
  | .low left => if left = 0 then .polling else .high (left - 1)

theorem pwmUpdown_upDown (state : ControlState) :
    state.pwmUpdown.upDown = state.upDown.upDownNext state.panel.upDownFlag := by
  unfold ControlState.pwmUpdown
  split <;> rename_i isPoint <;> rw [isPoint] <;> rfl

theorem ReadsAgain.pulse {pwm : Int} {pin : Pin} (reads : ReadsAgain pwm pin.spans point)
    (flag : Bool) :
    ReadsAgain pwm (pin.pulse pwm point).spans (point.upDownNext flag) := by
  match point, reads with
  | .polling, stands =>
      cases flag with
      | true => exact trivial
      | false => exact stands
  | .high 0, _ => exact ⟨pin.spans, rfl⟩
  | .high (_ + 1), _ => exact trivial
  | .low 0, ⟨earlier, isHigh⟩ =>
      refine .inr ⟨earlier, ?_⟩
      show pin.spans ++ [_] = _
      rw [isHigh, List.append_assoc]
      rfl
  | .low (_ + 1), _ => exact trivial

/-- Two steps under a set flag. -/
theorem Turns.pulse {pin : Pin} (turns : Turns panel point pin.spans since) :
    Turns panel (point.upDownNext panel.upDownFlag) (pin.pulse panel.upDownPwm point).spans
      (since + 1) := by
  unfold Turns at turns ⊢
  split at turns <;> rename_i isPoint
  · exact trivial
  · rcases turns with ⟨raised, entered | ⟨one, atPolling⟩ | reads⟩
    · refine ⟨raised, ?_⟩
      match point with
      | .polling =>
          rw [raised]
          exact .inr (.inr trivial)
      | .high 0 => exact .inr (.inr ⟨pin.spans, rfl⟩)
      | .high (_ + 1) => exact .inr (.inr trivial)
      | .low 0 => exact .inr (.inl ⟨by omega, rfl⟩)
      | .low (_ + 1) => exact .inr (.inr trivial)
    · rw [raised, atPolling]
      exact ⟨rfl, .inr (.inr trivial)⟩
    · exact ⟨raised, .inr (.inr (reads.pulse _))⟩
  · exact ReadsAgain.pulse turns _
  all_goals exact ⟨turns.1, turns.2.pulse _⟩

theorem Panel.act_upDown (panel : Panel) (button : TouchButton) (phase : Phase) :
    (panel.act button phase).upDownPwm = panel.upDownPwm ∧
      (panel.act button phase).upDownFlag = panel.upDownFlag := by
  cases phase <;> exact ⟨rfl, rfl⟩

theorem Turns.fpgaProcess (turns : Turns panel point spans since) (switches : Switches)
    (paced : panel.point.isSettling = true → 2 ≤ since) :
    Turns (panel.fpgaProcess switches) point spans
      (match panel.point with
        | .flagging => 0
        | _ => since) := by
  unfold Turns at turns
  unfold Panel.fpgaProcess
  split at turns <;> rename_i isPoint <;> simp only [isPoint]
  · exact ⟨rfl, .inl rfl⟩
  · rw [isPoint] at paced
    have two := paced rfl
    rcases turns.2 with entered | ⟨one, -⟩ | reads
    · omega
    · omega
    · exact ⟨rfl, reads⟩
  · exact ⟨rfl, turns⟩
  · exact turns
  · exact turns
  · split_ifs <;> first | exact trivial | exact turns
  · split_ifs <;> exact turns
  · rename_i phase buttons tests
    match buttons, tests with
    | [], _ => cases phase <;> exact turns
    | button :: _, [] =>
        rcases panel.act_upDown button phase with ⟨samePwm, sameFlag⟩
        dsimp only
        rw [Turns, panel.act_point, samePwm, sameFlag]
        cases phase <;> exact turns
    | button :: _, edge :: _ =>
        dsimp only
        split_ifs <;> exact turns
  · split_ifs <;> exact turns
  · rw [Turns, isPoint]
    exact turns

end Turning

/-- What the process owes to the switches. -/
def TurnsServo (state : Servos) : Prop :=
  Turns state.controls.panel state.controls.upDown state.upDownPin.spans state.sinceRaised

theorem TurnsServo.step {state after : Servos} {action : ControlAction} (turns : TurnsServo state)
    (paced : KeepsPace state action) (stepped : servos.step state action = some after) :
    TurnsServo after := by
  rcases servos_step stepped with ⟨next, inner, isNext⟩
  subst isNext
  unfold TurnsServo at turns ⊢
  rw [Servos.next_controls]
  cases action <;> cases inner
  case set store => cases store <;> exact turns
  case fpga switches => exact turns.fpgaProcess switches paced
  case radar =>
    rw [(radarTurn_panel state.controls).1, (radarTurn_pulsePoints state.controls).1]
    exact turns
  case upDown =>
    rw [(pwmUpdown_frame state.controls).1, pwmUpdown_upDown]
    exact turns.pulse
  case rightLeft =>
    rcases pwmRightLeft_frame state.controls with ⟨samePanel, -, samePoint⟩
    rw [samePanel, samePoint]
    exact turns

theorem turnsServo_of_run {actions : List ControlAction} {state : Servos}
    (run : servos.RunWhere KeepsPace actions state) : TurnsServo state := by
  apply run.invariant fun _ state => TurnsServo state
  · intro state initial
    rw [initial]
    exact .inl ⟨rfl, rfl⟩
  · exact fun _ _ _ _ turns paced stepped => turns.step paced stepped

/-- Between two activations the vertical servo has been turned to where the switches have
put it, if it was turned at all. -/
theorem servo_follows_switches {actions : List ControlAction} {state : Servos}
    (run : servos.RunWhere KeepsPace actions state)
    (idle : state.controls.upDown = .polling)
    (lowered : state.controls.panel.upDownFlag = false)
    (stored : state.controls.panel.point.isFlagging = false) :
    StandsAt state.controls.panel.upDownPwm state.upDownPin.spans := by
  have turns := turnsServo_of_run run
  rw [TurnsServo, idle] at turns
  unfold Turns at turns
  split at turns <;> rename_i isPoint
  · rw [isPoint] at stored
    cases stored
  · rw [lowered] at turns
    cases turns.1
  · exact turns
  all_goals exact turns.2

/-- The switch that raises the servo, pressed while `pwm_updown_process` is idle, and the
200 pulses that follow. -/
def raiseServo : List ControlAction :=
  List.replicate 4 (.fpga ⟨true, false, false⟩) ++ [.fpga ⟨true, false, false⟩] ++
    List.replicate 2 .upDown ++ [.fpga ⟨true, false, false⟩] ++ List.replicate 399 .upDown

theorem raised_servo_follows :
    ∃ state, servos.RunWhere KeepsPace raiseServo state ∧
      state.controls.panel.upDownPwm = 1650 ∧ state.upDownPin.spans.length = 400 ∧
      StandsAt state.controls.panel.upDownPwm state.upDownPin.spans := by
  have executed : (servos.executeWhere KeepsPace .initial raiseServo).any (fun state =>
      decide (state.controls.panel.upDownPwm = 1650 ∧ state.upDownPin.spans.length = 400 ∧
        state.controls.upDown = .polling ∧ state.controls.panel.upDownFlag = false) &&
      !state.controls.panel.point.isFlagging) = true := by
    decide +kernel
  rcases exists_runWhere _ rfl executed with ⟨state, run, tested⟩
  rcases Bool.and_eq_true_iff.mp tested with ⟨values, stored⟩
  rcases of_decide_eq_true values with ⟨raised, pulses, idle, lowered⟩
  exact ⟨state, run, raised, pulses,
    servo_follows_switches run idle lowered (by simpa using stored)⟩

end GamZ.Client
