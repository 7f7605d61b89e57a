import GamZ.Client.ExitSwitch
import GamZ.Client.SensorAlarms

/-! # The buzzer

`radar_process` raises `buz_flag` at the first distance below the warn line and clears it
when it hands the alarm over. `fpga_process` looks at the flag once in each turn of its loop
and then sounds the buzzer for 100 ms. -/

namespace GamZ.Client

open CString Transition TransitionSystem
open Driver (EchoEdge Timeval)

/-! ## The processes -/

/-- What a `write` of one byte leaves in the register of the buzzer. -/
def iomBuzzerWrite (value : Byte) : UInt16 :=
  (value &&& 0xF).toUInt16

theorem iomBuzzerWrite_on : iomBuzzerWrite 1 = 1 := by
  decide

inductive BuzzerPoint
  /-- `if(!mute && *buz_flag)` -/
  | testing
  /-- `buz = 1;` and `write(dev_buzzer,&buz,1);` -/
  | switchingOn
  /-- `buz = 0;` and `write(dev_buzzer,&buz,1);` after 100 ms -/
  | switchingOff
deriving DecidableEq, Repr

/-- The buttons of the touch screen that matter to the other processes. -/
def TouchButton.button : TouchButton → Button
  | .warnUp => .warnUp
  | .warnDown => .warnDown
  | .brighter | .dimmer | .mute => .none

/-- What a step of the panel is to the other processes. -/
def Panel.button (panel : Panel) : Button :=
  match panel.point with
  | .testing .release (button :: _) [] => button.button
  | .switching scanned =>
      if scanned.raise || scanned.lower then .none else if scanned.exit then .exit else .none
  | _ => .none

/-- The measuring client with its panel and the register of the buzzer. For each time that
the buzzer is sounded, the number of alarms raised so far is kept as history. -/
structure BuzzerState where
  measured : Measuring
  panel : Panel
  point : BuzzerPoint
  buzzer : Option UInt16
  sounded : List Nat

def BuzzerState.initial : BuzzerState where
  measured := .initial
  panel := .initial
  point := .testing
  buzzer := none
  sounded := []

/-- `!mute && *buz_flag` -/
def BuzzerState.Alerted (state : BuzzerState) : Prop :=
  state.panel.settings.mute = false ∧ state.measured.client.radar.buzFlag ≠ 0

instance (state : BuzzerState) : Decidable state.Alerted :=
  inferInstanceAs (Decidable (_ ∧ _))

section Steps

variable (state : BuzzerState) (switches : Switches)

/-- `warn_line` is one variable, and the exit switch leads to the logout. -/
def BuzzerState.panelStep : BuzzerState :=
  { state with
    measured := { state.measured with
      client := state.measured.client.fpgaStep state.panel.button }
    panel := state.panel.fpgaProcess switches }

def BuzzerState.fpgaProcess : BuzzerState :=
  match state.panel.point with
  | .sounding _ =>
      match state.point with
      | .testing =>
          if state.Alerted then
            { state with
              point := .switchingOn
              sounded := state.sounded ++ [state.measured.client.raised.length] }
          else state.panelStep switches
      | .switchingOn =>
          { state with buzzer := some (iomBuzzerWrite 1), point := .switchingOff }
      | .switchingOff =>
          { state.panelStep switches with
            buzzer := some (iomBuzzerWrite 0)
            point := .testing }
  | _ => state.panelStep switches

end Steps

/-- A step of the measuring client alone. -/
def BuzzerState.measure (xres : Nat) (state : BuzzerState) (event : MeasureAction) :
    Option BuzzerState :=
  ((measuring xres).step state.measured event).map fun measured =>
    { state with measured := measured }

inductive BuzzerAction
  | radar
  | echo (edge : EchoEdge) (now : Timeval)
  | sender (time : Fin 6 → Byte)
  | set (store : TouchStore)
  | fpga (switches : Switches)

def BuzzerAction.isFpga : BuzzerAction → Bool
  | .fpga _ => true
  | .radar | .echo _ _ | .sender _ | .set _ => false

def buzzing (xres : Nat) : TransitionSystem BuzzerState BuzzerAction where
  Initial state := state = .initial
  step state
    | .radar => state.measure xres .radar
    | .echo edge now => state.measure xres (.echo edge now)
    | .sender time => state.measure xres (.sender time)
    | .set store => some { state with panel := state.panel.store store }
    | .fpga switches => some (state.fpgaProcess switches)

/-- What a step can do. -/
inductive BuzzerMove (xres : Nat) (state : BuzzerState) : BuzzerState → BuzzerAction → Prop
  | measure {action : BuzzerAction} (event : MeasureAction) {measured : Measuring} :
      action.isFpga = false → (∀ button, event ≠ .fpga button) →
      (measuring xres).step state.measured event = some measured →
      BuzzerMove xres state { state with measured := measured } action
  | set (store : TouchStore) :
      BuzzerMove xres state { state with panel := state.panel.store store } (.set store)
  | panel (switches : Switches) :
      (∀ scanned, state.panel.point = .sounding scanned →
        state.point = .testing ∧ ¬ state.Alerted) →
      BuzzerMove xres state (state.panelStep switches) (.fpga switches)
  | sound (switches : Switches) {scanned : Switches} :
      state.panel.point = .sounding scanned → state.point = .testing → state.Alerted →
      BuzzerMove xres state { state with
        point := .switchingOn
        sounded := state.sounded ++ [state.measured.client.raised.length] } (.fpga switches)
  | switchOn (switches : Switches) {scanned : Switches} :
      state.panel.point = .sounding scanned → state.point = .switchingOn →
      BuzzerMove xres state { state with
        buzzer := some (iomBuzzerWrite 1)
        point := .switchingOff } (.fpga switches)
  | switchOff (switches : Switches) {scanned : Switches} :
      state.panel.point = .sounding scanned → state.point = .switchingOff →
      BuzzerMove xres state { state.panelStep switches with
        buzzer := some (iomBuzzerWrite 0)
        point := .testing } (.fpga switches)

section Moves

variable {xres : Nat} {state after : BuzzerState} {action : BuzzerAction}

theorem buzzerMove_of_measure (event : MeasureAction) (notFpga : action.isFpga = false)
    (other : ∀ button, event ≠ .fpga button) (isAfter : state.measure xres event = some after) :
    BuzzerMove xres state after action := by
  rcases Option.map_eq_some_iff.mp isAfter with ⟨measured, stepped, isAfter⟩
  subst isAfter
  exact .measure event notFpga other stepped

theorem buzzerMove_of_fpga (state : BuzzerState) (switches : Switches) :
    BuzzerMove xres state (state.fpgaProcess switches) (.fpga switches) := by
  cases panelPoint : state.panel.point with
  | sounding scanned =>
      cases point : state.point with
      | testing =>
          simp only [BuzzerState.fpgaProcess, panelPoint, point]
          by_cases alerted : state.Alerted
          · rw [if_pos alerted]
            exact .sound switches panelPoint point alerted
          · rw [if_neg alerted]
            exact .panel switches fun _ _ => ⟨point, alerted⟩
      | switchingOn =>
          simp only [BuzzerState.fpgaProcess, panelPoint, point]
          exact .switchOn switches panelPoint point
      | switchingOff =>
          simp only [BuzzerState.fpgaProcess, panelPoint, point]
          exact .switchOff switches panelPoint point
  | starting | scanning | switching _ | flagging | settling | polling | testing _ _ _ | waiting
  | closed =>
      simp only [BuzzerState.fpgaProcess, panelPoint]
      apply BuzzerMove.panel
      rw [panelPoint]
      exact fun _ => PanelPoint.noConfusion

theorem buzzerMove_of_step (stepped : (buzzing xres).step state action = some after) :
    BuzzerMove xres state after action := by
  cases action with
  | radar => exact buzzerMove_of_measure .radar rfl (fun _ => MeasureAction.noConfusion) stepped
  | echo edge now =>
      exact buzzerMove_of_measure (.echo edge now) rfl (fun _ => MeasureAction.noConfusion) stepped
  | sender time =>
      exact buzzerMove_of_measure (.sender time) rfl (fun _ => MeasureAction.noConfusion) stepped
  | set store =>
      cases stepped
      exact .set store
  | fpga switches =>
      cases stepped
      exact buzzerMove_of_fpga state switches

end Moves

/-! ## The measuring client and its panel -/

theorem measured_step {xres : Nat} {state after : BuzzerState} {action : BuzzerAction}
    (stepped : (buzzing xres).step state action = some after) :
    after.measured = state.measured ∨
      ∃ event, (measuring xres).step state.measured event = some after.measured := by
  rcases buzzerMove_of_step stepped with
    ⟨event, -, -, measured⟩ | _ | ⟨_, -⟩ | _ | _ | ⟨_, -, -⟩
  · exact .inr ⟨event, measured⟩
  · exact .inl rfl
  · exact .inr ⟨.fpga state.panel.button, rfl⟩
  · exact .inl rfl
  · exact .inl rfl
  · exact .inr ⟨.fpga state.panel.button, rfl⟩

/-- The other processes see a client that measures. -/
theorem measuring_of_run {xres : Nat} {condition : BuzzerState → BuzzerAction → Prop}
    {actions : List BuzzerAction} {state : BuzzerState}
    (run : (buzzing xres).RunWhere condition actions state) :
    ∃ events, (measuring xres).Run events state.measured := by
  apply RunWhere.project BuzzerState.measured _ _ run
  · intro state initial
    rw [show state = _ from initial]
    rfl
  · intro state action after _ stepped
    rcases measured_step stepped with same | ⟨event, measured⟩
    · exact .inl same
    · exact .inr ⟨event, trivial, measured⟩

section Coupling

variable {xres : Nat} {state after : Measuring} {event : MeasureAction}

/-- The other processes leave what `fpga_process` holds alone. -/
theorem measuring_keeps (notFpga : ∀ button, event ≠ .fpga button)
    (stepped : (measuring xres).step state event = some after) :
    after.client.warnLine = state.client.warnLine ∧
      after.client.fpgaPoint = state.client.fpgaPoint := by
  cases event with
  | fpga button => exact absurd rfl (notFpga button)
  | radar =>
      rcases radarStepped_of_step stepped with
        ⟨-, isAfter⟩ | ⟨-, -, isAfter⟩ | ⟨-, -, -, isAfter⟩ | ⟨-, -, -, finished⟩
      · subst isAfter
        dsimp only
        unfold State.radarStep
        cases state.client.radarPoint <;> exact ⟨rfl, rfl⟩
      · subst isAfter
        exact ⟨rfl, rfl⟩
      · subst isAfter
        exact ⟨rfl, rfl⟩
      · rcases finish_cases finished with ⟨radar, -, ⟨inside, isAfter⟩ | ⟨-, isAfter⟩⟩ <;>
          subst isAfter <;> exact ⟨rfl, rfl⟩
  | echo edge now =>
      rcases Option.map_eq_some_iff.mp stepped with ⟨driver, -, isAfter⟩
      subst isAfter
      exact ⟨rfl, rfl⟩
  | sender time =>
      cases stepped
      dsimp only
      unfold State.senderStep
      cases state.client.senderPoint <;> exact ⟨rfl, rfl⟩

end Coupling

/-- Client and panel have one warn line, and serve as long as the loop runs. -/
structure BuzzerState.Coupled (state : BuzzerState) : Prop where
  warnLine : (state.measured.client.warnLine : Int) = state.panel.settings.warnLine
  serving : state.panel.point ≠ .closed → state.measured.client.fpgaPoint = .serving

theorem fpgaStep_none_warnLine (client : State) :
    (client.fpgaStep .none).warnLine = client.warnLine := by
  unfold State.fpgaStep
  cases client.fpgaPoint <;> rfl

section Coupled

variable {state : BuzzerState} {switches : Switches}

/-- Most steps of the panel are none of the client. -/
theorem coupled_of_none (coupled : state.Coupled) (serves : state.panel.point ≠ .closed)
    (noButton : state.panel.button = .none)
    (same : (state.panel.fpgaProcess switches).settings.warnLine = state.panel.settings.warnLine) :
    (state.panelStep switches).Coupled := by
  have serving := coupled.serving serves
  have client : state.measured.client.fpgaStep .none = state.measured.client := by
    rw [State.fpgaStep, serving]
  constructor
  · rw [BuzzerState.panelStep, noButton, same, client]
    exact coupled.warnLine
  · intro _
    rw [BuzzerState.panelStep, noButton, client]
    exact serving

/-- A button that is let go moves the warn line of both. -/
theorem coupled_of_release (coupled : state.Coupled) {button : TouchButton}
    {buttons : List TouchButton}
    (hit : state.panel.point = .testing .release (button :: buttons) []) :
    (state.panelStep switches).Coupled := by
  have serves : state.panel.point ≠ .closed := by
    rw [hit]
    exact PanelPoint.noConfusion
  have serving := coupled.serving serves
  have warnLine := coupled.warnLine
  cases button with
  | brighter | dimmer | mute =>
      apply coupled_of_none coupled serves
      · rw [Panel.button, hit]
        rfl
      · rw [Panel.fpgaProcess, hit]
        rfl
  | warnUp | warnDown =>
      constructor
      · simp only [BuzzerState.panelStep, Panel.button, TouchButton.button, Panel.fpgaProcess, hit,
          State.fpgaStep, serving, Panel.act, Settings.release]
        split_ifs <;> (try dsimp only) <;> omega
      · intro _
        simp only [BuzzerState.panelStep, Panel.button, TouchButton.button, hit, State.fpgaStep,
          serving]

/-- The exit switch leads both out of their loops. -/
theorem coupled_of_switching (coupled : state.Coupled) {scanned : Switches}
    (switching : state.panel.point = .switching scanned) : (state.panelStep switches).Coupled := by
  have serves : state.panel.point ≠ .closed := by
    rw [switching]
    exact PanelPoint.noConfusion
  have serving := coupled.serving serves
  by_cases exits : scanned.raise = false ∧ scanned.lower = false ∧ scanned.exit = true
  · rcases exits with ⟨noRaise, noLower, exits⟩
    have isExit : state.panel.button = .exit := by
      rw [Panel.button, switching]
      simp only [noRaise, noLower, exits, Bool.or_false, Bool.false_eq_true, if_false, if_true]
    have next : state.panel.fpgaProcess switches = { state.panel with point := .closed } := by
      rw [Panel.fpgaProcess, switching]
      simp only [noRaise, noLower, exits, Bool.false_eq_true, if_false, if_true]
    constructor
    · rw [BuzzerState.panelStep, isExit, next, State.fpgaStep, serving]
      exact coupled.warnLine
    · intro stillServes
      rw [BuzzerState.panelStep, next] at stillServes
      exact absurd rfl stillServes
  · apply coupled_of_none coupled serves
    · rw [Panel.button, switching]
      dsimp only
      split_ifs with moved left
      · rfl
      · rw [Bool.or_eq_true, not_or, Bool.not_eq_true, Bool.not_eq_true] at moved
        exact absurd ⟨moved.1, moved.2, left⟩ exits
      · rfl
    · rw [Panel.fpgaProcess, switching]
      dsimp only
      split_ifs <;> rfl

theorem coupled_panelStep (coupled : state.Coupled) : (state.panelStep switches).Coupled := by
  cases point : state.panel.point with
  | closed =>
      have same : state.panel.fpgaProcess switches = state.panel := by
        rw [Panel.fpgaProcess, point]
      have noButton : state.panel.button = .none := by
        rw [Panel.button, point]
      constructor
      · rw [BuzzerState.panelStep, noButton, same]
        dsimp only
        rw [fpgaStep_none_warnLine]
        exact coupled.warnLine
      · intro serves
        rw [BuzzerState.panelStep, same] at serves
        exact absurd point serves
  | switching scanned => exact coupled_of_switching coupled point
  | starting | scanning | sounding _ | flagging | settling | polling | waiting =>
      apply coupled_of_none coupled
      · rw [point]
        exact PanelPoint.noConfusion
      · rw [Panel.button, point]
      · rw [Panel.fpgaProcess, point]
  | testing phase buttons tests =>
      have serves : state.panel.point ≠ .closed := by
        rw [point]
        exact PanelPoint.noConfusion
      cases buttons with
      | nil =>
          apply coupled_of_none coupled serves
          · rw [Panel.button, point]
            cases phase <;> rfl
          · rw [Panel.fpgaProcess, point]
      | cons button buttons =>
          cases tests with
          | cons edge tests =>
              apply coupled_of_none coupled serves
              · rw [Panel.button, point]
                cases phase <;> rfl
              · rw [Panel.fpgaProcess, point]
          | nil =>
              cases phase with
              | release => exact coupled_of_release coupled point
              | press =>
                  apply coupled_of_none coupled serves
                  · rw [Panel.button, point]
                  · rw [Panel.fpgaProcess, point]
                    exact Settings.press_warnLine state.panel.settings button

end Coupled

theorem coupled_of_run {xres : Nat} {actions : List BuzzerAction} {state : BuzzerState}
    (run : (buzzing xres).Run actions state) : state.Coupled := by
  apply run.invariant fun _ state => state.Coupled
  · intro state initial
    rw [show state = _ from initial]
    exact ⟨rfl, fun _ => rfl⟩
  · intro _ state action after coupled _ stepped
    rcases buzzerMove_of_step stepped with
      ⟨event, -, notFpga, measured⟩ | ⟨store⟩ | ⟨_, -⟩ | _ | _ | ⟨switches, -, -⟩
    · rcases measuring_keeps notFpga measured with ⟨warnLine, fpgaPoint⟩
      constructor
      · rw [warnLine]
        exact coupled.warnLine
      · rw [fpgaPoint]
        exact coupled.serving
    · cases store <;> exact ⟨coupled.warnLine, coupled.serving⟩
    · exact coupled_panelStep coupled
    · exact ⟨coupled.warnLine, coupled.serving⟩
    · exact ⟨coupled.warnLine, coupled.serving⟩
    · have onward : (state.panelStep switches).Coupled := coupled_panelStep coupled
      exact ⟨onward.warnLine, onward.serving⟩

/-! ## On and off -/

/-- The buzzer is on between its two writes, and only there. -/
structure BuzzerState.Switched (state : BuzzerState) : Prop where
  on : state.buzzer = some 1 ↔ state.point = .switchingOff
  unmuted : state.point ≠ .testing →
    state.panel.settings.mute = false ∧ ∃ scanned, state.panel.point = .sounding scanned

theorem switched_of_run {xres : Nat} {actions : List BuzzerAction} {state : BuzzerState}
    (run : (buzzing xres).Run actions state) : state.Switched := by
  apply run.invariant fun _ state => state.Switched
  · intro state initial
    rw [show state = _ from initial]
    constructor
    · exact iff_of_false (by decide) BuzzerPoint.noConfusion
    · exact fun sounding => absurd rfl sounding
  · intro _ state action after switched _ stepped
    rcases buzzerMove_of_step stepped with
      ⟨event, -, -, -⟩ | ⟨store⟩ | ⟨switches, quiet⟩ | ⟨switches, panelPoint, point, alerted⟩ |
        ⟨switches, panelPoint, point⟩ | ⟨switches, panelPoint, point⟩
    · exact ⟨switched.on, switched.unmuted⟩
    · cases store <;> exact ⟨switched.on, switched.unmuted⟩
    · refine ⟨switched.on, fun sounding => ?_⟩
      rcases switched.unmuted sounding with ⟨-, scanned, panelPoint⟩
      exact absurd (quiet scanned panelPoint).1 sounding
    · have off : state.buzzer ≠ some 1 := by
        rw [Ne, switched.on, point]
        exact BuzzerPoint.noConfusion
      exact ⟨iff_of_false off BuzzerPoint.noConfusion, fun _ => ⟨alerted.1, _, panelPoint⟩⟩
    · refine ⟨iff_of_true (congrArg some iomBuzzerWrite_on) rfl, fun _ => switched.unmuted ?_⟩
      rw [point]
      exact BuzzerPoint.noConfusion
    · have off : some (iomBuzzerWrite 0) ≠ some 1 := by decide
      exact ⟨iff_of_false off BuzzerPoint.noConfusion, fun sounding => absurd rfl sounding⟩

/-! ## What the flag stands for -/

/-- An alarm is on its way to be raised: the half-sweep under way has found something, or
hands over. -/
def Measuring.Pending (state : Measuring) : Prop :=
  match state.client.radarPoint with
  | .halfSweep _ => state.client.radar.buzFlag ≠ 0
  | .deposit _ _ | .alarmOff _ | .raise _ => True
  | .cycleStart | .storeWarn => False

/-- Elsewhere the flag is down. -/
def Measuring.QuietBetween (state : Measuring) : Prop :=
  match state.client.radarPoint with
  | .cycleStart | .storeWarn | .raise _ => state.client.radar.buzFlag = 0
  | .halfSweep _ | .deposit _ _ | .alarmOff _ => True

section Flag

variable {xres : Nat} {state after : Measuring} {event : MeasureAction}

theorem pending_halfSweep {direction : Direction}
    (sweeping : state.client.radarPoint = .halfSweep direction) :
    state.Pending ↔ state.client.radar.buzFlag ≠ 0 := by
  rw [Measuring.Pending, sweeping]

theorem Measuring.QuietBetween.pending (quiet : state.QuietBetween)
    (up : state.client.radar.buzFlag ≠ 0) : state.Pending := by
  rw [QuietBetween] at quiet
  rw [Pending]
  cases point : state.client.radarPoint with
  | halfSweep direction => exact up
  | deposit _ _ | alarmOff _ | raise _ => trivial
  | cycleStart | storeWarn =>
      rw [point] at quiet
      exact up quiet

theorem measure_closeSide_buzFlag {direction : Direction} {k : Fin 61} {radar : RadarState}
    {warnVal : Byte} {pass : Bearing × Reading} (up : radar.buzFlag ≠ 0) :
    ((radar.measure direction warnVal xres pass).closeSide xres k).buzFlag ≠ 0 := by
  have measured : (radar.measure direction warnVal xres pass).buzFlag ≠ 0 := by
    rw [RadarState.measure]
    dsimp only
    split_ifs
    · decide
    · exact up
  rw [RadarState.closeSide]
  split_ifs <;> exact measured

/-- What a step is to the alarm: none of `radar_process`, one outside of its half-sweeps, or
the end of a measurement. -/
inductive RadarMoved (xres : Nat) (state after : Measuring) : Prop
  | rests : after.client.radarPoint = state.client.radarPoint →
      after.client.radar = state.client.radar → after.client.raised = state.client.raised →
      RadarMoved xres state after
  | outside : (∀ direction, state.client.radarPoint ≠ .halfSweep direction) →
      after.client = state.client.radarStep xres (fun _ => 0) → RadarMoved xres state after
  | measured (direction : Direction) {driver : Driver.DriverState} {k : Fin 61} {buf : Byte} :
      state.client.radarPoint = .halfSweep direction →
      { state with driver := driver }.finish xres direction k buf = some after →
      RadarMoved xres state after

theorem radarMoved_of_step (stepped : (measuring xres).step state event = some after) :
    RadarMoved xres state after := by
  cases event with
  | radar =>
      rcases radarStepped_of_step stepped with
        ⟨noSweep, isAfter⟩ | ⟨-, -, isAfter⟩ | ⟨-, -, -, isAfter⟩ | ⟨isPoint, -, -, finished⟩
      · subst isAfter
        exact .outside noSweep rfl
      · subst isAfter
        exact .rests rfl rfl rfl
      · subst isAfter
        exact .rests rfl rfl rfl
      · exact .measured _ isPoint finished
  | echo edge now =>
      rcases Option.map_eq_some_iff.mp stepped with ⟨driver, -, isAfter⟩
      subst isAfter
      exact .rests rfl rfl rfl
  | sender time =>
      cases stepped
      rcases senderStep_radar state.client time with ⟨point, radar, -, -, raised⟩
      exact .rests point radar raised
  | fpga button =>
      cases stepped
      rcases fpgaStep_radar state.client button with ⟨point, radar, -, raised⟩
      exact .rests point radar raised

/-- A step raises the alarm that is pending, or leaves it pending. -/
theorem raised_step (stepped : (measuring xres).step state event = some after) :
    (after.client.raised = state.client.raised ∧ (state.Pending → after.Pending)) ∨
      (∃ direction, state.client.radarPoint = .raise direction) ∧
        after.client.raised = state.client.raised ++ [state.client.alarm] := by
  rcases radarMoved_of_step stepped with
    ⟨radarPoint, radar, raised⟩ | ⟨noSweep, isAfter⟩ | ⟨direction, isPoint, finished⟩
  · rw [Measuring.Pending, Measuring.Pending, radarPoint, radar]
    exact .inl ⟨raised, id⟩
  · cases point : state.client.radarPoint with
    | halfSweep direction => exact absurd point (noSweep direction)
    | cycleStart | storeWarn =>
        simp only [Measuring.Pending, isAfter, State.radarStep, point]
        exact .inl ⟨trivial, False.elim⟩
    | deposit direction i =>
        simp only [Measuring.Pending, isAfter, State.radarStep, point]
        refine .inl ⟨rfl, fun _ => ?_⟩
        split_ifs <;> trivial
    | alarmOff direction =>
        simp only [Measuring.Pending, isAfter, State.radarStep, point]
        exact .inl ⟨trivial, id⟩
    | raise direction =>
        simp only [isAfter, State.radarStep, point]
        exact .inr ⟨⟨direction, rfl⟩, trivial⟩
  · rw [pending_halfSweep isPoint]
    rcases finish_cases finished with ⟨radar, isRadar, ⟨inside, isAfter⟩ | ⟨-, isAfter⟩⟩
    · subst isAfter isRadar
      refine .inl ⟨rfl, fun up => ?_⟩
      simp only [Measuring.Pending, isPoint]
      exact measure_closeSide_buzFlag up
    · subst isAfter
      refine .inl ⟨rfl, fun up => ?_⟩
      have stillUp : radar.buzFlag ≠ 0 := by
        rw [isRadar]
        exact measure_closeSide_buzFlag up
      simp only [Measuring.Pending, if_pos stillUp]

theorem Measuring.QuietBetween.step (quiet : state.QuietBetween)
    (stepped : (measuring xres).step state event = some after) : after.QuietBetween := by
  rw [QuietBetween] at quiet
  rcases radarMoved_of_step stepped with
    ⟨radarPoint, radar, -⟩ | ⟨noSweep, isAfter⟩ | ⟨direction, isPoint, finished⟩
  · rw [QuietBetween, radarPoint, radar]
    exact quiet
  · cases point : state.client.radarPoint with
    | halfSweep direction => exact absurd point (noSweep direction)
    | cycleStart =>
        rw [point] at quiet
        simp only [QuietBetween, isAfter, State.radarStep, point]
        exact quiet
    | storeWarn => simp only [QuietBetween, isAfter, State.radarStep, point]
    | deposit direction i =>
        simp only [QuietBetween, isAfter, State.radarStep, point]
        split_ifs <;> trivial
    | alarmOff direction => simp only [QuietBetween, isAfter, State.radarStep, point]
    | raise direction =>
        rw [point] at quiet
        simp only [QuietBetween, isAfter, State.radarStep, point]
        cases direction with
        | forward => trivial
        | back => exact quiet
  · rcases finish_cases finished with ⟨radar, -, ⟨inside, isAfter⟩ | ⟨-, isAfter⟩⟩
    · subst isAfter
      simp only [QuietBetween, isPoint]
    · subst isAfter
      by_cases up : radar.buzFlag ≠ 0
      · simp only [QuietBetween, if_pos up]
      · simp only [QuietBetween, if_neg up]
        cases direction with
        | forward => trivial
        | back => exact not_not.mp up

theorem quietBetween_of_run {actions : List MeasureAction}
    (run : (measuring xres).Run actions state) : state.QuietBetween := by
  apply run.invariant fun _ state => state.QuietBetween
  · intro state initial
    rw [show state = _ from initial]
    rfl
  · exact fun _ _ _ _ quiet _ stepped => quiet.step stepped

/-- Nothing is raised while the flag is up. -/
theorem raised_of_up (quiet : state.QuietBetween) (up : state.client.radar.buzFlag ≠ 0)
    (stepped : (measuring xres).step state event = some after) :
    after.client.raised = state.client.raised := by
  rcases raised_step stepped with ⟨same, -⟩ | ⟨⟨direction, raising⟩, -⟩
  · exact same
  · rw [Measuring.QuietBetween, raising] at quiet
    exact absurd quiet up

end Flag

/-- A flag that is up although it was down at the start has been raised by a reading. -/
theorem sweepPart_buzFlag {direction : Direction} {warnVal : Byte} {xres : Nat}
    {start : RadarState} (quiet : start.buzFlag = 0) (readings : List Reading)
    (short : readings.length ≤ 61)
    (up : (start.sweepPart direction warnVal xres readings).buzFlag ≠ 0) :
    ∃ reading ∈ readings, reading.val < warnVal.toNat := by
  induction readings using List.reverseRecOn with
  | nil =>
      rw [RadarState.sweepPart_nil] at up
      exact absurd quiet up
  | append_singleton readings reading induction =>
      rw [List.length_append, List.length_singleton] at short
      by_cases below : reading.val < warnVal.toNat
      · exact ⟨reading, List.mem_append_right _ (List.mem_singleton_self reading), below⟩
      · rw [RadarState.sweepPart_concat ⟨readings.length, by omega⟩ rfl, RadarState.closeSide]
          at up
        have earlier : (start.sweepPart direction warnVal xres readings).buzFlag ≠ 0 := by
          simp only [RadarState.measure, if_neg below] at up
          split_ifs at up <;> exact up
        rcases induction (by omega) earlier with ⟨other, member, otherBelow⟩
        exact ⟨other, List.mem_append_left _ member, otherBelow⟩

/-- The half-sweep under way has accepted a distance below the warn line, or the alarm that
is being handed over records one. -/
inductive Measuring.Underway (xres : Nat) (state : Measuring) : Prop
  | sweeping {half : Nat} {start : RadarState} {measurements : List Measurement} :
      state.client.radarPoint = .halfSweep (.ofHalf half) →
      SweepsBy xres state half start measurements →
      (∃ measurement ∈ measurements,
        (measurement.buf returned).toNat < state.client.warnVal.toNat) →
      Underway xres state
  | handing {half : Nat} : state.client.radarPoint.handsOver = some (.ofHalf half) →
      Recorded returned state.driver.readings half state.client.alarm → Underway xres state

theorem ReadsSoFar.mem_readings {state : Measuring} {half : Nat} {measurements : List Measurement}
    (reads : ReadsSoFar state half measurements) {measurement : Measurement}
    (member : measurement ∈ measurements) :
    ∀ read ∈ measurement.reads, read ∈ state.driver.readings := by
  intro read isRead
  have made := List.mem_flatMap.mpr ⟨measurement, member, isRead⟩
  rcases reads with ⟨before, -, -, isReads⟩ | ⟨before, last, -, -, isReads⟩
  · rw [isReads]
    exact List.mem_append_right before made
  · rw [isReads]
    exact List.mem_append_right before (List.mem_append_left _ made)

theorem Measuring.Tracked.underway {xres half : Nat} {state : Measuring}
    (tracked : state.Tracked xres half) (pending : state.Pending) : state.Underway xres := by
  rw [Measuring.Pending] at pending
  cases point : state.client.radarPoint with
  | cycleStart | storeWarn =>
      rw [point] at pending
      exact pending.elim
  | deposit direction _ | alarmOff direction | raise direction =>
      have handsOver : state.client.radarPoint.handsOver = some direction := by
        rw [point]
        rfl
      rcases tracked.handing direction handsOver with ⟨isHalf, -, recorded⟩
      rw [isHalf] at handsOver
      exact .handing handsOver recorded
  | halfSweep direction =>
      rw [point] at pending
      rcases tracked.sweeping direction point with ⟨isHalf, start, measurements, sweeps⟩
      rw [isHalf] at point
      refine .sweeping point sweeps ?_
      have up := pending
      dsimp only at up
      rw [sweeps.radar] at up
      have short : (measurements.map Measurement.reading).length ≤ 61 := by
        rw [List.length_map, sweeps.count]
        omega
      rcases sweepPart_buzFlag sweeps.quiet _ short up with ⟨reading, member, below⟩
      rcases List.mem_map.mp member with ⟨measurement, isMember, isReading⟩
      have small := buf_le tracked.small (sweeps.reads.mem_readings isMember)
      rw [← isReading, Measurement.reading, readingOf_val small] at below
      exact ⟨measurement, isMember, below⟩

/-! ## Every sounding has its alarm -/

/-- The alarm of this number has been raised, or is on its way. -/
def BuzzerState.Awaits (state : BuzzerState) (i : Nat) : Prop :=
  i < state.measured.client.raised.length ∨
    i = state.measured.client.raised.length ∧ state.measured.Pending

section Soundings

variable {xres : Nat} {state after : BuzzerState} {action : BuzzerAction}

theorem BuzzerState.Awaits.step {i : Nat} (awaits : state.Awaits i)
    (stepped : (buzzing xres).step state action = some after) : after.Awaits i := by
  rcases measured_step stepped with same | ⟨event, measured⟩
  · rw [Awaits, same]
    exact awaits
  · rcases raised_step measured with ⟨same, stays⟩ | ⟨-, raised⟩
    · rw [Awaits, same]
      exact awaits.imp id fun next => ⟨next.1, stays next.2⟩
    · left
      rw [raised, List.length_append, List.length_singleton]
      rcases awaits with earlier | ⟨next, -⟩ <;> omega

/-- The soundings so far, in the order of the alarms. -/
structure BuzzerState.Attributed (state : BuzzerState) : Prop where
  awaits : ∀ i ∈ state.sounded, state.Awaits i
  inOrder : state.sounded.Pairwise (· ≤ ·)

theorem attributed_of_run {actions : List BuzzerAction}
    (run : (buzzing xres).Run actions state) : state.Attributed := by
  induction run with
  | start initial =>
      rw [show _ = BuzzerState.initial from initial]
      exact ⟨fun _ member => absurd member List.not_mem_nil, .nil⟩
  | @next _ state after action earlier _ stepped attributed =>
      have earlierOnes : ∀ i ∈ state.sounded, after.Awaits i :=
        fun i member => (attributed.awaits i member).step stepped
      rcases buzzerMove_of_step stepped with
        ⟨event, -, -, -⟩ | ⟨store⟩ | ⟨switches, -⟩ | ⟨switches, -, -, alerted⟩ |
          ⟨switches, -, -⟩ | ⟨switches, -, -⟩
      · exact ⟨earlierOnes, attributed.inOrder⟩
      · exact ⟨earlierOnes, attributed.inOrder⟩
      · exact ⟨earlierOnes, attributed.inOrder⟩
      · rcases measuring_of_run earlier with ⟨events, measuringRun⟩
        have pending := (quietBetween_of_run measuringRun).pending alerted.2
        constructor
        · intro i member
          rcases List.mem_append.mp member with before | last
          · exact earlierOnes i before
          · exact .inr ⟨List.mem_singleton.mp last, pending⟩
        · refine List.pairwise_append.mpr ⟨attributed.inOrder, List.pairwise_singleton .., ?_⟩
          intro i member last isLast
          rw [List.mem_singleton.mp isLast]
          rcases attributed.awaits i member with before | ⟨next, -⟩ <;> omega
      · exact ⟨earlierOnes, attributed.inOrder⟩
      · exact ⟨earlierOnes, attributed.inOrder⟩

end Soundings

/-! ## An alarm is heard -/

/-- `set_process` stores the start of a touch. -/
def BuzzerAction.presses : BuzzerAction → Bool
  | .set (.deep pressed) => pressed
  | .set (.tX _) | .set (.tY _) | .radar | .echo _ _ | .sender _ | .fpga _ => false

/-- The alarm is on, and nothing keeps `fpga_process` from its test. -/
def BuzzerState.Attended (state : BuzzerState) (action : BuzzerAction) : Prop :=
  state.Alerted ∧ state.panel.deep = false ∧ action.presses = false

instance (state : BuzzerState) (action : BuzzerAction) : Decidable (state.Attended action) :=
  inferInstanceAs (Decidable (_ ∧ _ ∧ _))

/-- The steps of `fpga_process` to its next test, or none if this alarm has been sounded. -/
def BuzzerState.stepsToTest (i : Nat) (state : BuzzerState) : Nat :=
  if i ∈ state.sounded then 0
  else
    match state.panel.point with
    | .closed => 0
    | .sounding _ =>
        match state.point with
        | .testing => 1
        | .switchingOff => 70
        | .switchingOn => 71
    | _ => state.panel.stepsLeft + 2

/-- The chains of tests are those of the five buttons. -/
def Panel.ShortTests (panel : Panel) : Prop :=
  ∀ phase buttons tests, panel.point = .testing phase buttons tests →
    buttons.length ≤ 5 ∧ tests.length ≤ 4

section Hearing

variable {xres i : Nat} {state after : BuzzerState} {action : BuzzerAction}

theorem Panel.ShortTests.fpgaProcess {panel : Panel} (short : panel.ShortTests)
    (switches : Switches) : (panel.fpgaProcess switches).ShortTests := by
  have start : touchButtons.length ≤ 5 ∧ edges.length ≤ 4 := ⟨Nat.le_refl 5, Nat.le_refl 4⟩
  intro phase buttons tests testing
  cases point : panel.point with
  | starting | scanning | sounding _ | flagging | settling =>
      rw [Panel.fpgaProcess, point] at testing
      cases testing
  | closed =>
      rw [Panel.fpgaProcess, point] at testing
      exact short phase buttons tests testing
  | switching scanned =>
      rw [Panel.fpgaProcess, point] at testing
      dsimp only at testing
      split_ifs at testing
  | polling | waiting =>
      rw [Panel.fpgaProcess, point] at testing
      dsimp only at testing
      split_ifs at testing
      cases testing
      exact start
  | testing earlier others left =>
      have bounds := short earlier others left point
      cases others with
      | nil =>
          have isAfter : (panel.fpgaProcess switches).point = earlier.after := by
            rw [Panel.fpgaProcess, point]
          rw [isAfter] at testing
          cases earlier <;> cases testing
      | cons button others =>
          cases left with
          | nil =>
              have isAfter : (panel.fpgaProcess switches).point = earlier.after := by
                rw [Panel.fpgaProcess, point]
                exact panel.act_point button earlier
              rw [isAfter] at testing
              cases earlier <;> cases testing
          | cons edge left =>
              rw [List.length_cons, List.length_cons] at bounds
              rw [Panel.fpgaProcess, point] at testing
              dsimp only at testing
              split_ifs at testing
              · cases testing
                exact ⟨bounds.1, by omega⟩
              · cases testing
                exact ⟨by omega, start.2⟩

theorem shortTests_of_run {actions : List BuzzerAction} (run : (buzzing xres).Run actions state) :
    state.panel.ShortTests := by
  apply run.invariant fun _ state => state.panel.ShortTests
  · intro state initial
    rw [show state = _ from initial]
    exact fun _ _ _ => PanelPoint.noConfusion
  · intro _ state action after short _ stepped
    rcases buzzerMove_of_step stepped with
      ⟨event, -, -, -⟩ | ⟨store⟩ | ⟨switches, -⟩ | _ | _ | ⟨switches, -, -⟩
    · exact short
    · cases store <;> exact short
    · exact short.fpgaProcess switches
    · exact short
    · exact short
    · exact short.fpgaProcess switches

theorem Panel.stepsLeft_pos {panel : Panel} (notAtTop : panel.point ≠ .scanning)
    (inLoop : panel.point ≠ .closed) : 0 < panel.stepsLeft := by
  cases point : panel.point with
  | scanning => exact absurd point notAtTop
  | closed => exact absurd point inLoop
  | testing phase buttons tests =>
      rw [Panel.stepsLeft_testing point]
      omega
  | waiting =>
      rw [Panel.stepsLeft, point]
      dsimp only
      split_ifs <;> decide
  | starting | sounding _ | switching _ | flagging | settling | polling =>
      simp only [Panel.stepsLeft, point]
      decide

theorem stepsToTest_of_sounded (sounded : i ∈ state.sounded) : state.stepsToTest i = 0 :=
  if_pos sounded

theorem stepsToTest_le (point : state.point = .testing) :
    state.stepsToTest i ≤ state.panel.stepsLeft + 2 := by
  rw [BuzzerState.stepsToTest]
  split_ifs
  · exact Nat.zero_le _
  · split
    · exact Nat.zero_le _
    · rw [point]
      dsimp only
      omega
    · exact Nat.le_refl _

theorem Panel.ShortTests.stepsLeft_le {panel : Panel} (short : panel.ShortTests) :
    panel.stepsLeft ≤ 68 := by
  cases point : panel.point with
  | testing phase buttons tests =>
      rw [Panel.stepsLeft_testing point]
      have bounds := short phase buttons tests point
      cases phase <;> simp only [Phase.stepsLeft] <;> omega
  | waiting =>
      rw [Panel.stepsLeft, point]
      dsimp only
      split_ifs <;> decide
  | starting | scanning | sounding _ | switching _ | flagging | settling | polling | closed =>
      simp only [Panel.stepsLeft, point]
      decide

theorem stepsToTest_bound (short : state.panel.ShortTests) : state.stepsToTest i ≤ 71 := by
  rw [BuzzerState.stepsToTest]
  split_ifs
  · exact Nat.zero_le _
  · split
    · exact Nat.zero_le _
    · cases state.point <;> decide
    · have left := short.stepsLeft_le
      omega

theorem sounded_of_stepsToTest (none : state.stepsToTest i = 0) :
    i ∈ state.sounded ∨ state.panel.point = .closed := by
  rw [BuzzerState.stepsToTest] at none
  split_ifs at none with sounded
  · exact .inl sounded
  · split at none
    · exact .inr ‹_›
    · cases point : state.point <;> rw [point] at none <;> cases none
    · cases none

theorem sounded_step (stepped : (buzzing xres).step state action = some after)
    (sounded : i ∈ state.sounded) : i ∈ after.sounded := by
  rcases buzzerMove_of_step stepped with
    ⟨_, -, -, -⟩ | _ | ⟨_, -⟩ | _ | _ | ⟨_, -, -⟩
  · exact sounded
  · exact sounded
  · exact sounded
  · exact List.mem_append_left _ sounded
  · exact sounded
  · exact sounded

/-- A step of the loop outside of the buzzer. -/
theorem stepsToTest_panelStep (point : state.point = .testing)
    (elsewhere : ∀ scanned, state.panel.point ≠ .sounding scanned)
    (lifted : state.panel.deep = false) (unheard : i ∉ state.sounded) (switches : Switches) :
    (state.panelStep switches).stepsToTest i ≤ state.stepsToTest i - 1 := by
  have bound : (state.panelStep switches).stepsToTest i ≤
      (state.panel.fpgaProcess switches).stepsLeft + 2 :=
    stepsToTest_le (show (state.panelStep switches).point = .testing from point)
  cases panelPoint : state.panel.point with
  | sounding scanned => exact absurd panelPoint (elsewhere scanned)
  | closed =>
      have same : state.panel.fpgaProcess switches = state.panel := by
        rw [Panel.fpgaProcess, panelPoint]
      simp only [BuzzerState.stepsToTest, BuzzerState.panelStep, same, panelPoint, ite_self,
        Nat.zero_le]
  | scanning =>
      simp only [BuzzerState.stepsToTest, BuzzerState.panelStep, Panel.fpgaProcess, panelPoint,
        point, if_neg unheard, Panel.stepsLeft]
      decide
  | starting | switching _ | flagging | settling | polling | waiting | testing _ _ _ =>
      have before : state.stepsToTest i = state.panel.stepsLeft + 2 := by
        rw [BuzzerState.stepsToTest, if_neg unheard, panelPoint]
      have busy : 0 < state.panel.stepsLeft := by
        apply Panel.stepsLeft_pos <;> rw [panelPoint] <;> exact PanelPoint.noConfusion
      have less := Panel.stepsLeft_fpgaProcess switches (fun _ => lifted) busy
      omega

/-- Each of its own steps brings `fpga_process` nearer to the test. -/
theorem stepsToTest_own (switched : state.Switched)
    (number : i = state.measured.client.raised.length) (alerted : state.Alerted)
    (lifted : state.panel.deep = false) (own : action.isFpga = true)
    (stepped : (buzzing xres).step state action = some after) :
    after.stepsToTest i ≤ state.stepsToTest i - 1 := by
  by_cases heard : i ∈ state.sounded
  · rw [stepsToTest_of_sounded (sounded_step stepped heard)]
    exact Nat.zero_le _
  rcases buzzerMove_of_step stepped with
    ⟨event, notFpga, -, -⟩ | ⟨store⟩ | ⟨switches, quiet⟩ | ⟨switches, -, -, -⟩ |
      ⟨switches, panelPoint, point⟩ | ⟨switches, panelPoint, point⟩
  · exact absurd own (Bool.eq_false_iff.mp notFpga)
  · cases own
  · have elsewhere : ∀ scanned, state.panel.point ≠ .sounding scanned :=
      fun scanned panelPoint => (quiet scanned panelPoint).2 alerted
    have point : state.point = .testing := by
      by_contra sounding
      rcases switched.unmuted sounding with ⟨-, scanned, panelPoint⟩
      exact elsewhere scanned panelPoint
    exact stepsToTest_panelStep point elsewhere lifted heard switches
  · rw [stepsToTest_of_sounded]
    · exact Nat.zero_le _
    · rw [number]
      exact List.mem_append_right _ (List.mem_singleton_self _)
  · simp only [BuzzerState.stepsToTest, if_neg heard, panelPoint, point]
    decide
  · simp only [BuzzerState.stepsToTest, BuzzerState.panelStep, Panel.fpgaProcess, panelPoint,
      point, if_neg heard, Panel.stepsLeft]
    decide

/-- The steps of the others take it no further away. -/
theorem stepsToTest_others (lifted : state.panel.deep = false) (noPress : action.presses = false)
    (other : action.isFpga = false) (stepped : (buzzing xres).step state action = some after) :
    after.stepsToTest i ≤ state.stepsToTest i := by
  rcases buzzerMove_of_step stepped with
    ⟨event, -, -, -⟩ | ⟨store⟩ | ⟨_, -⟩ | ⟨_, -, -, -⟩ | ⟨_, -, -⟩ | ⟨_, -, -⟩
  · exact Nat.le_refl _
  · cases store with
    | tX value | tY value => exact Nat.le_refl _
    | deep pressed =>
        have stillLifted : pressed = false := noPress
        have same : state.panel.store (.deep pressed) = state.panel := by
          rw [Panel.store, stillLifted, ← lifted]
        rw [same]
  all_goals cases other

/-- While the alarm is on and nothing keeps it from its test, `fpga_process` sounds the
buzzer within 71 of its own steps, whatever the others do, unless it leaves its loop. -/
theorem sounds_within {before actions : List BuzzerAction} {final : BuzzerState}
    (run : (buzzing xres).Run before state)
    (executed : (buzzing xres).executeWhere BuzzerState.Attended state actions = some final)
    (enough : 71 ≤ actions.countP BuzzerAction.isFpga) :
    state.measured.client.raised.length ∈ final.sounded ∨ final.panel.point = .closed := by
  have left : final.stepsToTest state.measured.client.raised.length ≤
      state.stepsToTest state.measured.client.raised.length -
        actions.countP BuzzerAction.isFpga := by
    rw [executeWhere_eq_execute] at executed
    apply measure_le_of_execute BuzzerAction.isFpga
      (fun other => (∃ actions, (buzzing xres).Run actions other) ∧
        state.measured.client.raised.length = other.measured.client.raised.length)
      (BuzzerState.stepsToTest state.measured.client.raised.length) _ _ _ executed
      ⟨⟨before, run⟩, rfl⟩
    · rintro other action after ⟨⟨actions, run⟩, number⟩ restricted
      rcases restrict_step.mp restricted with ⟨⟨alerted, -, -⟩, stepped⟩
      refine ⟨⟨_, run.next action trivial stepped⟩, ?_⟩
      rcases measured_step stepped with same | ⟨event, measured⟩
      · rw [same]
        exact number
      · rcases measuring_of_run run with ⟨events, measuringRun⟩
        rw [raised_of_up (quietBetween_of_run measuringRun) alerted.2 measured]
        exact number
    · rintro other action after ⟨⟨actions, run⟩, number⟩ own restricted
      rcases restrict_step.mp restricted with ⟨⟨alerted, lifted, -⟩, stepped⟩
      exact stepsToTest_own (switched_of_run run) number alerted lifted own stepped
    · rintro other action after - notOwn restricted
      rcases restrict_step.mp restricted with ⟨⟨-, lifted, noPress⟩, stepped⟩
      exact stepsToTest_others lifted noPress notOwn stepped
  have bound := stepsToTest_bound (i := state.measured.client.raised.length)
    (shortTests_of_run run)
  exact sounded_of_stepsToTest (by omega)

end Hearing

/-- The buzzer is on between its two writes, in the loop and unmuted. Each sounding is of an
alarm that has been raised, or of the one that the half-sweep under way will raise, in their
order, and was caused by an accepted distance. An alarm that is on for 71 steps of
`fpga_process` in its loop, with no finger on the screen, is sounded. -/
structure BuzzerSounds (xres : Nat) (state : BuzzerState) : Prop where
  warnLine : (state.measured.client.warnLine : Int) = state.panel.settings.warnLine
  on_iff : state.buzzer = some 1 ↔ state.point = .switchingOff
  unmuted : state.point ≠ .testing →
    state.panel.settings.mute = false ∧ ∃ scanned, state.panel.point = .sounding scanned
  inOrder : state.sounded.Pairwise (· ≤ ·)
  cause : ∀ i ∈ state.sounded,
    (∃ alarm ∈ state.measured.client.raised[i]?, ∃ half,
      Recorded returned state.measured.driver.readings half alarm) ∨
    i = state.measured.client.raised.length ∧ state.measured.Underway xres
  heard : ∀ actions final,
    (buzzing xres).executeWhere BuzzerState.Attended state actions = some final →
      71 ≤ actions.countP BuzzerAction.isFpga →
        state.measured.client.raised.length ∈ final.sounded ∨ final.panel.point = .closed

theorem buzzer_sounds_alarms {xres : Nat} {actions : List BuzzerAction} {state : BuzzerState}
    (run : (buzzing xres).Run actions state) : BuzzerSounds xres state := by
  rcases measuring_of_run run with ⟨events, measuringRun⟩
  rcases tracked_of_run measuringRun with ⟨half, tracked⟩
  rcases tracked.raised with ⟨halves, -, recorded⟩
  have switched := switched_of_run run
  have attributed := attributed_of_run run
  refine ⟨(coupled_of_run run).warnLine, switched.on, switched.unmuted, attributed.inOrder, ?_,
    fun _ _ => sounds_within run⟩
  intro i member
  rcases attributed.awaits i member with raised | ⟨next, pending⟩
  · refine .inl ⟨state.measured.client.raised[i], List.getElem?_eq_getElem raised, ?_⟩
    have same := recorded.recorded.length_eq
    exact ⟨halves[i], recorded.recorded.get (by omega) raised⟩
  · exact .inr ⟨next, tracked.underway pending⟩

/-- The same step of the client, whose panel is left alone. -/
def MeasureAction.unpressed : MeasureAction → BuzzerAction
  | .radar => .radar
  | .echo edge now => .echo edge now
  | .sender time => .sender time
  | .fpga _ => .fpga atRest

/-- The first measurement of a cycle, of an object at ten centimetres, and `fpga_process` up
to its first write. -/
def soundNear : List BuzzerAction :=
  [.radar, .radar] ++ ((List.range 2).flatMap nearRead).map MeasureAction.unpressed ++
    List.replicate 4 (.fpga atRest)

theorem near_object_sounds :
    ∃ state, (buzzing 1024).Run soundNear state ∧ state.buzzer = some 1 ∧
      state.sounded = [0] ∧ BuzzerSounds 1024 state := by
  have executed : ((buzzing 1024).execute .initial soundNear).any (fun state =>
      decide (state.buzzer = some 1 ∧ state.sounded = [0])) = true := by
    decide +kernel
  rcases exists_run _ rfl executed with ⟨state, run, tested⟩
  rcases of_decide_eq_true tested with ⟨on, sounded⟩
  exact ⟨state, run, on, sounded, buzzer_sounds_alarms run⟩

end GamZ.Client
