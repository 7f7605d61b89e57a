import Mathlib.Logic.Function.Basic
import Mathlib.Tactic.SplitIfs

/-! # The control panel

`fpga_process` samples the switches of the board and the touch that `set_process`
reports through `t_x`, `t_y` and `deep`. It handles a touch in two chains of tests, one
when it notices the touch and one after the touch is over. Every access to a shared
variable is one step. -/

namespace GamZ.Client

/-- The buttons of the touch screen, in the order in which they are tested. -/
inductive TouchButton
  | brighter
  | dimmer
  | mute
  | warnUp
  | warnDown
deriving DecidableEq, Repr

/-- The `position_x` of a button, which is 150 wide and 80 high. -/
def TouchButton.positionX : TouchButton → Int
  | .brighter => 705
  | .dimmer => 860
  | .mute => 10
  | .warnUp => 280
  | .warnDown => 435

def touchButtons : List TouchButton := [.brighter, .dimmer, .mute, .warnUp, .warnDown]

structure Settings where
  mute : Bool
  bright : Int
  warnLine : Int
deriving DecidableEq, Repr

/-- `main` and `fpga_process` start with these. -/
def Settings.initial : Settings where
  mute := false
  bright := 100
  warnLine := 20

def setBrightness (mod : Bool) (bright : Int) : Int :=
  if mod then
    if bright = 80 then 100
    else if bright = 60 then 80
    else if bright = 40 then 60
    else if bright = 20 then 40
    else if bright = 10 then 20
    else bright
  else
    if bright = 100 then 80
    else if bright = 80 then 60
    else if bright = 60 then 40
    else if bright = 40 then 20
    else if bright = 20 then 10
    else bright

/-- What a button does when it is noticed. -/
def Settings.press (settings : Settings) : TouchButton → Settings
  | .mute => { settings with mute := !settings.mute }
  | _ => settings

/-- What a button does when it is let go. -/
def Settings.release (settings : Settings) : TouchButton → Settings
  | .brighter => { settings with bright := setBrightness true settings.bright }
  | .dimmer => { settings with bright := setBrightness false settings.bright }
  | .mute => settings
  | .warnUp =>
      if settings.warnLine < 250 then { settings with warnLine := settings.warnLine + 10 }
      else settings
  | .warnDown =>
      if settings.warnLine ≥ 20 then { settings with warnLine := settings.warnLine - 10 }
      else settings

/-! ## Testing the buttons -/

/-- The four tests of a button, each of which reads `*t_x` or `*t_y`. -/
inductive Edge
  | left
  | right
  | top
  | bottom
deriving DecidableEq, Repr

/-- `(*t_x >= 705 && *t_x < 855) && (*t_y >= 0 && *t_y < 80)` -/
def edges : List Edge := [.left, .right, .top, .bottom]

def TouchButton.within (button : TouchButton) (tX tY : Int) : Edge → Bool
  | .left => button.positionX ≤ tX
  | .right => tX < button.positionX + 150
  | .top => 0 ≤ tY
  | .bottom => tY < 80

inductive Phase
  | press
  | release
deriving DecidableEq, Repr

/-- `push_sw_buff[0]`, `push_sw_buff[1]` and `push_sw_buff[8]` -/
structure Switches where
  raise : Bool
  lower : Bool
  exit : Bool

inductive PanelPoint
  /-- `*up_down_flag = 0;` in front of the loop -/
  | starting
  /-- The top of the loop: `read(dev, &push_sw_buff,9);` -/
  | scanning
  /-- `if(!mute && *buz_flag)`: the buzzer sounds. -/
  | sounding (switches : Switches)
  | switching (switches : Switches)
  /-- `*up_down_flag = 1;` -/
  | flagging
  /-- `*up_down_flag = 0;` after 50 ms -/
  | settling
  /-- `if(*deep)` -/
  | polling
  /-- The tests left of the first button, in front of the other buttons. -/
  | testing (phase : Phase) (buttons : List TouchButton) (tests : List Edge)
  /-- `while(*deep){}` -/
  | waiting
  | closed

/-- What `fpga_process` shares with the other processes and what it holds itself: the
settings, the buttons drawn in `deep_puple`, and the switches. -/
structure Panel where
  tX : Int
  tY : Int
  deep : Bool
  settings : Settings
  pressed : TouchButton → Bool
  upDownPwm : Int
  upDownFlag : Bool
  point : PanelPoint

def Panel.initial : Panel where
  tX := 0
  tY := 0
  deep := false
  settings := .initial
  pressed := fun _ => false
  upDownPwm := 1600
  upDownFlag := true
  point := .starting

/-- The body of the `if` of a button. -/
def Panel.act (panel : Panel) (button : TouchButton) : Phase → Panel
  | .press =>
      { panel with
        pressed := Function.update panel.pressed button true
        settings := panel.settings.press button
        point := .waiting }
  | .release =>
      { panel with
        pressed := Function.update panel.pressed button false
        settings := panel.settings.release button
        point := .scanning }

/-- Where a chain of tests leads to that no button has passed. -/
def Phase.after : Phase → PanelPoint
  | .press => .waiting
  | .release => .scanning

/-- One step of `fpga_process`, with the switches as a scan finds them. -/
def Panel.fpgaProcess (panel : Panel) (switches : Switches) : Panel :=
  match panel.point with
  | .starting => { panel with upDownFlag := false, point := .scanning }
  | .scanning => { panel with point := .sounding switches }
  | .sounding scanned => { panel with point := .switching scanned }
  | .switching scanned =>
      if scanned.raise then
        { panel with
          upDownPwm := if panel.upDownPwm < 2200 then panel.upDownPwm + 50 else panel.upDownPwm
          point := .flagging }
      else if scanned.lower then
        { panel with
          upDownPwm := if panel.upDownPwm > 1400 then panel.upDownPwm - 50 else panel.upDownPwm
          point := .flagging }
      else if scanned.exit then { panel with point := .closed }
      else { panel with point := .polling }
  | .flagging => { panel with upDownFlag := true, point := .settling }
  | .settling => { panel with upDownFlag := false, point := .polling }
  | .polling =>
      { panel with
        point := if panel.deep then .testing .press touchButtons edges else .scanning }
  | .testing phase [] _ => { panel with point := phase.after }
  | .testing phase (button :: _) [] => panel.act button phase
  | .testing phase (button :: buttons) (edge :: tests) =>
      { panel with
        point :=
          if button.within panel.tX panel.tY edge then .testing phase (button :: buttons) tests
          else .testing phase buttons edges }
  | .waiting =>
      { panel with
        point := if panel.deep then .waiting else .testing .release touchButtons edges }
  | .closed => panel

inductive TouchStore
  | tX (value : Int)
  | tY (value : Int)
  | deep (value : Bool)

def Panel.store (panel : Panel) : TouchStore → Panel
  | .tX value => { panel with tX := value }
  | .tY value => { panel with tY := value }
  | .deep value => { panel with deep := value }

/-! ## What a step changes -/

theorem Settings.press_warnLine (settings : Settings) (button : TouchButton) :
    (settings.press button).warnLine = settings.warnLine := by
  cases button <;> rfl

theorem Settings.release_warnLine (settings : Settings) (button : TouchButton) :
    (settings.release button).warnLine = settings.warnLine ∨
      settings.warnLine < 250 ∧ (settings.release button).warnLine = settings.warnLine + 10 ∨
      settings.warnLine ≥ 20 ∧ (settings.release button).warnLine = settings.warnLine - 10 := by
  cases button with
  | brighter | dimmer | mute => exact .inl rfl
  | warnUp =>
      rw [release]
      split_ifs with room
      · exact .inr (.inl ⟨room, rfl⟩)
      · exact .inl rfl
  | warnDown =>
      rw [release]
      split_ifs with room
      · exact .inr (.inr ⟨room, rfl⟩)
      · exact .inl rfl

theorem Panel.act_warnLine (panel : Panel) (button : TouchButton) (phase : Phase) :
    (panel.act button phase).settings.warnLine = panel.settings.warnLine ∨
      panel.settings.warnLine < 250 ∧
        (panel.act button phase).settings.warnLine = panel.settings.warnLine + 10 ∨
      panel.settings.warnLine ≥ 20 ∧
        (panel.act button phase).settings.warnLine = panel.settings.warnLine - 10 := by
  cases phase with
  | press => exact .inl (Settings.press_warnLine panel.settings button)
  | release => exact Settings.release_warnLine panel.settings button

theorem Panel.act_point (panel : Panel) (button : TouchButton) (phase : Phase) :
    (panel.act button phase).point = phase.after := by
  cases phase <;> rfl

/-- A step moves the warn line by ten, and only off the end of its range. -/
theorem Panel.fpgaProcess_warnLine (panel : Panel) (switches : Switches) :
    (panel.fpgaProcess switches).settings.warnLine = panel.settings.warnLine ∨
      panel.settings.warnLine < 250 ∧
        (panel.fpgaProcess switches).settings.warnLine = panel.settings.warnLine + 10 ∨
      panel.settings.warnLine ≥ 20 ∧
        (panel.fpgaProcess switches).settings.warnLine = panel.settings.warnLine - 10 := by
  unfold fpgaProcess
  split <;> try exact .inl rfl
  · split_ifs <;> exact .inl rfl
  · exact panel.act_warnLine _ _

/-- A step moves the vertical angle by fifty, and only off the end of its range. -/
theorem Panel.fpgaProcess_upDownPwm (panel : Panel) (switches : Switches) :
    (panel.fpgaProcess switches).upDownPwm = panel.upDownPwm ∨
      panel.upDownPwm < 2200 ∧
        (panel.fpgaProcess switches).upDownPwm = panel.upDownPwm + 50 ∨
      panel.upDownPwm > 1400 ∧
        (panel.fpgaProcess switches).upDownPwm = panel.upDownPwm - 50 := by
  unfold fpgaProcess
  split <;> try exact .inl rfl
  · split_ifs with _ room _ room
    · exact .inr (.inl ⟨room, rfl⟩)
    · exact .inl rfl
    · exact .inr (.inr ⟨room, rfl⟩)
    · exact .inl rfl
    · exact .inl rfl
    · exact .inl rfl
  · rename_i phase _ _ _
    cases phase <;> exact .inl rfl

end GamZ.Client
