import GamZ.Client.ButtonPicture
import GamZ.Client.Footprints
import GamZ.Client.Taps
import GamZ.Foundation.Simulation
import GamZ.TextLcd
import Mathlib.Data.List.Induction

/-! # What the panel shows

`fpga_process` draws a button again whenever it is touched or let go, echoes each new
brightness to the backlight, and writes the settings to the text LCD at the end of a
touch. Nothing is drawn from the settings as a whole, so that what is shown follows them
only if every handler draws what it changes. -/

namespace GamZ.Client

open CString LastWriter Raster Transition TransitionSystem

/-! ## The outputs of `fpga_process` -/

/-- `deep_puple` -/
def deepPuple : Color := 44026

/-- The last argument of `make_button`. -/
def TouchButton.mod (mute : Bool) : TouchButton → Int
  | .brighter | .warnUp => 2
  | .dimmer | .warnDown => 3
  | .mute => if mute then 1 else 0

def Phase.color : Phase → Color
  | .press => deepPuple
  | .release => puple

/-- What `set_brightness` echoes to the backlight, if anything. -/
def echoedBrightness (mod : Bool) (bright : Int) : Option Int :=
  if mod then
    if bright = 80 then some 100
    else if bright = 60 then some 80
    else if bright = 40 then some 60
    else if bright = 20 then some 40
    else if bright = 10 then some 20
    else none
  else
    if bright = 100 then some 80
    else if bright = 80 then some 60
    else if bright = 60 then some 40
    else if bright = 40 then some 20
    else if bright = 20 then some 10
    else none

/-- The buttons drawn, the brightness last echoed, and `str` with the bytes last written
to the text LCD. There are no texts once a line has overrun `str`. -/
structure Display where
  drawings : List ButtonDrawing
  backlight : Int
  texts : Option (List Byte × List Byte)

/-- `main` has echoed the full brightness, and `str` is zero. -/
def Display.initial : Display where
  drawings := []
  backlight := 100
  texts := some (List.replicate 16 0, [])

def Display.draw (display : Display) (drawings : List ButtonDrawing) : Display :=
  { display with drawings := display.drawings ++ drawings }

def Display.echo (display : Display) (mod : Bool) (bright : Int) : Display :=
  { display with backlight := (echoedBrightness mod bright).getD display.backlight }

/-- `sprintf` to `str`, `strcpy` to `str`, and `write(dev_text,string,MAX_BUFF);` -/
def Display.refresh (display : Display) (settings : Settings) : Display :=
  let shown := LcdText.settings settings.warnLine.toNat settings.mute
  { display with
    texts := display.texts.bind fun texts => composeLines texts.1 shown.first shown.second }

/-- The `set_brightness` of a button that is let go. -/
def Display.dim (display : Display) (bright : Int) : TouchButton → Display
  | .brighter => display.echo true bright
  | .dimmer => display.echo false bright
  | _ => display

/-- The body of the `if` of a button; the text LCD follows the whole chain of tests. -/
def Display.act (display : Display) (settings : Settings) (button : TouchButton) :
    Phase → Display
  | .press => display.draw [⟨button, Phase.press.color, button.mod settings.mute⟩]
  | .release =>
      ((display.draw [⟨button, Phase.release.color, button.mod settings.mute⟩]).dim
        settings.bright button).refresh (settings.release button)

/-- What a step of `fpga_process` puts out, from the panel in front of the step. After the
loop the full brightness is echoed once more. -/
def Display.fpgaProcess (display : Display) (panel : Panel) : Display :=
  match panel.point with
  | .starting => (display.draw firstButtons).refresh panel.settings
  | .testing phase (button :: _) [] => display.act panel.settings button phase
  | .testing .release [] _ => display.refresh panel.settings
  | .closed => { display with backlight := 100 }
  | _ => display

structure PanelState where
  panel : Panel
  display : Display

def PanelState.initial : PanelState where
  panel := .initial
  display := .initial

def PanelState.fpgaProcess (state : PanelState) (switches : Switches) : PanelState where
  panel := state.panel.fpgaProcess switches
  display := state.display.fpgaProcess state.panel

inductive PanelAction
  | set (store : TouchStore)
  | fpga (switches : Switches)

/-- `fpga_process`, with a touch screen that stores what it likes and when it likes. -/
def displaying : TransitionSystem PanelState PanelAction where
  Initial state := state = .initial
  step state
    | .set store => some { state with panel := state.panel.store store }
    | .fpga switches => some (state.fpgaProcess switches)

/-! ## The last drawing of a button -/

/-- How a button should look. The mute button is drawn with the mode that a touch has
found, and once more when it is let go. -/
def Panel.face (panel : Panel) (button : TouchButton) : ButtonDrawing where
  button := button
  color := if panel.pressed button then deepPuple else puple
  mod := button.mod (panel.settings.mute != (panel.pressed .mute))

def lastDrawing (drawings : List ButtonDrawing) (button : TouchButton) : Option ButtonDrawing :=
  drawings.reverse.find? fun drawing => drawing.button = button

theorem lastDrawing_append (drawings : List ButtonDrawing) (drawing : ButtonDrawing)
    (button : TouchButton) :
    lastDrawing (drawings ++ [drawing]) button =
      if drawing.button = button then some drawing else lastDrawing drawings button := by
  rw [lastDrawing, List.reverse_append, List.reverse_singleton, List.singleton_append,
    List.find?_cons]
  by_cases same : drawing.button = button
  · simp [same]
  · simp [same, lastDrawing]

/-- The buttons keep to columns of their own. -/
theorem positionX_apart {first second : TouchButton} (different : first ≠ second) :
    first.positionX.toNat + 150 ≤ second.positionX.toNat ∨
      second.positionX.toNat + 150 ≤ first.positionX.toNat := by
  cases first <;> cases second <;> first
    | exact absurd rfl different
    | decide

theorem not_inButton {xres : Nat} (wide : 1024 ≤ xres) {button other : TouchButton}
    (different : other ≠ button) {repy repx : Nat} (column : repx < 150) :
    ¬ InButton xres other.positionX.toNat (repy * xres + (button.positionX.toNat + repx)) := by
  rintro ⟨row, -, otherColumn, inButton, indexed⟩
  have bounds := List.mem_range'_1.mp inButton
  have position := positionX_le button
  have otherPosition := positionX_le other
  have same := (Pass.index_inj (by omega) (by omega) indexed).2
  rcases positionX_apart different with before | behind <;> omega

/-- On the screen a button is as it was drawn last. -/
theorem writeAll_buttonStores {xres : Nat} (wide : 1024 ≤ xres) {button : TouchButton}
    {last : ButtonDrawing} (mode : 0 ≤ last.mod ∧ last.mod ≤ 3) (drawings : List ButtonDrawing)
    (isLast : lastDrawing drawings button = some last) (pfbdata : FrameBuffer Color)
    {repy repx : Nat} (row : repy < 80) (column : repx < 150) :
    writeAll pfbdata (buttonStores xres drawings)
        (repy * xres + (button.positionX.toNat + repx)) =
      buttonColor (OffCorners button.positionX.toNat repy (button.positionX.toNat + repx : Nat))
        last.color last.mod repx repy := by
  induction drawings using List.reverseRecOn with
  | nil => cases isLast
  | append_singleton drawings drawing induction =>
      have position := positionX_le button
      rw [buttonStores, List.flatMap_append, List.flatMap_singleton, writeAll_append]
      rw [lastDrawing_append] at isLast
      by_cases same : drawing.button = button
      · rw [if_pos same] at isLast
        cases isLast
        rw [ButtonDrawing.stores, same]
        exact makeButton_pixel mode (by omega) _ row column
      · rw [if_neg same] at isLast
        rw [writeAll_of_forall_ne]
        · exact induction isLast
        · intro store member isPixel
          apply not_inButton wide same column
          rw [← isPixel]
          exact makeButton_inside store member

/-! ## The outputs follow the settings -/

def settingsText (settings : Settings) : List Byte :=
  paddedLine (warnLineText settings.warnLine.toNat) ++ paddedLine (muteText settings.mute)

/-- What is shown is what the panel is set to. Inside the handler of a touch the text LCD
is behind. -/
structure Display.Matches (display : Display) (panel : Panel) : Prop where
  drawn : panel.point ≠ .starting →
    ∀ button, lastDrawing display.drawings button = some (panel.face button)
  backlight : panel.point.isClosed = false → display.backlight = panel.settings.bright
  size : ∀ texts ∈ display.texts, texts.1.length = 16
  written : panel.point ≠ .starting → panel.point.handles = false →
    ∀ texts ∈ display.texts, texts.2 = settingsText panel.settings
  starting : panel.point = .starting → panel.settings = .initial ∧ panel.pressed = fun _ => false

section Outputs

variable {display : Display} {panel : Panel}

theorem lastDrawing_firstButtons (drawings : List ButtonDrawing) (button : TouchButton) :
    lastDrawing (drawings ++ firstButtons) button = some ⟨button, puple, button.mod false⟩ := by
  rw [lastDrawing, List.reverse_append, List.find?_append]
  cases button <;> rfl

theorem echoedBrightness_getD (mod : Bool) (bright : Int) :
    (echoedBrightness mod bright).getD bright = setBrightness mod bright := by
  cases mod <;> simp only [echoedBrightness, setBrightness] <;> split_ifs <;> rfl

/-- A refresh writes the settings or overruns `str`. -/
theorem composeLines_settings {str : List Byte} (size : str.length = 16) (settings : Settings) :
    (∃ texts, composeLines str (warnLineText settings.warnLine.toNat) (muteText settings.mute) =
        some texts) ↔ settings.warnLine < 100 := by
  have fits := (LcdText.settings settings.warnLine.toNat settings.mute).short_iff_fits
  dsimp only [LcdText.first, LcdText.second, LcdText.Fits] at fits
  have noNul := (LcdText.settings settings.warnLine.toNat settings.mute).zero_not_mem_first
  have fitsInt : settings.warnLine.toNat < 100 ↔ settings.warnLine < 100 := by omega
  rw [← fitsInt, ← fits]
  constructor
  · rintro ⟨⟨stored, string⟩, composed⟩
    exact ((composeLines_iff size noNul (zero_not_mem_muteText _)).mp ⟨stored, composed⟩).1
  · intro short
    rcases (composeLines_iff size noNul (zero_not_mem_muteText _)).mpr ⟨short, rfl⟩ with
      ⟨stored, composed⟩
    exact ⟨_, composed⟩

theorem Display.refresh_texts (settings : Settings)
    (size : ∀ texts ∈ display.texts, texts.1.length = 16) :
    ∀ texts ∈ (display.refresh settings).texts,
      texts.1.length = 16 ∧ texts.2 = settingsText settings := by
  intro texts written
  rcases Option.bind_eq_some_iff.mp written with ⟨before, wasWritten, composed⟩
  have sizeBefore := size before wasWritten
  have noNul := (LcdText.settings settings.warnLine.toNat settings.mute).zero_not_mem_first
  constructor
  · exact (length_composeLines composed).trans sizeBefore
  · exact ((composeLines_iff sizeBefore noNul (zero_not_mem_muteText _)).mp ⟨_, composed⟩).2

theorem Display.refresh_isSome (settings : Settings)
    (size : ∀ texts ∈ display.texts, texts.1.length = 16) :
    (∃ texts, (display.refresh settings).texts = some texts) ↔
      (∃ texts, display.texts = some texts) ∧ settings.warnLine < 100 := by
  constructor
  · rintro ⟨texts, written⟩
    rcases Option.bind_eq_some_iff.mp written with ⟨before, wasWritten, composed⟩
    exact ⟨⟨before, wasWritten⟩,
      (composeLines_settings (size before wasWritten) settings).mp ⟨texts, composed⟩⟩
  · rintro ⟨⟨before, wasWritten⟩, fits⟩
    rcases (composeLines_settings (size before wasWritten) settings).mpr fits with
      ⟨texts, composed⟩
    exact ⟨texts, Option.bind_eq_some_iff.mpr ⟨before, wasWritten, composed⟩⟩

theorem Display.dim_texts (bright : Int) (button : TouchButton) :
    (display.dim bright button).texts = display.texts := by
  cases button <;> rfl

theorem Display.dim_drawings (bright : Int) (button : TouchButton) :
    (display.dim bright button).drawings = display.drawings := by
  cases button <;> rfl

/-- `set_brightness` returns what it echoes. -/
theorem Display.dim_backlight {settings : Settings} (same : display.backlight = settings.bright)
    (button : TouchButton) :
    (display.dim settings.bright button).backlight = (settings.release button).bright := by
  cases button with
  | brighter | dimmer =>
      dsimp only [dim, echo, Settings.release]
      rw [same, echoedBrightness_getD]
  | mute => exact same
  | warnUp | warnDown =>
      rw [Settings.release]
      split_ifs <;> exact same

theorem Settings.release_mute (settings : Settings) (button : TouchButton) :
    (settings.release button).mute = settings.mute := by
  cases button <;> try rfl
  all_goals
    rw [release]
    split_ifs <;> rfl

/-- The handler of a button draws it as it should look afterwards. -/
theorem Panel.face_act_self (panel : Panel) (button : TouchButton) (phase : Phase) :
    (panel.act button phase).face button =
      ⟨button, phase.color, button.mod panel.settings.mute⟩ := by
  cases phase <;> cases button <;>
    simp [face, act, Phase.color, TouchButton.mod, Settings.press, Settings.release]

theorem Panel.face_act_other (panel : Panel) {button other : TouchButton}
    (different : other ≠ button) (phase : Phase) :
    (panel.act button phase).face other = panel.face other := by
  have pressed : (panel.act button phase).pressed other = panel.pressed other := by
    cases phase <;> exact Function.update_of_ne different ..
  have mode : other.mod ((panel.act button phase).settings.mute !=
      (panel.act button phase).pressed .mute) =
        other.mod (panel.settings.mute != panel.pressed .mute) := by
    cases other with
    | brighter | dimmer | warnUp | warnDown => rfl
    | mute =>
        rw [pressed]
        cases phase with
        | press => cases button <;> first | exact absurd rfl different | rfl
        | release => rw [act, Settings.release_mute]
  rw [face, face, pressed, mode]

theorem Panel.face_act {panel : Panel}
    (drawn : ∀ other, lastDrawing display.drawings other = some (panel.face other))
    (button : TouchButton) (phase : Phase) (other : TouchButton) :
    lastDrawing (display.drawings ++ [⟨button, phase.color, button.mod panel.settings.mute⟩])
      other = some ((panel.act button phase).face other) := by
  rw [lastDrawing_append]
  by_cases same : button = other
  · subst same
    rw [if_pos rfl, panel.face_act_self]
  · rw [if_neg same, panel.face_act_other (Ne.symm same), drawn other]

/-- A step that leaves settings and buttons alone and puts nothing out. -/
theorem Display.Matches.keep {after : Panel} (shown : display.Matches panel)
    (settings : after.settings = panel.settings) (pressed : after.pressed = panel.pressed)
    (running : panel.point ≠ .starting ∧ after.point ≠ .starting)
    (open_ : after.point.isClosed = false → panel.point.isClosed = false)
    (handled : after.point.handles = false → panel.point.handles = false) :
    display.Matches after where
  drawn _ button := by
    rw [Panel.face, pressed, settings]
    exact shown.drawn running.1 button
  backlight notClosed := by
    rw [settings]
    exact shown.backlight (open_ notClosed)
  size := shown.size
  written _ resting := by
    rw [settings]
    exact shown.written running.1 (handled resting)
  starting := fun isStarting => absurd isStarting running.2

theorem Display.Matches.store (shown : display.Matches panel) (store : TouchStore) :
    display.Matches (panel.store store) := by
  cases store <;>
    exact ⟨shown.drawn, shown.backlight, shown.size, shown.written, shown.starting⟩

theorem Display.Matches.act (shown : display.Matches panel) {buttons : List TouchButton}
    {phase : Phase} {button : TouchButton}
    (isPoint : panel.point = .testing phase (button :: buttons) []) :
    (display.act panel.settings button phase).Matches (panel.act button phase) := by
  have running : panel.point ≠ .starting := by
    rw [isPoint]
    exact fun other => nomatch other
  have open_ : panel.point.isClosed = false := by
    rw [isPoint]
    rfl
  have drawn := Panel.face_act (shown.drawn running) button phase
  cases phase with
  | press =>
      constructor
      · exact fun _ => drawn
      · intro _
        have sameBright : (panel.settings.press button).bright = panel.settings.bright := by
          cases button <;> rfl
        exact (shown.backlight open_).trans sameBright.symm
      · exact shown.size
      · exact fun _ resting => nomatch resting
      · exact fun starting => nomatch starting
  | release =>
      have size : ∀ texts ∈ ((display.draw [⟨button, Phase.release.color,
          button.mod panel.settings.mute⟩]).dim panel.settings.bright button).texts,
            texts.1.length = 16 := by
        rw [Display.dim_texts]
        exact shown.size
      have texts := Display.refresh_texts (panel.settings.release button) size
      constructor
      · intro _ other
        dsimp only [Display.act, Display.refresh]
        rw [Display.dim_drawings]
        exact drawn other
      · intro _
        have bright : (display.draw [⟨button, Phase.release.color,
            button.mod panel.settings.mute⟩]).backlight = panel.settings.bright :=
          shown.backlight open_
        exact Display.dim_backlight bright button
      · exact fun _ written => (texts _ written).1
      · exact fun _ _ _ written => (texts _ written).2
      · exact fun starting => nomatch starting

/-- At the end of a touch that is over no button the text LCD is written all the same. -/
theorem Display.Matches.missed (shown : display.Matches panel) {tests : List Edge}
    (isPoint : panel.point = .testing .release [] tests) :
    (display.refresh panel.settings).Matches { panel with point := .scanning } := by
  have texts := Display.refresh_texts panel.settings shown.size
  have running : panel.point ≠ .starting := by
    rw [isPoint]
    exact fun other => nomatch other
  have open_ : panel.point.isClosed = false := by
    rw [isPoint]
    rfl
  exact ⟨fun _ => shown.drawn running, fun _ => shown.backlight open_,
    fun _ written => (texts _ written).1, fun _ _ _ written => (texts _ written).2,
    fun starting => nomatch starting⟩

theorem Display.Matches.started (shown : display.Matches panel)
    (isPoint : panel.point = .starting) :
    ((display.draw firstButtons).refresh panel.settings).Matches
      { panel with upDownFlag := false, point := .scanning } := by
  rcases shown.starting isPoint with ⟨settings, pressed⟩
  have size : ∀ texts ∈ (display.draw firstButtons).texts, texts.1.length = 16 := shown.size
  have texts := Display.refresh_texts panel.settings size
  have open_ : panel.point.isClosed = false := by
    rw [isPoint]
    rfl
  constructor
  · intro _ button
    dsimp only [Display.refresh, Display.draw, Panel.face]
    rw [lastDrawing_firstButtons, pressed, settings]
    rfl
  · exact fun _ => shown.backlight open_
  · exact fun _ written => (texts _ written).1
  · exact fun _ _ _ written => (texts _ written).2
  · exact fun starting => nomatch starting

theorem Display.Matches.fpgaProcess (shown : display.Matches panel) (switches : Switches) :
    (display.fpgaProcess panel).Matches (panel.fpgaProcess switches) := by
  cases isPoint : panel.point with
  | starting =>
      simp only [Display.fpgaProcess, Panel.fpgaProcess, isPoint]
      exact shown.started isPoint
  | scanning | sounding _ | flagging | settling =>
      simp only [Display.fpgaProcess, Panel.fpgaProcess, isPoint]
      apply shown.keep <;> simp [isPoint, PanelPoint.isClosed, PanelPoint.handles]
  | switching scanned =>
      simp only [Display.fpgaProcess, Panel.fpgaProcess, isPoint]
      split_ifs <;> apply shown.keep <;>
        simp [isPoint, PanelPoint.isClosed, PanelPoint.handles]
  | polling | waiting =>
      simp only [Display.fpgaProcess, Panel.fpgaProcess, isPoint]
      split_ifs <;> apply shown.keep <;>
        simp [isPoint, PanelPoint.isClosed, PanelPoint.handles]
  | testing phase buttons tests =>
      cases buttons with
      | nil =>
          cases phase with
          | press =>
              simp only [Display.fpgaProcess, Panel.fpgaProcess, isPoint]
              apply shown.keep <;>
                simp [isPoint, Phase.after, PanelPoint.isClosed, PanelPoint.handles]
          | release =>
              simp only [Display.fpgaProcess, Panel.fpgaProcess, isPoint]
              exact shown.missed isPoint
      | cons button buttons =>
          cases tests with
          | nil =>
              simp only [Display.fpgaProcess, Panel.fpgaProcess, isPoint]
              exact shown.act isPoint
          | cons edge tests =>
              simp only [Display.fpgaProcess, Panel.fpgaProcess, isPoint]
              split_ifs <;> apply shown.keep <;>
                simp [isPoint, PanelPoint.isClosed, PanelPoint.handles]
  | closed =>
      simp only [Display.fpgaProcess, Panel.fpgaProcess, isPoint]
      refine ⟨shown.drawn, ?_, shown.size, shown.written, shown.starting⟩
      intro notClosed
      rw [isPoint] at notClosed
      cases notClosed

/-- A step leaves the warn line and the texts alone, or writes the new settings. -/
theorem Display.fpgaProcess_texts (display : Display) (panel : Panel) (switches : Switches) :
    ((display.fpgaProcess panel).texts = display.texts ∧
      (panel.fpgaProcess switches).settings.warnLine = panel.settings.warnLine) ∨
      (display.fpgaProcess panel).texts =
        (display.refresh (panel.fpgaProcess switches).settings).texts := by
  cases isPoint : panel.point with
  | starting =>
      right
      simp only [Display.fpgaProcess, Panel.fpgaProcess, isPoint]
      rfl
  | scanning | sounding _ | flagging | settling | polling | waiting | closed =>
      left
      simp [Display.fpgaProcess, Panel.fpgaProcess, isPoint]
  | switching scanned =>
      left
      simp only [Display.fpgaProcess, Panel.fpgaProcess, isPoint]
      split_ifs <;> exact ⟨trivial, rfl⟩
  | testing phase buttons tests =>
      cases buttons with
      | nil =>
          cases phase with
          | press =>
              left
              simp [Display.fpgaProcess, Panel.fpgaProcess, isPoint]
          | release =>
              right
              simp only [Display.fpgaProcess, Panel.fpgaProcess, isPoint]
      | cons button buttons =>
          cases tests with
          | nil =>
              simp only [Display.fpgaProcess, Panel.fpgaProcess, isPoint]
              cases phase with
              | press => exact .inl ⟨rfl, Settings.press_warnLine ..⟩
              | release =>
                  right
                  dsimp only [Display.act, Display.refresh]
                  rw [Display.dim_texts]
                  rfl
          | cons edge tests =>
              left
              simp [Display.fpgaProcess, Panel.fpgaProcess, isPoint]

end Outputs

/-! ## Runs -/

theorem matches_of_run {condition : PanelState → PanelAction → Prop} {actions : List PanelAction}
    {state : PanelState} (run : displaying.RunWhere condition actions state) :
    state.display.Matches state.panel := by
  apply RunWhere.invariant (fun _ state => state.display.Matches state.panel) _ _ run
  · intro state initial
    rw [initial]
    refine ⟨fun started => absurd rfl started, fun _ => rfl, ?_, fun started => absurd rfl started,
      fun _ => ⟨rfl, rfl⟩⟩
    intro texts isTexts
    cases isTexts
    rfl
  · intro _ state action after shown _ stepped
    cases action with
    | set store =>
        cases stepped
        exact shown.store store
    | fpga switches =>
        cases stepped
        exact shown.fpgaProcess switches

/-- No line has overrun `str`. -/
def Display.Intact (display : Display) : Prop :=
  ∃ texts, display.texts = some texts

abbrev PanelState.TwoDigits (state : PanelState) : Prop :=
  state.panel.settings.warnLine < 100

theorem intact_step {state after : PanelState} {action : PanelAction}
    (shown : state.display.Matches state.panel)
    (twoDigits : state.display.Intact → state.TwoDigits)
    (stepped : displaying.step state action = some after) :
    after.display.Intact ↔ state.display.Intact ∧ after.TwoDigits := by
  cases action with
  | set store =>
      cases stepped
      have sameLine : (state.panel.store store).settings = state.panel.settings := by
        cases store <;> rfl
      rw [PanelState.TwoDigits, sameLine]
      exact (and_iff_left_of_imp twoDigits).symm
  | fpga switches =>
      cases stepped
      dsimp only [PanelState.fpgaProcess, PanelState.TwoDigits, Display.Intact]
      rcases state.display.fpgaProcess_texts state.panel switches with
        ⟨sameTexts, sameLine⟩ | refreshed
      · rw [sameTexts, sameLine]
        exact (and_iff_left_of_imp twoDigits).symm
      · rw [refreshed]
        exact Display.refresh_isSome _ shown.size

/-- The text LCD is written to until the warn line first reaches three digits. -/
theorem intact_iff_runThrough {actions : List PanelAction} {state : PanelState}
    (run : displaying.Run actions state) :
    state.display.Intact ↔ displaying.RunThrough PanelState.TwoDigits actions state := by
  constructor
  · induction run with
    | start initial =>
        intro _
        refine ⟨.start initial, ?_⟩
        rw [show _ = PanelState.initial from initial]
        decide
    | next action earlier _ stepped induction =>
        intro intact
        have stepIff := intact_step (matches_of_run earlier) (fun intact => (induction intact).2)
          stepped
        rcases stepIff.mp intact with ⟨wasIntact, twoDigits⟩
        rcases induction wasIntact with ⟨through, before⟩
        exact ⟨through.next action before stepped, twoDigits⟩
  · rintro ⟨through, last⟩
    clear run
    induction through with
    | start initial =>
        rw [show _ = PanelState.initial from initial]
        exact ⟨_, rfl⟩
    | next action earlier before stepped induction =>
        apply (intact_step (matches_of_run earlier) (fun _ => before) stepped).mpr
        exact ⟨induction before, last⟩

/-- Whatever `radar_process` draws in between, the buttons look as the settings and the
touches so far ask for, and so do the backlight and the text LCD between two touches. The
text LCD is lost when the warn line has reached three digits. -/
structure PanelShown (xres : Nat) (pfbdata : FrameBuffer Color) (actions : List PanelAction)
    (state : PanelState) : Prop where
  buttons : ∀ (cycles : List Cycle) (stores : List (Nat × Color)),
    Interleaving (radarStores xres cycles) (buttonStores xres state.display.drawings) stores →
      ∀ button : TouchButton, ∀ repy < 80, ∀ repx < 150,
        writeAll pfbdata stores (repy * xres + (button.positionX.toNat + repx)) =
          buttonColor
            (OffCorners button.positionX.toNat repy (button.positionX.toNat + repx : Nat))
            (state.panel.face button).color (state.panel.face button).mod repx repy
  backlight : state.panel.point.isClosed = false →
    state.display.backlight = state.panel.settings.bright
  written : state.panel.point.handles = false →
    ∀ texts ∈ state.display.texts, texts.2 = settingsText state.panel.settings
  intact : state.display.Intact ↔ displaying.RunThrough PanelState.TwoDigits actions state

theorem face_mode (panel : Panel) (button : TouchButton) :
    0 ≤ (panel.face button).mod ∧ (panel.face button).mod ≤ 3 := by
  rw [Panel.face]
  dsimp only
  cases button <;> cases (panel.settings.mute != panel.pressed .mute) <;> decide

/-- The stores of `radar_process` leave the buttons alone, in whatever order they come. -/
theorem button_pixel {xres : Nat} (wide : 1024 ≤ xres) (pfbdata : FrameBuffer Color)
    {drawings : List ButtonDrawing} {button : TouchButton} {last : ButtonDrawing}
    (mode : 0 ≤ last.mod ∧ last.mod ≤ 3) (isLast : lastDrawing drawings button = some last)
    {cycles : List Cycle} {stores : List (Nat × Color)}
    (interleaving : Interleaving (radarStores xres cycles) (buttonStores xres drawings) stores)
    {repy repx : Nat} (row : repy < 80) (column : repx < 150) :
    writeAll pfbdata stores (repy * xres + (button.positionX.toNat + repx)) =
      buttonColor (OffCorners button.positionX.toNat repy (button.positionX.toNat + repx : Nat))
        last.color last.mod repx repy := by
  rw [interleaving.writeAll_eq (footprints_disjoint wide cycles drawings)]
  exact writeAll_buttonStores wide mode drawings isLast _ row column

theorem panel_is_shown {xres : Nat} (wide : 1024 ≤ xres) (pfbdata : FrameBuffer Color)
    {actions : List PanelAction} {state : PanelState} (run : displaying.Run actions state)
    (started : state.panel.point ≠ .starting) : PanelShown xres pfbdata actions state := by
  have shown := matches_of_run run
  constructor
  · intro cycles stores interleaving button repy row repx column
    exact button_pixel wide pfbdata (face_mode state.panel button) (shown.drawn started button)
      interleaving row column
  · exact shown.backlight
  · exact shown.written started
  · exact intact_iff_runThrough run

/-- The mute button is held down. -/
def heldMute : List PanelAction :=
  [.fpga noSwitch, .set (.tX 20), .set (.tY 10), .set (.deep true)] ++
    List.replicate 11 (.fpga noSwitch)

theorem held_mute_is_shown :
    ∃ state, displaying.Run heldMute state ∧ state.panel.pressed .mute = true ∧
      PanelShown 1024 (fun _ => black) heldMute state := by
  have executed : (displaying.execute .initial heldMute).any
      (fun state => state.panel.pressed .mute && state.panel.point.notices) = true := by
    decide +kernel
  rcases exists_run _ rfl executed with ⟨state, run, passes⟩
  rw [Bool.and_eq_true] at passes
  rcases passes with ⟨pressed, notices⟩
  have started : state.panel.point ≠ .starting := by
    intro starting
    rw [starting] at notices
    cases notices
  exact ⟨state, run, pressed, panel_is_shown (Nat.le_refl 1024) _ run started⟩

/-! ## Taps on the screen -/

/-- The panel, its touch screen, and what it shows. -/
structure TapScreen where
  taps : TapState
  display : Display

def tapScreen : TransitionSystem TapScreen TapAction where
  Initial screen := screen = ⟨.initial, .initial⟩
  step screen
    | .set next => some { screen with taps := screen.taps.setProcess next }
    | .fpga switches =>
        some
          { taps := { screen.taps with panel := screen.taps.panel.fpgaProcess switches }
            display := screen.display.fpgaProcess screen.taps.panel }

def TapScreen.Unhurried (screen : TapScreen) (action : TapAction) : Prop :=
  Client.Unhurried screen.taps action

theorem taps_of_run {actions : List TapAction} {screen : TapScreen}
    (run : tapScreen.RunWhere TapScreen.Unhurried actions screen) :
    ∃ actions, tapping.RunWhere Unhurried actions screen.taps := by
  apply RunWhere.project TapScreen.taps _ _ run
  · intro screen initial
    rw [show screen = _ from initial]
    rfl
  · intro screen action after unhurried stepped
    refine .inr ⟨action, unhurried, ?_⟩
    cases action <;> cases stepped <;> rfl

theorem display_of_run {actions : List TapAction} {screen : TapScreen}
    (run : tapScreen.RunWhere TapScreen.Unhurried actions screen) :
    ∃ actions, displaying.Run actions ⟨screen.taps.panel, screen.display⟩ := by
  apply RunWhere.project (fun screen : TapScreen =>
    (⟨screen.taps.panel, screen.display⟩ : PanelState)) _ _ run
  · intro screen initial
    rw [show screen = _ from initial]
    rfl
  · intro screen action after _ stepped
    right
    cases action with
    | set next =>
        cases stepped
        cases isPoint : screen.taps.point with
        | between =>
            refine ⟨.set (.tX next.x), trivial, ?_⟩
            simp only [TapState.setProcess, isPoint]
            rfl
        | storing tap =>
            refine ⟨.set (.tY tap.y), trivial, ?_⟩
            simp only [TapState.setProcess, isPoint]
            rfl
        | pressing tap =>
            refine ⟨.set (.deep true), trivial, ?_⟩
            simp only [TapState.setProcess, isPoint]
            rfl
        | lifting tap =>
            refine ⟨.set (.deep false), trivial, ?_⟩
            simp only [TapState.setProcess, isPoint]
            rfl
    | fpga switches =>
        cases stepped
        exact ⟨.fpga switches, trivial, rfl⟩

/-- Once all taps are over and handled, the screen shows the settings that the taps make
one after the other, and no button as pressed. -/
structure ShowsTaps (xres : Nat) (pfbdata : FrameBuffer Color) (screen : TapScreen)
    (settings : Settings) : Prop where
  buttons : ∀ (cycles : List Cycle) (stores : List (Nat × Color)),
    Interleaving (radarStores xres cycles) (buttonStores xres screen.display.drawings) stores →
      ∀ button : TouchButton, ∀ repy < 80, ∀ repx < 150,
        writeAll pfbdata stores (repy * xres + (button.positionX.toNat + repx)) =
          buttonColor
            (OffCorners button.positionX.toNat repy (button.positionX.toNat + repx : Nat))
            puple (button.mod settings.mute) repx repy
  backlight : screen.display.backlight = settings.bright
  written : ∀ texts ∈ screen.display.texts, texts.2 = settingsText settings

theorem taps_are_shown {xres : Nat} (wide : 1024 ≤ xres) (pfbdata : FrameBuffer Color)
    {actions : List TapAction} {screen : TapScreen}
    (run : tapScreen.RunWhere TapScreen.Unhurried actions screen)
    (between : screen.taps.point = .between) (scanning : screen.taps.panel.point = .scanning)
    (up : screen.taps.panel.deep = false) :
    ShowsTaps xres pfbdata screen (screen.taps.taps.foldl Settings.tap .initial) := by
  rcases taps_of_run run with ⟨_, tapRun⟩
  rcases display_of_run run with ⟨_, displayRun⟩
  rcases actedOnce_of_run _ _ tapRun between scanning up with ⟨settings, pressed⟩
  have shown := matches_of_run displayRun
  dsimp only at shown
  have started : screen.taps.panel.point ≠ .starting := by
    rw [scanning]
    exact fun starting => nomatch starting
  rw [← settings]
  constructor
  · intro cycles stores interleaving button repy row repx column
    have drawn := shown.drawn started button
    have face : screen.taps.panel.face button =
        ⟨button, puple, button.mod screen.taps.panel.settings.mute⟩ := by
      rw [Panel.face, pressed, pressed, Bool.bne_false]
      rfl
    have pixel := button_pixel wide pfbdata (face_mode screen.taps.panel button) drawn
      interleaving row column
    rwa [face] at pixel
  · apply shown.backlight
    rw [scanning]
    rfl
  · apply shown.written started
    rw [scanning]
    rfl

instance (screen : TapScreen) (action : TapAction) : Decidable (screen.Unhurried action) :=
  inferInstanceAs (Decidable (Client.Unhurried screen.taps action))

def TapScreen.settled (screen : TapScreen) : Bool :=
  match screen.taps.point, screen.taps.panel.point with
  | .between, .scanning => !screen.taps.panel.deep
  | _, _ => false

theorem settled_iff {screen : TapScreen} (settled : screen.settled = true) :
    screen.taps.point = .between ∧ screen.taps.panel.point = .scanning ∧
      screen.taps.panel.deep = false := by
  unfold TapScreen.settled at settled
  split at settled
  · rename_i between scanning
    exact ⟨between, scanning, Bool.not_eq_true' _ ▸ settled⟩
  · cases settled

/-- A tap on the mute button, noticed and let go. -/
def mutedByTap : List TapAction :=
  [.fpga noSwitch] ++ List.replicate 3 (.set muteTap) ++ List.replicate 11 (.fpga noSwitch) ++
    [.set muteTap] ++ List.replicate 8 (.fpga noSwitch)

theorem muting_tap_is_shown :
    ∃ screen, tapScreen.RunWhere TapScreen.Unhurried mutedByTap screen ∧
      screen.taps.panel.settings.mute = true ∧
        ShowsTaps 1024 (fun _ => black) screen (screen.taps.taps.foldl Settings.tap .initial) := by
  have executed : (tapScreen.executeWhere TapScreen.Unhurried ⟨.initial, .initial⟩ mutedByTap).any
      (fun screen => screen.taps.panel.settings.mute && screen.settled) = true := by
    decide +kernel
  rcases exists_runWhere _ rfl executed with ⟨screen, run, passes⟩
  rw [Bool.and_eq_true] at passes
  rcases passes with ⟨muted, settled⟩
  rcases settled_iff settled with ⟨between, scanning, up⟩
  exact ⟨screen, run, muted, taps_are_shown (Nat.le_refl 1024) _ run between scanning up⟩

end GamZ.Client
