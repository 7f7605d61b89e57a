import GamZ.Client.Panel
import GamZ.Foundation.Transition

/-! # Taps

A tap stores its coordinates and raises and lowers `deep`; `fpga_process` samples `deep`
between its delays. A tap acts once if `fpga_process` notices it in time and is left
alone until it has let go of the button. -/

namespace GamZ.Client

open Transition TransitionSystem

structure Tap where
  x : Int
  y : Int
deriving DecidableEq

/-! ## The two processes -/

/-- Where `set_process` is in a tap. -/
inductive TapPoint
  /-- No tap; the next one begins with `*t_x`. -/
  | between
  /-- `*t_y` -/
  | storing (tap : Tap)
  /-- `*deep = 1;` -/
  | pressing (tap : Tap)
  /-- `*deep = 0;` -/
  | lifting (tap : Tap)

/-- The panel and `set_process`. The taps begun so far are kept as history. -/
structure TapState where
  panel : Panel
  point : TapPoint
  taps : List Tap

def TapState.initial : TapState where
  panel := .initial
  point := .between
  taps := []

/-- A step of `set_process`. `next` is the tap that may begin here. -/
def TapState.setProcess (state : TapState) (next : Tap) : TapState :=
  match state.point with
  | .between =>
      { panel := state.panel.store (.tX next.x)
        point := .storing next
        taps := state.taps ++ [next] }
  | .storing tap =>
      { state with panel := state.panel.store (.tY tap.y), point := .pressing tap }
  | .pressing tap =>
      { state with panel := state.panel.store (.deep true), point := .lifting tap }
  | .lifting _ => { state with panel := state.panel.store (.deep false), point := .between }

inductive TapAction
  | set (next : Tap)
  | fpga (switches : Switches)

def tapping : TransitionSystem TapState TapAction where
  Initial state := state = .initial
  step state
    | .set next => some (state.setProcess next)
    | .fpga switches => some { state with panel := state.panel.fpgaProcess switches }

/-! ## What taps should do -/

/-- The button at a point of the screen. -/
def hit (x y : Int) : Option TouchButton :=
  touchButtons.find? fun button => edges.all (button.within x y)

def Settings.noticed (settings : Settings) : Option TouchButton → Settings
  | some button => settings.press button
  | none => settings

def Settings.letGo (settings : Settings) : Option TouchButton → Settings
  | some button => settings.release button
  | none => settings

def Settings.tap (settings : Settings) (tap : Tap) : Settings :=
  (settings.noticed (hit tap.x tap.y)).letGo (hit tap.x tap.y)

/-- With all taps over and nothing left to sample, each of them has acted once and in
order, and no button is drawn as pressed. -/
def ActedOnce (state : TapState) : Prop :=
  state.point = .between → state.panel.point = .scanning → state.panel.deep = false →
    state.panel.settings = state.taps.foldl Settings.tap .initial ∧
      ∀ button, state.panel.pressed button = false

/-- `fpga_process` is in the branch that handles a touch. -/
def PanelPoint.handles : PanelPoint → Bool
  | .testing _ _ _ | .waiting => true
  | _ => false

/-- `fpga_process` has noticed a touch and waits for its end. -/
def PanelPoint.notices : PanelPoint → Bool
  | .testing .press _ _ | .waiting => true
  | _ => false

/-- `fpga_process` has more of the touch to read that it handles. -/
def PanelPoint.reads : PanelPoint → Bool
  | .testing .release (_ :: _) (_ :: _) => true
  | point => point.notices

def PanelPoint.isClosed : PanelPoint → Bool
  | .closed => true
  | _ => false

/-- A tap begins when the one before has been read, and a tap on a button ends when it
has been noticed, unless `fpga_process` has ended. -/
def Unhurried (state : TapState) : TapAction → Prop
  | .fpga _ => True
  | .set _ =>
      match state.point with
      | .between => state.panel.point.reads = false
      | .lifting tap =>
          state.panel.point.notices = true ∨ hit tap.x tap.y = none ∨
            state.panel.point.isClosed = true
      | .storing _ | .pressing _ => True

/-! ## A chain of tests -/

/-- The button that the rest of a chain finds at a point. -/
def hitFrom (x y : Int) : List TouchButton → List Edge → Option TouchButton
  | [], _ => none
  | button :: buttons, tests =>
      if tests.all (button.within x y) then some button
      else buttons.find? fun button => edges.all (button.within x y)

theorem hitFrom_edges (x y : Int) (buttons : List TouchButton) :
    hitFrom x y buttons edges = buttons.find? fun button => edges.all (button.within x y) := by
  cases buttons with
  | nil => rfl
  | cons button buttons =>
      rw [hitFrom, List.find?_cons]
      cases edges.all (button.within x y) <;> rfl

theorem hitFrom_test (x y : Int) (button : TouchButton) (buttons : List TouchButton) (edge : Edge)
    (tests : List Edge) :
    hitFrom x y (button :: buttons) (edge :: tests) =
      if button.within x y edge then hitFrom x y (button :: buttons) tests
      else hitFrom x y buttons edges := by
  rw [hitFrom_edges, hitFrom, hitFrom, List.all_cons]
  cases button.within x y edge <;> simp

theorem hitFrom_passed (x y : Int) (button : TouchButton) (buttons : List TouchButton) :
    hitFrom x y (button :: buttons) [] = some button := by
  simp [hitFrom]

/-! ## A tap on its way -/

structure Idle (panel : Panel) (settings : Settings) : Prop where
  settings : panel.settings = settings
  pressed : panel.pressed = fun _ => false
  point : panel.point.handles = false

/-- Nothing is being handled, or what is left of it needs no more of the touch. -/
inductive Resting (panel : Panel) (settings : Settings) : Prop
  | idle : Idle panel settings → Resting panel settings
  | missing {tests : List Edge} : panel.point = .testing .release [] tests →
      panel.settings = settings → panel.pressed = (fun _ => false) → Resting panel settings
  | leaving {button : TouchButton} {buttons : List TouchButton} :
      panel.point = .testing .release (button :: buttons) [] →
      panel.settings.release button = settings →
      Function.update panel.pressed button false = (fun _ => false) → Resting panel settings

structure AtTap (panel : Panel) (tap : Tap) : Prop where
  tX : panel.tX = tap.x
  tY : panel.tY = tap.y

/-- The button of the tap is drawn as pressed, and no other. -/
def onlyPressed (button : Option TouchButton) : TouchButton → Bool :=
  fun other => decide (button = some other)

/-- The tap has been noticed and is waited for to end. -/
inductive Noticing (panel : Panel) (before : Settings) (tap : Tap) : Prop
  | testing {buttons : List TouchButton} {tests : List Edge} :
      panel.point = .testing .press buttons tests → panel.settings = before →
      panel.pressed = (fun _ => false) →
      hitFrom tap.x tap.y buttons tests = hit tap.x tap.y → Noticing panel before tap
  | waiting : panel.point = .waiting → panel.settings = before.noticed (hit tap.x tap.y) →
      panel.pressed = onlyPressed (hit tap.x tap.y) → Noticing panel before tap

/-- The tap is over and its button is looked for once more. -/
structure LettingGo (panel : Panel) (before : Settings) (tap : Tap) : Prop where
  testing : ∃ buttons tests, panel.point = .testing .release buttons tests ∧
    hitFrom tap.x tap.y buttons tests = hit tap.x tap.y
  settings : panel.settings = before.noticed (hit tap.x tap.y)
  pressed : panel.pressed = onlyPressed (hit tap.x tap.y)

theorem fpgaProcess_touch (panel : Panel) (switches : Switches) :
    (panel.fpgaProcess switches).tX = panel.tX ∧ (panel.fpgaProcess switches).tY = panel.tY ∧
      (panel.fpgaProcess switches).deep = panel.deep := by
  unfold Panel.fpgaProcess
  split <;> try exact ⟨rfl, rfl, rfl⟩
  · split_ifs <;> exact ⟨rfl, rfl, rfl⟩
  · rename_i phase _ _ _
    cases phase <;> exact ⟨rfl, rfl, rfl⟩

section Steps

variable {panel : Panel} {before : Settings} {tap : Tap}

theorem AtTap.fpgaProcess (atTap : AtTap panel tap) (switches : Switches) :
    AtTap (panel.fpgaProcess switches) tap := by
  rcases fpgaProcess_touch panel switches with ⟨sameX, sameY, -⟩
  exact ⟨sameX.trans atTap.tX, sameY.trans atTap.tY⟩

/-- Without a touch the panel keeps resting, and with one it may notice it. -/
theorem Idle.fpgaProcess (idle : Idle panel before) (switches : Switches) :
    Idle (panel.fpgaProcess switches) before ∨
      panel.deep = true ∧ ∀ tap, Noticing (panel.fpgaProcess switches) before tap := by
  rcases idle with ⟨settings, pressed, point⟩
  cases isPoint : panel.point with
  | starting | scanning | sounding _ | flagging | settling =>
      left
      simp only [Panel.fpgaProcess, isPoint]
      exact ⟨settings, pressed, rfl⟩
  | switching scanned =>
      left
      simp only [Panel.fpgaProcess, isPoint]
      split_ifs <;> exact ⟨settings, pressed, rfl⟩
  | polling =>
      simp only [Panel.fpgaProcess, isPoint]
      cases touched : panel.deep with
      | false => exact .inl ⟨settings, pressed, rfl⟩
      | true => exact .inr ⟨rfl, fun tap => .testing rfl settings pressed (hitFrom_edges ..)⟩
  | testing _ _ _ | waiting =>
      rw [isPoint] at point
      cases point
  | closed =>
      left
      simp only [Panel.fpgaProcess, isPoint]
      exact ⟨settings, pressed, by rw [isPoint]; rfl⟩

theorem Resting.fpgaProcess (resting : Resting panel before) (switches : Switches) :
    Resting (panel.fpgaProcess switches) before ∨
      panel.deep = true ∧ ∀ tap, Noticing (panel.fpgaProcess switches) before tap := by
  rcases resting with idle | ⟨isPoint, settings, pressed⟩ | ⟨isPoint, settings, pressed⟩
  · rcases idle.fpgaProcess switches with still | noticed
    · exact .inl (.idle still)
    · exact .inr noticed
  · left
    simp only [Panel.fpgaProcess, isPoint]
    exact .idle ⟨settings, pressed, rfl⟩
  · left
    simp only [Panel.fpgaProcess, isPoint, Panel.act]
    exact .idle ⟨settings, pressed, rfl⟩

/-- With no touch to notice the panel keeps resting. -/
theorem Resting.fpgaProcess_up (resting : Resting panel before) (up : panel.deep = false)
    (switches : Switches) : Resting (panel.fpgaProcess switches) before := by
  rcases resting.fpgaProcess switches with still | ⟨touched, -⟩
  · exact still
  · cases touched.symm.trans up

theorem onlyPressed_none : onlyPressed none = fun _ => false := by
  funext other
  rfl

theorem onlyPressed_some (button : TouchButton) :
    onlyPressed (some button) = Function.update (fun _ => false) button true := by
  funext other
  by_cases same : other = button
  · subst same
    simp [onlyPressed]
  · rw [Function.update_of_ne same, onlyPressed]
    simpa using Ne.symm same

/-- One test of a chain, at the coordinates of the tap. -/
theorem AtTap.test (atTap : AtTap panel tap) {button : TouchButton}
    {buttons : List TouchButton} {edge : Edge} {tests : List Edge}
    (found : hitFrom tap.x tap.y (button :: buttons) (edge :: tests) = hit tap.x tap.y) :
    ∃ later rest, (∀ phase, (if button.within panel.tX panel.tY edge then
          PanelPoint.testing phase (button :: buttons) tests
        else .testing phase buttons edges) = .testing phase later rest) ∧
      hitFrom tap.x tap.y later rest = hit tap.x tap.y := by
  rw [hitFrom_test, ← atTap.tX, ← atTap.tY] at found
  rw [← atTap.tX, ← atTap.tY]
  by_cases passed : button.within panel.tX panel.tY edge
  · rw [if_pos passed] at found
    exact ⟨_, _, fun _ => if_pos passed, found⟩
  · rw [if_neg passed] at found
    exact ⟨_, _, fun _ => if_neg passed, found⟩

theorem Noticing.fpgaProcess (noticing : Noticing panel before tap) (atTap : AtTap panel tap)
    (switches : Switches) :
    Noticing (panel.fpgaProcess switches) before tap ∨
      panel.deep = false ∧ LettingGo (panel.fpgaProcess switches) before tap := by
  rcases noticing with ⟨isPoint, settings, pressed, found⟩ | ⟨isPoint, settings, pressed⟩
  · left
    rename_i buttons tests
    cases buttons with
    | nil =>
        simp only [Panel.fpgaProcess, isPoint]
        have missed : hit tap.x tap.y = none := found.symm
        refine .waiting rfl ?_ ?_
        · rw [missed]
          exact settings
        · rw [missed, onlyPressed_none]
          exact pressed
    | cons button buttons =>
        cases tests with
        | nil =>
            simp only [Panel.fpgaProcess, isPoint, Panel.act]
            rw [hitFrom_passed] at found
            refine .waiting rfl ?_ ?_
            · rw [← found, settings]
              rfl
            · rw [← found, pressed, onlyPressed_some]
        | cons edge tests =>
            rcases atTap.test found with ⟨later, rest, point, found⟩
            simp only [Panel.fpgaProcess, isPoint]
            exact .testing (point .press) settings pressed found
  · simp only [Panel.fpgaProcess, isPoint]
    cases touched : panel.deep with
    | false =>
        exact .inr ⟨rfl, ⟨⟨_, _, rfl, hitFrom_edges ..⟩, settings, pressed⟩⟩
    | true => exact .inl (.waiting rfl settings pressed)

theorem LettingGo.resting (lettingGo : LettingGo panel before tap)
    (read : panel.point.reads = false) : Resting panel (before.tap tap) := by
  rcases lettingGo with ⟨⟨buttons, tests, isPoint, found⟩, settings, pressed⟩
  cases buttons with
  | nil =>
      have missed : hit tap.x tap.y = none := found.symm
      rw [missed] at settings pressed
      rw [Settings.tap, missed]
      exact .missing isPoint settings (pressed.trans onlyPressed_none)
  | cons button buttons =>
      cases tests with
      | nil =>
          rw [hitFrom_passed] at found
          rw [← found] at settings pressed
          rw [Settings.tap, ← found]
          refine .leaving isPoint ?_ ?_
          · rw [settings]
            rfl
          · rw [pressed, onlyPressed_some, Function.update_idem]
            exact Function.update_eq_self button _
      | cons edge tests =>
          rw [isPoint] at read
          cases read

theorem LettingGo.fpgaProcess (lettingGo : LettingGo panel before tap) (atTap : AtTap panel tap)
    (up : panel.deep = false) (switches : Switches) :
    LettingGo (panel.fpgaProcess switches) before tap ∨
      Resting (panel.fpgaProcess switches) (before.tap tap) := by
  cases read : panel.point.reads with
  | false =>
      right
      exact (lettingGo.resting read).fpgaProcess_up up switches
  | true =>
      left
      rcases lettingGo with ⟨⟨buttons, tests, isPoint, found⟩, settings, pressed⟩
      rw [isPoint] at read
      rcases buttons with _ | ⟨button, buttons⟩
      · cases read
      · rcases tests with _ | ⟨edge, tests⟩
        · cases read
        · rcases atTap.test found with ⟨later, rest, point, found⟩
          simp only [Panel.fpgaProcess, isPoint]
          exact ⟨⟨later, rest, point .release, found⟩, settings, pressed⟩

end Steps

/-! ## Every tap in turn -/

def settingsAfter (taps : List Tap) : Settings :=
  taps.foldl Settings.tap .initial

theorem settingsAfter_concat (taps : List Tap) (tap : Tap) :
    settingsAfter (taps ++ [tap]) = (settingsAfter taps).tap tap := by
  rw [settingsAfter, List.foldl_append]
  rfl

/-- All taps before the last one have acted, and the last one is on its way. -/
def Tracks (state : TapState) : Prop :=
  match state.point with
  | .between =>
      state.panel.deep = false ∧
        (Resting state.panel (settingsAfter state.taps) ∨
          ∃ earlier tap, state.taps = earlier ++ [tap] ∧ AtTap state.panel tap ∧
            (Noticing state.panel (settingsAfter earlier) tap ∨
              LettingGo state.panel (settingsAfter earlier) tap))
  | .storing tap =>
      state.panel.deep = false ∧
        ∃ earlier, state.taps = earlier ++ [tap] ∧ state.panel.tX = tap.x ∧
          Resting state.panel (settingsAfter earlier)
  | .pressing tap =>
      state.panel.deep = false ∧
        ∃ earlier, state.taps = earlier ++ [tap] ∧ AtTap state.panel tap ∧
          Resting state.panel (settingsAfter earlier)
  | .lifting tap =>
      state.panel.deep = true ∧
        ∃ earlier, state.taps = earlier ++ [tap] ∧ AtTap state.panel tap ∧
          (Resting state.panel (settingsAfter earlier) ∨
            Noticing state.panel (settingsAfter earlier) tap)

theorem Resting.store {panel : Panel} {settings : Settings} (resting : Resting panel settings)
    (store : TouchStore) : Resting (panel.store store) settings := by
  rcases resting with idle | ⟨isPoint, settings, pressed⟩ | ⟨isPoint, settings, pressed⟩
  · cases store <;> exact .idle ⟨idle.settings, idle.pressed, idle.point⟩
  · cases store <;> exact .missing isPoint settings pressed
  · cases store <;> exact .leaving isPoint settings pressed

theorem Noticing.notices {panel : Panel} {before : Settings} {tap : Tap}
    (noticing : Noticing panel before tap) : panel.point.notices = true := by
  rcases noticing with ⟨isPoint, -, -, -⟩ | ⟨isPoint, -, -⟩ <;> rw [isPoint] <;> rfl

theorem Noticing.reads {panel : Panel} {before : Settings} {tap : Tap}
    (noticing : Noticing panel before tap) : panel.point.reads = true := by
  rcases noticing with ⟨isPoint, -, -, -⟩ | ⟨isPoint, -, -⟩ <;> rw [isPoint] <;> rfl

theorem Resting.not_notices {panel : Panel} {settings : Settings}
    (resting : Resting panel settings) : panel.point.notices = false := by
  rcases resting with idle | ⟨isPoint, -, -⟩ | ⟨isPoint, -, -⟩
  · have point := idle.point
    cases isPoint : panel.point <;> rw [isPoint] at point <;> first | rfl | cases point
  · rw [isPoint]
    rfl
  · rw [isPoint]
    rfl

theorem Resting.idle_of_scanning {panel : Panel} {settings : Settings}
    (resting : Resting panel settings) (scanning : panel.point = .scanning) :
    Idle panel settings := by
  rcases resting with idle | ⟨isPoint, -, -⟩ | ⟨isPoint, -, -⟩
  · exact idle
  · cases scanning.symm.trans isPoint
  · cases scanning.symm.trans isPoint

theorem Settings.tap_beside {settings : Settings} {tap : Tap} (beside : hit tap.x tap.y = none) :
    settings.tap tap = settings := by
  rw [Settings.tap, beside]
  rfl

theorem isClosed_store (panel : Panel) (store : TouchStore) :
    (panel.store store).point = panel.point := by
  cases store <;> rfl

theorem isClosed_fpgaProcess {panel : Panel} (closed : panel.point.isClosed = true)
    (switches : Switches) : (panel.fpgaProcess switches).point.isClosed = true := by
  cases isPoint : panel.point <;> rw [isPoint] at closed <;> cases closed
  simp only [Panel.fpgaProcess, isPoint, PanelPoint.isClosed]

theorem Tracks.fpga {state : TapState} (tracks : Tracks state) (switches : Switches) :
    Tracks { state with panel := state.panel.fpgaProcess switches } := by
  have untouched := (fpgaProcess_touch state.panel switches).2.2
  rcases state with ⟨panel, point, taps⟩
  dsimp only at untouched ⊢
  cases point with
  | between =>
      rcases tracks with ⟨up, resting | ⟨earlier, tap, last, atTap, noticing | lettingGo⟩⟩
      · exact ⟨untouched.trans up, .inl (resting.fpgaProcess_up up switches)⟩
      · refine ⟨untouched.trans up, .inr ⟨earlier, tap, last, atTap.fpgaProcess switches, ?_⟩⟩
        rcases noticing.fpgaProcess atTap switches with still | ⟨-, lettingGo⟩
        · exact .inl still
        · exact .inr lettingGo
      · refine ⟨untouched.trans up, ?_⟩
        rcases lettingGo.fpgaProcess atTap up switches with still | acted
        · exact .inr ⟨earlier, tap, last, atTap.fpgaProcess switches, .inr still⟩
        · left
          rw [last, settingsAfter_concat]
          exact acted
  | storing tap =>
      rcases tracks with ⟨up, earlier, last, atX, resting⟩
      exact ⟨untouched.trans up, earlier, last,
        (fpgaProcess_touch panel switches).1.trans atX, resting.fpgaProcess_up up switches⟩
  | pressing tap =>
      rcases tracks with ⟨up, earlier, last, atTap, resting⟩
      exact ⟨untouched.trans up, earlier, last, atTap.fpgaProcess switches,
        resting.fpgaProcess_up up switches⟩
  | lifting tap =>
      rcases tracks with ⟨down, earlier, last, atTap, resting | noticing⟩
      · refine ⟨untouched.trans down, earlier, last, atTap.fpgaProcess switches, ?_⟩
        rcases resting.fpgaProcess switches with still | ⟨-, noticed⟩
        · exact .inl still
        · exact .inr (noticed tap)
      · refine ⟨untouched.trans down, earlier, last, atTap.fpgaProcess switches, .inr ?_⟩
        rcases noticing.fpgaProcess atTap switches with still | ⟨up, -⟩
        · exact still
        · cases up.symm.trans down

theorem Tracks.set {state : TapState} (tracks : Tracks state) (next : Tap)
    (unhurried : Unhurried state (.set next)) (open_ : state.panel.point.isClosed = false) :
    Tracks (state.setProcess next) := by
  rcases state with ⟨panel, point, taps⟩
  cases point with
  | between =>
      rcases tracks with ⟨up, resting | ⟨earlier, tap, last, atTap, noticing | lettingGo⟩⟩
      · exact ⟨up, taps, rfl, rfl, resting.store (.tX next.x)⟩
      · cases noticing.reads.symm.trans unhurried
      · refine ⟨up, taps, rfl, rfl, ?_⟩
        have acted := lettingGo.resting unhurried
        rw [← settingsAfter_concat, ← last] at acted
        exact acted.store (.tX next.x)
  | storing tap =>
      rcases tracks with ⟨up, earlier, last, atX, resting⟩
      exact ⟨up, earlier, last, ⟨atX, rfl⟩, resting.store (.tY tap.y)⟩
  | pressing tap =>
      rcases tracks with ⟨up, earlier, last, atTap, resting⟩
      exact ⟨rfl, earlier, last, ⟨atTap.tX, atTap.tY⟩, .inl (resting.store (.deep true))⟩
  | lifting tap =>
      rcases tracks with ⟨down, earlier, last, atTap, resting | noticing⟩
      · have beside : hit tap.x tap.y = none := by
          rcases unhurried with notices | beside | closed
          · cases notices.symm.trans resting.not_notices
          · exact beside
          · cases closed.symm.trans open_
        refine ⟨rfl, .inl ?_⟩
        have acted : settingsAfter taps = settingsAfter earlier := by
          rw [show taps = earlier ++ [tap] from last, settingsAfter_concat,
            Settings.tap_beside beside]
        show Resting (panel.store (.deep false)) (settingsAfter taps)
        rw [acted]
        exact resting.store (.deep false)
      · refine ⟨rfl, .inr ⟨earlier, tap, last, ⟨atTap.tX, atTap.tY⟩, .inl ?_⟩⟩
        rcases noticing with ⟨isPoint, settings, pressed, found⟩ | ⟨isPoint, settings, pressed⟩
        · exact .testing isPoint settings pressed found
        · exact .waiting isPoint settings pressed

/-- The taps are on track, or nobody is left to handle them. -/
def TracksOrClosed (state : TapState) : Prop :=
  state.panel.point.isClosed = true ∨ Tracks state

theorem TracksOrClosed.step {state after : TapState} {action : TapAction}
    (tracks : TracksOrClosed state) (unhurried : Unhurried state action)
    (stepped : tapping.step state action = some after) : TracksOrClosed after := by
  cases action with
  | set next =>
      cases stepped
      cases closed : state.panel.point.isClosed with
      | true =>
          left
          rw [TapState.setProcess]
          cases state.point <;> simpa only [isClosed_store] using closed
      | false =>
          right
          rcases tracks with isClosed | tracks
          · cases isClosed.symm.trans closed
          · exact tracks.set next unhurried closed
  | fpga switches =>
      cases stepped
      rcases tracks with closed | tracks
      · exact .inl (isClosed_fpgaProcess closed switches)
      · exact .inr (tracks.fpga switches)

theorem tracksOrClosed_of_run {actions : List TapAction} {state : TapState}
    (run : tapping.RunWhere Unhurried actions state) : TracksOrClosed state := by
  apply RunWhere.invariant (fun _ state => TracksOrClosed state) _ _ run
  · intro state initial
    rw [initial]
    exact .inr ⟨rfl, .inl (.idle ⟨rfl, rfl, rfl⟩)⟩
  · intro _ _ _ _ tracks unhurried stepped
    exact tracks.step unhurried stepped

theorem actedOnce_of_run (actions : List TapAction) (state : TapState)
    (run : tapping.RunWhere Unhurried actions state) : ActedOnce state := by
  intro between scanning up
  rcases tracksOrClosed_of_run run with closed | tracks
  · rw [scanning] at closed
    cases closed
  · rw [Tracks, between] at tracks
    rcases tracks with ⟨-, resting | ⟨earlier, tap, last, atTap, noticing | lettingGo⟩⟩
    · have idle := resting.idle_of_scanning scanning
      exact ⟨idle.settings, fun button => congrFun idle.pressed button⟩
    · have notices := noticing.notices
      rw [scanning] at notices
      cases notices
    · rcases lettingGo.testing with ⟨_, _, isPoint, -⟩
      cases scanning.symm.trans isPoint

/-- Unhurried taps act once each, in every state of the run. -/
theorem taps_act_once {actions : List TapAction} {state : TapState}
    (run : tapping.RunWhere Unhurried actions state) :
    tapping.RunThrough ActedOnce actions state :=
  run.through actedOnce_of_run

instance (state : TapState) : ∀ action, Decidable (Unhurried state action)
  | .fpga _ => inferInstanceAs (Decidable True)
  | .set _ =>
      match isPoint : state.point with
      | .between =>
          decidable_of_iff (state.panel.point.reads = false) (by rw [Unhurried, isPoint])
      | .lifting tap =>
          decidable_of_iff (state.panel.point.notices = true ∨ hit tap.x tap.y = none ∨
            state.panel.point.isClosed = true) (by rw [Unhurried, isPoint])
      | .storing _ | .pressing _ => .isTrue (by rw [Unhurried, isPoint]; trivial)

def muteTap : Tap where
  x := 20
  y := 10

def noSwitch : Switches where
  raise := false
  lower := false
  exit := false

def warnUpTap : Tap where
  x := 300
  y := 10

/-- A tap that `fpga_process` notices, waits for and lets go. -/
def unhurriedTap (tap : Tap) : List TapAction :=
  List.replicate 3 (.set tap) ++ List.replicate 5 (.fpga noSwitch) ++ [.set tap] ++
    List.replicate 30 (.fpga noSwitch)

def unhurriedTaps : List TapAction :=
  [.fpga noSwitch] ++ unhurriedTap muteTap ++ unhurriedTap warnUpTap

theorem two_taps_act_once :
    ∃ state, tapping.RunWhere Unhurried unhurriedTaps state ∧
      state.taps = [muteTap, warnUpTap] ∧
      state.panel.settings = { mute := true, bright := 100, warnLine := 30 } ∧
      tapping.RunThrough ActedOnce unhurriedTaps state := by
  have executed : (tapping.executeWhere Unhurried .initial unhurriedTaps).any
      (fun state => state.taps == [muteTap, warnUpTap] &&
        state.panel.settings == { mute := true, bright := 100, warnLine := 30 }) = true := by
    decide +kernel
  rcases exists_runWhere _ rfl executed with ⟨state, run, acted⟩
  rw [Bool.and_eq_true, beq_iff_eq, beq_iff_eq] at acted
  exact ⟨state, run, acted.1, acted.2, taps_act_once run⟩

/-- All taps are over and the settings are not what they should have made of them. -/
def TapState.missed (state : TapState) : Bool :=
  match state.point, state.panel.point with
  | .between, .scanning =>
      !state.panel.deep && state.panel.settings != state.taps.foldl Settings.tap .initial
  | _, _ => false

theorem not_actedOnce_of_missed {state : TapState} (missed : state.missed = true) :
    ¬ ActedOnce state := by
  intro actedOnce
  unfold TapState.missed at missed
  split at missed
  · rename_i between scanning
    rw [Bool.and_eq_true, Bool.not_eq_true', bne_iff_ne] at missed
    exact missed.2 (actedOnce between scanning missed.1).1
  · cases missed

/-- A tap that is over before `*deep` is sampled is lost. -/
theorem short_tap_lost :
    ¬ ∀ (actions : List TapAction) (state : TapState), tapping.Run actions state →
      ActedOnce state := by
  intro actedOnce
  have executed : (tapping.execute .initial
      ([.fpga noSwitch] ++ List.replicate 4 (.set muteTap))).any TapState.missed = true := by
    decide +kernel
  rcases exists_run _ rfl executed with ⟨state, run, missed⟩
  exact not_actedOnce_of_missed missed (actedOnce _ state run)

end GamZ.Client
