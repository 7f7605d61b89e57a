import GamZ.Client.PanelDisplay
import GamZ.Foundation.FlagGuard
import GamZ.Foundation.LeadsTo

/-! # The semaphore of the screen

`fpga_process` draws its buttons between `*semaphore = 1` and `*semaphore = 0`, and
`radar_process` spins on `semaphore` in front of nearly all of its stores. The spin and
the store are two steps, and the column in the middle of the repaint is stored without a
look at the semaphore. -/

namespace GamZ.Client

open CString LastWriter Raster Transition TransitionSystem

/-! ## Cycles with two loads of the warn line -/

/-- A cycle as it runs beside `fpga_process`, which may store `*warn_line` between
`temp_warn = (*warn_line) * 2` and `warn_val = *warn_line`. -/
structure LoadedCycle where
  /-- Half of `temp_warn`. -/
  ringLine : Byte
  warnVal : Byte
  there : Fin 61 → Reading
  back : Fin 61 → Reading

/-- The ring is drawn at one value, the reading judged by the other. -/
def Direction.loadedPass (direction : Direction) (ringLine warnVal : Byte)
    (pass : Bearing × Reading) : Pass Color :=
  direction.sectorPass ringLine pass.1 (sectorOf warnVal pass.2)

def Direction.loadedPasses (direction : Direction) (ringLine warnVal : Byte)
    (readings : Fin 61 → Reading) : List (Pass Color) :=
  ((direction.passes readings).take 31).map (direction.loadedPass ringLine warnVal) ++
    [centreColumn] ++
    ((direction.passes readings).drop 31).map (direction.loadedPass ringLine warnVal)

def LoadedCycle.sectors (cycle : LoadedCycle) : List (Pass Color) :=
  Direction.forward.loadedPasses cycle.ringLine cycle.warnVal cycle.there ++
    Direction.back.loadedPasses cycle.ringLine cycle.warnVal cycle.back

def LoadedCycle.passes (cycle : LoadedCycle) : List (Pass Color) :=
  [repaintPass cycle.ringLine] ++ cycle.sectors

def loadedStores (xres : Nat) (cycles : List LoadedCycle) : List (Nat × Color) :=
  ([rimPass] ++ cycles.flatMap LoadedCycle.passes).flatMap fun pass => pass.stores xres

/-- Where nothing is stored in between, it is the cycle with one warn line. -/
def Cycle.loaded (cycle : Cycle) : LoadedCycle where
  ringLine := cycle.warnVal
  warnVal := cycle.warnVal
  there := cycle.there
  back := cycle.back

theorem loadedStores_loaded (xres : Nat) (cycles : List Cycle) :
    loadedStores xres (cycles.map Cycle.loaded) = radarStores xres cycles := by
  have same : ∀ cycle : Cycle, cycle.loaded.passes = cycle.passes := by
    intro cycle
    rw [LoadedCycle.passes, LoadedCycle.sectors, Cycle.passes, List.append_assoc]
    rfl
  rw [loadedStores, radarStores, List.flatMap_map]
  simp only [same]

theorem loadedPasses_forall (direction : Direction) (ringLine warnVal : Byte)
    (readings : Fin 61 → Reading) {Property : Pass Color → Prop} (column : Property centreColumn)
    (sector : ∀ pass, Property (direction.loadedPass ringLine warnVal pass)) :
    ∀ pass ∈ direction.loadedPasses ringLine warnVal readings, Property pass := by
  intro pass member
  rw [Direction.loadedPasses, List.mem_append, List.mem_append, List.mem_singleton, List.mem_map,
    List.mem_map] at member
  rcases member with (⟨measured, -, isPass⟩ | isColumn) | ⟨measured, -, isPass⟩
  · rw [← isPass]
    exact sector measured
  · rw [isColumn]
    exact column
  · rw [← isPass]
    exact sector measured

theorem sectors_drawBelow (cycle : LoadedCycle) : ∀ pass ∈ cycle.sectors, DrawsBelow 90 pass := by
  intro pass member
  rcases List.mem_append.mp member with there | back
  · exact loadedPasses_forall .forward _ _ _ centreColumn_drawsBelow
      (fun measured => sectorPass_drawsBelow .forward _ measured.1 _) pass there
  · exact loadedPasses_forall .back _ _ _ centreColumn_drawsBelow
      (fun measured => sectorPass_drawsBelow .back _ measured.1 _) pass back

theorem loadedStores_below (xres : Nat) (cycles : List LoadedCycle) {index : Nat}
    (stored : index ∈ footprint (loadedStores xres cycles)) : 90 * xres ≤ index := by
  apply stores_below _ xres stored
  intro pass member
  rcases List.mem_append.mp member with rim | later
  · rw [List.mem_singleton.mp rim]
    exact rimPass_drawsBelow
  · rcases List.mem_flatMap.mp later with ⟨cycle, -, inCycle⟩
    rcases List.mem_append.mp inCycle with repaint | sector
    · rw [List.mem_singleton.mp repaint]
      exact repaintPass_drawsBelow cycle.ringLine
    · exact sectors_drawBelow cycle pass sector

/-! ## The stores of `radar_process`, with their waits -/

/-- A store, and whether `while(*semaphore){}` stands in front of it. -/
structure ScreenStore where
  guarded : Bool
  index : Nat
  color : Color

def ScreenStore.write (store : ScreenStore) : Nat × Color := (store.index, store.color)

def guardedStores (guard : Nat → Nat → Bool) (pass : Pass Color) (xres : Nat) :
    List ScreenStore :=
  pass.rows.flatMap fun repy => pass.columns.filterMap fun repx =>
    (pass.pixel repy repx).map fun color => ⟨guard repy repx, repy * xres + repx, color⟩

/-- The branch `else if(repx == 512)` of the repaint has no wait. -/
def repaintGuarded (ringLine : Byte) (repy repx : Nat) : Bool :=
  let x : Int := repx - 512
  let y : Int := 599 - repy
  if WarnRing (ringLine.toNat * 2) x y then true
  else if SteepSpoke x y then true
  else if FlatSpoke x y then true
  else if SteepSpoke (-x) y then true
  else if FlatSpoke (-x) y then true
  else if repx = 512 then false
  else true

def waited (pass : Pass Color) (xres : Nat) : List ScreenStore :=
  guardedStores (fun _ _ => true) pass xres

/-- The stores of a cycle, in order. -/
def LoadedCycle.screenStores (xres : Nat) (cycle : LoadedCycle) : List ScreenStore :=
  guardedStores (repaintGuarded cycle.ringLine) (repaintPass cycle.ringLine) xres ++
    cycle.sectors.flatMap fun pass => waited pass xres

/-! ## The two processes -/

inductive SweepPoint
  /-- The stores left in front of the next `while(!quit)`. -/
  | drawing (stores : List ScreenStore)
  /-- The wait is over, the store comes next. -/
  | storing (store : ScreenStore) (stores : List ScreenStore)
  /-- `while(!quit)` -/
  | cycleTop
  /-- `temp_warn = (*warn_line) * 2;` -/
  | loadingRing
  /-- `warn_val = *warn_line;` -/
  | loadingLine (ringLine : Byte)
  | ended

inductive GuardPoint
  /-- `*semaphore = 1;` -/
  | locking
  /-- The stores left of `make_button`. -/
  | drawing (stores : List (Nat × Color))
  /-- `*semaphore = 0;` -/
  | unlocking
  /-- The next step is one of the panel. -/
  | free

/-- The screen with both processes. The stores made, the cycles begun and the buttons
drawn so far, and how often `radar_process` has waited and stored since the semaphore was
last set, are kept as history. -/
structure Screen where
  panel : Panel
  guard : GuardPoint
  semaphore : Int
  radar : SweepPoint
  quit : Bool
  pfbdata : FrameBuffer Color
  radarDone : List (Nat × Color)
  buttonsDone : List (Nat × Color)
  cycles : List LoadedCycle
  drawings : List ButtonDrawing
  sinceLocked : Nat

/-- `main` has set the semaphore. -/
def Screen.initial (xres : Nat) (pfbdata : FrameBuffer Color) : Screen where
  panel := .initial
  guard := .locking
  semaphore := 1
  radar := .drawing (waited rimPass xres)
  quit := false
  pfbdata := pfbdata
  radarDone := []
  buttonsDone := []
  cycles := []
  drawings := []
  sinceLocked := 0

section Steps

variable (xres : Nat) (state : Screen)

/-- `*warn_line`; the panel keeps it from 10 to 250. -/
def Screen.warnLine : Byte := UInt8.ofNat state.panel.settings.warnLine.toNat

/-- A step of `radar_process`, with the readings of the cycle that may begin here. -/
def Screen.radarStep (there back : Fin 61 → Reading) : Screen :=
  match state.radar with
  | .drawing [] => { state with radar := .cycleTop }
  | .drawing (store :: stores) =>
      if store.guarded = true ∧ state.semaphore ≠ 0 then state
      else { state with radar := .storing store stores }
  | .storing store stores =>
      { state with
        pfbdata := Function.update state.pfbdata store.index store.color
        radarDone := state.radarDone ++ [store.write]
        radar := .drawing stores
        sinceLocked := if store.guarded then state.sinceLocked + 1 else state.sinceLocked }
  | .cycleTop =>
      if state.quit then { state with radar := .ended }
      else { state with radar := .loadingRing }
  | .loadingRing => { state with radar := .loadingLine state.warnLine }
  | .loadingLine ringLine =>
      let cycle : LoadedCycle := ⟨ringLine, state.warnLine, there, back⟩
      { state with
        cycles := state.cycles ++ [cycle]
        radar := .drawing (cycle.screenStores xres) }
  | .ended => state

/-- The buttons that `fpga_process` draws when the panel has come to this point. -/
def Panel.draws (panel : Panel) : List ButtonDrawing :=
  match panel.point with
  | .starting => firstButtons
  | .testing phase (button :: _) [] =>
      [⟨button, phase.color, button.mod panel.settings.mute⟩]
  | _ => []

/-- A step of `fpga_process` outside of `make_button` and its accesses to the semaphore. -/
def Screen.panelStep (switches : Switches) : Screen :=
  match state.panel.point with
  | .polling =>
      { state with
        panel := state.panel.fpgaProcess switches
        guard := if state.panel.deep then .locking else .free }
  | .waiting =>
      { state with
        panel := state.panel.fpgaProcess switches
        guard := if state.panel.deep then .free else .locking }
  | .testing _ (_ :: _) [] =>
      { state with
        drawings := state.drawings ++ state.panel.draws
        guard := .drawing (buttonStores xres state.panel.draws) }
  | .testing _ [] _ =>
      { state with panel := state.panel.fpgaProcess switches, guard := .unlocking }
  | _ => { state with panel := state.panel.fpgaProcess switches }

def Screen.fpgaStep (switches : Switches) : Screen :=
  match state.guard with
  | .locking =>
      match state.panel.point with
      | .starting =>
          { state with
            semaphore := 1
            sinceLocked := 0
            drawings := state.drawings ++ state.panel.draws
            guard := .drawing (buttonStores xres state.panel.draws) }
      | _ => { state with semaphore := 1, sinceLocked := 0, guard := .free }
  | .drawing (store :: stores) =>
      { state with
        pfbdata := Function.update state.pfbdata store.1 store.2
        buttonsDone := state.buttonsDone ++ [store]
        guard := .drawing stores }
  | .drawing [] =>
      match state.panel.point with
      | .starting => { state with guard := .unlocking }
      | _ => { state with panel := state.panel.fpgaProcess switches, guard := .unlocking }
  | .unlocking => { state with semaphore := 0, guard := .free }
  | .free => state.panelStep xres switches

end Steps

inductive ScreenAction
  | set (store : TouchStore)
  | fpga (switches : Switches)
  | radar (there back : Fin 61 → Reading)
  /-- `SIGINT` comes to `radar_process`. -/
  | interrupt

def screens (xres : Nat) (pfbdata : FrameBuffer Color) : TransitionSystem Screen ScreenAction where
  Initial state := state = .initial xres pfbdata
  step state
    | .set store => some { state with panel := state.panel.store store }
    | .fpga switches => some (state.fpgaStep xres switches)
    | .radar there back => some (state.radarStep xres there back)
    | .interrupt => some { state with quit := true }

/-! ## At most one store in a section -/

/-- `radar_process` has waited for the semaphore and stores next. -/
def SweepPoint.passed : SweepPoint → Bool
  | .storing store _ => store.guarded
  | .drawing _ | .cycleTop | .loadingRing | .loadingLine _ | .ended => false

/-- The semaphore as a flag, with `radar_process` as its only visitor. -/
def Screen.flagGuard (state : Screen) : FlagGuard Unit where
  raised := decide (state.semaphore ≠ 0)
  passed := fun _ => state.radar.passed
  acts := fun _ => state.sinceLocked

section Flag

variable {xres : Nat} {pfbdata : FrameBuffer Color} {state after : Screen}

theorem update_unit {Value : Type} (old new : Value) :
    Function.update (fun _ : Unit => old) () new = fun _ => new := by
  funext visitor
  exact Function.update_self _ _ _

theorem radarStep_flag (there back : Fin 61 → Reading) :
    (state.radarStep xres there back).flagGuard = state.flagGuard ∨
      ∃ event, state.flagGuard.advance event =
        some (state.radarStep xres there back).flagGuard := by
  unfold Screen.radarStep
  split <;> rename_i point
  · exact .inl (by simp only [Screen.flagGuard, point, SweepPoint.passed])
  · rename_i store stores
    split_ifs with blocked
    · exact .inl rfl
    · cases isGuarded : store.guarded with
      | false =>
          left
          simp only [Screen.flagGuard, point, SweepPoint.passed, isGuarded]
      | true =>
          right
          have lowered : state.semaphore = 0 := by
            by_contra up
            exact blocked ⟨isGuarded, up⟩
          refine ⟨.pass (), ?_⟩
          simp only [FlagGuard.advance, Screen.flagGuard, lowered, SweepPoint.passed, isGuarded,
            update_unit]
          rfl
  · rename_i store stores
    cases isGuarded : store.guarded with
    | false =>
        left
        simp only [Screen.flagGuard, point, SweepPoint.passed, isGuarded]
        rfl
    | true =>
        right
        refine ⟨.act (), ?_⟩
        simp only [FlagGuard.advance, Screen.flagGuard, point, SweepPoint.passed, isGuarded,
          update_unit, if_true]
  · split_ifs <;> exact .inl (by simp only [Screen.flagGuard, point, SweepPoint.passed])
  · exact .inl (by simp only [Screen.flagGuard, point, SweepPoint.passed])
  · exact .inl (by simp only [Screen.flagGuard, point, SweepPoint.passed])
  · exact .inl rfl

theorem panelStep_frame (xres : Nat) (state : Screen) (switches : Switches) :
    (state.panelStep xres switches).semaphore = state.semaphore ∧
      (state.panelStep xres switches).radar = state.radar ∧
      (state.panelStep xres switches).sinceLocked = state.sinceLocked := by
  unfold Screen.panelStep
  split <;> exact ⟨rfl, rfl, rfl⟩

theorem fpgaStep_flag (switches : Switches) :
    (state.fpgaStep xres switches).flagGuard = state.flagGuard ∨
      ∃ event, state.flagGuard.advance event =
        some (state.fpgaStep xres switches).flagGuard := by
  unfold Screen.fpgaStep
  split
  · right
    refine ⟨.raise, ?_⟩
    split <;> rfl
  · exact .inl rfl
  · left
    split <;> rfl
  · exact .inr ⟨.lower, rfl⟩
  · left
    rcases panelStep_frame xres state switches with ⟨same, point, count⟩
    simp only [Screen.flagGuard, same, point, count]

end Flag

theorem flagGuard_of_run {xres : Nat} {pfbdata : FrameBuffer Color} {actions : List ScreenAction}
    {state : Screen} (run : (screens xres pfbdata).Run actions state) :
    ∃ events, (flagGuards Unit).Run events state.flagGuard := by
  apply run.project Screen.flagGuard
  · intro state initial
    subst initial
    exact ⟨true, rfl⟩
  · intro state action after _ stepped
    have shown : after.flagGuard = state.flagGuard ∨
        ∃ event, state.flagGuard.advance event = some after.flagGuard := by
      cases action <;> cases stepped
      case set store => exact .inl rfl
      case fpga switches => exact fpgaStep_flag switches
      case radar there back => exact radarStep_flag there back
      case interrupt => exact .inl rfl
    rcases shown with same | ⟨event, advanced⟩
    · exact .inl same
    · exact .inr ⟨event, trivial, advanced⟩

/-! ## When the semaphore is set -/

def PanelPoint.isStarting : PanelPoint → Bool
  | .starting => true
  | _ => false

def PanelPoint.isTesting : PanelPoint → Bool
  | .testing _ _ _ => true
  | _ => false

/-- All tests of a button are passed. -/
def PanelPoint.hits : PanelPoint → Bool
  | .testing _ (_ :: _) [] => true
  | _ => false

/-- Between `*semaphore = 1` and `*semaphore = 0`; the first one of these is in `main`. -/
def Screen.inSection (state : Screen) : Bool :=
  match state.guard with
  | .locking => state.panel.point.isStarting
  | .drawing _ | .unlocking => true
  | .free => state.panel.point.isTesting

def GuardPoint.Suits (point : PanelPoint) : GuardPoint → Prop
  | .locking => point.isStarting = true ∨ point.isTesting = true
  | .drawing _ => point.isStarting = true ∨ point.hits = true
  | .unlocking => point.isTesting = false
  | .free => True

structure WellGuarded (state : Screen) : Prop where
  semaphore : state.semaphore = if state.inSection then 1 else 0
  suits : state.guard.Suits state.panel.point

theorem wellGuarded_initial (xres : Nat) (pfbdata : FrameBuffer Color) :
    WellGuarded (.initial xres pfbdata) where
  semaphore := rfl
  suits := .inl rfl

section Guarded

variable {xres : Nat} {state : Screen}

theorem radarStep_frame (xres : Nat) (state : Screen) (there back : Fin 61 → Reading) :
    (state.radarStep xres there back).panel = state.panel ∧
      (state.radarStep xres there back).guard = state.guard ∧
      (state.radarStep xres there back).semaphore = state.semaphore ∧
      (state.radarStep xres there back).buttonsDone = state.buttonsDone ∧
      (state.radarStep xres there back).drawings = state.drawings := by
  unfold Screen.radarStep
  split
  · exact ⟨rfl, rfl, rfl, rfl, rfl⟩
  · split_ifs <;> exact ⟨rfl, rfl, rfl, rfl, rfl⟩
  · exact ⟨rfl, rfl, rfl, rfl, rfl⟩
  · split_ifs <;> exact ⟨rfl, rfl, rfl, rfl, rfl⟩
  · exact ⟨rfl, rfl, rfl, rfl, rfl⟩
  · exact ⟨rfl, rfl, rfl, rfl, rfl⟩
  · exact ⟨rfl, rfl, rfl, rfl, rfl⟩

theorem exists_of_hits {point : PanelPoint} (hits : point.hits = true) :
    ∃ phase button buttons, point = .testing phase (button :: buttons) [] := by
  unfold PanelPoint.hits at hits
  split at hits
  · exact ⟨_, _, _, rfl⟩
  · cases hits

/-- Where the panel goes on with its tests. -/
def Panel.staysTesting (panel : Panel) : Bool :=
  match panel.point with
  | .polling => panel.deep
  | .waiting => !panel.deep
  | .testing _ (_ :: _) (_ :: _) => true
  | _ => false

theorem fpgaProcess_isTesting (panel : Panel) (switches : Switches) :
    (panel.fpgaProcess switches).point.isTesting = panel.staysTesting := by
  unfold Panel.fpgaProcess Panel.staysTesting
  cases point : panel.point with
  | polling | waiting => cases panel.deep <;> rfl
  | switching scanned =>
      dsimp only
      split_ifs <;> rfl
  | testing phase buttons tests =>
      match buttons, tests with
      | [], _ => cases phase <;> rfl
      | button :: buttons, [] =>
          dsimp only
          rw [Panel.act_point]
          cases phase <;> rfl
      | button :: buttons, edge :: tests =>
          dsimp only
          split_ifs <;> rfl
  | starting | scanning | sounding | flagging | settling => rfl
  | closed =>
      dsimp only
      rw [point]
      rfl

theorem fpgaProcess_of_hits {panel : Panel} (hits : panel.point.hits = true)
    (switches : Switches) : (panel.fpgaProcess switches).point.isTesting = false := by
  rcases exists_of_hits hits with ⟨phase, button, buttons, isPoint⟩
  rw [fpgaProcess_isTesting, Panel.staysTesting, isPoint]

theorem isStarting_of_isTesting {point : PanelPoint} (testing : point.isTesting = true) :
    point.isStarting = false := by
  cases point with
  | testing => rfl
  | starting => cases testing
  | scanning | sounding | switching | flagging | settling | polling | waiting | closed => rfl

theorem eq_starting {point : PanelPoint} (starting : point.isStarting = true) :
    point = .starting := by
  cases point with
  | starting => rfl
  | scanning | sounding | switching | flagging | settling | polling | testing | waiting
  | closed => cases starting

/-- The next step is to set the semaphore, or the panel is outside of its tests. -/
theorem wellGuarded_between {guard : GuardPoint} {panel : Panel}
    (lowered : state.semaphore = 0)
    (suits : guard = .locking ∧ panel.point.isTesting = true ∨
      guard = .free ∧ panel.point.isTesting = false) :
    WellGuarded { state with panel := panel, guard := guard } := by
  rcases suits with ⟨isGuard, testing⟩ | ⟨isGuard, notTesting⟩ <;> subst isGuard
  · refine ⟨?_, .inr testing⟩
    simp only [Screen.inSection, isStarting_of_isTesting testing]
    exact lowered
  · refine ⟨?_, trivial⟩
    simp only [Screen.inSection, notTesting]
    exact lowered

theorem WellGuarded.panelStep (guarded : WellGuarded state) (free : state.guard = .free)
    (switches : Switches) : WellGuarded (state.panelStep xres switches) := by
  have semaphore := guarded.semaphore
  have testing := fpgaProcess_isTesting state.panel switches
  rw [Screen.inSection, free] at semaphore
  rw [Panel.staysTesting] at testing
  unfold Screen.panelStep
  cases point : state.panel.point with
  | polling =>
      rw [point] at semaphore testing
      apply wellGuarded_between semaphore
      cases raised : state.panel.deep with
      | true => exact .inl ⟨rfl, testing.trans raised⟩
      | false => exact .inr ⟨rfl, testing.trans raised⟩
  | waiting =>
      rw [point] at semaphore testing
      apply wellGuarded_between semaphore
      cases raised : state.panel.deep with
      | true => exact .inr ⟨rfl, testing.trans (congrArg Bool.not raised)⟩
      | false => exact .inl ⟨rfl, testing.trans (congrArg Bool.not raised)⟩
  | testing phase buttons tests =>
      rw [point] at semaphore testing
      match buttons, tests with
      | [], _ => exact ⟨semaphore, testing⟩
      | button :: buttons, [] =>
          refine ⟨semaphore, .inr ?_⟩
          dsimp only
          rw [point]
          rfl
      | button :: buttons, edge :: tests =>
          refine ⟨?_, ?_⟩
          · simp only [Screen.inSection, free, testing]
            exact semaphore
          · dsimp only
            rw [free]
            exact trivial
  | starting | scanning | sounding | flagging | settling | closed | switching =>
      rw [point] at semaphore testing
      rw [free]
      exact wellGuarded_between semaphore (.inr ⟨rfl, testing⟩)

theorem WellGuarded.fpgaStep (guarded : WellGuarded state) (switches : Switches) :
    WellGuarded (state.fpgaStep xres switches) := by
  have semaphore := guarded.semaphore
  have suits := guarded.suits
  unfold Screen.fpgaStep
  split <;> rename_i point <;> rw [Screen.inSection, point] at semaphore <;> rw [point] at suits
  · split <;> rename_i atPoint
    · exact ⟨rfl, .inl (by rw [atPoint]; rfl)⟩
    · have testing : state.panel.point.isTesting = true := by
        rcases suits with starting | testing
        · exact absurd (eq_starting starting) atPoint
        · exact testing
      refine ⟨?_, trivial⟩
      simp only [Screen.inSection, testing]
      rfl
  · exact ⟨semaphore, suits⟩
  · split <;> rename_i atPoint
    · exact ⟨semaphore, by dsimp only; rw [atPoint]; rfl⟩
    · rcases suits with starting | hits
      · exact absurd (eq_starting starting) atPoint
      · exact ⟨semaphore, fpgaProcess_of_hits hits switches⟩
  · have notTesting : state.panel.point.isTesting = false := suits
    refine ⟨?_, trivial⟩
    simp only [Screen.inSection, notTesting]
    rfl
  · exact guarded.panelStep point switches

end Guarded

theorem WellGuarded.step {xres : Nat} {pfbdata : FrameBuffer Color} {state after : Screen}
    {action : ScreenAction} (guarded : WellGuarded state)
    (stepped : (screens xres pfbdata).step state action = some after) : WellGuarded after := by
  cases action <;> cases stepped
  case set store => cases store <;> exact ⟨guarded.semaphore, guarded.suits⟩
  case fpga switches => exact guarded.fpgaStep switches
  case radar there back =>
    rcases radarStep_frame xres state there back with
      ⟨samePanel, sameGuard, sameSemaphore, -, -⟩
    constructor
    · rw [Screen.inSection, samePanel, sameGuard, sameSemaphore]
      exact guarded.semaphore
    · rw [samePanel, sameGuard]
      exact guarded.suits
  case interrupt => exact ⟨guarded.semaphore, guarded.suits⟩

theorem wellGuarded_of_run {xres : Nat} {pfbdata : FrameBuffer Color}
    {actions : List ScreenAction} {state : Screen}
    (run : (screens xres pfbdata).Run actions state) : WellGuarded state := by
  apply run.invariant fun _ state => WellGuarded state
  · intro state initial
    subst initial
    exact wellGuarded_initial xres pfbdata
  · exact fun _ _ _ _ guarded _ stepped => guarded.step stepped

/-! ## What has been stored -/

def SweepPoint.pending : SweepPoint → List (Nat × Color)
  | .drawing stores => stores.map ScreenStore.write
  | .storing store stores => store.write :: stores.map ScreenStore.write
  | .cycleTop | .loadingRing | .loadingLine _ | .ended => []

def GuardPoint.pending : GuardPoint → List (Nat × Color)
  | .drawing stores => stores
  | .locking | .unlocking | .free => []

theorem guardedStores_write (guard : Nat → Nat → Bool) (pass : Pass Color) (xres : Nat) :
    (guardedStores guard pass xres).map ScreenStore.write = pass.stores xres := by
  rw [guardedStores, Pass.stores, List.map_flatMap]
  congr 1
  funext repy
  rw [List.map_filterMap]
  congr 1
  funext repx
  rw [Option.map_map]
  rfl

theorem screenStores_write (xres : Nat) (cycle : LoadedCycle) :
    (cycle.screenStores xres).map ScreenStore.write =
      cycle.passes.flatMap fun pass => pass.stores xres := by
  have waits : ∀ pass : Pass Color,
      (waited pass xres).map ScreenStore.write = pass.stores xres :=
    fun pass => guardedStores_write _ pass xres
  rw [LoadedCycle.screenStores, LoadedCycle.passes, List.map_append, List.map_flatMap,
    guardedStores_write]
  simp only [waits, List.cons_append, List.nil_append, List.flatMap_cons]

theorem loadedStores_concat (xres : Nat) (cycles : List LoadedCycle) (cycle : LoadedCycle) :
    loadedStores xres (cycles ++ [cycle]) =
      loadedStores xres cycles ++ (cycle.screenStores xres).map ScreenStore.write := by
  rw [loadedStores, loadedStores, screenStores_write]
  simp only [List.flatMap_append, List.flatMap_cons, List.flatMap_nil, List.append_nil,
    List.append_assoc]

theorem buttonStores_append (xres : Nat) (first second : List ButtonDrawing) :
    buttonStores xres (first ++ second) = buttonStores xres first ++ buttonStores xres second :=
  List.flatMap_append

/-- The screen is what both processes have stored so far, each as if it were alone. -/
structure Stored (xres : Nat) (pfbdata : FrameBuffer Color) (state : Screen) : Prop where
  radar : state.radarDone ++ state.radar.pending = loadedStores xres state.cycles
  buttons : state.buttonsDone ++ state.guard.pending = buttonStores xres state.drawings
  image : state.pfbdata = writeAll (writeAll pfbdata state.radarDone) state.buttonsDone

theorem stored_initial (xres : Nat) (pfbdata : FrameBuffer Color) :
    Stored xres pfbdata (.initial xres pfbdata) where
  radar := by
    show [] ++ (waited rimPass xres).map ScreenStore.write = _
    rw [List.nil_append, waited, guardedStores_write, loadedStores]
    exact (List.flatMap_singleton _ _).symm
  buttons := rfl
  image := rfl

section Stores

variable {xres : Nat} {pfbdata : FrameBuffer Color} {state : Screen}

theorem footprint_of_append {first rest whole : List (Nat × Color)}
    (isWhole : first ++ rest = whole) {index : Nat} (member : index ∈ footprint first) :
    index ∈ footprint whole := by
  rcases mem_footprint.mp member with ⟨write, isWrite, atIndex⟩
  subst isWhole
  exact mem_footprint.mpr ⟨write, List.mem_append_left rest isWrite, atIndex⟩

theorem Stored.radarStep (stored : Stored xres pfbdata state) (wide : 1024 ≤ xres)
    (there back : Fin 61 → Reading) : Stored xres pfbdata (state.radarStep xres there back) := by
  have radar := stored.radar
  unfold Screen.radarStep
  split <;> rename_i point <;> rw [point] at radar
  · exact ⟨radar, stored.buttons, stored.image⟩
  · split_ifs
    · exact stored
    · exact ⟨radar, stored.buttons, stored.image⟩
  · rename_i store stores
    refine ⟨?_, stored.buttons, ?_⟩
    · dsimp only
      rw [List.append_assoc]
      exact radar
    · have byRadar : store.index ∈ footprint (loadedStores xres state.cycles) := by
        apply mem_footprint.mpr
        refine ⟨store.write, ?_, rfl⟩
        rw [← radar]
        exact List.mem_append_right _ List.mem_cons_self
      have fresh : store.index ∉ footprint state.buttonsDone := by
        intro byButtons
        have below := loadedStores_below xres state.cycles byRadar
        have above := buttonStores_above wide state.drawings
          (footprint_of_append stored.buttons byButtons)
        omega
      dsimp only
      rw [stored.image, writeAll_append, ← writeAll_update fresh]
      rfl
  · split_ifs <;> exact ⟨radar, stored.buttons, stored.image⟩
  · exact ⟨radar, stored.buttons, stored.image⟩
  · refine ⟨?_, stored.buttons, stored.image⟩
    rw [loadedStores_concat, ← radar, SweepPoint.pending, SweepPoint.pending, List.append_nil]
  · exact stored

theorem Stored.panelStep (stored : Stored xres pfbdata state) (free : state.guard = .free)
    (switches : Switches) : Stored xres pfbdata (state.panelStep xres switches) := by
  have buttons := stored.buttons
  rw [free, GuardPoint.pending, List.append_nil] at buttons
  unfold Screen.panelStep
  split
  · refine ⟨stored.radar, ?_, stored.image⟩
    cases state.panel.deep <;> exact (List.append_nil _).trans buttons
  · refine ⟨stored.radar, ?_, stored.image⟩
    cases state.panel.deep <;> exact (List.append_nil _).trans buttons
  · refine ⟨stored.radar, ?_, stored.image⟩
    rw [buttonStores_append, ← buttons]
    rfl
  · exact ⟨stored.radar, (List.append_nil _).trans buttons, stored.image⟩
  · exact ⟨stored.radar, stored.buttons, stored.image⟩

theorem Stored.fpgaStep (stored : Stored xres pfbdata state) (switches : Switches) :
    Stored xres pfbdata (state.fpgaStep xres switches) := by
  have buttons := stored.buttons
  unfold Screen.fpgaStep
  split <;> rename_i point <;> rw [point] at buttons
  · rw [GuardPoint.pending, List.append_nil] at buttons
    split
    · refine ⟨stored.radar, ?_, stored.image⟩
      rw [buttonStores_append, ← buttons]
      rfl
    · exact ⟨stored.radar, (List.append_nil _).trans buttons, stored.image⟩
  · refine ⟨stored.radar, ?_, ?_⟩
    · dsimp only
      rw [List.append_assoc]
      exact buttons
    · dsimp only
      rw [stored.image, writeAll_append]
      rfl
  · split <;> exact ⟨stored.radar, buttons, stored.image⟩
  · exact ⟨stored.radar, buttons, stored.image⟩
  · exact stored.panelStep point switches

end Stores

theorem Stored.step {xres : Nat} {pfbdata : FrameBuffer Color} {state after : Screen}
    {action : ScreenAction} (stored : Stored xres pfbdata state) (wide : 1024 ≤ xres)
    (stepped : (screens xres pfbdata).step state action = some after) :
    Stored xres pfbdata after := by
  cases action <;> cases stepped
  case set store => exact ⟨stored.radar, stored.buttons, stored.image⟩
  case fpga switches => exact stored.fpgaStep switches
  case radar there back => exact stored.radarStep wide there back
  case interrupt => exact ⟨stored.radar, stored.buttons, stored.image⟩

theorem stored_of_run {xres : Nat} (wide : 1024 ≤ xres) {pfbdata : FrameBuffer Color}
    {actions : List ScreenAction} {state : Screen}
    (run : (screens xres pfbdata).Run actions state) : Stored xres pfbdata state := by
  apply run.invariant fun _ state => Stored xres pfbdata state
  · intro state initial
    subst initial
    exact stored_initial xres pfbdata
  · exact fun _ _ _ _ stored _ stepped => stored.step wide stepped

/-! ## The first buttons -/

def GuardPoint.isFree : GuardPoint → Bool
  | .free => true
  | .locking | .drawing _ | .unlocking => false

/-- `main` has set the semaphore, and `fpga_process` has not lowered it yet. -/
def Screen.inFirst (state : Screen) : Bool :=
  state.panel.point.isStarting && !state.guard.isFree

/-- What is left of the first buttons. -/
def GuardPoint.firstLeft (xres : Nat) : GuardPoint → List (Nat × Color)
  | .locking => buttonStores xres firstButtons
  | .drawing stores => stores
  | .unlocking | .free => []

structure FirstAlone (xres : Nat) (state : Screen) : Prop where
  first : state.inFirst = true → state.radarDone = [] ∧
    state.radar = .drawing (waited rimPass xres) ∧
    state.buttonsDone ++ state.guard.firstLeft xres = buttonStores xres firstButtons
  later : state.inFirst = false →
    (buttonStores xres firstButtons).length ≤ state.buttonsDone.length

theorem firstAlone_initial (xres : Nat) (pfbdata : FrameBuffer Color) :
    FirstAlone xres (.initial xres pfbdata) where
  first := fun _ => ⟨rfl, rfl, List.nil_append _⟩
  later := fun isLater => by cases isLater

/-- The rim is not empty, and its first store has a wait. -/
theorem exists_rim (xres : Nat) :
    ∃ store stores, waited rimPass xres = store :: stores ∧ store.guarded = true := by
  have onRim : rimPass.pixel 599 7 = some white := by decide
  have member : (⟨true, 599 * xres + 7, white⟩ : ScreenStore) ∈ waited rimPass xres := by
    rw [waited, guardedStores, List.mem_flatMap]
    refine ⟨599, ?_, ?_⟩
    · dsimp only [rimPass]
      exact mem_rowsDown.mpr (by omega)
    · rw [List.mem_filterMap]
      refine ⟨7, ?_, ?_⟩
      · dsimp only [rimPass]
        exact List.mem_range'_1.mpr (by omega)
      · rw [onRim]
        rfl
  have allWait : ∀ store ∈ waited rimPass xres, store.guarded = true := by
    intro store isStore
    rw [waited, guardedStores] at isStore
    rcases List.mem_flatMap.mp isStore with ⟨repy, -, inRow⟩
    rcases List.mem_filterMap.mp inRow with ⟨repx, -, made⟩
    rcases Option.map_eq_some_iff.mp made with ⟨color, -, isMade⟩
    rw [← isMade]
  cases stores : waited rimPass xres with
  | nil =>
      rw [stores] at member
      cases member
  | cons store rest =>
      rw [stores] at allWait
      exact ⟨store, rest, rfl, allWait store List.mem_cons_self⟩

theorem fpgaProcess_isStarting (panel : Panel) (switches : Switches) :
    (panel.fpgaProcess switches).point.isStarting = false := by
  unfold Panel.fpgaProcess
  cases point : panel.point with
  | polling | waiting => cases panel.deep <;> rfl
  | switching scanned =>
      dsimp only
      split_ifs <;> rfl
  | testing phase buttons tests =>
      match buttons, tests with
      | [], _ => cases phase <;> rfl
      | button :: buttons, [] =>
          dsimp only
          rw [Panel.act_point]
          cases phase <;> rfl
      | button :: buttons, edge :: tests =>
          dsimp only
          split_ifs <;> rfl
  | starting | scanning | sounding | flagging | settling => rfl
  | closed =>
      dsimp only
      rw [point]
      rfl

section First

variable {xres : Nat} {state : Screen}

/-- While the first buttons are drawn, `radar_process` waits in front of its first store. -/
theorem radarStep_of_inFirst (alone : FirstAlone xres state) (guarded : WellGuarded state)
    (inFirst : state.inFirst = true) (there back : Fin 61 → Reading) :
    state.radarStep xres there back = state := by
  rcases alone.first inFirst with ⟨-, point, -⟩
  rcases exists_rim xres with ⟨store, stores, isRim, waits⟩
  have set : state.semaphore ≠ 0 := by
    have inSection : state.inSection = true := by
      rcases Bool.and_eq_true_iff.mp inFirst with ⟨starting, notFree⟩
      unfold Screen.inSection
      split <;> rename_i isGuard <;> rw [isGuard] at notFree
      · exact starting
      · cases notFree
    rw [guarded.semaphore, inSection]
    decide
  rw [Screen.radarStep, point, isRim]
  exact if_pos ⟨waits, set⟩

theorem inFirst_of_not_starting (notStarting : state.panel.point.isStarting = false) :
    state.inFirst = false := by
  rw [Screen.inFirst, notStarting, Bool.false_and]

theorem inFirst_panelStep (xres : Nat) (state : Screen) (switches : Switches) :
    (state.panelStep xres switches).inFirst = false ∧
      (state.panelStep xres switches).buttonsDone = state.buttonsDone := by
  have started := fpgaProcess_isStarting state.panel switches
  unfold Screen.panelStep
  split <;> rename_i point
  · exact ⟨inFirst_of_not_starting started, rfl⟩
  · exact ⟨inFirst_of_not_starting started, rfl⟩
  · refine ⟨inFirst_of_not_starting ?_, rfl⟩
    dsimp only
    rw [point]
    rfl
  · exact ⟨inFirst_of_not_starting started, rfl⟩
  · exact ⟨inFirst_of_not_starting started, rfl⟩

theorem FirstAlone.fpgaStep (alone : FirstAlone xres state) (switches : Switches) :
    FirstAlone xres (state.fpgaStep xres switches) := by
  have first := alone.first
  have later := alone.later
  unfold Screen.fpgaStep
  split <;> rename_i point <;> rw [Screen.inFirst, point] at first later
  · split <;> rename_i atPoint
    · rw [atPoint] at first
      refine ⟨fun _ => ?_, fun isLater => ?_⟩
      · rw [Panel.draws, atPoint]
        exact first rfl
      · rw [Screen.inFirst, atPoint] at isLater
        cases isLater
    · have notStarting : state.panel.point.isStarting = false :=
        Bool.eq_false_iff.mpr fun starting => atPoint (eq_starting starting)
      rw [notStarting] at later
      refine ⟨fun isFirst => ?_, fun _ => later rfl⟩
      rw [Screen.inFirst, notStarting] at isFirst
      cases isFirst
  · rename_i store stores
    refine ⟨fun isFirst => ?_, fun isLater => ?_⟩
    · rcases first isFirst with ⟨done, waits, buttons⟩
      refine ⟨done, waits, ?_⟩
      rw [← buttons, GuardPoint.firstLeft, GuardPoint.firstLeft, List.append_assoc]
      rfl
    · dsimp only
      rw [List.length_append]
      exact Nat.le_add_right_of_le (later isLater)
  · split <;> rename_i atPoint
    · exact ⟨first, later⟩
    · have notStarting : state.panel.point.isStarting = false :=
        Bool.eq_false_iff.mpr fun starting => atPoint (eq_starting starting)
      rw [notStarting] at later
      refine ⟨fun isFirst => ?_, fun _ => later rfl⟩
      rw [inFirst_of_not_starting (fpgaProcess_isStarting state.panel switches)] at isFirst
      cases isFirst
  · refine ⟨fun isFirst => ?_, fun _ => ?_⟩
    · rw [Screen.inFirst, Bool.and_comm] at isFirst
      cases isFirst
    · cases starting : state.panel.point.isStarting with
      | true =>
          rw [starting] at first
          rcases first rfl with ⟨-, -, buttons⟩
          rw [GuardPoint.firstLeft, List.append_nil] at buttons
          exact Nat.le_of_eq (congrArg List.length buttons.symm)
      | false =>
          rw [starting] at later
          exact later rfl
  · rcases inFirst_panelStep xres state switches with ⟨isLater, same⟩
    refine ⟨fun isFirst => ?_, fun _ => ?_⟩
    · rw [isLater] at isFirst
      cases isFirst
    · rw [same]
      exact later (Bool.and_false _)

theorem FirstAlone.step {pfbdata : FrameBuffer Color} {after : Screen} {action : ScreenAction}
    (alone : FirstAlone xres state) (guarded : WellGuarded state)
    (stepped : (screens xres pfbdata).step state action = some after) :
    FirstAlone xres after := by
  cases action <;> cases stepped
  case set store => cases store <;> exact ⟨alone.first, alone.later⟩
  case fpga switches => exact alone.fpgaStep switches
  case radar there back =>
    cases inFirst : state.inFirst with
    | true =>
        rw [radarStep_of_inFirst alone guarded inFirst]
        exact alone
    | false =>
        rcases radarStep_frame xres state there back with
          ⟨samePanel, sameGuard, -, sameButtons, -⟩
        have isLater : (state.radarStep xres there back).inFirst = false := by
          rw [Screen.inFirst, samePanel, sameGuard]
          exact inFirst
        refine ⟨fun isFirst => ?_, fun _ => ?_⟩
        · rw [isLater] at isFirst
          cases isFirst
        · rw [sameButtons]
          exact alone.later inFirst
  case interrupt => exact ⟨alone.first, alone.later⟩

end First

theorem firstAlone_of_run {xres : Nat} {pfbdata : FrameBuffer Color} {actions : List ScreenAction}
    {state : Screen} (run : (screens xres pfbdata).Run actions state) : FirstAlone xres state := by
  induction run with
  | start initial =>
      cases initial
      exact firstAlone_initial xres pfbdata
  | next action earlier _ stepped alone => exact alone.step (wellGuarded_of_run earlier) stepped

/-! ## Lowering the semaphore -/

def IsFpga : ScreenAction → Prop
  | .fpga _ => True
  | .set _ | .radar _ _ | .interrupt => False

section Freeing

variable {xres : Nat} {pfbdata : FrameBuffer Color}

/-- Steps of `fpga_process` lead on. -/
def FpgaLeads (xres : Nat) (pfbdata : FrameBuffer Color) (Goal : Screen → Prop)
    (state : Screen) : Prop :=
  (screens xres pfbdata).LeadsTo (fun _ _ => True) IsFpga Goal state

/-- No switch is pressed. -/
def atRest : Switches := ⟨false, false, false⟩

theorem fpgaLeads_step {Goal : Screen → Prop} {state : Screen}
    (leads : FpgaLeads xres pfbdata Goal (state.fpgaStep xres atRest)) :
    FpgaLeads xres pfbdata Goal state :=
  .step (.fpga atRest) trivial trivial rfl leads

def GuardPoint.isDrawn : GuardPoint → Bool
  | .drawing _ | .unlocking => true
  | .locking | .free => false

/-- The stores of a section and its end. -/
def GuardPoint.toUnlock : GuardPoint → Nat
  | .drawing stores => stores.length + 1
  | .unlocking | .locking | .free => 0

theorem leads_to_unlocking {state : Screen} (drawn : state.guard.isDrawn = true) :
    FpgaLeads xres pfbdata (fun after => after.guard = .unlocking) state := by
  apply LeadsTo.of_measure (fun state => state.guard.isDrawn = true)
    (fun state => state.guard.toUnlock) _ drawn
  intro state drawn
  cases point : state.guard with
  | unlocking => exact .inl rfl
  | locking | free =>
      rw [point] at drawn
      cases drawn
  | drawing stores =>
      right
      refine ⟨.fpga atRest, state.fpgaStep xres atRest, trivial, trivial, rfl, ?_⟩
      cases stores with
      | nil =>
          have unlocking : (state.fpgaStep xres atRest).guard = .unlocking := by
            rw [Screen.fpgaStep, point]
            dsimp only
            split <;> rfl
          rw [unlocking]
          exact ⟨rfl, Nat.zero_lt_one⟩
      | cons store stores =>
          have next : (state.fpgaStep xres atRest).guard = .drawing stores := by
            rw [Screen.fpgaStep, point]
          rw [next]
          exact ⟨rfl, Nat.lt_succ_self _⟩

/-- The tests left. A failed one leads to the next button, a passed one to the next test. -/
def PanelPoint.testsLeft : PanelPoint → Nat
  | .testing _ buttons tests => 5 * buttons.length + tests.length + 1
  | _ => 0

theorem leads_to_drawn {state : Screen} (free : state.guard = .free)
    (testing : state.panel.point.isTesting = true) :
    FpgaLeads xres pfbdata (fun after => after.guard.isDrawn = true) state := by
  apply LeadsTo.of_measure
    (fun state => state.guard.isDrawn = true ∨
      state.guard = .free ∧ state.panel.point.isTesting = true)
    (fun state => if state.guard.isDrawn = true then 0 else state.panel.point.testsLeft) _
    (.inr ⟨free, testing⟩)
  intro state invariant
  rcases invariant with drawn | ⟨free, testing⟩
  · exact .inl drawn
  · right
    have onPanel : state.fpgaStep xres atRest = state.panelStep xres atRest := by
      rw [Screen.fpgaStep, free]
    refine ⟨.fpga atRest, state.fpgaStep xres atRest, trivial, trivial, rfl, ?_⟩
    rw [onPanel, Screen.panelStep]
    cases point : state.panel.point with
    | testing phase buttons tests =>
        have positive : 0 < state.panel.point.testsLeft := by
          rw [point]
          exact Nat.succ_pos _
        rw [point] at positive
        have undrawn : ¬ GuardPoint.free.isDrawn = true := Bool.false_ne_true
        rw [free, if_neg undrawn]
        match buttons, tests with
        | [], tests => exact ⟨.inl rfl, positive⟩
        | button :: buttons, [] => exact ⟨.inl rfl, positive⟩
        | button :: buttons, edge :: tests =>
            have goesOn : (state.panel.fpgaProcess atRest).point =
                if button.within state.panel.tX state.panel.tY edge then
                  .testing phase (button :: buttons) tests
                else .testing phase buttons edges := by
              rw [Panel.fpgaProcess, point]
            dsimp only
            rw [goesOn]
            split_ifs
            · exact ⟨.inr ⟨rfl, rfl⟩, Nat.lt_succ_self _⟩
            · refine ⟨.inr ⟨rfl, rfl⟩, ?_⟩
              show 5 * buttons.length + 4 + 1 < 5 * (buttons.length + 1) + (tests.length + 1) + 1
              omega
    | starting | scanning | sounding | switching | flagging | settling | polling | waiting
    | closed =>
        rw [point] at testing
        cases testing

theorem leads_to_lowered {state : Screen} (guarded : WellGuarded state) :
    FpgaLeads xres pfbdata (fun after => after.semaphore = 0) state := by
  have fromUnlocking : ∀ state : Screen, state.guard = .unlocking →
      FpgaLeads xres pfbdata (fun after => after.semaphore = 0) state := by
    intro state point
    apply fpgaLeads_step
    apply LeadsTo.reached
    rw [Screen.fpgaStep, point]
  have fromDrawn : ∀ state : Screen, state.guard.isDrawn = true →
      FpgaLeads xres pfbdata (fun after => after.semaphore = 0) state :=
    fun state drawn => (leads_to_unlocking drawn).trans fromUnlocking
  cases inSection : state.inSection with
  | false =>
      apply LeadsTo.reached
      rw [guarded.semaphore, inSection]
      rfl
  | true =>
      rw [Screen.inSection] at inSection
      cases point : state.guard with
      | drawing | unlocking => exact fromDrawn state (by rw [point]; rfl)
      | locking =>
          rw [point] at inSection
          apply fpgaLeads_step
          apply fromDrawn
          rw [Screen.fpgaStep, point, eq_starting inSection]
          rfl
      | free =>
          rw [point] at inSection
          exact (leads_to_drawn point inSection).trans fromDrawn

end Freeing

/-! ## Sharing the screen -/

/-- What the semaphore achieves, and what the screen shows without it. -/
structure SharesScreen (xres : Nat) (pfbdata : FrameBuffer Color) (state : Screen) : Prop where
  /-- The first buttons are drawn alone. -/
  alone : state.buttonsDone.length < (buttonStores xres firstButtons).length →
    state.radarDone = []
  /-- Of the stores with a wait, one at most falls into a section. -/
  slipped : state.inSection = true → state.sinceLocked ≤ 1
  radar : state.radarDone <+: loadedStores xres state.cycles
  buttons : state.buttonsDone <+: buttonStores xres state.drawings
  image : state.pfbdata = writeAll (writeAll pfbdata state.radarDone) state.buttonsDone
  /-- `fpga_process` lowers the semaphore without help. -/
  lowered : FpgaLeads xres pfbdata (fun after => after.semaphore = 0) state

theorem screen_shared {xres : Nat} (wide : 1024 ≤ xres) {pfbdata : FrameBuffer Color}
    {actions : List ScreenAction} {state : Screen}
    (run : (screens xres pfbdata).Run actions state) : SharesScreen xres pfbdata state := by
  have guarded := wellGuarded_of_run run
  have first := firstAlone_of_run run
  have stored := stored_of_run wide run
  refine ⟨?_, ?_, ⟨_, stored.radar⟩, ⟨_, stored.buttons⟩, stored.image, leads_to_lowered guarded⟩
  · intro unfinished
    cases inFirst : state.inFirst with
    | true => exact (first.first inFirst).1
    | false => exact absurd (first.later inFirst) (Nat.not_le_of_lt unfinished)
  · intro inSection
    rcases flagGuard_of_run run with ⟨events, guardRun⟩
    have raised : state.flagGuard.raised = true := by
      apply decide_eq_true
      rw [guarded.semaphore, inSection]
      decide
    exact Nat.le_of_add_right_le (bounded_of_run guardRun raised ())

/-- Both processes begin to draw. -/
def bothBegin : List ScreenAction :=
  [.radar (fun _ => 0) (fun _ => 0), .fpga atRest, .radar (fun _ => 0) (fun _ => 0), .fpga atRest]

theorem both_begin_shared :
    ∃ state, (screens 1024 fun _ => black).Run bothBegin state ∧
      SharesScreen 1024 (fun _ => black) state := by
  have executed : ∃ state, (screens 1024 fun _ => black).execute
      (.initial 1024 fun _ => black) bothBegin = some state := ⟨_, rfl⟩
  rcases executed with ⟨state, executed⟩
  have run : (screens 1024 fun _ => black).Run bothBegin state := run_of_execute rfl executed
  exact ⟨state, run, screen_shared (Nat.le_refl 1024) run⟩

end GamZ.Client
