import GamZ.Client.Shutdown
import Mathlib.Algebra.Order.BigOperators.Group.List

/-! # The exit switch

From wherever a run has led the client, `fpga_process` finds the exit switch pressed
within finitely many of its steps, once the finger is off the screen, and then all
processes end. The finger has to be seen off by `set_process`, and the logout must not
meet a connection that is gone. -/

namespace GamZ.Client

open CString Raster Transition TransitionSystem

/-! ## To the end of the loop -/

/-- The exit switch alone is pressed. -/
def exitPressed : Switches := ⟨false, false, true⟩

/-- `fpga_process` steps with the exit switch pressed, or the finger is lifted. -/
def Leaves : ScreenAction → Prop
  | .fpga switches => switches = exitPressed
  | .set store => store = .deep false
  | .radar _ _ | .interrupt => False

section Leaving

variable {xres : Nat} {pfbdata : FrameBuffer Color}

def ScreenLeads (xres : Nat) (pfbdata : FrameBuffer Color) (Goal : Screen → Prop)
    (state : Screen) : Prop :=
  (screens xres pfbdata).LeadsTo (fun _ _ => True) Leaves Goal state

theorem screenLeads_step {Goal : Screen → Prop} {state : Screen}
    (leads : ScreenLeads xres pfbdata Goal (state.fpgaStep xres exitPressed)) :
    ScreenLeads xres pfbdata Goal state :=
  .step (.fpga exitPressed) rfl trivial rfl leads

/-- One step of the panel leads to a state without the semaphore. -/
theorem screenLeads_panel {Goal : Screen → Prop} {state : Screen} (free : state.guard = .free)
    (leads : ScreenLeads xres pfbdata Goal (state.panelStep xres exitPressed)) :
    ScreenLeads xres pfbdata Goal state := by
  apply screenLeads_step
  rw [Screen.fpgaStep, free]
  exact leads

/-- The panel is at the point, and the next step is its own. -/
def FreeAt (point : PanelPoint) (state : Screen) : Prop :=
  state.guard = .free ∧ state.panel.point = point

theorem leads_unlocking {state : Screen} {point : PanelPoint} (unlocking : state.guard = .unlocking)
    (atPoint : state.panel.point = point) :
    ScreenLeads xres pfbdata (FreeAt point) state := by
  apply screenLeads_step
  rw [Screen.fpgaStep, unlocking]
  exact .reached ⟨rfl, atPoint⟩

theorem leads_firstDrawn (stores : List (Nat × Color)) {state : Screen}
    (drawing : state.guard = .drawing stores) (starting : state.panel.point = .starting) :
    ScreenLeads xres pfbdata (FreeAt .starting) state := by
  induction stores generalizing state with
  | nil =>
      apply screenLeads_step
      rw [Screen.fpgaStep, drawing, starting]
      exact leads_unlocking rfl starting
  | cons store stores induction =>
      apply screenLeads_step
      apply induction
      · rw [Screen.fpgaStep, drawing]
      · rw [Screen.fpgaStep, drawing]
        exact starting

theorem leads_hitDrawn (stores : List (Nat × Color)) {state : Screen} {phase : Phase}
    {button : TouchButton} {buttons : List TouchButton}
    (drawing : state.guard = .drawing stores)
    (hit : state.panel.point = .testing phase (button :: buttons) []) :
    ScreenLeads xres pfbdata (FreeAt phase.after) state := by
  induction stores generalizing state with
  | nil =>
      apply screenLeads_step
      apply leads_unlocking
      · rw [Screen.fpgaStep, drawing, hit]
      · rw [Screen.fpgaStep, drawing, hit]
        dsimp only
        rw [Panel.fpgaProcess, hit]
        exact state.panel.act_point button phase
  | cons store stores induction =>
      apply screenLeads_step
      apply induction
      · rw [Screen.fpgaStep, drawing]
      · rw [Screen.fpgaStep, drawing]
        exact hit

/-- The steps of the panel to the next scan of the switches. -/
def Panel.stepsLeft (panel : Panel) : Nat :=
  match panel.point with
  | .scanning | .closed => 0
  | .starting => 1
  | .testing .release buttons tests => 5 * buttons.length + tests.length + 1
  | .waiting => if panel.deep then 32 else 31
  | .testing .press buttons tests => 5 * buttons.length + tests.length + 33
  | .polling => 64
  | .settling => 65
  | .flagging => 66
  | .switching _ => 67
  | .sounding _ => 68

/-- Those behind a chain of tests. -/
def Phase.stepsLeft : Phase → Nat
  | .press => 32
  | .release => 0

theorem Panel.stepsLeft_after {panel : Panel} {phase : Phase}
    (isAfter : panel.point = phase.after) : panel.stepsLeft ≤ phase.stepsLeft := by
  cases phase with
  | release => simp only [stepsLeft, isAfter, Phase.after, Phase.stepsLeft, Nat.le_refl]
  | press =>
      simp only [stepsLeft, isAfter, Phase.after, Phase.stepsLeft]
      split_ifs <;> decide

theorem Panel.stepsLeft_testing {panel : Panel} {phase : Phase} {buttons : List TouchButton}
    {tests : List Edge} (testing : panel.point = .testing phase buttons tests) :
    panel.stepsLeft = 5 * buttons.length + tests.length + 1 + phase.stepsLeft := by
  cases phase <;> simp only [stepsLeft, testing, Phase.stepsLeft]

/-- Every step of the panel is one of them, but for the wait for the finger. -/
theorem Panel.stepsLeft_fpgaProcess {panel : Panel} (switches : Switches)
    (lifted : panel.point = .waiting → panel.deep = false) (left : 0 < panel.stepsLeft) :
    (panel.fpgaProcess switches).stepsLeft < panel.stepsLeft := by
  have allTests : 5 * touchButtons.length + edges.length = 29 := rfl
  cases point : panel.point with
  | scanning | closed =>
      rw [stepsLeft, point] at left
      exact absurd left (Nat.lt_irrefl 0)
  | starting | sounding scanned | flagging | settling =>
      simp only [fpgaProcess, stepsLeft, point]
      decide
  | switching scanned =>
      simp only [fpgaProcess, stepsLeft, point]
      split_ifs
      all_goals dsimp only; omega
  | polling =>
      simp only [fpgaProcess, stepsLeft, point]
      split_ifs
      all_goals dsimp only; omega
  | waiting =>
      simp only [fpgaProcess, stepsLeft, point, lifted point, Bool.false_eq_true, if_false]
      omega
  | testing phase buttons tests =>
      rw [stepsLeft_testing point]
      cases buttons with
      | nil =>
          have isAfter : (panel.fpgaProcess switches).point = phase.after := by
            rw [fpgaProcess, point]
          have bound := stepsLeft_after isAfter
          omega
      | cons button buttons =>
          cases tests with
          | nil =>
              have isAfter : (panel.fpgaProcess switches).point = phase.after := by
                rw [fpgaProcess, point]
                exact panel.act_point button phase
              have bound := stepsLeft_after isAfter
              omega
          | cons edge tests =>
              have four : edges.length = 4 := rfl
              have next : (panel.fpgaProcess switches).point =
                  if button.within panel.tX panel.tY edge then
                    .testing phase (button :: buttons) tests
                  else .testing phase buttons edges := by
                rw [fpgaProcess, point]
              rw [List.length_cons, List.length_cons]
              split_ifs at next
              · rw [stepsLeft_testing next, List.length_cons]
                omega
              · rw [stepsLeft_testing next]
                omega

def AtTop (state : Screen) : Prop :=
  FreeAt .scanning state ∨ FreeAt .closed state

/-- Where a round of the panel leads to. -/
def Onward (panel : Panel) (after : Screen) : Prop :=
  AtTop after ∨ after.guard = .free ∧ after.panel.stepsLeft < panel.stepsLeft

/-- A passed button, or the last failed one, leads behind the tests. -/
theorem onward_after {panel : Panel} {phase : Phase} {buttons : List TouchButton}
    {tests : List Edge} (testing : panel.point = .testing phase buttons tests) {after : Screen}
    (freeAt : FreeAt phase.after after) : Onward panel after := by
  rcases freeAt with ⟨free, point⟩
  cases phase with
  | release => exact .inl (.inl ⟨free, point⟩)
  | press =>
      refine .inr ⟨free, ?_⟩
      have left := Panel.stepsLeft_after point
      have before := Panel.stepsLeft_testing testing
      omega

/-- `*semaphore = 1;` comes between this step and the tests. -/
theorem leads_locked {panel : Panel} {state : Screen} {phase : Phase}
    (locking : state.guard = .locking)
    (atTests : state.panel.point = .testing phase touchButtons edges)
    (less : state.panel.stepsLeft < panel.stepsLeft) :
    ScreenLeads xres pfbdata (Onward panel) state := by
  apply screenLeads_step
  rw [Screen.fpgaStep, locking, atTests]
  exact .reached (.inr ⟨rfl, less⟩)

theorem testing_round {state : Screen} (free : state.guard = .free) {phase : Phase}
    {buttons : List TouchButton} {tests : List Edge}
    (testing : state.panel.point = .testing phase buttons tests) :
    ScreenLeads xres pfbdata (Onward state.panel) state := by
  apply screenLeads_panel free
  match buttons, tests with
  | [], tests =>
      rw [Screen.panelStep, testing]
      have next : (state.panel.fpgaProcess exitPressed).point = phase.after := by
        rw [Panel.fpgaProcess, testing]
      exact (leads_unlocking rfl next).trans fun _ freeAt => .reached (onward_after testing freeAt)
  | button :: buttons, [] =>
      rw [Screen.panelStep, testing]
      refine LeadsTo.trans (leads_hitDrawn _ rfl testing) ?_
      exact fun _ freeAt => .reached (onward_after testing freeAt)
  | button :: buttons, edge :: tests =>
      rw [Screen.panelStep, testing]
      apply LeadsTo.reached
      refine .inr ⟨free, Panel.stepsLeft_fpgaProcess exitPressed ?_ ?_⟩
      · rw [testing]
        exact PanelPoint.noConfusion
      · rw [Panel.stepsLeft_testing testing]
        omega

theorem panel_round {state : Screen} (free : state.guard = .free) :
    ScreenLeads xres pfbdata (Onward state.panel) state := by
  cases point : state.panel.point with
  | scanning => exact .reached (.inl (.inl ⟨free, point⟩))
  | closed => exact .reached (.inl (.inr ⟨free, point⟩))
  | testing phase buttons tests => exact testing_round free point
  | starting =>
      apply screenLeads_panel free
      rw [Screen.panelStep, point]
      apply LeadsTo.reached
      refine .inl (.inl ⟨free, ?_⟩)
      rw [Panel.fpgaProcess, point]
  | sounding scanned | switching scanned | flagging | settling =>
      apply screenLeads_panel free
      rw [Screen.panelStep, point]
      apply LeadsTo.reached
      refine .inr ⟨free, Panel.stepsLeft_fpgaProcess exitPressed ?_ ?_⟩
      · rw [point]
        exact PanelPoint.noConfusion
      · rw [Panel.stepsLeft, point]
        exact Nat.succ_pos _
  | polling =>
      apply screenLeads_panel free
      rw [Screen.panelStep, point]
      cases deep : state.panel.deep with
      | false =>
          apply LeadsTo.reached
          refine .inl (.inl ⟨rfl, ?_⟩)
          rw [Panel.fpgaProcess, point, deep]
          rfl
      | true =>
          have next : (state.panel.fpgaProcess exitPressed).point =
              .testing .press touchButtons edges := by
            rw [Panel.fpgaProcess, point, deep]
            rfl
          apply leads_locked rfl next
          apply Panel.stepsLeft_fpgaProcess
          · rw [point]
            exact PanelPoint.noConfusion
          · rw [Panel.stepsLeft, point]
            exact Nat.succ_pos _
  | waiting =>
      cases deep : state.panel.deep with
      | true =>
          -- The finger has to be lifted first.
          refine LeadsTo.step (.set (.deep false)) rfl trivial rfl ?_
          apply LeadsTo.reached
          refine .inr ⟨free, ?_⟩
          show Panel.stepsLeft { state.panel with deep := false } < state.panel.stepsLeft
          rw [Panel.stepsLeft, Panel.stepsLeft, point, deep]
          exact Nat.lt_succ_self 31
      | false =>
          apply screenLeads_panel free
          rw [Screen.panelStep, point, deep]
          have next : (state.panel.fpgaProcess exitPressed).point =
              .testing .release touchButtons edges := by
            rw [Panel.fpgaProcess, point, deep]
            rfl
          apply leads_locked rfl next
          apply Panel.stepsLeft_fpgaProcess _ fun _ => deep
          rw [Panel.stepsLeft, point, deep]
          exact Nat.succ_pos _

theorem leads_to_top {state : Screen} (free : state.guard = .free) :
    ScreenLeads xres pfbdata AtTop state := by
  apply LeadsTo.of_rounds (fun state => state.guard = .free) (fun state => state.panel.stepsLeft) _
    free
  exact fun _ free => panel_round free

theorem leads_to_free {state : Screen} (guarded : WellGuarded state) :
    ScreenLeads xres pfbdata (fun after => after.guard = .free) state := by
  have suits := guarded.suits
  cases guard : state.guard with
  | free => exact .reached guard
  | unlocking =>
      exact (leads_unlocking guard rfl).trans fun _ freeAt => .reached freeAt.1
  | drawing stores =>
      rw [guard] at suits
      rcases suits with starting | hits
      · exact (leads_firstDrawn stores guard (eq_starting starting)).trans
          fun _ freeAt => .reached freeAt.1
      · rcases exists_of_hits hits with ⟨phase, button, buttons, hit⟩
        exact (leads_hitDrawn stores guard hit).trans fun _ freeAt => .reached freeAt.1
  | locking =>
      apply screenLeads_step
      rw [Screen.fpgaStep, guard]
      dsimp only
      split <;> rename_i point
      · refine LeadsTo.trans (leads_firstDrawn _ rfl point) ?_
        exact fun _ freeAt => .reached freeAt.1
      · exact .reached rfl

theorem leads_scan {state : Screen} (free : state.guard = .free)
    (point : state.panel.point = .scanning) :
    ScreenLeads xres pfbdata (FreeAt (.sounding exitPressed)) state := by
  apply screenLeads_panel free
  rw [Screen.panelStep, point]
  apply LeadsTo.reached
  refine ⟨free, ?_⟩
  rw [Panel.fpgaProcess, point]

theorem leads_sounding {state : Screen} {scanned : Switches} (free : state.guard = .free)
    (point : state.panel.point = .sounding scanned) :
    ScreenLeads xres pfbdata (FreeAt (.switching scanned)) state := by
  apply screenLeads_panel free
  rw [Screen.panelStep, point]
  apply LeadsTo.reached
  refine ⟨free, ?_⟩
  rw [Panel.fpgaProcess, point]

theorem leads_switching {state : Screen} {scanned : Switches} (free : state.guard = .free)
    (point : state.panel.point = .switching scanned) (noRaise : scanned.raise = false)
    (noLower : scanned.lower = false) (exits : scanned.exit = true) :
    ScreenLeads xres pfbdata (FreeAt .closed) state := by
  apply screenLeads_panel free
  rw [Screen.panelStep, point]
  apply LeadsTo.reached
  refine ⟨free, ?_⟩
  rw [Panel.fpgaProcess, point]
  dsimp only
  rw [noRaise, noLower, exits]
  rfl

/-- Behind a scan that finds the exit switch, the loop is left. -/
theorem leads_to_closed {state : Screen} (guarded : WellGuarded state) :
    ScreenLeads xres pfbdata (FreeAt .closed) state := by
  apply (leads_to_free guarded).trans
  intro state free
  apply (leads_to_top free).trans
  intro state atTop
  rcases atTop with ⟨free, point⟩ | closed
  · apply (leads_scan free point).trans
    rintro state ⟨free, point⟩
    apply (leads_sounding free point).trans
    rintro state ⟨free, point⟩
    exact leads_switching free point rfl rfl rfl
  · exact .reached closed

end Leaving

/-! ## To the end of the processes -/

/-- `fpga_process` steps with the exit switch pressed, the finger is lifted, or another
process steps. -/
def Ends : EndingAction → Prop
  | .fpga switches => switches = exitPressed
  | .set store => store = .deep false
  | .radar _ _ | .receive | .upDown | .rightLeft => True
  | .readError | .retry _ | .send | .reset => False

section Ending

variable {xres : Nat} {pfbdata : FrameBuffer Color}

def EndingLeads (xres : Nat) (pfbdata : FrameBuffer Color) (Goal : Ending → Prop)
    (state : Ending) : Prop :=
  (endings xres pfbdata).LeadsTo (fun _ _ => True) Ends Goal state

theorem eq_inLoop {point : ExitPoint} (inLoop : point.isInLoop = true) : point = .inLoop := by
  cases point with
  | inLoop => rfl
  | leaving | locking | writing | unlocking | killing | done | brokenPipe => cases inLoop

theorem endingLeads_outside {state : Ending} {screen : Screen} (isScreen : state.screen = screen)
    (leads : ScreenLeads xres pfbdata (FreeAt .closed) screen)
    (inLoop : state.exitPoint = .inLoop) (decodes : state.set.isEnded = false) :
    EndingLeads xres pfbdata (fun after => after.exitPoint.isInLoop = false) state := by
  induction leads generalizing state with
  | reached goal =>
      rcases goal with ⟨free, closed⟩
      refine LeadsTo.step (.fpga exitPressed) rfl trivial rfl ?_
      apply LeadsTo.reached
      rw [Ending.fpgaStep, inLoop, isScreen, free, closed]
      rfl
  | step action helps meets stepped _ induction =>
      cases action with
      | fpga switches =>
          refine LeadsTo.step (.fpga switches) helps trivial rfl ?_
          rw [Ending.fpgaStep, inLoop]
          dsimp only
          split_ifs
          · exact .reached rfl
          · cases stepped
            refine induction ?_ rfl decodes
            rw [isScreen]
      | set store =>
          cases stepped
          have enabled : (endings xres pfbdata).step state (.set store) =
              some { state with
                screen := { state.screen with panel := state.screen.panel.store store } } := by
            rw [endings]
            dsimp only
            rw [decodes]
            rfl
          refine LeadsTo.step (.set store) helps trivial enabled ?_
          refine induction ?_ inLoop decodes
          rw [isScreen]
      | radar | interrupt => cases helps

/-- The connection stays as it is. -/
theorem fpgaStep_reset (state : Ending) (switches : Switches) :
    (state.fpgaStep xres switches).reset = state.reset := by
  unfold Ending.fpgaStep
  cases state.exitPoint with
  | inLoop =>
      dsimp only
      split_ifs <;> rfl
  | killing left =>
      cases left with
      | nil => rfl
      | cons child left => cases child <;> rfl
  | leaving | locking | writing | unlocking | done | brokenPipe => rfl

/-- A state of a run in which the connection stands. -/
structure Standing (xres : Nat) (pfbdata : FrameBuffer Color) (state : Ending) : Prop where
  reached : Reached xres pfbdata state
  stands : state.reset = false

theorem Standing.step {state after : Ending} {action : EndingAction}
    (standing : Standing xres pfbdata state) (ends : Ends action)
    (stepped : (endings xres pfbdata).step state action = some after) :
    Standing xres pfbdata after := by
  refine ⟨standing.reached.step stepped, ?_⟩
  cases endingMove_of_step stepped with
  | fpga switches => exact (fpgaStep_reset state switches).trans standing.stands
  | reset => cases ends
  | set | readError | connected | refused | sent | sendEnds | radar | receive | upDown
  | rightLeft => exact standing.stands

theorem Standing.not_brokenPipe {state : Ending} (standing : Standing xres pfbdata state) :
    state.exitPoint ≠ .brokenPipe := by
  rcases standing.reached with ⟨actions, run⟩
  intro broken
  have link := (linked_of_run run).exitPoint
  rw [broken] at link
  cases standing.stands.symm.trans link.2

/-- Behind its loop `fpga_process` goes on by itself. -/
theorem endingLeads_done {state : Ending} (standing : Standing xres pfbdata state)
    (outside : state.exitPoint.isInLoop = false) :
    EndingLeads xres pfbdata (fun after => after.exitPoint = .done) state := by
  apply LeadsTo.of_measure
    (fun state => Standing xres pfbdata state ∧ state.exitPoint.isInLoop = false)
    (fun state => state.exitPoint.stepsLeft) _ ⟨standing, outside⟩
  rintro state ⟨standing, outside⟩
  rcases fpgaStep_leaves outside exitPressed with ⟨stays, fewer⟩
  rcases Nat.eq_zero_or_pos state.exitPoint.stepsLeft with none | some
  · rcases done_or_brokenPipe none with done | broken
    · exact .inl done
    · exact absurd broken standing.not_brokenPipe
  · have ends : Ends (.fpga exitPressed) := rfl
    have stepped : (endings xres pfbdata).step state (.fpga exitPressed) =
        Option.some (state.fpgaStep xres exitPressed) := rfl
    exact .inr ⟨_, _, ends, trivial, stepped, ⟨standing.step ends stepped, stays⟩,
      Nat.lt_of_le_pred some fewer⟩

/-- A step of the child. -/
def Child.work : Child → EndingAction
  | .send | .receive | .set => .receive
  | .radar => .radar (fun _ => 0) (fun _ => 0)
  | .upDown => .upDown
  | .rightLeft => .rightLeft

def Ending.allLeft (state : Ending) : Nat :=
  (pids.map state.stepsLeft).sum

/-- One child comes nearer to its end and the others stay where they are. -/
theorem allLeft_work {state : Ending} (inOrder : InOrder state)
    (signalled : ∀ child, state.signalled child = true) {child : Child}
    (left : 0 < state.stepsLeft child) :
    ∃ after, (endings xres pfbdata).step state child.work = some after ∧
      after.allLeft < state.allLeft := by
  have owns : child.owns child.work = true := by
    cases child with
    | send | set => exact absurd left (Nat.lt_irrefl 0)
    | receive | radar | upDown | rightLeft => rfl
  have enabled : ∃ after, (endings xres pfbdata).step state child.work = some after := by
    cases child <;> exact ⟨_, rfl⟩
  rcases enabled with ⟨after, stepped⟩
  refine ⟨after, stepped, ?_⟩
  have nearer := own_step inOrder (signalled child) owns stepped
  apply List.sum_lt_sum
  · intro other _
    cases own : other.owns child.work with
    | true => exact (own_step inOrder (signalled other) own stepped).trans (Nat.sub_le _ _)
    | false => exact Nat.le_of_eq (other_step own stepped)
  · exact ⟨child, mem_pids child, Nat.lt_of_le_pred left nearer⟩

theorem endingLeads_ended {state : Ending} (reached : Reached xres pfbdata state)
    (signalled : ∀ child, state.signalled child = true) :
    EndingLeads xres pfbdata (fun after => ∀ child, after.ended child = true) state := by
  apply LeadsTo.of_measure
    (fun state => Reached xres pfbdata state ∧ ∀ child, state.signalled child = true)
    Ending.allLeft _ ⟨reached, signalled⟩
  rintro state ⟨reached, signalled⟩
  by_cases allEnded : ∀ child, state.stepsLeft child = 0
  · exact .inl fun child => ended_of_stepsLeft reached.inOrder (signalled child) (allEnded child)
  · rcases not_forall.mp allEnded with ⟨child, left⟩
    rcases allLeft_work reached.inOrder signalled (Nat.pos_of_ne_zero left) with
      ⟨after, stepped, less⟩
    refine .inr ⟨child.work, after, ?_, trivial, stepped, ⟨reached.step stepped, ?_⟩, less⟩
    · cases child <;> trivial
    · exact fun other => signalled_step (signalled other) stepped

theorem endingLeads_outside_of_reached {state : Ending} (reached : Reached xres pfbdata state)
    (decodes : state.exitPoint.isInLoop = true → state.set.isEnded = false) :
    EndingLeads xres pfbdata (fun after => after.exitPoint.isInLoop = false) state := by
  cases inLoop : state.exitPoint.isInLoop with
  | false => exact .reached inLoop
  | true =>
      rcases reached with ⟨actions, run⟩
      rcases screen_of_run run with ⟨events, screenRun⟩
      have closes : ScreenLeads xres pfbdata (FreeAt .closed) state.screen :=
        leads_to_closed (wellGuarded_of_run screenRun)
      exact endingLeads_outside rfl closes (eq_inLoop inLoop) (decodes inLoop)

theorem done_step {state after : Ending} {action : EndingAction} (done : state.exitPoint = .done)
    (stepped : (endings xres pfbdata).step state action = some after) :
    after.exitPoint = .done := by
  cases own : action.isFpga with
  | false => exact (exitPoint_step own stepped).trans done
  | true =>
      cases action with
      | fpga switches =>
          cases stepped
          rw [Ending.fpgaStep, done]
          exact done
      | set | readError | retry | send | reset | radar | receive | upDown | rightLeft => cases own

end Ending

/-- `fpga_process` and its children are at their ends. -/
def AllEnded (state : Ending) : Prop :=
  state.exitPoint = .done ∧ ∀ child, state.ended child = true

/-- From wherever a run leads, the exit switch ends the client, if the connection stands
and `set_process` is still there to see the finger off. -/
theorem exit_switch_ends {xres : Nat} {pfbdata : FrameBuffer Color} {actions : List EndingAction}
    {state : Ending} (run : (endings xres pfbdata).Run actions state)
    (stands : state.reset = false)
    (decodes : state.exitPoint.isInLoop = true → state.set.isEnded = false) :
    ∃ more final, (∀ action ∈ more, Ends action) ∧
      (endings xres pfbdata).Run (actions ++ more) final ∧ AllEnded final := by
  have keeps : ∀ state action after, Ends action → Standing xres pfbdata state →
      (endings xres pfbdata).step state action = some after → Standing xres pfbdata after :=
    fun _ _ _ ends standing stepped => standing.step ends stepped
  have standing : Standing xres pfbdata state := ⟨⟨actions, run⟩, stands⟩
  have leads : EndingLeads xres pfbdata AllEnded state := by
    have leaves := endingLeads_outside_of_reached standing.reached decodes
    apply (leaves.keep _ keeps standing).trans
    rintro state ⟨outside, standing⟩
    apply ((endingLeads_done standing outside).keep _ keeps standing).trans
    rintro state ⟨done, standing⟩
    have signalled : ∀ child, state.signalled child = true := by
      intro child
      rcases standing.reached.inOrder.toKill child with already | left
      · exact already
      · rw [done] at left
        cases left
    have ends := endingLeads_ended standing.reached signalled
    apply (ends.keep (fun state => state.exitPoint = .done)
      (fun _ _ _ _ done stepped => done_step done stepped) done).trans
    rintro state ⟨ended, done⟩
    exact .reached ⟨done, ended⟩
  exact leads.exists_run run

/-- A finger is on the screen, the first buttons are being drawn, and `retry` has
connected. -/
theorem touched_exit_switch_ends :
    ∃ state more final, (endings 1024 fun _ => black).Run oneStepEach state ∧
      state.connected = true ∧ (∀ action ∈ more, Ends action) ∧
      (endings 1024 fun _ => black).Run (oneStepEach ++ more) final ∧ AllEnded final := by
  have executed : ∃ state, (endings 1024 fun _ => black).execute
      (.initial 1024 (fun _ => black) false) oneStepEach = some state ∧
        state.connected = true ∧ state.reset = false ∧ state.set.isEnded = false :=
    ⟨_, rfl, rfl, rfl, rfl⟩
  rcases executed with ⟨state, executed, connected, stands, decodes⟩
  have run : (endings 1024 fun _ => black).Run oneStepEach state :=
    run_of_execute ⟨false, rfl⟩ executed
  rcases exit_switch_ends run stands (fun _ => decodes) with ⟨more, final, helps, longer, ended⟩
  exact ⟨state, more, final, run, connected, helps, longer, ended⟩

end GamZ.Client
