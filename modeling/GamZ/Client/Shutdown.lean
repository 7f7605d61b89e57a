import GamZ.Client.ServoPulses
import GamZ.Client.SharedScreen
import Mathlib.Algebra.Order.BigOperators.Group.List

/-! # Ending the client

The exit switch ends the loop of `fpga_process`, which logs out and sends `SIGINT` to its
six children. Two of them have no handler and end at once, if they have not ended by
themselves before. The others look at `quit` when their loops come round: `radar_process`
after its cycle, and on the way there it may have to wait for the semaphore;
`pwm_updown_process` after its 200 pulses. All devices are taken to be open. -/

namespace GamZ.Client

open CString Raster Transition TransitionSystem

/-! ## The children -/

/-- `pid[6]` -/
inductive Child
  | send
  | receive
  | radar
  | set
  | upDown
  | rightLeft
deriving DecidableEq, Repr

def pids : List Child := [.send, .receive, .radar, .set, .upDown, .rightLeft]

/-- `(void)signal(SIGINT, user_signal1);` -/
def Child.handlesSigint : Child → Bool
  | .send | .set => false
  | .receive | .radar | .upDown | .rightLeft => true

/-- The process behind a loop that it may leave. -/
inductive LoopPoint (Point : Type)
  | running (point : Point)
  | ended

/-- Where the sending child is. -/
inductive SendPoint
  /-- `while(!*connected_flag && !quit)` in `retry`. -/
  | retrying
  /-- `while(!quit)` in `client_send_process`. -/
  | sending

/-- `fpga_process` behind its loop. -/
inductive ExitPoint
  | inLoop
  /-- `if(*connected_flag)` -/
  | leaving
  /-- `*data_semaphore = 1;` -/
  | locking
  /-- `write(client_socket, "logout", strlen("logout") + 1);` -/
  | writing
  /-- `*data_semaphore = 0;` -/
  | unlocking
  /-- `kill(temp[i],SIGINT);` for the children left -/
  | killing (left : List Child)
  | done
  /-- `SIGPIPE` has ended the process in its `write`. -/
  | brokenPipe

structure Ending where
  screen : Screen
  send : LoopPoint SendPoint
  receive : LoopPoint Unit
  set : LoopPoint Unit
  upDown : LoopPoint PulsePoint
  rightLeft : LoopPoint PulsePoint
  connected : Bool
  /-- The connection is gone, and a `write` raises `SIGPIPE`, for which nobody has a
  handler. -/
  reset : Bool
  exitPoint : ExitPoint
  signalled : Child → Bool

/-- `main` has connected, or `retry` has to. -/
def Ending.initial (xres : Nat) (pfbdata : FrameBuffer Color) (connected : Bool) : Ending where
  screen := .initial xres pfbdata
  send := .running (if connected then .sending else .retrying)
  receive := .running ()
  set := .running ()
  upDown := .running .polling
  rightLeft := .running (.high 0)
  connected := connected
  reset := false
  exitPoint := .inLoop
  signalled := fun _ => false

/-! ## Steps -/

def LoopPoint.isEnded {Point : Type} : LoopPoint Point → Bool
  | .running _ => false
  | .ended => true

/-- `while(!quit){}` behind the empty `client_receive_process` -/
def LoopPoint.receiveNext (quit : Bool) : LoopPoint Unit → LoopPoint Unit
  | .running point => if quit then .ended else .running point
  | .ended => .ended

/-- `while(!quit)` stands in front of the test of the flag. -/
def LoopPoint.upDownNext (quit flag : Bool) : LoopPoint PulsePoint → LoopPoint PulsePoint
  | .running .polling => if quit then .ended else .running (PulsePoint.polling.upDownNext flag)
  | .running (.high left) => .running ((PulsePoint.high left).upDownNext flag)
  | .running (.low left) => .running ((PulsePoint.low left).upDownNext flag)
  | .ended => .ended

/-- The points of `pwm_right_left_process`. -/
def PulsePoint.rightLeftNext : PulsePoint → PulsePoint
  | .polling => .high 0
  | .high left => .low left
  | .low left => .high left

/-- `while(!quit)` stands in front of each pulse. -/
def LoopPoint.rightLeftNext (quit : Bool) : LoopPoint PulsePoint → LoopPoint PulsePoint
  | .running (.low left) => .running (PulsePoint.low left).rightLeftNext
  | .running .polling => if quit then .ended else .running PulsePoint.polling.rightLeftNext
  | .running (.high left) =>
      if quit then .ended else .running (PulsePoint.high left).rightLeftNext
  | .ended => .ended

section Steps

variable (xres : Nat) (state : Ending)

/-- `SIGINT` comes to a child. -/
def Ending.kill (child : Child) : Ending :=
  let signalled := Function.update state.signalled child true
  match child with
  | .send => { state with signalled := signalled, send := .ended }
  | .set => { state with signalled := signalled, set := .ended }
  | .radar => { state with signalled := signalled, screen := { state.screen with quit := true } }
  | .receive | .upDown | .rightLeft => { state with signalled := signalled }

def Ending.fpgaStep (switches : Switches) : Ending :=
  match state.exitPoint with
  | .inLoop =>
      if (state.screen.guard.isFree && state.screen.panel.point.isClosed) = true then
        { state with exitPoint := .leaving }
      else { state with screen := state.screen.fpgaStep xres switches }
  | .leaving =>
      { state with exitPoint := if state.connected then .locking else .killing pids }
  | .locking => { state with exitPoint := .writing }
  | .writing => { state with exitPoint := if state.reset then .brokenPipe else .unlocking }
  | .unlocking => { state with exitPoint := .killing pids }
  | .killing (child :: left) => { state.kill child with exitPoint := .killing left }
  | .killing [] => { state with exitPoint := .done }
  | .done | .brokenPipe => state

/-- `connect` in `retry`. The child ends behind a successful one. -/
def Ending.retry (succeeds : Bool) : Option Ending :=
  match state.send with
  | .running .retrying =>
      if succeeds then some { state with connected := true, send := .ended } else some state
  | .running .sending | .ended => none

/-- A `write` in `client_send_process`. -/
def Ending.sendStep : Option Ending :=
  match state.send with
  | .running .sending => if state.reset then some { state with send := .ended } else some state
  | .running .retrying | .ended => none

end Steps

inductive EndingAction
  | set (store : TouchStore)
  /-- `read` fails in `set_process`. -/
  | readError
  | retry (succeeds : Bool)
  | send
  /-- The server resets the connection. -/
  | reset
  | fpga (switches : Switches)
  | radar (there back : Fin 61 → Reading)
  | receive
  | upDown
  | rightLeft

def endings (xres : Nat) (pfbdata : FrameBuffer Color) : TransitionSystem Ending EndingAction where
  Initial state := ∃ connected, state = .initial xres pfbdata connected
  step state
    | .set store =>
        if state.set.isEnded then none
        else some { state with
          screen := { state.screen with panel := state.screen.panel.store store } }
    | .readError => if state.set.isEnded then none else some { state with set := .ended }
    | .retry succeeds => state.retry succeeds
    | .send => state.sendStep
    | .reset => if state.connected then some { state with reset := true } else none
    | .fpga switches => some (state.fpgaStep xres switches)
    | .radar there back =>
        some { state with screen := state.screen.radarStep xres there back }
    | .receive => some { state with
        receive := state.receive.receiveNext (state.signalled .receive) }
    | .upDown => some { state with
        upDown := state.upDown.upDownNext (state.signalled .upDown) state.screen.panel.upDownFlag }
    | .rightLeft => some { state with
        rightLeft := state.rightLeft.rightLeftNext (state.signalled .rightLeft) }

/-- The steps, by what they change. -/
inductive EndingMove (xres : Nat) (state : Ending) : Ending → EndingAction → Prop
  | set (store : TouchStore) :
      EndingMove xres state { state with
        screen := { state.screen with panel := state.screen.panel.store store } } (.set store)
  | readError : EndingMove xres state { state with set := .ended } .readError
  | connected : EndingMove xres state { state with connected := true, send := .ended } (.retry true)
  | refused : EndingMove xres state state (.retry false)
  | sent : EndingMove xres state state .send
  | sendEnds : state.send = .running .sending →
      EndingMove xres state { state with send := .ended } .send
  | reset : state.connected = true → EndingMove xres state { state with reset := true } .reset
  | fpga (switches : Switches) :
      EndingMove xres state (state.fpgaStep xres switches) (.fpga switches)
  | radar (there back : Fin 61 → Reading) :
      EndingMove xres state { state with screen := state.screen.radarStep xres there back }
        (.radar there back)
  | receive :
      EndingMove xres state { state with
        receive := state.receive.receiveNext (state.signalled .receive) } .receive
  | upDown :
      EndingMove xres state { state with
        upDown := state.upDown.upDownNext (state.signalled .upDown)
          state.screen.panel.upDownFlag } .upDown
  | rightLeft :
      EndingMove xres state { state with
        rightLeft := state.rightLeft.rightLeftNext (state.signalled .rightLeft) } .rightLeft

theorem endingMove_of_step {xres : Nat} {pfbdata : FrameBuffer Color} {state after : Ending}
    {action : EndingAction} (stepped : (endings xres pfbdata).step state action = some after) :
    EndingMove xres state after action := by
  cases action with
  | set store =>
      rw [endings] at stepped
      dsimp only at stepped
      split_ifs at stepped
      cases stepped
      exact .set store
  | readError =>
      rw [endings] at stepped
      dsimp only at stepped
      split_ifs at stepped
      cases stepped
      exact .readError
  | retry succeeds =>
      rw [endings] at stepped
      dsimp only [Ending.retry] at stepped
      split at stepped
      · cases succeeds <;> cases stepped
        · exact .refused
        · exact .connected
      · cases stepped
      · cases stepped
  | send =>
      rw [endings] at stepped
      dsimp only [Ending.sendStep] at stepped
      split at stepped
      · rename_i sending
        split_ifs at stepped <;> cases stepped
        · exact .sendEnds sending
        · exact .sent
      · cases stepped
      · cases stepped
  | reset =>
      rw [endings] at stepped
      dsimp only at stepped
      split_ifs at stepped with connected
      cases stepped
      exact .reset connected
  | fpga switches =>
      cases stepped
      exact .fpga switches
  | radar there back =>
      cases stepped
      exact .radar there back
  | receive =>
      cases stepped
      exact .receive
  | upDown =>
      cases stepped
      exact .upDown
  | rightLeft =>
      cases stepped
      exact .rightLeft

/-! ## What has ended -/

def SweepPoint.isEnded : SweepPoint → Bool
  | .ended => true
  | .drawing _ | .storing _ _ | .cycleTop | .loadingRing | .loadingLine _ => false

def Ending.ended (state : Ending) : Child → Bool
  | .send => state.send.isEnded
  | .receive => state.receive.isEnded
  | .radar => state.screen.radar.isEnded
  | .set => state.set.isEnded
  | .upDown => state.upDown.isEnded
  | .rightLeft => state.rightLeft.isEnded

/-- The repaint, and 62 passes of half the width there and back. -/
def mostStores : Nat := 600 * 1024 + 124 * (500 * 512)

theorem length_flatMap_le {Item Store : Type} (items : List Item) (stores : Item → List Store)
    (most : Nat) (each : ∀ item ∈ items, (stores item).length ≤ most) :
    (items.flatMap stores).length ≤ items.length * most := by
  have lengths : ∀ length ∈ items.map fun item => (stores item).length, length ≤ most := by
    intro length member
    rcases List.mem_map.mp member with ⟨item, isItem, isLength⟩
    exact isLength ▸ each item isItem
  rw [List.length_flatMap]
  simpa using List.sum_le_card_nsmul _ most lengths

theorem length_guardedStores_le (guard : Nat → Nat → Bool) (pass : Pass Color) (xres : Nat) :
    (guardedStores guard pass xres).length ≤ pass.rows.length * pass.columns.length :=
  length_flatMap_le _ _ _ fun _ _ => List.length_filterMap_le _ _

theorem length_rowsDown (first last : Nat) : (rowsDown first last).length = first + 1 - last := by
  rw [rowsDown, List.length_reverse, List.length_range']

theorem length_columns_le (octant : Octant) : octant.columns.length ≤ 512 := by
  cases octant <;> simp [Octant.columns]

theorem length_waited_le (direction : Direction) (ringLine warnVal : Byte)
    (readings : Fin 61 → Reading) (xres : Nat) :
    ∀ pass ∈ direction.loadedPasses ringLine warnVal readings,
      (waited pass xres).length ≤ 500 * 512 := by
  apply loadedPasses_forall
  · have rows : centreColumn.rows.length = 499 := by
      rw [centreColumn, columnPass, length_rowsDown]
    have columns : centreColumn.columns.length = 1 := rfl
    have few := length_guardedStores_le (fun _ _ => true) centreColumn xres
    rw [rows, columns] at few
    exact few.trans (by decide)
  · intro measured
    refine (length_guardedStores_le _ _ xres).trans (Nat.mul_le_mul ?_ (length_columns_le _))
    refine (Nat.le_of_eq (length_rowsDown _ 100)).trans ?_
    cases measured.1.octant <;> decide

theorem length_screenStores_le (xres : Nat) (cycle : LoadedCycle) :
    (cycle.screenStores xres).length ≤ mostStores := by
  have repaint : (guardedStores (repaintGuarded cycle.ringLine) (repaintPass cycle.ringLine)
      xres).length ≤ 600 * 1024 := by
    refine (length_guardedStores_le _ _ xres).trans (Nat.mul_le_mul ?_ ?_)
    · rw [repaintPass, length_rowsDown]
    · rw [repaintPass, List.length_range']
  have most : ∀ pass ∈ cycle.sectors, (waited pass xres).length ≤ 500 * 512 := by
    intro pass member
    rcases List.mem_append.mp member with there | back
    · exact length_waited_le .forward _ _ _ xres pass there
    · exact length_waited_le .back _ _ _ xres pass back
  have passes : cycle.sectors.length = 124 := by
    simp [LoadedCycle.sectors, Direction.loadedPasses]
  have sectors := length_flatMap_le cycle.sectors (fun pass => waited pass xres) _ most
  rw [passes] at sectors
  rw [LoadedCycle.screenStores, List.length_append]
  exact Nat.add_le_add repaint sectors

/-- Two steps for each store of the cycle. -/
def SweepPoint.stepsLeft : SweepPoint → Nat
  | .drawing stores => 2 * stores.length + 2
  | .storing _ stores => 2 * stores.length + 3
  | .cycleTop => 1
  | .loadingLine _ => 2 * mostStores + 3
  | .loadingRing => 2 * mostStores + 4
  | .ended => 0

def LoopPoint.receiveLeft : LoopPoint Unit → Nat
  | .running _ => 1
  | .ended => 0

def LoopPoint.upDownLeft : LoopPoint PulsePoint → Nat
  | .running point => point.owed + 1
  | .ended => 0

def LoopPoint.rightLeftLeft : LoopPoint PulsePoint → Nat
  | .running (.low _) => 2
  | .running .polling | .running (.high _) => 1
  | .ended => 0

/-- The own steps a child takes at most to its end, once `SIGINT` has come. -/
def Ending.stepsLeft (state : Ending) : Child → Nat
  | .send | .set => 0
  | .receive => state.receive.receiveLeft
  | .radar => state.screen.radar.stepsLeft
  | .upDown => state.upDown.upDownLeft
  | .rightLeft => state.rightLeft.rightLeftLeft

/-- A step that brings the child to its end. Without a handler `SIGINT` leaves none. -/
def Child.owns : Child → EndingAction → Bool
  | .receive, .receive | .radar, .radar _ _ | .upDown, .upDown | .rightLeft, .rightLeft => true
  | _, _ => false

/-- The cycles that have passed `while(!quit)`. -/
def Screen.begun (screen : Screen) : Nat :=
  match screen.radar with
  | .loadingRing | .loadingLine _ => screen.cycles.length + 1
  | .drawing _ | .storing _ _ | .cycleTop | .ended => screen.cycles.length

/-! ## The order of the end -/

def ExitPoint.isInLoop : ExitPoint → Bool
  | .inLoop => true
  | .leaving | .locking | .writing | .unlocking | .killing _ | .done | .brokenPipe => false

/-- The first `kill` has been reached. -/
def ExitPoint.kills : ExitPoint → Bool
  | .killing _ | .done => true
  | .inLoop | .leaving | .locking | .writing | .unlocking | .brokenPipe => false

/-- The children that `fpga_process` has not sent `SIGINT`. -/
def ExitPoint.toKill : ExitPoint → List Child
  | .inLoop | .leaving | .locking | .writing | .unlocking | .brokenPipe => pids
  | .killing left => left
  | .done => []

/-- The steps of `fpga_process` to its end. -/
def ExitPoint.stepsLeft : ExitPoint → Nat
  | .inLoop | .leaving => 11
  | .locking => 10
  | .writing => 9
  | .unlocking => 8
  | .killing left => left.length + 1
  | .done | .brokenPipe => 0

/-- The logout is written on a connection, and only on one that is gone it fails. -/
def ExitPoint.SuitsLink (connected reset : Bool) : ExitPoint → Prop
  | .locking | .writing | .unlocking => connected = true
  | .brokenPipe => connected = true ∧ reset = true
  | .inLoop | .leaving | .killing _ | .done => True

structure InOrder (state : Ending) : Prop where
  signalled : ∀ child, state.signalled child = true → state.exitPoint.kills = true
  toKill : ∀ child, state.signalled child = true ∨ child ∈ state.exitPoint.toKill
  quit : state.screen.quit = state.signalled .radar
  ended : ∀ child, child.handlesSigint = true → state.ended child = true →
    state.signalled child = true
  gone : ∀ child, child.handlesSigint = false → state.signalled child = true →
    state.ended child = true
  lowered : state.exitPoint.isInLoop = false → state.screen.semaphore = 0

/-- What the sending child and `fpga_process` know of the connection. -/
structure Linked (state : Ending) : Prop where
  sending : state.send = .running .sending → state.connected = true
  sendEnded : state.send.isEnded = true → state.signalled .send = true ∨ state.connected = true
  exitPoint : state.exitPoint.SuitsLink state.connected state.reset

theorem mem_pids (child : Child) : child ∈ pids := by
  cases child <;> decide

theorem inOrder_initial (xres : Nat) (pfbdata : FrameBuffer Color) (connected : Bool) :
    InOrder (.initial xres pfbdata connected) where
  signalled := fun _ signalled => by cases signalled
  toKill := fun child => .inr (mem_pids child)
  quit := rfl
  ended := fun child _ ended => by cases child <;> cases ended
  gone := fun _ _ signalled => by cases signalled
  lowered := fun outside => by cases outside

theorem linked_initial (xres : Nat) (pfbdata : FrameBuffer Color) (connected : Bool) :
    Linked (.initial xres pfbdata connected) where
  sending := fun sending => by
    cases connected with
    | true => rfl
    | false => cases sending
  sendEnded := fun ended => by cases ended
  exitPoint := trivial

theorem isInLoop_of_kills {point : ExitPoint} (kills : point.kills = true) :
    point.isInLoop = false := by
  cases point with
  | killing | done => rfl
  | inLoop | leaving | locking | writing | unlocking | brokenPipe => cases kills

section Order

variable {xres : Nat} {state : Ending}

theorem kill_signalled (child other : Child) :
    (state.kill child).signalled other = true ↔ other = child ∨ state.signalled other = true := by
  have updated : (state.kill child).signalled = Function.update state.signalled child true := by
    cases child <;> rfl
  rw [updated]
  by_cases same : other = child
  · subst same
    simp only [Function.update_self, true_or]
  · simp only [Function.update_of_ne same, same, false_or]

/-- `SIGINT` ends those that do not handle it, and nobody else. -/
theorem kill_ended (child other : Child) :
    (state.kill child).ended other =
      (state.ended other || !other.handlesSigint && decide (other = child)) := by
  cases child <;> cases other <;>
    simp [Ending.kill, Ending.ended, LoopPoint.isEnded, Child.handlesSigint]

theorem InOrder.kill (inOrder : InOrder state) {child : Child} {left : List Child}
    (point : state.exitPoint = .killing (child :: left)) :
    InOrder { state.kill child with exitPoint := .killing left } := by
  refine ⟨fun _ _ => rfl, ?_, ?_, ?_, ?_, ?_⟩
  · intro other
    rcases inOrder.toKill other with already | member
    · exact .inl ((kill_signalled child other).mpr (.inr already))
    · rw [point] at member
      rcases List.mem_cons.mp member with isChild | later
      · exact .inl ((kill_signalled child other).mpr (.inl isChild))
      · exact .inr later
  · cases child with
    | radar => rfl
    | send | receive | set | upDown | rightLeft => exact inOrder.quit
  · intro other handles ended
    have already : state.ended other = true := by
      have killed := (kill_ended child other).symm.trans ended
      rwa [handles, Bool.not_true, Bool.false_and, Bool.or_false] at killed
    exact (kill_signalled child other).mpr (.inr (inOrder.ended other handles already))
  · intro other unhandled signalled
    refine (kill_ended child other).trans ?_
    rcases (kill_signalled child other).mp signalled with isChild | already
    · rw [unhandled, decide_eq_true isChild]
      exact Bool.or_true _
    · simp only [inOrder.gone other unhandled already, Bool.true_or]
  · intro _
    have lowered := inOrder.lowered (by rw [point]; rfl)
    cases child <;> exact lowered

theorem screenFpga_radar (xres : Nat) (screen : Screen) (switches : Switches) :
    (screen.fpgaStep xres switches).quit = screen.quit ∧
      (screen.fpgaStep xres switches).radar = screen.radar ∧
      (screen.fpgaStep xres switches).cycles = screen.cycles := by
  unfold Screen.fpgaStep
  split
  · split <;> exact ⟨rfl, rfl, rfl⟩
  · exact ⟨rfl, rfl, rfl⟩
  · split <;> exact ⟨rfl, rfl, rfl⟩
  · exact ⟨rfl, rfl, rfl⟩
  · unfold Screen.panelStep
    split <;> exact ⟨rfl, rfl, rfl⟩

theorem isTesting_of_isClosed {point : PanelPoint} (closed : point.isClosed = true) :
    point.isTesting = false := by
  cases point with
  | testing => cases closed
  | starting | scanning | sounding | switching | flagging | settling | polling | waiting
  | closed => rfl

theorem lowered_of_closed {screen : Screen} (guarded : WellGuarded screen)
    (free : screen.guard.isFree = true) (closed : screen.panel.point.isClosed = true) :
    screen.semaphore = 0 := by
  have outside : screen.inSection = false := by
    unfold Screen.inSection
    cases guard : screen.guard with
    | free => exact isTesting_of_isClosed closed
    | locking | drawing | unlocking =>
        rw [guard] at free
        cases free
  rw [guarded.semaphore, outside]
  rfl

theorem unsignalled (inOrder : InOrder state) (early : state.exitPoint.kills = false)
    (child : Child) : state.signalled child = false := by
  by_contra signalled
  have kills := inOrder.signalled child (Bool.eq_true_of_not_eq_false signalled)
  rw [early] at kills
  cases kills

/-- In front of the first `kill`. -/
theorem InOrder.ofEarly (inOrder : InOrder state) {point : ExitPoint}
    (early : state.exitPoint.kills = false) (everybody : point.toKill = pids)
    (lowered : state.screen.semaphore = 0) : InOrder { state with exitPoint := point } := by
  have nobody := unsignalled inOrder early
  refine ⟨?_, ?_, inOrder.quit, inOrder.ended, inOrder.gone, fun _ => lowered⟩
  · intro child signalled
    rw [nobody child] at signalled
    cases signalled
  · intro child
    rw [everybody]
    exact .inr (mem_pids child)

/-- Outside of `kill`, a child with a handler ends only if `SIGINT` has come, and nobody
comes back. -/
theorem InOrder.ofStep (inOrder : InOrder state) {after : Ending}
    (sameExit : after.exitPoint = state.exitPoint) (sameSignals : after.signalled = state.signalled)
    (sameQuit : after.screen.quit = state.screen.quit)
    (sameSemaphore : after.exitPoint.isInLoop = false →
      after.screen.semaphore = state.screen.semaphore)
    (handled : ∀ child, child.handlesSigint = true → after.ended child = true →
      state.signalled child = true ∨ state.ended child = true)
    (unhandled : ∀ child, child.handlesSigint = false → state.ended child = true →
      after.ended child = true) : InOrder after := by
  refine ⟨?_, ?_, ?_, ?_, ?_, ?_⟩
  · rw [sameExit, sameSignals]
    exact inOrder.signalled
  · rw [sameExit, sameSignals]
    exact inOrder.toKill
  · rw [sameQuit, sameSignals]
    exact inOrder.quit
  · intro child handles ended
    rw [sameSignals]
    rcases handled child handles ended with signalled | already
    · exact signalled
    · exact inOrder.ended child handles already
  · intro child without signalled
    rw [sameSignals] at signalled
    exact unhandled child without (inOrder.gone child without signalled)
  · intro outside
    rw [sameSemaphore outside]
    rw [sameExit] at outside
    exact inOrder.lowered outside

theorem InOrder.fpgaStep (inOrder : InOrder state) (guarded : WellGuarded state.screen)
    (switches : Switches) : InOrder (state.fpgaStep xres switches) := by
  have lowered := inOrder.lowered
  unfold Ending.fpgaStep
  cases point : state.exitPoint with
  | inLoop =>
      have early : state.exitPoint.kills = false := by rw [point]; rfl
      dsimp only
      split_ifs with leaves
      · rcases Bool.and_eq_true_iff.mp leaves with ⟨free, closed⟩
        exact inOrder.ofEarly early rfl (lowered_of_closed guarded free closed)
      · rcases screenFpga_radar xres state.screen switches with ⟨sameQuit, sameRadar, -⟩
        refine inOrder.ofStep point.symm rfl sameQuit (fun outside => by cases outside) ?_ ?_
        · intro child _ ended
          right
          cases child with
          | radar => rwa [Ending.ended, sameRadar] at ended
          | send | receive | set | upDown | rightLeft => exact ended
        · intro child without ended
          cases child with
          | send | set => exact ended
          | receive | radar | upDown | rightLeft => cases without
  | leaving | locking | writing | unlocking =>
      have early : state.exitPoint.kills = false := by rw [point]; rfl
      rw [point] at lowered
      refine inOrder.ofEarly early ?_ (lowered rfl)
      first | rfl | (split_ifs <;> rfl)
  | killing left =>
      cases left with
      | nil =>
          rw [point] at lowered
          refine ⟨fun _ _ => rfl, ?_, inOrder.quit, inOrder.ended, inOrder.gone,
            fun _ => lowered rfl⟩
          intro child
          have toKill := inOrder.toKill child
          rw [point] at toKill
          exact toKill
      | cons child left => exact inOrder.kill point
  | done | brokenPipe => exact inOrder

theorem Linked.fpgaStep (linked : Linked state) (switches : Switches) :
    Linked (state.fpgaStep xres switches) := by
  have suits := linked.exitPoint
  unfold Ending.fpgaStep
  cases point : state.exitPoint with
  | inLoop =>
      dsimp only
      split_ifs
      · exact ⟨linked.sending, linked.sendEnded, trivial⟩
      · exact ⟨linked.sending, linked.sendEnded, trivial⟩
  | leaving =>
      refine ⟨linked.sending, linked.sendEnded, ?_⟩
      dsimp only
      split_ifs with connected
      · exact connected
      · exact trivial
  | locking =>
      rw [point] at suits
      exact ⟨linked.sending, linked.sendEnded, suits⟩
  | writing =>
      rw [point] at suits
      refine ⟨linked.sending, linked.sendEnded, ?_⟩
      dsimp only
      split_ifs with reset
      · exact ⟨suits, reset⟩
      · exact suits
  | unlocking => exact ⟨linked.sending, linked.sendEnded, trivial⟩
  | killing left =>
      cases left with
      | nil => exact ⟨linked.sending, linked.sendEnded, trivial⟩
      | cons child left =>
          refine ⟨?_, ?_, trivial⟩
          · intro sending
            cases child with
            | send => cases sending
            | receive | radar | set | upDown | rightLeft => exact linked.sending sending
          · intro ended
            by_cases isSend : child = .send
            · exact .inl ((kill_signalled child .send).mpr (.inl isSend.symm))
            · have before : state.send.isEnded = true := by
                cases child with
                | send => exact absurd rfl isSend
                | receive | radar | set | upDown | rightLeft => exact ended
              rcases linked.sendEnded before with signalled | connected
              · exact .inl ((kill_signalled child .send).mpr (.inr signalled))
              · right
                cases child <;> exact connected
  | done | brokenPipe => exact linked

theorem radarStep_quit (xres : Nat) (screen : Screen) (there back : Fin 61 → Reading) :
    (screen.radarStep xres there back).quit = screen.quit ∧
      ((screen.radarStep xres there back).radar.isEnded = true →
        screen.quit = true ∨ screen.radar.isEnded = true) := by
  unfold Screen.radarStep
  split <;> rename_i point
  · exact ⟨rfl, fun ended => by cases ended⟩
  · split_ifs
    · exact ⟨rfl, .inr⟩
    · exact ⟨rfl, fun ended => by cases ended⟩
  · exact ⟨rfl, fun ended => by cases ended⟩
  · split_ifs with quit
    · exact ⟨rfl, fun _ => .inl quit⟩
    · exact ⟨rfl, fun ended => by cases ended⟩
  · exact ⟨rfl, fun ended => by cases ended⟩
  · exact ⟨rfl, fun ended => by cases ended⟩
  · exact ⟨rfl, .inr⟩

theorem receiveNext_isEnded {quit : Bool} {point : LoopPoint Unit}
    (ended : (point.receiveNext quit).isEnded = true) : quit = true ∨ point.isEnded = true := by
  cases point with
  | ended => exact .inr rfl
  | running point =>
      rw [LoopPoint.receiveNext] at ended
      split_ifs at ended with quits
      · exact .inl quits
      · cases ended

theorem upDownNext_isEnded {quit flag : Bool} {point : LoopPoint PulsePoint}
    (ended : (point.upDownNext quit flag).isEnded = true) :
    quit = true ∨ point.isEnded = true := by
  cases point with
  | ended => exact .inr rfl
  | running point =>
      cases point with
      | polling =>
          rw [LoopPoint.upDownNext] at ended
          split_ifs at ended with quits
          · exact .inl quits
          · cases ended
      | high | low => cases ended

theorem rightLeftNext_isEnded {quit : Bool} {point : LoopPoint PulsePoint}
    (ended : (point.rightLeftNext quit).isEnded = true) :
    quit = true ∨ point.isEnded = true := by
  cases point with
  | ended => exact .inr rfl
  | running point =>
      cases point with
      | low => cases ended
      | polling | high =>
          rw [LoopPoint.rightLeftNext] at ended
          split_ifs at ended with quits
          · exact .inl quits
          · cases ended

theorem InOrder.step {pfbdata : FrameBuffer Color} {after : Ending} {action : EndingAction}
    (inOrder : InOrder state) (guarded : WellGuarded state.screen)
    (stepped : (endings xres pfbdata).step state action = some after) : InOrder after := by
  cases endingMove_of_step stepped with
  | set store =>
      refine inOrder.ofStep rfl rfl rfl (fun _ => rfl) ?_ ?_
      · exact fun child _ ended => .inr (by cases child <;> exact ended)
      · exact fun child _ ended => by cases child <;> exact ended
  | refused | sent => exact inOrder
  | reset =>
      refine inOrder.ofStep rfl rfl rfl (fun _ => rfl) ?_ ?_
      · exact fun child _ ended => .inr (by cases child <;> exact ended)
      · exact fun child _ ended => by cases child <;> exact ended
  | readError | connected | sendEnds =>
      refine inOrder.ofStep rfl rfl rfl (fun _ => rfl) ?_ ?_
      · exact fun child handles ended =>
          .inr (by cases child <;> first | exact ended | cases handles)
      · exact fun child _ ended => by cases child <;> first | rfl | exact ended
  | fpga switches => exact inOrder.fpgaStep guarded switches
  | radar there back =>
      rcases radarStep_quit xres state.screen there back with ⟨sameQuit, own⟩
      rcases radarStep_frame xres state.screen there back with ⟨-, -, sameSemaphore, -, -⟩
      refine inOrder.ofStep rfl rfl sameQuit (fun _ => sameSemaphore) ?_ ?_
      · intro child _ ended
        cases child with
        | radar =>
            rw [← inOrder.quit]
            exact own ended
        | send | receive | set | upDown | rightLeft => exact .inr ended
      · exact fun child without ended => by cases child <;> first | exact ended | cases without
  | receive =>
      refine inOrder.ofStep rfl rfl rfl (fun _ => rfl) ?_ ?_
      · intro child _ ended
        cases child with
        | receive => exact receiveNext_isEnded ended
        | send | radar | set | upDown | rightLeft => exact .inr ended
      · exact fun child without ended => by cases child <;> first | exact ended | cases without
  | upDown =>
      refine inOrder.ofStep rfl rfl rfl (fun _ => rfl) ?_ ?_
      · intro child _ ended
        cases child with
        | upDown => exact upDownNext_isEnded ended
        | send | receive | radar | set | rightLeft => exact .inr ended
      · exact fun child without ended => by cases child <;> first | exact ended | cases without
  | rightLeft =>
      refine inOrder.ofStep rfl rfl rfl (fun _ => rfl) ?_ ?_
      · intro child _ ended
        cases child with
        | rightLeft => exact rightLeftNext_isEnded ended
        | send | receive | radar | set | upDown => exact .inr ended
      · exact fun child without ended => by cases child <;> first | exact ended | cases without

theorem Linked.step {pfbdata : FrameBuffer Color} {after : Ending} {action : EndingAction}
    (linked : Linked state)
    (stepped : (endings xres pfbdata).step state action = some after) : Linked after := by
  have suits := linked.exitPoint
  cases endingMove_of_step stepped with
  | connected =>
      refine ⟨fun _ => rfl, fun _ => .inr rfl, ?_⟩
      cases point : state.exitPoint <;> rw [point] at suits
      case brokenPipe => exact ⟨rfl, suits.2⟩
      case locking | writing | unlocking => rfl
      case inLoop | leaving | killing | done => trivial
  | sendEnds sending =>
      refine ⟨?_, fun _ => .inr (linked.sending sending), suits⟩
      intro still
      cases still
  | reset connected =>
      refine ⟨linked.sending, linked.sendEnded, ?_⟩
      cases point : state.exitPoint <;> rw [point] at suits
      case brokenPipe => exact ⟨suits.1, rfl⟩
      all_goals exact suits
  | fpga switches => exact linked.fpgaStep switches
  | set | readError | refused | sent | radar | receive | upDown | rightLeft =>
      exact ⟨linked.sending, linked.sendEnded, suits⟩

end Order

theorem endingFpga_screen (xres : Nat) (pfbdata : FrameBuffer Color) (state : Ending)
    (switches : Switches) :
    (state.fpgaStep xres switches).screen = state.screen ∨
      ∃ event, (screens xres pfbdata).step state.screen event =
        some (state.fpgaStep xres switches).screen := by
  unfold Ending.fpgaStep
  cases state.exitPoint with
  | inLoop =>
      dsimp only
      split_ifs
      · exact .inl rfl
      · exact .inr ⟨.fpga switches, rfl⟩
  | killing left =>
      cases left with
      | nil => exact .inl rfl
      | cons child left =>
          cases child with
          | radar => exact .inr ⟨.interrupt, rfl⟩
          | send | receive | set | upDown | rightLeft => exact .inl rfl
  | leaving | locking | writing | unlocking | done | brokenPipe => exact .inl rfl

theorem ending_screen {xres : Nat} {pfbdata : FrameBuffer Color} {state after : Ending}
    {action : EndingAction} (stepped : (endings xres pfbdata).step state action = some after) :
    after.screen = state.screen ∨
      ∃ event, (screens xres pfbdata).step state.screen event = some after.screen := by
  cases endingMove_of_step stepped with
  | set store => exact .inr ⟨.set store, rfl⟩
  | fpga switches => exact endingFpga_screen xres pfbdata state switches
  | radar there back => exact .inr ⟨.radar there back, rfl⟩
  | readError | connected | refused | sent | sendEnds | reset | receive | upDown | rightLeft =>
      exact .inl rfl

/-- The screen goes through steps of its own. -/
theorem screen_of_run {xres : Nat} {pfbdata : FrameBuffer Color} {actions : List EndingAction}
    {state : Ending} (run : (endings xres pfbdata).Run actions state) :
    ∃ events, (screens xres pfbdata).Run events state.screen := by
  apply run.project Ending.screen
  · intro state initial
    rcases initial with ⟨connected, isInitial⟩
    rw [isInitial]
    rfl
  · intro state action after _ stepped
    rcases ending_screen stepped with same | ⟨event, screenStep⟩
    · exact .inl same
    · exact .inr ⟨event, trivial, screenStep⟩

theorem inOrder_of_run {xres : Nat} {pfbdata : FrameBuffer Color} {actions : List EndingAction}
    {state : Ending} (run : (endings xres pfbdata).Run actions state) : InOrder state := by
  induction run with
  | start initial =>
      rcases initial with ⟨connected, isInitial⟩
      rw [isInitial]
      exact inOrder_initial xres pfbdata connected
  | next action earlier _ stepped inOrder =>
      rcases screen_of_run earlier with ⟨events, screenRun⟩
      exact inOrder.step (wellGuarded_of_run screenRun) stepped

theorem linked_of_run {xres : Nat} {pfbdata : FrameBuffer Color} {actions : List EndingAction}
    {state : Ending} (run : (endings xres pfbdata).Run actions state) : Linked state := by
  apply run.invariant fun _ state => Linked state
  · intro state initial
    rcases initial with ⟨connected, isInitial⟩
    rw [isInitial]
    exact linked_initial xres pfbdata connected
  · exact fun _ _ _ _ linked _ stepped => linked.step stepped

/-! ## Every child ends by its own steps -/

section Progress

variable {xres : Nat} {pfbdata : FrameBuffer Color} {state after : Ending}
  {action : EndingAction}

def Reached (xres : Nat) (pfbdata : FrameBuffer Color) (state : Ending) : Prop :=
  ∃ actions, (endings xres pfbdata).Run actions state

theorem Reached.step (reached : Reached xres pfbdata state)
    (stepped : (endings xres pfbdata).step state action = some after) :
    Reached xres pfbdata after := by
  rcases reached with ⟨actions, run⟩
  exact ⟨actions ++ [action], run.next action trivial stepped⟩

theorem Reached.execute {actions : List EndingAction} {final : Ending}
    (reached : Reached xres pfbdata state)
    (executed : (endings xres pfbdata).execute state actions = some final) :
    Reached xres pfbdata final := by
  apply execute_invariant (fun _ => True) (Reached xres pfbdata) _ (fun _ _ => trivial) executed
    reached
  exact fun _ _ _ reached _ stepped => reached.step stepped

theorem Reached.inOrder (reached : Reached xres pfbdata state) : InOrder state := by
  rcases reached with ⟨actions, run⟩
  exact inOrder_of_run run

theorem fpgaStep_signalled {child : Child} (signalled : state.signalled child = true)
    (switches : Switches) : (state.fpgaStep xres switches).signalled child = true := by
  unfold Ending.fpgaStep
  split
  · split_ifs <;> exact signalled
  case h_6 other left _ => exact (kill_signalled other child).mpr (.inr signalled)
  all_goals exact signalled

theorem signalled_step {child : Child} (signalled : state.signalled child = true)
    (stepped : (endings xres pfbdata).step state action = some after) :
    after.signalled child = true := by
  cases endingMove_of_step stepped with
  | fpga switches => exact fpgaStep_signalled signalled switches
  | set | readError | connected | refused | sent | sendEnds | reset | radar | receive | upDown | rightLeft => exact signalled

theorem radarStep_stepsLeft {screen : Screen} (quit : screen.quit = true)
    (lowered : screen.semaphore = 0) (there back : Fin 61 → Reading) :
    (screen.radarStep xres there back).radar.stepsLeft ≤ screen.radar.stepsLeft - 1 ∧
      (screen.radarStep xres there back).begun = screen.begun := by
  unfold Screen.radarStep Screen.begun
  cases point : screen.radar with
  | drawing stores =>
      cases stores with
      | nil => exact ⟨Nat.le_refl _, rfl⟩
      | cons store stores =>
          have goesOn : ¬ (store.guarded = true ∧ screen.semaphore ≠ 0) :=
            fun blocked => blocked.2 lowered
          dsimp only
          rw [if_neg goesOn]
          refine ⟨?_, rfl⟩
          simp only [SweepPoint.stepsLeft, List.length_cons]
          omega
  | storing store stores => exact ⟨Nat.le_refl _, rfl⟩
  | cycleTop =>
      dsimp only
      rw [if_pos quit]
      exact ⟨Nat.le_refl _, rfl⟩
  | loadingRing => exact ⟨Nat.le_refl _, rfl⟩
  | loadingLine ringLine =>
      refine ⟨?_, List.length_append⟩
      have few := length_screenStores_le xres ⟨ringLine, screen.warnLine, there, back⟩
      simp only [SweepPoint.stepsLeft]
      omega
  | ended =>
      dsimp only
      rw [point]
      exact ⟨Nat.le_refl _, rfl⟩

theorem upDownNext_left (flag : Bool) (point : LoopPoint PulsePoint) :
    (point.upDownNext true flag).upDownLeft ≤ point.upDownLeft - 1 := by
  match point with
  | .ended => exact Nat.le_refl _
  | .running .polling => exact Nat.le_refl _
  | .running (.high left) => exact Nat.le_refl _
  | .running (.low 0) => exact Nat.le_add_left _ _
  | .running (.low (left + 1)) => exact Nat.le_refl _

theorem rightLeftNext_left (point : LoopPoint PulsePoint) :
    (point.rightLeftNext true).rightLeftLeft ≤ point.rightLeftLeft - 1 := by
  match point with
  | .ended => exact Nat.le_refl _
  | .running .polling => exact Nat.le_refl _
  | .running (.high left) => exact Nat.le_refl _
  | .running (.low left) => exact Nat.le_refl _

theorem receiveNext_left (point : LoopPoint Unit) :
    (point.receiveNext true).receiveLeft ≤ point.receiveLeft - 1 := by
  cases point with
  | running => exact Nat.le_refl _
  | ended => exact Nat.le_refl _

/-- With `SIGINT` there, each own step brings a child nearer to its end. -/
theorem own_step {child : Child} (inOrder : InOrder state)
    (signalled : state.signalled child = true) (own : child.owns action = true)
    (stepped : (endings xres pfbdata).step state action = some after) :
    after.stepsLeft child ≤ state.stepsLeft child - 1 := by
  cases endingMove_of_step stepped with
  | set | readError | connected | refused | sent | sendEnds | reset | fpga =>
      cases child <;> cases own
  | radar there back =>
      cases child with
      | radar =>
          have lowered := inOrder.lowered (isInLoop_of_kills (inOrder.signalled .radar signalled))
          exact (radarStep_stepsLeft (inOrder.quit.trans signalled) lowered there back).1
      | send | receive | set | upDown | rightLeft => cases own
  | receive =>
      cases child with
      | receive =>
          dsimp only [Ending.stepsLeft]
          rw [signalled]
          exact receiveNext_left state.receive
      | send | radar | set | upDown | rightLeft => cases own
  | upDown =>
      cases child with
      | upDown =>
          dsimp only [Ending.stepsLeft]
          rw [signalled]
          exact upDownNext_left _ state.upDown
      | send | receive | radar | set | rightLeft => cases own
  | rightLeft =>
      cases child with
      | rightLeft =>
          dsimp only [Ending.stepsLeft]
          rw [signalled]
          exact rightLeftNext_left state.rightLeft
      | send | receive | radar | set | upDown => cases own

theorem fpgaStep_stepsLeft (switches : Switches) (child : Child) :
    (state.fpgaStep xres switches).stepsLeft child = state.stepsLeft child ∧
      (state.fpgaStep xres switches).screen.begun = state.screen.begun := by
  rcases screenFpga_radar xres state.screen switches with ⟨-, sameRadar, sameCycles⟩
  unfold Ending.fpgaStep
  cases state.exitPoint with
  | inLoop =>
      dsimp only
      split_ifs
      · cases child <;> exact ⟨rfl, rfl⟩
      · refine ⟨?_, by simp only [Screen.begun, sameRadar, sameCycles]⟩
        cases child with
        | radar => exact congrArg SweepPoint.stepsLeft sameRadar
        | send | receive | set | upDown | rightLeft => rfl
  | killing left =>
      cases left with
      | nil => cases child <;> exact ⟨rfl, rfl⟩
      | cons killed left => cases killed <;> cases child <;> exact ⟨rfl, rfl⟩
  | leaving | locking | writing | unlocking | done | brokenPipe =>
      cases child <;> exact ⟨rfl, rfl⟩

/-- No other step takes it away from its end. -/
theorem other_step {child : Child} (own : child.owns action = false)
    (stepped : (endings xres pfbdata).step state action = some after) :
    after.stepsLeft child = state.stepsLeft child := by
  cases endingMove_of_step stepped with
  | set | readError | connected | refused | sent | sendEnds | reset => cases child <;> rfl
  | fpga switches => exact (fpgaStep_stepsLeft switches child).1
  | radar | receive | upDown | rightLeft => cases child <;> first | rfl | cases own

theorem ended_of_stepsLeft {child : Child} (inOrder : InOrder state)
    (signalled : state.signalled child = true) (none : state.stepsLeft child = 0) :
    state.ended child = true := by
  cases child with
  | send => exact inOrder.gone .send rfl signalled
  | set => exact inOrder.gone .set rfl signalled
  | receive =>
      dsimp only [Ending.stepsLeft] at none
      dsimp only [Ending.ended]
      cases point : state.receive with
      | running =>
          rw [point] at none
          cases none
      | ended => rfl
  | radar =>
      dsimp only [Ending.stepsLeft] at none
      dsimp only [Ending.ended]
      cases point : state.screen.radar with
      | ended => rfl
      | drawing | storing | cycleTop | loadingRing | loadingLine =>
          rw [point] at none
          cases none
  | upDown =>
      dsimp only [Ending.stepsLeft] at none
      dsimp only [Ending.ended]
      cases point : state.upDown with
      | running =>
          rw [point] at none
          cases none
      | ended => rfl
  | rightLeft =>
      dsimp only [Ending.stepsLeft] at none
      dsimp only [Ending.ended]
      cases point : state.rightLeft with
      | running pulse =>
          rw [point] at none
          cases pulse <;> cases none
      | ended => rfl

/-- Whatever the others do, a child ends after the steps it has left. -/
theorem child_ends {child : Child} {actions : List EndingAction} {final : Ending}
    (reached : Reached xres pfbdata state) (signalled : state.signalled child = true)
    (executed : (endings xres pfbdata).execute state actions = some final)
    (enough : state.stepsLeft child ≤ actions.countP child.owns) :
    final.ended child = true := by
  have stays : final.signalled child = true := by
    apply execute_invariant (fun _ => True) (fun state => state.signalled child = true) _
      (fun _ _ => trivial) executed signalled
    exact fun _ _ _ signalled _ stepped => signalled_step signalled stepped
  have left : final.stepsLeft child ≤ state.stepsLeft child - actions.countP child.owns := by
    apply measure_le_of_execute child.owns
      (fun state => Reached xres pfbdata state ∧ state.signalled child = true)
      (fun state => state.stepsLeft child) _ _ _ executed ⟨reached, signalled⟩
    · rintro state action after ⟨reached, signalled⟩ stepped
      exact ⟨reached.step stepped, signalled_step signalled stepped⟩
    · rintro state action after ⟨reached, signalled⟩ own stepped
      exact own_step reached.inOrder signalled own stepped
    · rintro state action after - own stepped
      exact Nat.le_of_eq (other_step own stepped)
  exact ended_of_stepsLeft (reached.execute executed).inOrder stays (by omega)

/-- With `SIGINT` there, `radar_process` begins no further cycle. -/
theorem begun_kept {actions : List EndingAction} {final : Ending}
    (reached : Reached xres pfbdata state) (signalled : state.signalled .radar = true)
    (executed : (endings xres pfbdata).execute state actions = some final) :
    final.screen.begun = state.screen.begun := by
  have kept : Reached xres pfbdata final ∧ final.signalled .radar = true ∧
      final.screen.begun = state.screen.begun := by
    apply execute_invariant (fun _ => True)
      (fun after => Reached xres pfbdata after ∧ after.signalled .radar = true ∧
        after.screen.begun = state.screen.begun) _
      (fun _ _ => trivial) executed ⟨reached, signalled, rfl⟩
    rintro before action after ⟨reached, signalled, same⟩ - stepped
    refine ⟨reached.step stepped, signalled_step signalled stepped, ?_⟩
    have inOrder := reached.inOrder
    cases endingMove_of_step stepped with
    | fpga switches => exact (fpgaStep_stepsLeft switches .radar).2.trans same
    | radar there back =>
        have lowered := inOrder.lowered (isInLoop_of_kills (inOrder.signalled .radar signalled))
        exact (radarStep_stepsLeft (inOrder.quit.trans signalled) lowered there back).2.trans same
    | set | readError | connected | refused | sent | sendEnds | reset | receive | upDown | rightLeft =>
        exact same
  exact kept.2.2

/-! ## `fpga_process` sends its signals -/

def EndingAction.isFpga : EndingAction → Bool
  | .fpga _ => true
  | .set _ | .readError | .retry _ | .send | .reset | .radar _ _ | .receive | .upDown
  | .rightLeft => false

theorem fpgaStep_leaves (outside : state.exitPoint.isInLoop = false) (switches : Switches) :
    (state.fpgaStep xres switches).exitPoint.isInLoop = false ∧
      (state.fpgaStep xres switches).exitPoint.stepsLeft ≤ state.exitPoint.stepsLeft - 1 := by
  unfold Ending.fpgaStep
  cases point : state.exitPoint with
  | inLoop =>
      rw [point] at outside
      cases outside
  | leaving =>
      dsimp only
      split_ifs
      · exact ⟨rfl, Nat.le_refl _⟩
      · exact ⟨rfl, Nat.le_add_left 7 3⟩
  | locking | unlocking => exact ⟨rfl, Nat.le_refl _⟩
  | writing =>
      dsimp only
      split_ifs
      · exact ⟨rfl, Nat.zero_le _⟩
      · exact ⟨rfl, Nat.le_refl _⟩
  | killing left =>
      cases left with
      | nil => exact ⟨rfl, Nat.le_refl _⟩
      | cons child left => exact ⟨rfl, Nat.le_refl _⟩
  | done | brokenPipe =>
      dsimp only
      rw [point]
      exact ⟨rfl, Nat.le_refl _⟩

theorem exitPoint_step (others : action.isFpga = false)
    (stepped : (endings xres pfbdata).step state action = some after) :
    after.exitPoint = state.exitPoint := by
  cases endingMove_of_step stepped with
  | fpga => cases others
  | set | readError | connected | refused | sent | sendEnds | reset | radar | receive | upDown | rightLeft =>
      rfl

/-- The steps of `fpga_process` to its end, from wherever a run has led it. -/
theorem exitLeft_of_run {actions : List EndingAction}
    (run : (endings xres pfbdata).Run actions state) : state.exitPoint.stepsLeft ≤ 11 := by
  apply run.invariant fun _ state => state.exitPoint.stepsLeft ≤ 11
  · intro state initial
    rcases initial with ⟨connected, isInitial⟩
    rw [isInitial]
    exact Nat.le_refl _
  · intro _ state action after short _ stepped
    cases own : action.isFpga with
    | false => rwa [exitPoint_step own stepped]
    | true =>
        cases action with
        | fpga switches =>
            cases stepped
            cases outside : state.exitPoint.isInLoop with
            | false =>
                exact (fpgaStep_leaves outside switches).2.trans (Nat.sub_le_of_le_add (by omega))
            | true =>
                rw [Ending.fpgaStep]
                cases point : state.exitPoint with
                | inLoop =>
                    dsimp only
                    split_ifs
                    · exact Nat.le_refl _
                    · exact Nat.le_refl _
                | leaving | locking | writing | unlocking | killing | done | brokenPipe =>
                    rw [point] at outside
                    cases outside
        | set | readError | retry | send | reset | radar | receive | upDown | rightLeft => cases own

theorem done_or_brokenPipe {point : ExitPoint} (none : point.stepsLeft = 0) :
    point = .done ∨ point = .brokenPipe := by
  cases point with
  | done => exact .inl rfl
  | brokenPipe => exact .inr rfl
  | inLoop | leaving | locking | writing | unlocking | killing => cases none

/-- Behind its loop `fpga_process` waits for nobody. -/
theorem fpga_exits {actions : List EndingAction} {final : Ending}
    (outside : state.exitPoint.isInLoop = false)
    (executed : (endings xres pfbdata).execute state actions = some final)
    (enough : state.exitPoint.stepsLeft ≤ actions.countP EndingAction.isFpga) :
    final.exitPoint = .done ∨ final.exitPoint = .brokenPipe := by
  have left : final.exitPoint.stepsLeft ≤
      state.exitPoint.stepsLeft - actions.countP EndingAction.isFpga := by
    apply measure_le_of_execute EndingAction.isFpga
      (fun state => state.exitPoint.isInLoop = false)
      (fun state => state.exitPoint.stepsLeft) _ _ _ executed outside
    · intro state action after outside stepped
      cases own : action.isFpga with
      | false => rwa [exitPoint_step own stepped]
      | true =>
          cases action with
          | fpga switches =>
              cases stepped
              exact (fpgaStep_leaves outside switches).1
          | set | readError | retry | send | reset | radar | receive | upDown | rightLeft => cases own
    · intro state action after outside own stepped
      cases action with
      | fpga switches =>
          cases stepped
          exact (fpgaStep_leaves outside switches).2
      | set | readError | retry | send | reset | radar | receive | upDown | rightLeft => cases own
    · intro state action after _ own stepped
      rw [exitPoint_step own stepped]
  exact done_or_brokenPipe (by omega)

end Progress

/-! ## How long it takes -/

theorem owed_upDownNext (flag : Bool) {point : PulsePoint} (short : point.owed ≤ 400) :
    (point.upDownNext flag).owed ≤ 400 := by
  match point with
  | .polling => cases flag <;> decide
  | .high left => exact Nat.le_of_succ_le short
  | .low 0 => exact Nat.zero_le _
  | .low (left + 1) => exact Nat.le_of_succ_le short

theorem upDownLeft_next (quit flag : Bool) {point : LoopPoint PulsePoint}
    (short : point.upDownLeft ≤ 401) : (point.upDownNext quit flag).upDownLeft ≤ 401 := by
  match point with
  | .ended => exact Nat.zero_le _
  | .running .polling =>
      cases quit with
      | true => exact Nat.zero_le _
      | false => exact Nat.succ_le_succ (owed_upDownNext flag (Nat.le_of_succ_le_succ short))
  | .running (.high left) =>
      exact Nat.succ_le_succ (owed_upDownNext flag (Nat.le_of_succ_le_succ short))
  | .running (.low left) =>
      exact Nat.succ_le_succ (owed_upDownNext flag (Nat.le_of_succ_le_succ short))

theorem upDownLeft_of_run {xres : Nat} {pfbdata : FrameBuffer Color} {actions : List EndingAction}
    {state : Ending} (run : (endings xres pfbdata).Run actions state) :
    state.upDown.upDownLeft ≤ 401 := by
  apply run.invariant fun _ state => state.upDown.upDownLeft ≤ 401
  · intro state initial
    rcases initial with ⟨connected, isInitial⟩
    rw [isInitial]
    exact Nat.le_add_left _ _
  · intro _ state action after short _ stepped
    cases endingMove_of_step stepped with
    | fpga switches =>
        have same : (state.fpgaStep xres switches).stepsLeft .upDown = state.stepsLeft .upDown :=
          (fpgaStep_stepsLeft switches .upDown).1
        exact same.trans_le short
    | upDown => exact upDownLeft_next _ _ short
    | set | readError | connected | refused | sent | sendEnds | reset | radar | receive | rightLeft =>
        exact short

/-! ## The end of the client -/

structure ShutsDown (xres : Nat) (pfbdata : FrameBuffer Color) (state : Ending) : Prop where
  /-- Nobody with a handler ends before the loop has been left and `SIGINT` been sent. -/
  inOrder : ∀ child, child.handlesSigint = true → state.ended child = true →
    state.signalled child = true ∧ state.exitPoint.isInLoop = false
  /-- Without a connection the sending child does not end either. -/
  sendEnds : state.ended .send = true → state.signalled .send = true ∨ state.connected = true
  /-- The semaphore is not left set. -/
  lowered : state.exitPoint.isInLoop = false → state.screen.semaphore = 0
  /-- Behind its loop `fpga_process` reaches its end, and has then sent all signals, unless
  the connection is gone and the logout has ended it in front of the first. -/
  exits : state.exitPoint.isInLoop = false → ∀ actions final,
    (endings xres pfbdata).execute state actions = some final →
      11 ≤ actions.countP EndingAction.isFpga →
        (final.exitPoint = .done ∧ ∀ child, final.signalled child = true) ∨
        (final.exitPoint = .brokenPipe ∧ final.connected = true ∧ final.reset = true ∧
          ∀ child, final.signalled child = false)
  /-- A child that `SIGINT` was sent to ends by its own steps. -/
  ends : ∀ child, state.signalled child = true → ∀ actions final,
    (endings xres pfbdata).execute state actions = some final →
      state.stepsLeft child ≤ actions.countP child.owns → final.ended child = true
  /-- `radar_process` ends with the cycle it is in, the PWM processes with their pulses. -/
  cycles : state.signalled .radar = true → ∀ actions final,
    (endings xres pfbdata).execute state actions = some final →
      final.screen.begun = state.screen.begun
  pulses : state.stepsLeft .upDown ≤ 401 ∧ state.stepsLeft .rightLeft ≤ 2

theorem client_shuts_down {xres : Nat} {pfbdata : FrameBuffer Color} {actions : List EndingAction}
    {state : Ending} (run : (endings xres pfbdata).Run actions state) :
    ShutsDown xres pfbdata state := by
  have reached : Reached xres pfbdata state := ⟨actions, run⟩
  have inOrder := inOrder_of_run run
  refine ⟨?_, (linked_of_run run).sendEnded, inOrder.lowered, ?_, ?_, ?_, upDownLeft_of_run run,
    ?_⟩
  · intro child handles ended
    have signalled := inOrder.ended child handles ended
    exact ⟨signalled, isInLoop_of_kills (inOrder.signalled child signalled)⟩
  · intro outside actions final executed enough
    have last := reached.execute executed
    rcases fpga_exits outside executed ((exitLeft_of_run run).trans enough) with done | broken
    · refine .inl ⟨done, fun child => ?_⟩
      rcases last.inOrder.toKill child with signalled | left
      · exact signalled
      · rw [done] at left
        cases left
    · rcases last with ⟨all, run⟩
      have link := (linked_of_run run).exitPoint
      rw [broken] at link
      have early : final.exitPoint.kills = false := by rw [broken]; rfl
      exact .inr ⟨broken, link.1, link.2, unsignalled (inOrder_of_run run) early⟩
  · exact fun child signalled actions final executed enough =>
      child_ends reached signalled executed enough
  · exact fun signalled actions final executed => begun_kept reached signalled executed
  · show state.rightLeft.rightLeftLeft ≤ 2
    match state.rightLeft with
    | .ended => exact Nat.zero_le _
    | .running .polling => exact Nat.le_succ _
    | .running (.high _) => exact Nat.le_succ _
    | .running (.low _) => exact Nat.le_refl _

/-- One step of each process while `fpga_process` sets the semaphore. The sending child
connects, and ends. -/
def oneStepEach : List EndingAction :=
  [.retry true, .fpga atRest, .set (.deep true), .radar (fun _ => 0) (fun _ => 0), .receive,
    .upDown, .rightLeft]

theorem one_step_each_shuts_down :
    ∃ state, (endings 1024 fun _ => black).Run oneStepEach state ∧
      ShutsDown 1024 (fun _ => black) state := by
  have executed : ∃ state, (endings 1024 fun _ => black).execute
      (.initial 1024 (fun _ => black) false) oneStepEach = some state := ⟨_, rfl⟩
  rcases executed with ⟨state, executed⟩
  have run : (endings 1024 fun _ => black).Run oneStepEach state :=
    run_of_execute ⟨false, rfl⟩ executed
  exact ⟨state, run, client_shuts_down run⟩

end GamZ.Client
