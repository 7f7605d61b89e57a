import GamZ.Driver.CharDevice
import GamZ.Foundation.Transition

/-! # Exclusive open

The drivers guard their device with a variable that `open` tests and then sets.
Any number of processes interleave the test, the assignment and the release. -/

namespace GamZ.Driver

open Transition TransitionSystem

/-- What `open` and `release` of a driver do to its variable `port_usage`. -/
structure OpenGuard where
  /-- The early return of `open`. -/
  refuses : Int → Option Int
  opened : Int
  released : Int

/-- `iom_dot_open` and `iom_dot_release` of `dotmatrix/`. -/
def iomDot : OpenGuard where
  refuses dot_port_usage := if dot_port_usage ≠ 0 then some (-ebusy) else none
  opened := 1
  released := 0

/-- `iom_fnd_open` and `iom_fnd_release` of `fnd/`. -/
def iomFnd : OpenGuard where
  refuses fnd_port_usage := if fnd_port_usage ≠ 0 then some (-ebusy) else none
  opened := 1
  released := 0

/-- `iom_fpga_push_switch_open` and `iom_fpga_push_switch_release` of the radar
project. -/
def iomFpgaPushSwitch : OpenGuard where
  refuses fpga_push_switch_port_usage :=
    if fpga_push_switch_port_usage ≠ 0 then some (-ebusy) else none
  opened := 1
  released := 0

inductive GuardedDevice
  | dot
  | fnd
  | pushSwitch

def GuardedDevice.guard : GuardedDevice → OpenGuard
  | .dot => iomDot
  | .fnd => iomFnd
  | .pushSwitch => iomFpgaPushSwitch

inductive OpenPoint
  | closed
  /-- Behind the test and in front of the assignment. -/
  | opening
  | holding
deriving DecidableEq

structure PortState where
  portUsage : Int
  point : Nat → OpenPoint

def PortState.initial : PortState where
  portUsage := 0
  point := fun _ => .closed

def PortState.move (state : PortState) (process : Nat) (point : OpenPoint) : PortState :=
  { state with point := Function.update state.point process point }

inductive PortAction
  | test (process : Nat)
  | assign (process : Nat)
  | release (process : Nat)

def OpenGuard.next (guard : OpenGuard) (state : PortState) : PortAction → Option PortState
  | .test process =>
      if state.point process = .closed then
        match guard.refuses state.portUsage with
        | some _ => some state
        | none => some (state.move process .opening)
      else none
  | .assign process =>
      if state.point process = .opening then
        some { state.move process .holding with portUsage := guard.opened }
      else none
  | .release process =>
      if state.point process = .holding then
        some { state.move process .closed with portUsage := guard.released }
      else none

def OpenGuard.opens (guard : OpenGuard) : TransitionSystem PortState PortAction where
  Initial state := state = .initial
  step := guard.next

/-! ## Exclusion -/

/-- At most one process holds the device, and a test that fails now fails while
some process holds the device or is opening it. -/
structure ExclusiveIn (guard : OpenGuard) (state : PortState) : Prop where
  onlyOne : ∀ first second, state.point first = .holding → state.point second = .holding →
    first = second
  refusal : ∀ code, guard.refuses state.portUsage = some code →
    code = -ebusy ∧ ∃ process, state.point process ≠ .closed

/-- An assignment finds the variable as the test found it. -/
def AssignsFree (guard : OpenGuard) (state : PortState) : PortAction → Prop
  | .assign _ => guard.refuses state.portUsage = none
  | _ => True

/-- The guard refuses with `-EBUSY` exactly between an assignment and a release. -/
structure OpenGuard.Sound (guard : OpenGuard) : Prop where
  initial : guard.refuses 0 = none
  opened : guard.refuses guard.opened = some (-ebusy)
  released : guard.refuses guard.released = none

theorem GuardedDevice.guard_sound (device : GuardedDevice) : device.guard.Sound := by
  cases device <;> exact ⟨rfl, rfl, rfl⟩

@[simp] theorem PortState.move_portUsage (state : PortState) (process : Nat)
    (point : OpenPoint) : (state.move process point).portUsage = state.portUsage := rfl

@[simp] theorem PortState.move_self (state : PortState) (process : Nat) (point : OpenPoint) :
    (state.move process point).point process = point :=
  Function.update_self ..

theorem PortState.move_other (state : PortState) {process other : Nat} (point : OpenPoint)
    (different : other ≠ process) : (state.move process point).point other = state.point other :=
  Function.update_of_ne different ..

/-- A process that moves to another point holds nothing there, and the others stay. -/
theorem PortState.holding_of_move {state : PortState} {process other : Nat} {point : OpenPoint}
    (elsewhere : point ≠ .holding) (holds : (state.move process point).point other = .holding) :
    other ≠ process ∧ state.point other = .holding := by
  have different : other ≠ process := by
    intro same
    rw [same, PortState.move_self] at holds
    exact elsewhere holds
  rw [state.move_other _ different] at holds
  exact ⟨different, holds⟩

theorem OpenGuard.next_cases {guard : OpenGuard} {state after : PortState} {action : PortAction}
    (stepped : guard.next state action = some after) :
    (∃ process, action = .test process ∧ after = state) ∨
    (∃ process, action = .test process ∧ state.point process = .closed ∧
      guard.refuses state.portUsage = none ∧ after = state.move process .opening) ∨
    (∃ process, action = .assign process ∧ state.point process = .opening ∧
      after = { state.move process .holding with portUsage := guard.opened }) ∨
    ∃ process, action = .release process ∧ state.point process = .holding ∧
      after = { state.move process .closed with portUsage := guard.released } := by
  cases action with
  | test process =>
      simp only [next] at stepped
      split at stepped
      · rename_i closed
        cases tested : guard.refuses state.portUsage with
        | some code =>
            rw [tested] at stepped
            cases stepped
            exact .inl ⟨process, rfl, rfl⟩
        | none =>
            rw [tested] at stepped
            cases stepped
            exact .inr (.inl ⟨process, rfl, closed, rfl, rfl⟩)
      · cases stepped
  | assign process =>
      simp only [next] at stepped
      split at stepped
      · rename_i opening
        cases stepped
        exact .inr (.inr (.inl ⟨process, rfl, opening, rfl⟩))
      · cases stepped
  | release process =>
      simp only [next] at stepped
      split at stepped
      · rename_i holding
        cases stepped
        exact .inr (.inr (.inr ⟨process, rfl, holding, rfl⟩))
      · cases stepped

section Guard

variable {guard : OpenGuard} {state after : PortState} {action : PortAction}

/-- Whatever the interleaving, a failing test finds a holder: the process that has
assigned last. -/
def RefusesWithHolder (guard : OpenGuard) (state : PortState) : Prop :=
  ∀ code, guard.refuses state.portUsage = some code →
    code = -ebusy ∧ ∃ process, state.point process = .holding

theorem RefusesWithHolder.next (sound : guard.Sound) (refuses : RefusesWithHolder guard state)
    (stepped : guard.next state action = some after) : RefusesWithHolder guard after := by
  intro code refused
  rcases guard.next_cases stepped with
    ⟨process, -, rfl⟩ | ⟨process, -, -, free, rfl⟩ | ⟨process, -, -, rfl⟩ | ⟨process, -, -, rfl⟩
  · exact refuses code refused
  · cases free.symm.trans refused
  · cases sound.opened.symm.trans refused
    exact ⟨rfl, process, state.move_self process .holding⟩
  · cases sound.released.symm.trans refused

theorem refusesWithHolder_of_run (sound : guard.Sound) {condition : PortState → PortAction → Prop}
    {actions : List PortAction} (run : guard.opens.RunWhere condition actions state) :
    RefusesWithHolder guard state := by
  refine run.invariant (fun _ state => RefusesWithHolder guard state) ?_ ?_
  · intro state initial code refused
    rw [initial] at refused
    cases sound.initial.symm.trans refused
  · exact fun _ _ _ _ refuses _ stepped => refuses.next sound stepped

/-- While the variable is free no process holds the device, and never do two. -/
structure HoldersAlone (guard : OpenGuard) (state : PortState) : Prop where
  onlyOne : ∀ first second, state.point first = .holding → state.point second = .holding →
    first = second
  free : guard.refuses state.portUsage = none → ∀ process, state.point process ≠ .holding

theorem HoldersAlone.next (sound : guard.Sound) (alone : HoldersAlone guard state)
    (assignsFree : AssignsFree guard state action) (stepped : guard.next state action = some after) :
    HoldersAlone guard after := by
  rcases guard.next_cases stepped with
    ⟨process, -, rfl⟩ | ⟨process, -, closed, free, rfl⟩ | ⟨process, rfl, opening, rfl⟩ |
      ⟨process, -, holding, rfl⟩
  · exact alone
  · have holders : ∀ other, (state.move process .opening).point other = .holding →
        state.point other = .holding :=
      fun other holds => (PortState.holding_of_move (by decide) holds).2
    constructor
    · exact fun first second firstHolds secondHolds =>
        alone.onlyOne first second (holders first firstHolds) (holders second secondHolds)
    · exact fun _ other holds => alone.free free other (holders other holds)
  · have noHolder := alone.free assignsFree
    have onlyProcess : ∀ other, (state.move process .holding).point other = .holding →
        other = process := by
      intro other holds
      by_contra different
      rw [state.move_other _ different] at holds
      exact noHolder other holds
    constructor
    · exact fun first second firstHolds secondHolds =>
        (onlyProcess first firstHolds).trans (onlyProcess second secondHolds).symm
    · intro free
      cases sound.opened.symm.trans free
  · have noHolder : ∀ other, (state.move process .closed).point other ≠ .holding := by
      intro other holds
      rcases PortState.holding_of_move (by decide) holds with ⟨different, held⟩
      exact different (alone.onlyOne other process held holding)
    exact ⟨fun first _ firstHolds => absurd firstHolds (noHolder first), fun _ => noHolder⟩

theorem holdersAlone_of_run (sound : guard.Sound) {actions : List PortAction}
    (run : guard.opens.RunWhere (AssignsFree guard) actions state) : HoldersAlone guard state := by
  refine run.invariant (fun _ state => HoldersAlone guard state) ?_ ?_
  · intro state initial
    rw [initial]
    exact ⟨fun _ _ impossible => absurd impossible (by simp [PortState.initial]),
      fun _ _ => by simp [PortState.initial]⟩
  · exact fun _ _ _ _ alone assignsFree stepped => alone.next sound assignsFree stepped

/-- An assignment behind another one makes a second holder. -/
theorem assigns_free_of_exclusive (refuses : RefusesWithHolder guard state)
    (stepped : guard.next state action = some after) (exclusive : ExclusiveIn guard after) :
    AssignsFree guard state action := by
  rcases guard.next_cases stepped with
    ⟨process, rfl, rfl⟩ | ⟨process, rfl, -, -, rfl⟩ | ⟨process, rfl, opening, rfl⟩ |
      ⟨process, rfl, -, rfl⟩
  · trivial
  · trivial
  · cases tested : guard.refuses state.portUsage with
    | none => exact tested
    | some code =>
        rcases (refuses code tested).2 with ⟨holder, holds⟩
        have different : holder ≠ process := by
          intro same
          rw [same, opening] at holds
          cases holds
        have stillHolds : (state.move process .holding).point holder = .holding := by
          rw [state.move_other _ different]
          exact holds
        exact absurd (exclusive.onlyOne holder process stillHolds (state.move_self process _))
          different
  · trivial

end Guard

/-- The open of a device is exclusive through exactly those runs in which every
assignment finds the variable still free. -/
theorem exclusive_open_iff (device : GuardedDevice) (actions : List PortAction)
    (state : PortState) :
    device.guard.opens.RunThrough (ExclusiveIn device.guard) actions state ↔
      device.guard.opens.RunWhere (AssignsFree device.guard) actions state := by
  have sound := device.guard_sound
  constructor
  · intro through
    refine through.runWhere ?_
    intro actions state action after run stepped exclusive
    exact assigns_free_of_exclusive (refusesWithHolder_of_run sound run) stepped exclusive
  · intro run
    refine run.through ?_
    intro actions state run
    refine ⟨(holdersAlone_of_run sound run).onlyOne, ?_⟩
    intro code refused
    rcases refusesWithHolder_of_run sound run code refused with ⟨isBusy, process, holds⟩
    exact ⟨isBusy, process, by simp [holds]⟩

/-- Two processes test before either of them assigns, and both hold the device. -/
theorem two_processes_hold_the_dot_matrix :
    ¬ ∀ (actions : List PortAction) (state : PortState), iomDot.opens.Run actions state →
      ExclusiveIn iomDot state := by
  intro always
  have executed : (iomDot.opens.execute .initial
      [.test 0, .test 1, .assign 0, .assign 1]).any
        (fun state => decide (state.point 0 = .holding) && decide (state.point 1 = .holding)) =
      true := by decide +kernel
  rcases exists_run _ rfl executed with ⟨state, run, both⟩
  rw [Bool.and_eq_true, decide_eq_true_iff, decide_eq_true_iff] at both
  exact absurd ((always _ state run).onlyOne 0 1 both.1 both.2) (by decide)

end GamZ.Driver
