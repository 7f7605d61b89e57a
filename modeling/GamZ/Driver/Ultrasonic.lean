import GamZ.Foundation.Transition
import Mathlib.Data.List.Chain
import Mathlib.Tactic.SplitIfs

/-! # The distance sensor

`us_read` triggers a ping, sleeps, and returns what the echo interrupt has left in
`distance`. The edges of the echo and the reads come in any order. -/

namespace GamZ.Driver

open Transition TransitionSystem

/-- `struct timeval` as `do_gettimeofday` fills it in. -/
structure Timeval where
  sec : Int
  usec : Int
  normal : 0 ≤ usec ∧ usec < 1000000

def Timeval.zero : Timeval where
  sec := 0
  usec := 0
  normal := by decide

def Timeval.notAfter (time other : Timeval) : Bool :=
  time.sec < other.sec || time.sec == other.sec && decide (time.usec ≤ other.usec)

/-! ## The driver -/

/-- `before` and `distance`. `after` is only used within one interrupt. -/
structure Sensor where
  before : Timeval
  distance : Int

def Sensor.initial : Sensor where
  before := .zero
  distance := 250

/-- The distance at the end of an echo, from the difference of the microseconds. -/
def echoDistance (difference : Int) : Int :=
  if difference.tdiv 54 > 250 ∨ difference.tdiv 54 < 0 then 250 else difference.tdiv 54

inductive EchoEdge
  | rising
  | falling

/-- `gpio_get_value(HCSR04_ECHO)` tells the edges apart. -/
def Sensor.ultrasonicsEchoInterrupt (sensor : Sensor) (edge : EchoEdge) (now : Timeval) : Sensor :=
  match edge with
  | .rising => { before := now, distance := 250 }
  | .falling => { before := .zero, distance := echoDistance (now.usec - sensor.before.usec) }

/-- `val = (char) distance;` -/
def Sensor.val (sensor : Sensor) : Int :=
  sensor.distance % 256

/-! ## Echoes and reads -/

structure Echo where
  edge : EchoEdge
  time : Timeval

/-- A byte that `us_read` has returned, with the echoes between its trigger and its
sample, the last one first. -/
structure Reading where
  byte : Int
  echoes : List Echo

/-- The sensor with its echoes as history, the last one first: those since the last
trigger and those from before it. -/
structure DriverState where
  sensor : Sensor
  earlier : List Echo
  echoes : List Echo
  triggered : Bool
  readings : List Reading

def DriverState.initial : DriverState where
  sensor := .initial
  earlier := []
  echoes := []
  triggered := false
  readings := []

def DriverState.history (state : DriverState) : List Echo :=
  state.echoes ++ state.earlier

inductive DriverAction
  /-- `output_sonicburst();` -/
  | trigger
  | echo (edge : EchoEdge) (now : Timeval)
  /-- `val = (char) distance;` after `msleep(60)` -/
  | sample

def DriverState.next (state : DriverState) : DriverAction → Option DriverState
  | .trigger =>
      if state.triggered then none
      else some { state with earlier := state.history, echoes := [], triggered := true }
  | .echo edge now =>
      if state.history.head?.all fun last => last.time.notAfter now then
        some { state with
          sensor := state.sensor.ultrasonicsEchoInterrupt edge now
          echoes := { edge := edge, time := now } :: state.echoes }
      else none
  | .sample =>
      if state.triggered then
        some { state with
          triggered := false
          readings := state.readings ++ [{ byte := state.sensor.val, echoes := state.echoes }] }
      else none

def driver : TransitionSystem DriverState DriverAction where
  Initial state := state = .initial
  step := DriverState.next

/-! ## What a read should return -/

def width (rose fell : Timeval) : Int :=
  (fell.sec - rose.sec) * 1000000 + (fell.usec - rose.usec)

/-- The width of the last pulse that both rose and fell. -/
def lastPulse : List Echo → Option Int
  | ⟨.falling, fell⟩ :: ⟨.rising, rose⟩ :: _ => some (width rose fell)
  | _ :: echoes => lastPulse echoes
  | [] => none

def pulseDistance : Option Int → Int
  | some width => min 250 (width / 54)
  | none => 250

/-- Every byte returned is the distance of the last pulse of its own read. -/
def ReportsOwnEcho (state : DriverState) : Prop :=
  ∀ reading ∈ state.readings, reading.byte = pulseDistance (lastPulse reading.echoes)

/-! ## When a read returns that -/

/-- A pulse of this width is out of range. -/
def Far (width : Int) : Prop :=
  13500 ≤ width

/-- A difference of microseconds that the interrupt takes for an echo out of range. -/
def Outside (difference : Int) : Prop :=
  Far difference ∨ difference ≤ -54

/-- The stamp that a falling edge finds in `before`. -/
def riseBefore : List Echo → Timeval
  | ⟨.rising, rose⟩ :: _ => rose
  | _ => .zero

/-- A falling edge ends no pulse of this read, but makes the same of the pulse that it
should not have touched. -/
def Harmless (pulse : Option Int) (difference : Int) : Prop :=
  match pulse with
  | none => Outside difference
  | some width =>
      Far width ∧ Outside difference ∨
        ¬ Far width ∧ ¬ Outside difference ∧ width / 54 = difference.tdiv 54

/-- What the echoes must be at the sample: the last edge ends a pulse of this read within
one second, or one that is out of range by both clocks, or it ends no pulse of this read
and is harmless, or it is not a falling edge and no pulse of this read is in range. -/
def Measurable (earlier echoes : List Echo) : Prop :=
  match echoes ++ earlier with
  | ⟨.falling, fell⟩ :: before =>
      match echoes with
      | _ :: ⟨.rising, rose⟩ :: _ =>
          rose.sec = fell.sec ∨ Far (width rose fell) ∧ Outside (fell.usec - rose.usec)
      | _ => Harmless (lastPulse echoes) (fell.usec - (riseBefore before).usec)
  | _ => ∀ width ∈ lastPulse echoes, Far width

def SampledWell (state : DriverState) : DriverAction → Prop
  | .sample => Measurable state.earlier state.echoes
  | _ => True

/-! ## Distances -/

theorem echoDistance_bounds (difference : Int) :
    0 ≤ echoDistance difference ∧ echoDistance difference ≤ 250 := by
  rw [echoDistance]
  split_ifs with outside
  · decide
  · omega

/-- The division of C rounds towards zero. -/
theorem tdiv_bounds (difference : Int) :
    54 * difference.tdiv 54 ≤ difference + 53 ∧ difference ≤ 54 * difference.tdiv 54 + 53 ∧
      (0 ≤ difference → 54 * difference.tdiv 54 ≤ difference) ∧
      (difference ≤ 0 → difference ≤ 54 * difference.tdiv 54) := by
  by_cases positive : 0 ≤ difference
  · rw [Int.tdiv_eq_ediv_of_nonneg positive]
    omega
  · have flipped : difference.tdiv 54 = -(-difference / 54) := by
      rw [← Int.tdiv_eq_ediv_of_nonneg (by omega), Int.neg_tdiv, Int.neg_neg]
    omega

theorem echoDistance_outside {difference : Int} (outside : Outside difference) :
    echoDistance difference = 250 := by
  have bounds := tdiv_bounds difference
  rw [Outside, Far] at outside
  rw [echoDistance]
  split_ifs with clipped
  · rfl
  · omega

theorem echoDistance_inside {difference : Int} (inside : ¬ Outside difference) :
    echoDistance difference = difference.tdiv 54 ∧ difference.tdiv 54 < 250 := by
  have bounds := tdiv_bounds difference
  rw [Outside, Far] at inside
  rw [echoDistance]
  split_ifs with clipped
  · omega
  · exact ⟨rfl, by omega⟩

theorem echoDistance_eq_iff {difference : Int} :
    echoDistance difference = 250 ↔ Outside difference := by
  constructor
  · intro clipped
    by_contra inside
    rcases echoDistance_inside inside with ⟨same, small⟩
    omega
  · exact echoDistance_outside

theorem pulseDistance_far {width : Int} (far : Far width) : pulseDistance (some width) = 250 := by
  rw [Far] at far
  rw [pulseDistance]
  omega

theorem pulseDistance_near {width : Int} (near : ¬ Far width) :
    pulseDistance (some width) = width / 54 ∧ width / 54 < 250 := by
  rw [Far] at near
  rw [pulseDistance]
  omega

theorem pulseDistance_eq_iff {pulse : Option Int} :
    pulseDistance pulse = 250 ↔ ∀ width ∈ pulse, Far width := by
  cases pulse with
  | none => simp [pulseDistance]
  | some width =>
      simp only [Option.mem_some_iff, forall_eq']
      constructor
      · intro clipped
        by_contra near
        rcases pulseDistance_near near with ⟨same, small⟩
        omega
      · exact pulseDistance_far

theorem echoDistance_harmless {pulse : Option Int} {difference : Int} :
    echoDistance difference = pulseDistance pulse ↔ Harmless pulse difference := by
  cases pulse with
  | none => exact echoDistance_eq_iff
  | some width =>
      rw [Harmless]
      by_cases far : Far width
      · rw [pulseDistance_far far, echoDistance_eq_iff]
        simp [far]
      · rcases pulseDistance_near far with ⟨same, small⟩
        by_cases outside : Outside difference
        · rw [same, echoDistance_outside outside]
          simp only [far, outside, false_and, not_true, and_false, or_self, iff_false]
          omega
        · rw [same, (echoDistance_inside outside).1]
          simp only [far, outside, not_false_eq_true, true_and, and_false, false_or]
          exact eq_comm

/-- Only the seconds tell a pulse from one that is shorter by whole seconds. -/
theorem echoDistance_pulse {rose fell : Timeval} (ordered : rose.notAfter fell = true) :
    echoDistance (fell.usec - rose.usec) = pulseDistance (some (width rose fell)) ↔
      rose.sec = fell.sec ∨ Far (width rose fell) ∧ Outside (fell.usec - rose.usec) := by
  simp only [Timeval.notAfter, Bool.or_eq_true, Bool.and_eq_true, decide_eq_true_eq,
    beq_iff_eq] at ordered
  rw [echoDistance_harmless, Harmless]
  rcases ordered with later | ⟨same, ordered⟩
  · have notSame : rose.sec ≠ fell.sec := by omega
    have wrong : ¬ (¬ Far (width rose fell) ∧ ¬ Outside (fell.usec - rose.usec) ∧
        width rose fell / 54 = (fell.usec - rose.usec).tdiv 54) := by
      rw [Outside, Far, Far, width]
      omega
    simp only [notSame, wrong, or_false, false_or]
  · have sameWidth : width rose fell = fell.usec - rose.usec := by
      rw [width, same]
      omega
    rw [sameWidth, Outside]
    simp only [same, true_or, iff_true]
    rw [Far, Int.tdiv_eq_ediv_of_nonneg (by omega)]
    omega

/-! ## The sensor after its echoes -/

def leftBy : List Echo → Int
  | ⟨.falling, fell⟩ :: before => echoDistance (fell.usec - (riseBefore before).usec)
  | _ => 250

theorem leftBy_bounds (echoes : List Echo) : 0 ≤ leftBy echoes ∧ leftBy echoes ≤ 250 := by
  rcases echoes with _ | ⟨⟨edge, time⟩, before⟩
  · decide
  · cases edge with
    | rising => exact ⟨Int.zero_le_ofNat 250, Int.le_refl 250⟩
    | falling => exact echoDistance_bounds _

def InOrder (echoes : List Echo) : Prop :=
  echoes.IsChain fun last before => before.time.notAfter last.time = true

structure Left (state : DriverState) : Prop where
  before : state.sensor.before = riseBefore state.history
  distance : state.sensor.distance = leftBy state.history
  inOrder : InOrder state.history

theorem next_cases {state after : DriverState} {action : DriverAction}
    (stepped : driver.step state action = some after) :
    (after.sensor = state.sensor ∧ after.history = state.history) ∧
        (action = .trigger ∧ after.readings = state.readings ∨
          action = .sample ∧ after.readings =
            state.readings ++ [{ byte := state.sensor.val, echoes := state.echoes }]) ∨
      ∃ edge now, action = .echo edge now ∧
        (∀ last ∈ state.history.head?, last.time.notAfter now = true) ∧
        after.sensor = state.sensor.ultrasonicsEchoInterrupt edge now ∧
        after.history = { edge := edge, time := now } :: state.history ∧
        after.readings = state.readings := by
  cases action with
  | trigger =>
      simp only [driver, DriverState.next] at stepped
      split_ifs at stepped
      cases stepped
      exact .inl ⟨⟨rfl, rfl⟩, .inl ⟨rfl, rfl⟩⟩
  | sample =>
      simp only [driver, DriverState.next] at stepped
      split_ifs at stepped
      cases stepped
      exact .inl ⟨⟨rfl, rfl⟩, .inr ⟨rfl, rfl⟩⟩
  | echo edge now =>
      simp only [driver, DriverState.next] at stepped
      split_ifs at stepped with ordered
      cases stepped
      rw [Option.all_eq_true] at ordered
      exact .inr ⟨edge, now, rfl, ordered, rfl, rfl, rfl⟩

theorem Left.initial : Left .initial := ⟨rfl, rfl, .nil⟩

theorem Left.step {state after : DriverState} {action : DriverAction} (left : Left state)
    (stepped : driver.step state action = some after) : Left after := by
  rcases next_cases stepped with
    ⟨⟨sameSensor, sameHistory⟩, -⟩ | ⟨edge, now, -, ordered, sensor, history, -⟩
  · refine ⟨?_, ?_, ?_⟩ <;> rw [sameHistory]
    · rw [sameSensor]
      exact left.before
    · rw [sameSensor]
      exact left.distance
    · exact left.inOrder
  · refine ⟨?_, ?_, ?_⟩ <;> rw [history]
    · rw [sensor]
      cases edge <;> rfl
    · rw [sensor]
      cases edge with
      | rising => rfl
      | falling => rw [Sensor.ultrasonicsEchoInterrupt, leftBy, left.before]
    · exact List.isChain_cons.mpr ⟨ordered, left.inOrder⟩

theorem Left.val {state : DriverState} (left : Left state) :
    state.sensor.val = leftBy state.history := by
  have bounds := leftBy_bounds state.history
  rw [Sensor.val, left.distance]
  omega

theorem leftBy_measurable {earlier echoes : List Echo} (inOrder : InOrder (echoes ++ earlier)) :
    leftBy (echoes ++ earlier) = pulseDistance (lastPulse echoes) ↔ Measurable earlier echoes := by
  rcases echoes with _ | ⟨⟨edge, fell⟩, before⟩
  · rcases earlier with _ | ⟨⟨edge, fell⟩, before⟩
    · exact eq_comm.trans pulseDistance_eq_iff
    · cases edge with
      | rising => exact eq_comm.trans pulseDistance_eq_iff
      | falling => exact echoDistance_harmless
  · cases edge with
    | rising => exact eq_comm.trans pulseDistance_eq_iff
    | falling =>
        rcases before with _ | ⟨⟨edge, rose⟩, before⟩
        · exact echoDistance_harmless
        · cases edge with
          | falling => exact echoDistance_harmless
          | rising => exact echoDistance_pulse (List.isChain_cons_cons.mp inOrder).1

theorem left_of_run {condition : DriverState → DriverAction → Prop} {actions : List DriverAction}
    {state : DriverState} (run : driver.RunWhere condition actions state) : Left state := by
  apply RunWhere.invariant (fun _ state => Left state) _ _ run
  · intro state initial
    rw [initial]
    exact .initial
  · intro _ _ _ _ left _ stepped
    exact left.step stepped

/-- A step keeps the bytes right exactly if it does not sample a wrong one. -/
theorem reportsOwnEcho_step {state after : DriverState} {action : DriverAction}
    (left : Left state) (stepped : driver.step state action = some after) :
    ReportsOwnEcho after ↔ ReportsOwnEcho state ∧ SampledWell state action := by
  rcases next_cases stepped with
    ⟨-, ⟨isTrigger, same⟩ | ⟨isSample, readings⟩⟩ | ⟨edge, now, isEcho, -, -, -, same⟩
  · rw [isTrigger, ReportsOwnEcho, same]
    exact (iff_of_eq (and_true _)).symm
  · rw [isSample, SampledWell, ← leftBy_measurable left.inOrder, ReportsOwnEcho, readings,
      List.forall_mem_append, List.forall_mem_singleton, left.val]
    rfl
  · rw [isEcho, ReportsOwnEcho, same]
    exact (iff_of_eq (and_true _)).symm

theorem reportsOwnEcho_of_run (actions : List DriverAction) (state : DriverState)
    (run : driver.RunWhere SampledWell actions state) : ReportsOwnEcho state := by
  induction run with
  | start initial =>
      rw [initial]
      intro reading none
      cases none
  | next action earlier meets stepped induction =>
      exact (reportsOwnEcho_step (left_of_run earlier) stepped).mpr ⟨induction, meets⟩

/-- The runs whose reads all report their own echoes are those whose samples find the
echoes measurable. -/
theorem reportsOwnEcho_iff (actions : List DriverAction) (state : DriverState) :
    driver.RunThrough ReportsOwnEcho actions state ↔ driver.RunWhere SampledWell actions state := by
  constructor
  · intro through
    apply through.runWhere
    intro _ _ action _ run stepped right
    exact ((reportsOwnEcho_step (left_of_run run) stepped).mp right).2
  · exact fun run => run.through reportsOwnEcho_of_run

/-- A pulse of 400 microseconds across a second boundary is reported as out of range. -/
theorem pulse_across_seconds_misread :
    ¬ ∀ (actions : List DriverAction) (state : DriverState), driver.Run actions state →
      ReportsOwnEcho state := by
  intro reports
  have executed : (driver.execute .initial
      [.trigger, .echo .rising { sec := 0, usec := 999900, normal := by decide },
        .echo .falling { sec := 1, usec := 300, normal := by decide }, .sample]).any
      (fun state => state.readings.any fun reading =>
        reading.byte != pulseDistance (lastPulse reading.echoes)) = true := by
    decide +kernel
  rcases exists_run _ rfl executed with ⟨state, run, misread⟩
  rcases List.any_eq_true.mp misread with ⟨reading, isReading, wrong⟩
  exact (bne_iff_ne.mp wrong) (reports _ state run reading isReading)

end GamZ.Driver
