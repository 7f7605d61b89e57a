import GamZ.Client.Repaint

/-! # The half-sweeps of a run

`radar_process` runs cycle after cycle over one array `r` and one alarm flag. What each
half-sweep stores, and whether it raises `send_flag`, is kept beside the state. -/

namespace GamZ.Client

open CString

/-- The warn line taken at the start of a cycle, and the accepted readings there and
back. -/
structure Cycle where
  warnVal : Byte
  there : Fin 61 → Reading
  back : Fin 61 → Reading

/-- What a half-sweep did: the slots of `r` it stored, one after the other, and whether
it set `send_flag` at its end. -/
structure HalfSweepLog where
  direction : Direction
  warnVal : Byte
  readings : Fin 61 → Reading
  slots : List Nat
  raised : Bool

/-! ## Slots in the order they are stored -/

section Logged

variable (direction : Direction) (warnVal : Byte) (xres : Nat)

/-- One pass of a measuring loop, with the slot it stores put to the log. -/
def measureLogged (logged : RadarState × List Nat) (pass : Bearing × Reading) :
    RadarState × List Nat :=
  (logged.1.measure direction warnVal xres pass, logged.2 ++ [pass.1.slot])

def halfSweepLogged (state : RadarState) (readings : Fin 61 → Reading) :
    RadarState × List Nat :=
  let passes := direction.passes readings
  let firstSide := (passes.take 31).foldl (measureLogged direction warnVal xres) (state, [])
  let column := { firstSide.1 with pfbdata := centreColumn.paint xres firstSide.1.pfbdata }
  (passes.drop 31).foldl (measureLogged direction warnVal xres) (column, firstSide.2)

private theorem foldl_measureLogged (passes : List (Bearing × Reading)) :
    ∀ (state : RadarState) (slots : List Nat),
      passes.foldl (measureLogged direction warnVal xres) (state, slots) =
        (passes.foldl (RadarState.measure direction warnVal xres) state,
          slots ++ passes.map fun pass => pass.1.slot) := by
  induction passes with
  | nil => simp
  | cons pass passes induction =>
      intro state slots
      rw [List.foldl_cons, measureLogged, induction, List.foldl_cons, List.map_cons,
        List.append_assoc, List.singleton_append]

theorem halfSweepLogged_eq (state : RadarState) (readings : Fin 61 → Reading) :
    halfSweepLogged direction warnVal xres state readings =
      (state.halfSweep direction warnVal xres readings, direction.bearings.map Bearing.slot) := by
  have slots : (direction.passes readings).map (fun pass => pass.1.slot) =
      direction.bearings.map Bearing.slot := by
    have firsts : (direction.passes readings).map Prod.fst = direction.bearings :=
      List.map_fst_zip (by simp)
    rw [← firsts, List.map_map]
    rfl
  simp only [halfSweepLogged, foldl_measureLogged, List.nil_append, ← List.map_append,
    List.take_append_drop, slots]
  rfl

end Logged

/-! ## Cycles -/

/-- `if(*buz_flag)`: the alarm is handed to the sender. -/
def RadarState.handOver (state : RadarState) : RadarState × Bool :=
  if state.buzFlag ≠ 0 then ({ state with buzFlag := 0 }, true) else (state, false)

/-- A half-sweep up to the point where it may set `send_flag`. -/
def RadarState.loggedHalf (direction : Direction) (warnVal : Byte) (xres : Nat)
    (state : RadarState) (readings : Fin 61 → Reading) : RadarState × HalfSweepLog :=
  let swept := halfSweepLogged direction warnVal xres state readings
  let handed := swept.1.handOver
  (handed.1, { direction, warnVal, readings, slots := swept.2, raised := handed.2 })

/-- One pass of `while(!quit)`. -/
def RadarState.cycle (xres : Nat) (state : RadarState) (cycle : Cycle) :
    RadarState × List HalfSweepLog :=
  let there := (state.startCycle cycle.warnVal xres).loggedHalf .forward cycle.warnVal xres
    cycle.there
  let back := there.1.loggedHalf .back cycle.warnVal xres cycle.back
  (back.1, [there.2, back.2])

def sweepLogs (xres : Nat) : RadarState → List Cycle → List HalfSweepLog
  | _, [] => []
  | state, cycle :: cycles =>
      let finished := state.cycle xres cycle
      finished.2 ++ sweepLogs xres finished.1 cycles

theorem handOver_quiet (state : RadarState) : state.handOver.1.buzFlag = 0 := by
  rw [RadarState.handOver]
  split_ifs with alarm
  · rfl
  · exact not_not.mp alarm

theorem handOver_raised (state : RadarState) : state.handOver.2 = true ↔ state.buzFlag ≠ 0 := by
  rw [RadarState.handOver]
  split_ifs with alarm <;> simp [alarm]

/-! ## Complete half-sweeps -/

/-- All slots, in the order of the half-sweep. -/
def Direction.sweptSlots : Direction → List Nat
  | .forward => List.range 61
  | .back => (List.range 61).reverse

/-- The half-sweep has stored every slot once, in its order and nothing else, and has
set `send_flag` exactly if one of its readings was below the warn line. -/
structure HalfSweepLog.Complete (log : HalfSweepLog) : Prop where
  slots : log.slots = log.direction.sweptSlots
  raised : log.raised = true ↔ ∃ k, (log.readings k).val < log.warnVal.toNat

/-- What holds of every half-sweep that starts with the alarm flag down. -/
structure HalfSweepLog.Swept (log : HalfSweepLog) : Prop where
  slots : log.slots = log.direction.bearings.map Bearing.slot
  raised : log.raised = true ↔ ∃ k, (log.readings k).val < log.warnVal.toNat

theorem loggedHalf_swept (direction : Direction) (warnVal : Byte) (xres : Nat)
    {state : RadarState} (quiet : state.buzFlag = 0) (readings : Fin 61 → Reading) :
    (state.loggedHalf direction warnVal xres readings).2.Swept := by
  constructor
  · simp only [RadarState.loggedHalf, halfSweepLogged_eq]
  · simp only [RadarState.loggedHalf, halfSweepLogged_eq, handOver_raised]
    exact halfSweep_buzFlag direction warnVal xres state readings quiet

theorem cycle_swept (xres : Nat) (state : RadarState) (cycle : Cycle) :
    ∀ log ∈ (state.cycle xres cycle).2, log.Swept := by
  intro log member
  rw [RadarState.cycle, List.mem_pair] at member
  rcases member with there | back
  · subst there
    exact loggedHalf_swept .forward cycle.warnVal xres rfl cycle.there
  · subst back
    exact loggedHalf_swept .back cycle.warnVal xres (handOver_quiet _) cycle.back

/-- Over a whole run no alarm is carried from one half-sweep to the next. -/
theorem sweepLogs_swept (xres : Nat) (cycles : List Cycle) :
    ∀ (state : RadarState), ∀ log ∈ sweepLogs xres state cycles, log.Swept := by
  induction cycles with
  | nil =>
      intro state log member
      cases member
  | cons cycle cycles induction =>
      intro state log member
      rw [sweepLogs, List.mem_append] at member
      rcases member with now | later
      · exact cycle_swept xres state cycle log now
      · exact induction _ log later

theorem HalfSweepLog.Swept.complete_iff {log : HalfSweepLog} (swept : log.Swept) :
    log.Complete ↔ log.direction = .forward := by
  constructor
  · intro complete
    have slots := complete.slots
    rw [swept.slots] at slots
    cases direction : log.direction with
    | forward => rfl
    | back =>
        rw [direction] at slots
        exact absurd slots (by decide)
  · intro forward
    refine ⟨?_, swept.raised⟩
    rw [swept.slots, forward]
    decide

/-- In every run the forward half-sweeps are complete, and those back never: they store
no reading in slot 60 and two in slot 44. -/
theorem half_sweep_complete_iff (xres : Nat) (state : RadarState) (cycles : List Cycle) :
    ∀ log ∈ sweepLogs xres state cycles, log.Complete ↔ log.direction = .forward :=
  fun log member => (sweepLogs_swept xres cycles state log member).complete_iff

/-- Nothing within reach there and back. -/
def clearCycle : Cycle where
  warnVal := 20
  there := fun _ => 250
  back := fun _ => 250

theorem clear_half_sweep_complete_iff :
    ((RadarState.initial.startCycle 20 1024).loggedHalf .forward 20 1024 fun _ => 250).2.Complete ↔
      ((RadarState.initial.startCycle 20 1024).loggedHalf .forward 20 1024
        fun _ => 250).2.direction = .forward :=
  half_sweep_complete_iff 1024 .initial [clearCycle] _
    (by simp [sweepLogs, RadarState.cycle, clearCycle])

theorem way_back_not_complete : ¬ ∀ (xres : Nat) (state : RadarState) (cycles : List Cycle),
    ∀ log ∈ sweepLogs xres state cycles, log.Complete := by
  intro complete
  have member : (((RadarState.initial.startCycle 20 1024).loggedHalf .forward 20 1024
      fun _ => 250).1.loggedHalf .back 20 1024 fun _ => 250).2 ∈
        sweepLogs 1024 .initial [clearCycle] := by
    simp [sweepLogs, RadarState.cycle, clearCycle]
  have swept := sweepLogs_swept 1024 [clearCycle] .initial _ member
  have forward := swept.complete_iff.mp (complete 1024 .initial [clearCycle] _ member)
  exact absurd forward Direction.noConfusion

end GamZ.Client
