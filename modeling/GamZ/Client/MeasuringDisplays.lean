import GamZ.Client.Measuring

/-! # Servo, display and arrow

While it measures, `radar_process` turns the servo, shows each accepted distance on the
seven-segment display, and the direction as an arrow on the dot matrix. -/

namespace GamZ.Client

open CString Transition TransitionSystem
open Driver (DriverState EchoEdge FndBuffer Timeval fndPack fndUnpack)

/-! ## Where servo and arrow should be -/

/-- Where the servo stands, counted in turns from its start. On the way back it is one or
two turns further than the slot that is stored. -/
def Direction.standsAt : Direction → Nat → Int
  | .forward, k => k
  | .back, k => 61 - k

/-- The arrow from the first read of a measurement on. -/
def Direction.arrowOf : Direction → Nat → Fin 5
  | .forward, k =>
      if k < 12 then 0 else if k < 26 then 1 else if k < 38 then 2 else if k < 49 then 3 else 4
  | .back, k =>
      if k < 12 then 4 else if k < 25 then 3 else if k < 38 then 2 else if k < 49 then 1 else 0

/-- The number that the last three digits of the seven-segment display show. -/
def shownDistance (fnd : UInt16) : Nat :=
  100 * (fndUnpack fnd 1).toNat + 10 * (fndUnpack fnd 2).toNat + (fndUnpack fnd 3).toNat

theorem fndData_lt {min : Byte} (small : min.toNat ≤ 250) (i : Fin 4) :
    (fndData min i).toNat < 16 := by
  match i with
  | 0 => exact Nat.zero_lt_succ 15
  | 1 | 2 | 3 =>
      simp [fndData]
      omega

/-- The display shows what was accepted, in decimal. -/
theorem shownDistance_fndPack {buf : Byte} (small : buf.toNat ≤ 250) :
    shownDistance (fndPack (fndData buf)) = buf.toNat := by
  rw [shownDistance, Driver.fndUnpack_fndPack _ (fndData_lt small)]
  simp [fndData]
  omega

/-- What the read of a bearing finds on the dot matrix. -/
def Measuring.ArrowDue (state : Measuring) (direction : Direction) : Prop :=
  match state.point with
  | .first k =>
      state.arrow = if state.driver.triggered then
        (direction.arrowBefore k).or (some (direction.arrowOf (k - 1)))
      else some (direction.arrowOf (k - 1))
  | .second k _ => state.arrow = some (direction.arrowOf k)

/-- The half-sweep that hands over an alarm. -/
def RadarPoint.handsOver : RadarPoint → Option Direction
  | .deposit direction _ | .alarmOff direction | .raise direction => some direction
  | .cycleStart | .storeWarn | .halfSweep _ => none

structure Measuring.Sweeping (state : Measuring) (direction : Direction) : Prop where
  servo : state.client.radar.sidePwm = 480 + 30 * direction.standsAt state.point.bearing
  arrow : state.ArrowDue direction
  shown : 0 < state.point.bearing.val →
    state.client.radar.r (direction.slotOf (state.point.bearing - 1)) =
      2 * shownDistance state.fnd

/-- Servo, arrow and display go with the bearing, and wait at the far end while an alarm
is handed over. -/
structure Measuring.InStep (state : Measuring) : Prop where
  sweeping : ∀ direction, state.client.radarPoint = .halfSweep direction →
    state.Sweeping direction
  resting : state.client.radarPoint.handsOver = some .forward →
    state.client.radar.sidePwm = 2310 ∧ state.arrow = some 4
  idle : (∀ direction, state.client.radarPoint ≠ .halfSweep direction) →
    state.driver.triggered = false ∧ state.point = .first 0

theorem arrow_due (direction : Direction) (k : Fin 61) :
    (direction.arrowBehind k).or
      ((direction.arrowBefore k).or (some (direction.arrowOf (k - 1)))) =
        some (direction.arrowOf k) := by
  revert k
  cases direction <;> decide

theorem measure_closeSide (xres : Nat) (direction : Direction) (radar : RadarState) (warnVal : Byte)
    (k : Fin 61) (reading : Reading) :
    ((radar.measure direction warnVal xres (direction.bearingAt k, reading)).closeSide xres
        k).sidePwm = radar.sidePwm + direction.turn ∧
      ((radar.measure direction warnVal xres (direction.bearingAt k, reading)).closeSide xres
        k).r = Function.update radar.r (direction.slotOf k) (reading * 2) := by
  rw [RadarState.closeSide, ← direction.slot_bearingAt]
  split_ifs <;> exact ⟨rfl, rfl⟩

section InStep

variable {xres : Nat} {state after : Measuring} {direction : Direction}

theorem Measuring.Sweeping.inStep (sweeping : state.Sweeping direction)
    (isPoint : state.client.radarPoint = .halfSweep direction) : state.InStep := by
  refine ⟨?_, ?_, fun noSweep => absurd isPoint (noSweep direction)⟩
  · intro other isOther
    cases isPoint.symm.trans isOther
    exact sweeping
  · intro handsOver
    rw [isPoint] at handsOver
    cases handsOver

theorem inStep_outside (noSweep : ∀ direction, state.client.radarPoint ≠ .halfSweep direction)
    (resting : state.client.radarPoint.handsOver = some .forward →
      state.client.radar.sidePwm = 2310 ∧ state.arrow = some 4)
    (quiet : state.driver.triggered = false) (start : state.point = .first 0) : state.InStep :=
  ⟨fun direction isPoint => absurd isPoint (noSweep direction), resting, fun _ => ⟨quiet, start⟩⟩

/-- A half-sweep begins with the servo and the arrow where the one before left them. -/
theorem sweeping_start (quiet : state.driver.triggered = false) (start : state.point = .first 0)
    (servo : state.client.radar.sidePwm = 480 + 30 * direction.standsAt 0)
    (arrow : state.arrow = some (direction.arrowOf 0)) : state.Sweeping direction := by
  constructor
  · rw [start]
    exact servo
  · simpa [Measuring.ArrowDue, start, quiet] using arrow
  · rw [start]
    exact fun positive => absurd positive (Nat.lt_irrefl 0)

/-- The steps in front of, between and behind the half-sweeps. -/
theorem Measuring.InStep.outside (inStep : state.InStep)
    (noSweep : ∀ direction, state.client.radarPoint ≠ .halfSweep direction) :
    Measuring.InStep { state with
      client := state.client.radarStep xres fun _ => 0
      arrow := if state.client.radarPoint = .storeWarn then some 0 else state.arrow } := by
  rcases inStep.idle noSweep with ⟨quiet, start⟩
  have resting := inStep.resting
  cases point : state.client.radarPoint with
  | halfSweep direction => exact absurd point (noSweep direction)
  | cycleStart =>
      simp only [State.radarStep, point]
      refine inStep_outside ?_ ?_ quiet start
      · exact fun _ => RadarPoint.noConfusion
      · intro handsOver
        cases handsOver
  | storeWarn =>
      simp only [State.radarStep, point]
      apply Measuring.Sweeping.inStep _ rfl
      exact sweeping_start quiet start rfl rfl
  | deposit direction i =>
      rw [point] at resting
      simp only [State.radarStep, point]
      refine inStep_outside ?_ ?_ quiet start
      · intro direction other
        split_ifs at other
      · intro handsOver
        apply resting
        split_ifs at handsOver <;> exact handsOver
  | alarmOff direction =>
      rw [point] at resting
      simp only [State.radarStep, point]
      exact inStep_outside (fun _ => RadarPoint.noConfusion) resting quiet start
  | raise direction =>
      rw [point] at resting
      simp only [State.radarStep, point]
      cases direction with
      | back =>
          refine inStep_outside ?_ ?_ quiet start
          · exact fun _ => RadarPoint.noConfusion
          · intro handsOver
            cases handsOver
      | forward =>
          rcases resting rfl with ⟨servo, arrow⟩
          apply Measuring.Sweeping.inStep _ rfl
          exact sweeping_start quiet start servo arrow

theorem Measuring.Sweeping.trigger (sweeping : state.Sweeping direction) {driver : DriverState}
    (pinged : state.driver.next .trigger = some driver) :
    Measuring.Sweeping { state with driver := driver, arrow := state.pingArrow direction }
      direction := by
  rcases trigger_cases pinged with ⟨quiet, triggered, -⟩
  refine ⟨sweeping.servo, ?_, sweeping.shown⟩
  have arrow := sweeping.arrow
  unfold Measuring.ArrowDue at arrow ⊢
  dsimp only [Measuring.pingArrow]
  cases point : state.point with
  | first k =>
      rw [point, quiet] at arrow
      simp only [triggered, if_true]
      rw [show state.arrow = _ from arrow]
      rfl
  | second k buf =>
      rw [point] at arrow
      exact arrow

theorem Measuring.Sweeping.first (sweeping : state.Sweeping direction) {driver : DriverState}
    {k : Fin 61} (isFirst : state.point = .first k)
    (read : state.driver.next .sample = some driver) :
    Measuring.Sweeping { state with
      driver := driver
      point := .second k (sampled state.driver)
      arrow := (direction.arrowBehind k).or state.arrow } direction := by
  have arrow := sweeping.arrow
  simp only [Measuring.ArrowDue, isFirst, (sample_cases read).1, if_true] at arrow
  have servo := sweeping.servo
  have shown := sweeping.shown
  rw [isFirst] at servo shown
  refine ⟨servo, ?_, shown⟩
  show (direction.arrowBehind k).or state.arrow = some (direction.arrowOf k)
  rw [arrow]
  exact arrow_due direction k

theorem Direction.standsAt_succ (direction : Direction) (k : Nat) :
    480 + 30 * direction.standsAt k + direction.turn = 480 + 30 * direction.standsAt (k + 1) := by
  cases direction <;> simp only [standsAt, turn] <;> omega

/-- The measurement turns the servo, stores its slot and shows its distance. -/
theorem Measuring.InStep.second (sweeping : state.Sweeping direction)
    (isPoint : state.client.radarPoint = .halfSweep direction) {driver : DriverState} {k : Fin 61}
    {buf read : Byte} (isSecond : state.point = .second k buf)
    (sampledTwice : state.driver.next .sample = some driver) (small : read.toNat ≤ 250)
    (finished : { state with driver := driver }.finish xres direction k read = some after) :
    after.InStep := by
  have quiet := (sample_cases sampledTwice).2.1
  have servo := sweeping.servo
  have arrow := sweeping.arrow
  simp only [isSecond, MeasurePoint.bearing] at servo
  simp only [Measuring.ArrowDue, isSecond] at arrow
  rcases finish_cases finished with ⟨radar, isRadar, rest⟩
  rcases measure_closeSide xres direction state.client.radar state.client.warnVal k
    (readingOf read) with ⟨turned, stored⟩
  rw [← show radar = _ from isRadar] at turned stored
  have stands : radar.sidePwm = 480 + 30 * direction.standsAt (k + 1 : Nat) := by
    rw [turned, servo, direction.standsAt_succ]
  rcases rest with ⟨inside, isAfter⟩ | ⟨isLast, isAfter⟩
  · subst isAfter
    refine Measuring.Sweeping.inStep ?_ isPoint
    constructor
    · exact stands
    · simp [Measuring.ArrowDue, quiet, arrow]
    · intro _
      simp only [MeasurePoint.bearing, Nat.add_sub_cancel]
      rw [stored, Function.update_self, shownDistance_fndPack small, readingOf_val small]
      omega
  · subst isAfter
    have atEnd : k = 60 := Fin.ext (by omega)
    subst atEnd
    by_cases alarm : radar.buzFlag ≠ 0
    · rw [if_pos alarm]
      refine inStep_outside ?_ ?_ quiet rfl
      · exact fun _ => RadarPoint.noConfusion
      · intro handsOver
        cases handsOver
        exact ⟨stands, arrow⟩
    · rw [if_neg alarm]
      cases direction with
      | back =>
          refine inStep_outside ?_ ?_ quiet rfl
          · exact fun _ => RadarPoint.noConfusion
          · intro handsOver
            cases handsOver
      | forward =>
          apply Measuring.Sweeping.inStep _ rfl
          exact sweeping_start quiet rfl stands arrow

theorem Measuring.InStep.other (inStep : state.InStep) {client : State}
    (point : client.radarPoint = state.client.radarPoint)
    (radar : client.radar = state.client.radar) :
    Measuring.InStep { state with client := client } := by
  constructor
  · intro direction isPoint
    rcases inStep.sweeping direction (point.symm.trans isPoint) with ⟨servo, arrow, shown⟩
    rw [← radar] at servo shown
    exact ⟨servo, arrow, shown⟩
  · intro handsOver
    dsimp only at handsOver ⊢
    rw [point] at handsOver
    rw [radar]
    exact inStep.resting handsOver
  · intro noSweep
    exact inStep.idle fun direction isPoint => noSweep direction (point.trans isPoint)

theorem Measuring.InStep.step {action : MeasureAction} (inStep : state.InStep)
    (sound : state.Sound) (stepped : (measuring xres).step state action = some after) :
    after.InStep := by
  cases action with
  | radar =>
      rcases radarStepped_of_step stepped with
        ⟨noSweep, isAfter⟩ | ⟨isPoint, pinged, isAfter⟩ | ⟨isPoint, isFirst, read, isAfter⟩ |
          ⟨isPoint, isSecond, read, finished⟩
      · subst isAfter
        exact inStep.outside noSweep
      · subst isAfter
        exact ((inStep.sweeping _ isPoint).trigger pinged).inStep isPoint
      · subst isAfter
        exact ((inStep.sweeping _ isPoint).first isFirst read).inStep isPoint
      · have small := accepted_le (sound.buf _ _ isSecond) (sampled_le sound.driver)
        exact Measuring.InStep.second (inStep.sweeping _ isPoint) isPoint isSecond read small
          finished
  | echo edge now =>
      rcases Option.map_eq_some_iff.mp stepped with ⟨driver, heard, isAfter⟩
      have same := (echo_cases heard).1
      subst isAfter
      refine ⟨?_, inStep.resting, ?_⟩
      · intro direction isPoint
        rcases inStep.sweeping direction isPoint with ⟨servo, arrow, shown⟩
        refine ⟨servo, ?_, shown⟩
        unfold Measuring.ArrowDue at arrow ⊢
        dsimp only
        rw [same]
        exact arrow
      · intro noSweep
        dsimp only
        rw [same]
        exact inStep.idle noSweep
  | sender time =>
      cases stepped
      rcases senderStep_radar state.client time with ⟨point, radar, -, -, -⟩
      exact inStep.other point radar
  | fpga button =>
      cases stepped
      rcases fpgaStep_radar state.client button with ⟨point, radar, -, -⟩
      exact inStep.other point radar

end InStep

theorem inStep_of_run {xres : Nat} {condition : Measuring → MeasureAction → Prop}
    {actions : List MeasureAction} {state : Measuring}
    (run : (measuring xres).RunWhere condition actions state) : state.InStep := by
  induction run with
  | start initial =>
      rw [show _ = Measuring.initial from initial]
      refine inStep_outside ?_ ?_ rfl rfl
      · exact fun _ => RadarPoint.noConfusion
      · intro handsOver
        cases handsOver
  | next action earlier _ stepped induction =>
      exact induction.step (sound_of_run earlier) stepped

/-- The measurements refine the client, whose half-sweep is one step, and are never stuck.
While a bearing is measured, the servo stands there, the arrow is off by at most 36 degrees,
of which a turn of the servo makes three, and the seven-segment display shows what was
stored last. -/
structure MeasuringRefined (xres : Nat) (state : Measuring) : Prop where
  client : ∃ events coarse, (processes xres).Run events coarse ∧ Refines xres state coarse
  enabled : ∃ after, (measuring xres).step state .radar = some after
  servo : ∀ direction, state.client.radarPoint = .halfSweep direction →
    state.client.radar.sidePwm = 480 + 30 * direction.standsAt state.point.bearing
  arrow : ∀ direction, state.client.radarPoint = .halfSweep direction →
    ∃ arrow : Fin 5, state.arrow = some arrow ∧
      (45 * (arrow.val : Int) - 3 * direction.standsAt state.point.bearing).natAbs ≤ 36
  shown : ∀ direction, state.client.radarPoint = .halfSweep direction →
    0 < state.point.bearing.val →
      state.client.radar.r (direction.slotOf (state.point.bearing - 1)) =
        2 * shownDistance state.fnd

theorem arrow_near (direction : Direction) (k : Fin 61) :
    (45 * ((direction.arrowOf k).val : Int) - 3 * direction.standsAt k).natAbs ≤ 36 ∧
      (45 * ((direction.arrowOf (k - 1)).val : Int) - 3 * direction.standsAt k).natAbs ≤ 36 := by
  revert k
  cases direction <;> decide

theorem arrow_after_ping (direction : Direction) (k : Fin 61) :
    (direction.arrowBefore k).or (some (direction.arrowOf (k - 1))) =
        some (direction.arrowOf k) ∨
      (direction.arrowBefore k).or (some (direction.arrowOf (k - 1))) =
        some (direction.arrowOf (k - 1)) := by
  revert k
  cases direction <;> decide

/-- Until its first read the arrow is the one of the bearing before. -/
theorem Measuring.Sweeping.exists_arrow {state : Measuring} {direction : Direction}
    (sweeping : state.Sweeping direction) : ∃ arrow : Fin 5, state.arrow = some arrow ∧
      (45 * (arrow.val : Int) - 3 * direction.standsAt state.point.bearing).natAbs ≤ 36 := by
  have arrow := sweeping.arrow
  unfold Measuring.ArrowDue at arrow
  cases point : state.point with
  | second k buf =>
      rw [point] at arrow
      exact ⟨_, arrow, (arrow_near direction k).1⟩
  | first k =>
      rw [point] at arrow
      dsimp only at arrow
      split_ifs at arrow
      · rcases arrow_after_ping direction k with here | earlier
        · exact ⟨_, arrow.trans here, (arrow_near direction k).1⟩
        · exact ⟨_, arrow.trans earlier, (arrow_near direction k).2⟩
      · exact ⟨_, arrow, (arrow_near direction k).2⟩

theorem measuring_refined {xres : Nat} {actions : List MeasureAction} {state : Measuring}
    (run : (measuring xres).Run actions state) : MeasuringRefined xres state := by
  have inStep := inStep_of_run run
  constructor
  · exact (measuring_simulates xres).run run
  · exact (sound_of_run run).enabled xres
  · exact fun direction isPoint => (inStep.sweeping direction isPoint).servo
  · exact fun direction isPoint => (inStep.sweeping direction isPoint).exists_arrow
  · exact fun direction isPoint => (inStep.sweeping direction isPoint).shown

/-- The first measurement of a cycle, of an object at one metre. -/
def metreAway : List MeasureAction :=
  [.radar, .radar, .radar, .echo .rising { sec := 0, usec := 100, normal := by decide },
    .echo .falling { sec := 0, usec := 5500, normal := by decide }, .radar, .radar, .radar]

theorem metre_away_refined :
    ∃ state, (measuring 1024).Run metreAway state ∧ shownDistance state.fnd = 100 ∧
      MeasuringRefined 1024 state := by
  have executed : ((measuring 1024).execute .initial metreAway).any
      (fun state => shownDistance state.fnd == 100) = true := by
    decide +kernel
  rcases exists_run _ rfl executed with ⟨state, run, shown⟩
  exact ⟨state, run, beq_iff_eq.mp shown, measuring_refined run⟩

end GamZ.Client
