import GamZ.Client.Mailbox
import GamZ.Driver.FndReadBack
import GamZ.Driver.Ultrasonic
import GamZ.Foundation.Simulation

/-! # Measuring

A half-sweep takes 61 measurements, and a measurement reads the distance sensor twice.
Every read is a ping and, after a while, a sample, and echoes, sender and buttons go on in
between. Seen from the other processes a half-sweep is still one step. -/

namespace GamZ.Client

open CString Raster Transition TransitionSystem
open Driver (DriverState EchoEdge FndBuffer Timeval fndPack fndUnpack)

/-! ## One measurement -/

/-- Arrows are written as numbers. -/
instance fpgaNumberHasArrows : NeZero 5 := ⟨by decide⟩

/-- The digits of the display are written as numbers. -/
instance fndHasDigits : NeZero 4 := ⟨by decide⟩

/-- `buf[0]` after the second read. A first read of 0 or 250 may be a stray value and is
dropped, otherwise the larger one counts. -/
def accepted (first second : Byte) : Byte :=
  if first = 250 ∨ first = 0 then second
  else if second > first then second else first

/-- `data`, whose first byte is never set. -/
def fndData (min : Byte) : FndBuffer
  | 0 => 0
  | 1 => min / 100
  | 2 => min % 100 / 10
  | 3 => min % 10

/-- The `fpga_number` that a measurement writes to the dot matrix in front of its first
read. -/
def Direction.arrowBefore : Direction → Nat → Option (Fin 5)
  | .forward, 12 => some 1
  | _, _ => none

/-- The one that it writes behind its first read. -/
def Direction.arrowBehind : Direction → Nat → Option (Fin 5)
  | .forward, 26 => some 2
  | .forward, 38 => some 3
  | .forward, 49 => some 4
  | .back, 12 => some 3
  | .back, 25 => some 2
  | .back, 38 => some 1
  | .back, 49 => some 0
  | _, _ => none

/-- The next read of a half-sweep. The byte is what the first one has left in `buf[0]`. -/
inductive MeasurePoint
  | first (k : Fin 61)
  | second (k : Fin 61) (buf : Byte)

/-- The client and the driver of the sensor, the register of the seven-segment display,
and the arrow on the dot matrix. -/
structure Measuring where
  client : State
  driver : DriverState
  point : MeasurePoint
  fnd : UInt16
  arrow : Option (Fin 5)

/-- `radar_process` has cleared the seven-segment display. -/
def Measuring.initial : Measuring where
  client := .initial
  driver := .initial
  point := .first 0
  fnd := 0
  arrow := none

/-- What a sample leaves in `buf[0]`. -/
def sampled (driver : DriverState) : Byte := UInt8.ofNat driver.sensor.val.toNat

def readingOf (buf : Byte) : Reading := Fin.ofNat 251 buf.toNat

/-- The centre column is drawn behind the last measurement of the first side. -/
def RadarState.closeSide (xres : Nat) (state : RadarState) (k : Fin 61) : RadarState :=
  if k = 30 then { state with pfbdata := centreColumn.paint xres state.pfbdata } else state

section Steps

variable (xres : Nat) (state : Measuring) (direction : Direction)

/-- What follows the second read. A byte of 251 or more is not modelled; the sensor never
returns one. -/
def Measuring.finish (k : Fin 61) (buf : Byte) : Option Measuring :=
  let radar := (state.client.radar.measure direction state.client.warnVal xres
    (direction.bearingAt k, readingOf buf)).closeSide xres k
  if buf.toNat < 251 then
    if inside : k.val + 1 < 61 then
      some { state with
        client := { state.client with radar := radar }
        point := .first ⟨k.val + 1, inside⟩
        fnd := fndPack (fndData buf) }
    else
      some { state with
        client := { state.client with
          radar := radar
          radarPoint := if radar.buzFlag ≠ 0 then .deposit direction 0 else direction.next }
        point := .first 0
        fnd := fndPack (fndData buf) }
  else none

def Measuring.pingArrow : Option (Fin 5) :=
  match state.point with
  | .first k => (direction.arrowBefore k).or state.arrow
  | .second _ _ => state.arrow

/-- `output_sonicburst();` in `us_read` -/
def Measuring.trigger : Option Measuring :=
  (state.driver.next .trigger).map fun driver =>
    { state with driver := driver, arrow := state.pingArrow direction }

/-- `val = (char) distance;` in `us_read`, and what `radar_process` does with it. -/
def Measuring.sample : Option Measuring :=
  (state.driver.next .sample).bind fun driver =>
    match state.point with
    | .first k =>
        some { state with
          driver := driver
          point := .second k (sampled state.driver)
          arrow := (direction.arrowBehind k).or state.arrow }
    | .second k buf =>
        { state with driver := driver }.finish xres direction k
          (accepted buf (sampled state.driver))

/-- Outside of a half-sweep `radar_process` takes its steps as before. -/
def Measuring.radarStep : Option Measuring :=
  match state.client.radarPoint with
  | .halfSweep direction =>
      if state.driver.triggered then state.sample xres direction else state.trigger direction
  | .storeWarn =>
      some { state with client := state.client.radarStep xres fun _ => 0, arrow := some 0 }
  | _ => some { state with client := state.client.radarStep xres fun _ => 0 }

end Steps

inductive MeasureAction
  | radar
  | echo (edge : EchoEdge) (now : Timeval)
  | sender (time : Fin 6 → Byte)
  | fpga (button : Button)

def measuring (xres : Nat) : TransitionSystem Measuring MeasureAction where
  Initial state := state = .initial
  step state
    | .radar => state.radarStep xres
    | .echo edge now =>
        (state.driver.next (.echo edge now)).map fun driver => { state with driver := driver }
    | .sender time => some { state with client := state.client.senderStep time }
    | .fpga button => some { state with client := state.client.fpgaStep button }

/-! ## A half-sweep after some of its measurements -/

section Part

variable (direction : Direction) (warnVal : Byte) (xres : Nat)

def RadarState.sweepPart (state : RadarState) (readings : List Reading) : RadarState :=
  let passes := direction.bearings.zip readings
  let firstSide := (passes.take 31).foldl (RadarState.measure direction warnVal xres) state
  if readings.length < 31 then firstSide
  else
    (passes.drop 31).foldl (RadarState.measure direction warnVal xres)
      { firstSide with pfbdata := centreColumn.paint xres firstSide.pfbdata }

variable {direction warnVal xres} {state : RadarState}

theorem RadarState.sweepPart_nil :
    state.sweepPart direction warnVal xres [] = state := by
  rw [sweepPart, List.zip_nil_right]
  rfl

theorem zip_concat {readings : List Reading} (k : Fin 61) (length : readings.length = k)
    (reading : Reading) :
    direction.bearings.zip (readings ++ [reading]) =
      direction.bearings.zip readings ++ [(direction.bearingAt k, reading)] := by
  apply List.ext_getElem
  · simp only [List.length_zip, List.length_append, List.length_singleton,
      direction.length_bearings]
    omega
  · intro i inside _
    have bound : i < 61 ∧ i < readings.length + 1 := by
      simpa [List.length_zip, List.length_append] using inside
    by_cases earlier : i < readings.length
    · rw [List.getElem_append_left (by simp; omega), List.getElem_zip, List.getElem_zip,
        List.getElem_append_left earlier]
    · have isLast : i = k := by omega
      subst isLast
      rw [List.getElem_append_right (by simp; omega), List.getElem_zip,
        List.getElem_append_right (by omega), direction.bearings_getElem k]
      simp

theorem RadarState.closeSide_of_ne {k : Fin 61} (elsewhere : k ≠ 30) :
    state.closeSide xres k = state :=
  if_neg elsewhere

theorem RadarState.closeSide_thirty : state.closeSide xres 30 =
    { state with pfbdata := centreColumn.paint xres state.pfbdata } := rfl

/-- One more measurement. -/
theorem RadarState.sweepPart_concat {readings : List Reading} (k : Fin 61)
    (length : readings.length = k) (reading : Reading) :
    state.sweepPart direction warnVal xres (readings ++ [reading]) =
      ((state.sweepPart direction warnVal xres readings).measure direction warnVal xres
        (direction.bearingAt k, reading)).closeSide xres k := by
  have passes : (direction.bearings.zip readings).length = k := by
    rw [List.length_zip, direction.length_bearings]
    omega
  have longer : (direction.bearings.zip readings ++ [(direction.bearingAt k, reading)]).length =
      k + 1 := by
    rw [List.length_append, passes, List.length_singleton]
  have next : (readings ++ [reading]).length = k + 1 := by
    rw [List.length_append, length, List.length_singleton]
  rw [sweepPart, sweepPart, zip_concat k length, next, length]
  rcases Nat.lt_trichotomy k 30 with onFirst | atLast | onSecond
  · have before : k ≠ 30 := Fin.ne_of_lt onFirst
    rw [if_pos (by omega), if_pos (by omega), closeSide_of_ne before,
      List.take_of_length_le (by omega), List.take_of_length_le (by omega), List.foldl_append]
    rfl
  · have here : k = 30 := Fin.ext atLast
    subst here
    rw [if_neg (by omega), if_pos (by omega), closeSide_thirty,
      List.take_of_length_le (by omega), List.take_of_length_le (by omega),
      List.drop_of_length_le (by omega), List.foldl_append]
    rfl
  · have behind : k ≠ 30 := Fin.ne_of_gt onSecond
    rw [if_neg (by omega), if_neg (by omega), closeSide_of_ne behind,
      List.take_append_of_le_length (by omega), List.drop_append_of_le_length (by omega),
      List.foldl_append]
    rfl

/-- All measurements are the half-sweep. -/
theorem RadarState.sweepPart_full {readings : List Reading} (length : readings.length = 61) :
    state.sweepPart direction warnVal xres readings =
      state.halfSweep direction warnVal xres
        fun k => readings.get (k.cast length.symm) := by
  have whole : List.ofFn (fun k : Fin 61 => readings.get (k.cast length.symm)) = readings := by
    apply List.ext_getElem
    · rw [List.length_ofFn, length]
    · intro i _ _
      rw [List.getElem_ofFn]
      rfl
  rw [sweepPart, if_neg (by omega), halfSweep, Direction.passes, whole]

end Part

/-! ## The steps of `radar_process` -/

section Cases

variable {xres : Nat} {state after : Measuring}

theorem finish_cases {direction : Direction} {k : Fin 61} {buf : Byte}
    (finished : state.finish xres direction k buf = some after) :
    ∃ radar, radar = (state.client.radar.measure direction state.client.warnVal xres
        (direction.bearingAt k, readingOf buf)).closeSide xres k ∧
      ((∃ inside : k.val + 1 < 61, after = { state with
          client := { state.client with radar := radar }
          point := .first ⟨k.val + 1, inside⟩
          fnd := fndPack (fndData buf) }) ∨
        k.val + 1 = 61 ∧ after = { state with
          client := { state.client with
            radar := radar
            radarPoint := if radar.buzFlag ≠ 0 then .deposit direction 0 else direction.next }
          point := .first 0
          fnd := fndPack (fndData buf) }) := by
  dsimp only [Measuring.finish] at finished
  by_cases small : buf.toNat < 251
  · rw [if_pos small] at finished
    refine ⟨_, rfl, ?_⟩
    by_cases inside : k.val + 1 < 61
    · rw [dif_pos inside] at finished
      exact .inl ⟨inside, (Option.some.inj finished).symm⟩
    · rw [dif_neg inside] at finished
      exact .inr ⟨by omega, (Option.some.inj finished).symm⟩
  · rw [if_neg small] at finished
    cases finished

/-- What a step of `radar_process` can do. -/
inductive RadarStepped (xres : Nat) (state after : Measuring) : Prop
  | outside (noSweep : ∀ direction, state.client.radarPoint ≠ .halfSweep direction) :
      after = { state with
        client := state.client.radarStep xres fun _ => 0
        arrow := if state.client.radarPoint = .storeWarn then some 0 else state.arrow } →
      RadarStepped xres state after
  | trigger {direction : Direction} {driver : DriverState} :
      state.client.radarPoint = .halfSweep direction →
      state.driver.next .trigger = some driver →
      after = { state with driver := driver, arrow := state.pingArrow direction } →
      RadarStepped xres state after
  | first {direction : Direction} {driver : DriverState} {k : Fin 61} :
      state.client.radarPoint = .halfSweep direction → state.point = .first k →
      state.driver.next .sample = some driver →
      after = { state with
        driver := driver
        point := .second k (sampled state.driver)
        arrow := (direction.arrowBehind k).or state.arrow } →
      RadarStepped xres state after
  | second {direction : Direction} {driver : DriverState} {k : Fin 61} {buf : Byte} :
      state.client.radarPoint = .halfSweep direction → state.point = .second k buf →
      state.driver.next .sample = some driver →
      { state with driver := driver }.finish xres direction k
        (accepted buf (sampled state.driver)) = some after →
      RadarStepped xres state after

theorem radarStepped_of_step (stepped : state.radarStep xres = some after) :
    RadarStepped xres state after := by
  cases point : state.client.radarPoint with
  | halfSweep direction =>
      simp only [Measuring.radarStep, point] at stepped
      split_ifs at stepped with triggered
      · rcases Option.bind_eq_some_iff.mp stepped with ⟨driver, sampledOnce, rest⟩
        cases read : state.point with
        | first k =>
            rw [read] at rest
            cases rest
            exact .first point read sampledOnce rfl
        | second k buf =>
            rw [read] at rest
            exact .second point read sampledOnce rest
      · rcases Option.map_eq_some_iff.mp stepped with ⟨driver, pinged, isAfter⟩
        exact .trigger point pinged isAfter.symm
  | storeWarn =>
      simp only [Measuring.radarStep, point] at stepped
      cases stepped
      apply RadarStepped.outside
      · intro direction other
        rw [point] at other
        cases other
      · rw [if_pos point]
  | cycleStart | deposit _ _ | alarmOff _ | raise _ =>
      simp only [Measuring.radarStep, point] at stepped
      cases stepped
      apply RadarStepped.outside
      · intro direction other
        rw [point] at other
        cases other
      · have notStoring : state.client.radarPoint ≠ .storeWarn := by
          rw [point]
          exact fun other => nomatch other
        rw [if_neg notStoring]

end Cases

/-! ## The client behind the measurements -/

def MeasurePoint.bearing : MeasurePoint → Fin 61
  | .first k => k
  | .second k _ => k

/-- Inside a half-sweep the coarse client has not begun it. -/
def Refines (xres : Nat) (state : Measuring) (coarse : State) : Prop :=
  match state.client.radarPoint with
  | .halfSweep direction =>
      ∃ readings : List Reading, readings.length = state.point.bearing ∧
        state.client =
          { coarse with radar := coarse.radar.sweepPart direction coarse.warnVal xres readings }
  | _ => state.point = .first 0 ∧ state.client = coarse

section Refinement

variable {xres : Nat} {state after : Measuring} {coarse : State} {direction : Direction}

theorem refines_self (point : state.point = .first 0) (client : state.client = coarse) :
    Refines xres state coarse := by
  subst client
  unfold Refines
  split
  · rename_i direction _
    refine ⟨[], ?_, ?_⟩
    · rw [point]
      rfl
    · rw [RadarState.sweepPart_nil]
  · exact ⟨point, rfl⟩

theorem refines_halfSweep (sweeping : state.client.radarPoint = .halfSweep direction) :
    Refines xres state coarse ↔ ∃ readings : List Reading,
      readings.length = state.point.bearing ∧ state.client =
        { coarse with
          radar := coarse.radar.sweepPart direction coarse.warnVal xres readings } := by
  rw [Refines, sweeping]

theorem refines_outside (noSweep : ∀ direction, state.client.radarPoint ≠ .halfSweep direction) :
    Refines xres state coarse ↔ state.point = .first 0 ∧ state.client = coarse := by
  cases point : state.client.radarPoint with
  | halfSweep direction => exact absurd point (noSweep direction)
  | cycleStart | storeWarn | deposit _ _ | alarmOff _ | raise _ => rw [Refines, point]

theorem Refines.keep (refines : Refines xres state coarse) (client : after.client = state.client)
    (bearing : after.point.bearing = state.point.bearing)
    (sweeping : state.client.radarPoint = .halfSweep direction) : Refines xres after coarse := by
  rw [refines_halfSweep sweeping] at refines
  rw [refines_halfSweep (client ▸ sweeping), client, bearing]
  exact refines

/-- The last measurement is the step of the coarse client, the others are none. -/
theorem Refines.finish (refines : Refines xres state coarse)
    (sweeping : state.client.radarPoint = .halfSweep direction) {k : Fin 61}
    (bearing : state.point.bearing = k) {driver : DriverState} {buf : Byte}
    (finished : { state with driver := driver }.finish xres direction k buf = some after) :
    Refines xres after coarse ∨
      ∃ readings, Refines xres after (coarse.radarStep xres readings) := by
  rcases state with ⟨client, oldDriver, point, fnd, arrow⟩
  dsimp only at sweeping bearing
  rcases (refines_halfSweep sweeping).mp refines with ⟨readings, length, isClient⟩
  dsimp only at length isClient
  subst isClient
  rw [bearing] at length
  have longer : (readings ++ [readingOf buf]).length = k + 1 := by
    rw [List.length_append, length, List.length_singleton]
  rcases finish_cases finished with ⟨radar, isRadar, rest⟩
  have next : radar =
      coarse.radar.sweepPart direction coarse.warnVal xres (readings ++ [readingOf buf]) :=
    isRadar.trans (RadarState.sweepPart_concat k length (readingOf buf)).symm
  rcases rest with ⟨inside, isAfter⟩ | ⟨isLast, isAfter⟩
  · subst isAfter next
    exact .inl ((refines_halfSweep sweeping).mpr ⟨readings ++ [readingOf buf], longer, rfl⟩)
  · subst isAfter next
    right
    have all : (readings ++ [readingOf buf]).length = 61 := longer.trans isLast
    have coarsePoint : coarse.radarPoint = .halfSweep direction := sweeping
    refine ⟨fun k => (readings ++ [readingOf buf]).get (k.cast all.symm), refines_self rfl ?_⟩
    rw [RadarState.sweepPart_full all, State.radarStep, coarsePoint]

/-- `radar_process` keeps what it measures to itself. -/
theorem senderStep_with_radar (coarse : State) (radar : RadarState) (time : Fin 6 → Byte) :
    { coarse with radar := radar }.senderStep time =
      { coarse.senderStep time with radar := radar } := by
  unfold State.senderStep
  cases coarse.senderPoint <;> rfl

theorem fpgaStep_with_radar (coarse : State) (radar : RadarState) (button : Button) :
    { coarse with radar := radar }.fpgaStep button =
      { coarse.fpgaStep button with radar := radar } := by
  cases point : coarse.fpgaPoint with
  | serving => cases button <;> simp only [State.fpgaStep, point]
  | locking | writing | unlocking | closed => simp only [State.fpgaStep, point]

theorem fpgaStep_radar (coarse : State) (button : Button) :
    (coarse.fpgaStep button).radarPoint = coarse.radarPoint ∧
      (coarse.fpgaStep button).radar = coarse.radar ∧
      (coarse.fpgaStep button).warnVal = coarse.warnVal ∧
      (coarse.fpgaStep button).raised = coarse.raised := by
  unfold State.fpgaStep
  cases coarse.fpgaPoint with
  | serving => cases button <;> exact ⟨rfl, rfl, rfl, rfl⟩
  | locking | writing | unlocking | closed => exact ⟨rfl, rfl, rfl, rfl⟩

/-- A step of another process is the same step of the coarse client. -/
theorem Refines.other (refines : Refines xres state coarse) {step : State → State}
    (point : ∀ client, (step client).radarPoint = client.radarPoint)
    (apart : ∀ client radar,
      step { client with radar := radar } = { step client with radar := radar })
    (radar : ∀ client, (step client).radar = client.radar ∧
      (step client).warnVal = client.warnVal) :
    Refines xres { state with client := step state.client } (step coarse) := by
  cases isPoint : state.client.radarPoint with
  | halfSweep direction =>
      rcases (refines_halfSweep isPoint).mp refines with ⟨readings, length, client⟩
      have sweeping : (step state.client).radarPoint = .halfSweep direction :=
        (point state.client).trans isPoint
      apply (refines_halfSweep sweeping).mpr
      have same : (step coarse).radar.sweepPart direction (step coarse).warnVal xres readings =
          coarse.radar.sweepPart direction coarse.warnVal xres readings := by
        rw [(radar coarse).1, (radar coarse).2]
      refine ⟨readings, length, ?_⟩
      rw [same]
      exact (congrArg step client).trans (apart coarse _)
  | cycleStart | storeWarn | deposit _ _ | alarmOff _ | raise _ =>
      rw [Refines, isPoint] at refines
      exact refines_self refines.1 (congrArg step refines.2)

theorem measuring_simulates (xres : Nat) :
    Simulation (measuring xres) (fun _ _ => True) (processes xres) (fun _ _ => True)
      (Refines xres) := by
  constructor
  · intro state initial
    rw [show state = _ from initial]
    exact ⟨.initial, rfl, refines_self rfl rfl⟩
  · intro state action after coarse refines _ stepped
    cases action with
    | radar =>
        rcases radarStepped_of_step stepped with
          ⟨noSweep, isAfter⟩ | ⟨sweeping, -, isAfter⟩ | ⟨sweeping, isFirst, -, isAfter⟩ |
            ⟨sweeping, isSecond, -, finished⟩
        · subst isAfter
          rcases (refines_outside noSweep).mp refines with ⟨point, client⟩
          exact .inr ⟨.radar fun _ => 0, _, trivial, rfl,
            refines_self point (congrArg (fun client => State.radarStep xres client _) client)⟩
        · subst isAfter
          exact .inl (refines.keep rfl rfl sweeping)
        · subst isAfter
          exact .inl (refines.keep rfl (by rw [isFirst]; rfl) sweeping)
        · have bearing : state.point.bearing = _ := congrArg MeasurePoint.bearing isSecond
          rcases refines.finish sweeping bearing finished with same | ⟨readings, next⟩
          · exact .inl same
          · exact .inr ⟨.radar readings, _, trivial, rfl, next⟩
    | echo edge now =>
        rcases Option.map_eq_some_iff.mp stepped with ⟨driver, -, isAfter⟩
        subst isAfter
        exact .inl refines
    | sender time =>
        cases stepped
        refine .inr ⟨.sender time, _, trivial, rfl, ?_⟩
        apply refines.other (fun client => (senderStep_radar client time).1)
        · exact fun client radar => senderStep_with_radar client radar time
        · exact fun client =>
            ⟨(senderStep_radar client time).2.1, (senderStep_radar client time).2.2.1⟩
    | fpga button =>
        cases stepped
        refine .inr ⟨.fpga button, _, trivial, rfl, ?_⟩
        apply refines.other (fun client => (fpgaStep_radar client button).1)
        · exact fun client radar => fpgaStep_with_radar client radar button
        · exact fun client =>
            ⟨(fpgaStep_radar client button).2.1, (fpgaStep_radar client button).2.2.1⟩

end Refinement

/-! ## No read is refused -/

theorem trigger_cases {driver next : DriverState} (pinged : driver.next .trigger = some next) :
    driver.triggered = false ∧ next.triggered = true ∧ next.readings = driver.readings := by
  simp only [DriverState.next] at pinged
  split_ifs at pinged with triggered
  cases pinged
  exact ⟨Bool.eq_false_iff.mpr triggered, rfl, rfl⟩

theorem sample_cases {driver next : DriverState} (read : driver.next .sample = some next) :
    driver.triggered = true ∧ next.triggered = false ∧ next.readings =
      driver.readings ++ [{ byte := driver.sensor.val, echoes := driver.echoes }] := by
  simp only [DriverState.next] at read
  split_ifs at read with triggered
  cases read
  exact ⟨triggered, rfl, rfl⟩

theorem echo_cases {driver next : DriverState} {edge : EchoEdge} {now : Timeval}
    (heard : driver.next (.echo edge now) = some next) :
    next.triggered = driver.triggered ∧ next.readings = driver.readings := by
  simp only [DriverState.next] at heard
  split_ifs at heard
  cases heard
  exact ⟨rfl, rfl⟩


/-- The driver is as its echoes leave it, and `buf[0]` is a byte that it returned. -/
structure Measuring.Sound (state : Measuring) : Prop where
  driver : Driver.Left state.driver
  buf : ∀ k buf, state.point = .second k buf → buf.toNat ≤ 250

theorem left_next {driver next : DriverState} {action : Driver.DriverAction}
    (left : Driver.Left driver) (stepped : driver.next action = some next) : Driver.Left next :=
  left.step (show Driver.driver.step driver action = some next from stepped)

theorem sampled_le {driver : DriverState} (left : Driver.Left driver) :
    (sampled driver).toNat ≤ 250 := by
  have bounds := Driver.leftBy_bounds driver.history
  rw [sampled, left.val, UInt8.toNat_ofNat']
  omega

theorem accepted_le {first second : Byte} (firstSmall : first.toNat ≤ 250)
    (secondSmall : second.toNat ≤ 250) : (accepted first second).toNat ≤ 250 := by
  rw [accepted]
  split_ifs
  · exact secondSmall
  · exact secondSmall
  · exact firstSmall

theorem readingOf_val {buf : Byte} (small : buf.toNat ≤ 250) :
    (readingOf buf).val = buf.toNat := by
  rw [readingOf, Fin.val_ofNat, Nat.mod_eq_of_lt (by omega)]

section Soundness

variable {xres : Nat} {state after : Measuring} {direction : Direction} {k : Fin 61} {buf : Byte}

/-- What is left of the second read when its byte is small. -/
theorem finish_some (small : buf.toNat ≤ 250) :
    ∃ after, state.finish xres direction k buf = some after := by
  rw [Measuring.finish, if_pos (by omega)]
  split_ifs <;> exact ⟨_, rfl⟩

theorem finish_driver (finished : state.finish xres direction k buf = some after) :
    after.driver = state.driver ∧ ∃ next, after.point = .first next := by
  rcases finish_cases finished with ⟨radar, -, ⟨inside, isAfter⟩ | ⟨-, isAfter⟩⟩ <;>
    subst isAfter <;> exact ⟨rfl, _, rfl⟩

theorem Measuring.Sound.step {action : MeasureAction} (sound : state.Sound)
    (stepped : (measuring xres).step state action = some after) : after.Sound := by
  cases action with
  | radar =>
      rcases radarStepped_of_step stepped with
        ⟨-, isAfter⟩ | ⟨-, pinged, isAfter⟩ | ⟨-, -, read, isAfter⟩ | ⟨-, -, read, finished⟩
      · subst isAfter
        exact ⟨sound.driver, sound.buf⟩
      · subst isAfter
        exact ⟨left_next sound.driver pinged, sound.buf⟩
      · subst isAfter
        refine ⟨left_next sound.driver read, ?_⟩
        intro k buf isSecond
        cases isSecond
        exact sampled_le sound.driver
      · rcases finish_driver finished with ⟨driver, next, point⟩
        constructor
        · rw [driver]
          exact left_next sound.driver read
        · intro k buf isSecond
          cases point.symm.trans isSecond
  | echo edge now =>
      rcases Option.map_eq_some_iff.mp stepped with ⟨driver, heard, isAfter⟩
      subst isAfter
      exact ⟨left_next sound.driver heard, sound.buf⟩
  | sender time =>
      cases stepped
      exact ⟨sound.driver, sound.buf⟩
  | fpga button =>
      cases stepped
      exact ⟨sound.driver, sound.buf⟩

/-- `radar_process` can always go on. -/
theorem Measuring.Sound.enabled (sound : state.Sound) (xres : Nat) :
    ∃ after, (measuring xres).step state .radar = some after := by
  show ∃ after, state.radarStep xres = some after
  cases point : state.client.radarPoint with
  | halfSweep direction =>
      simp only [Measuring.radarStep, point]
      split_ifs with triggered
      · have read : ∃ driver, state.driver.next .sample = some driver := by
          rw [DriverState.next, if_pos triggered]
          exact ⟨_, rfl⟩
        rcases read with ⟨driver, read⟩
        rw [Measuring.sample, read, Option.bind_some]
        cases isPoint : state.point with
        | first k => exact ⟨_, rfl⟩
        | second k buf =>
            exact finish_some (accepted_le (sound.buf k buf isPoint) (sampled_le sound.driver))
      · rw [Measuring.trigger, DriverState.next, if_neg triggered]
        exact ⟨_, rfl⟩
  | cycleStart | storeWarn | deposit _ _ | alarmOff _ | raise _ =>
      simp only [Measuring.radarStep, point]
      exact ⟨_, rfl⟩

end Soundness

theorem sound_of_run {xres : Nat} {condition : Measuring → MeasureAction → Prop}
    {actions : List MeasureAction} {state : Measuring}
    (run : (measuring xres).RunWhere condition actions state) : state.Sound := by
  apply RunWhere.invariant (fun _ state => state.Sound) _ _ run
  · intro state initial
    rw [show state = _ from initial]
    exact ⟨.initial, fun _ _ other => nomatch other⟩
  · intro _ _ _ _ sound _ stepped
    exact sound.step stepped

end GamZ.Client
