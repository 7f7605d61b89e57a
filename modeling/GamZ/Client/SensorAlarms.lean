import GamZ.Client.MeasuringDisplays
import Mathlib.Data.List.Forall2

/-! # From echoes to alarms

A half-sweep makes 122 reads, two for each slot, and its alarm is made of these. When every
sample finds its echoes as it should, the slots are distances that the sensor has heard. -/

namespace GamZ.Client

open CString Transition TransitionSystem
open Driver (DriverState EchoEdge Timeval)

/-- The two reads of a bearing. -/
structure Measurement where
  first : Driver.Reading
  second : Driver.Reading

def Measurement.reads (measurement : Measurement) : List Driver.Reading :=
  [measurement.first, measurement.second]

/-- `buf[0]` in the end, if a read yields the given byte. -/
def Measurement.buf (byte : Driver.Reading → Byte) (measurement : Measurement) : Byte :=
  accepted (byte measurement.first) (byte measurement.second)

/-- What a read has returned. -/
def returned (reading : Driver.Reading) : Byte := UInt8.ofNat reading.byte.toNat

/-- The read that ends with the next sample. -/
def nextRead (driver : DriverState) : Driver.Reading where
  byte := driver.sensor.val
  echoes := driver.echoes

/-- What a read should return, from its own echoes. -/
def heard (reading : Driver.Reading) : Byte :=
  UInt8.ofNat (Driver.pulseDistance (Driver.lastPulse reading.echoes)).toNat

/-- Every other half-sweep is one back. -/
def Direction.ofHalf (half : Nat) : Direction :=
  if half % 2 = 0 then .forward else .back

/-- The alarm is that of a half-sweep of the run: the measurements are its reads, each slot
that is not stored again later is one more than what its measurement has accepted, and one
of the measurements was below the warn line. -/
structure Records (byte : Driver.Reading → Byte) (reads : List Driver.Reading) (half : Nat)
    (measurements : List Measurement) (alarm : Alarm) : Prop where
  made : (reads.drop (122 * half)).take 122 = measurements.flatMap Measurement.reads
  count : measurements.length = 61
  slots : ∀ k slot : Fin 61, slot.val = (Direction.ofHalf half).slotOf k →
    (∀ later : Fin 61, k < later →
      (Direction.ofHalf half).slotOf later ≠ (Direction.ofHalf half).slotOf k) →
      ∃ measurement ∈ measurements[k.val]?, alarm.slots slot = measurement.buf byte + 1
  reason : ∃ measurement ∈ measurements,
    (measurement.buf byte).toNat < alarm.warnVal.toNat

theorem length_reads (measurements : List Measurement) :
    (measurements.flatMap Measurement.reads).length = 2 * measurements.length := by
  induction measurements with
  | nil => rfl
  | cons measurement measurements induction =>
      rw [List.flatMap_cons, List.length_append, induction, Measurement.reads]
      simp only [List.length_cons, List.length_nil]
      omega

section Records

variable {byte other : Driver.Reading → Byte} {reads more : List Driver.Reading} {half : Nat}
  {measurements : List Measurement} {alarm : Alarm}

theorem Records.append (records : Records byte reads half measurements alarm) :
    Records byte (reads ++ more) half measurements alarm := by
  rcases records with ⟨made, count, slots, reason⟩
  have whole : ((reads.drop (122 * half)).take 122).length = 122 := by
    rw [made, length_reads, count]
  have inside : 122 ≤ (reads.drop (122 * half)).length := by
    rw [List.length_take] at whole
    omega
  have begun : 122 * half ≤ reads.length := by
    rw [List.length_drop] at inside
    omega
  refine ⟨?_, count, slots, reason⟩
  rw [List.drop_append_of_le_length begun, List.take_append_of_le_length inside, made]

theorem Records.congr (records : Records byte reads half measurements alarm)
    (same : ∀ reading ∈ reads, byte reading = other reading) :
    Records other reads half measurements alarm := by
  rcases records with ⟨made, count, slots, reason⟩
  have member : ∀ measurement ∈ measurements, measurement.buf byte = measurement.buf other := by
    intro measurement isMember
    have inReads : ∀ reading ∈ measurement.reads, byte reading = other reading := by
      intro reading isRead
      have inHalf : reading ∈ (reads.drop (122 * half)).take 122 := by
        rw [made]
        exact List.mem_flatMap.mpr ⟨measurement, isMember, isRead⟩
      exact same reading (List.mem_of_mem_drop (List.mem_of_mem_take inHalf))
    rw [Measurement.buf, Measurement.buf, inReads _ (List.mem_cons_self ..),
      inReads _ (List.mem_cons_of_mem _ (List.mem_cons_self ..))]
  refine ⟨made, count, ?_, ?_⟩
  · intro k slot isSlot last
    rcases slots k slot isSlot last with ⟨measurement, found, stored⟩
    refine ⟨measurement, found, ?_⟩
    rw [stored, member measurement (List.mem_of_getElem? found)]
  · rcases reason with ⟨measurement, isMember, below⟩
    rw [member measurement isMember] at below
    exact ⟨measurement, isMember, below⟩

end Records

def Measurement.reading (measurement : Measurement) : Reading :=
  readingOf (measurement.buf returned)

theorem ofNat_succ (buf : Byte) : UInt8.ofNat (buf.toNat + 1) = buf + 1 := by
  rw [UInt8.ofNat_add, UInt8.ofNat_toNat]
  rfl

theorem buf_le {reads : List Driver.Reading} (small : ∀ read ∈ reads, (returned read).toNat ≤ 250)
    {measurement : Measurement} (made : ∀ read ∈ measurement.reads, read ∈ reads) :
    (measurement.buf returned).toNat ≤ 250 := by
  apply accepted_le
  · exact small _ (made _ (List.mem_cons_self ..))
  · exact small _ (made _ (List.mem_cons_of_mem _ (List.mem_cons_self ..)))

/-- The alarm of a half-sweep that started with the alarm flag down. -/
theorem records_of_sweep {before reads : List Driver.Reading} {half : Nat} {warnVal : Byte}
    {xres : Nat} {start : RadarState} {measurements : List Measurement}
    (quiet : start.buzFlag = 0) (begins : before.length = 122 * half)
    (made : reads = before ++ measurements.flatMap Measurement.reads)
    (count : measurements.length = 61)
    (small : ∀ read ∈ reads, (returned read).toNat ≤ 250)
    (alarmed : (start.sweepPart (.ofHalf half) warnVal xres
      (measurements.map Measurement.reading)).buzFlag ≠ 0) :
    Records returned reads half measurements
      { slots := fun i => depositByte (start.sweepPart (.ofHalf half) warnVal xres
          (measurements.map Measurement.reading)).r i
        warnVal := warnVal } := by
  have own : (reads.drop (122 * half)).take 122 = measurements.flatMap Measurement.reads := by
    rw [made, ← begins, List.drop_left]
    exact List.take_of_length_le (by rw [length_reads, count])
  have bounds : ∀ measurement ∈ measurements, (measurement.buf returned).toNat ≤ 250 := by
    intro measurement member
    apply buf_le small
    intro read isRead
    rw [made]
    exact List.mem_append_right _ (List.mem_flatMap.mpr ⟨measurement, member, isRead⟩)
  have length : (measurements.map Measurement.reading).length = 61 := by
    rw [List.length_map, count]
  have readings : ∀ k : Fin 61, ∃ measurement ∈ measurements[k.val]?,
      (measurements.map Measurement.reading).get (k.cast length.symm) = measurement.reading := by
    intro k
    have inside : k.val < measurements.length := by omega
    exact ⟨measurements[k.val], List.getElem?_eq_getElem inside, by simp⟩
  rw [RadarState.sweepPart_full length] at alarmed ⊢
  constructor
  · exact own
  · exact count
  · intro k slot isSlot last
    rcases readings k with ⟨measurement, found, isReading⟩
    refine ⟨measurement, found, ?_⟩
    dsimp only
    rw [depositByte, isSlot, halfSweep_r _ _ _ _ _ k last, isReading, Measurement.reading,
      readingOf_val (bounds measurement (List.mem_of_getElem? found)), ← ofNat_succ]
    congr 1
    omega
  · rcases (halfSweep_buzFlag _ _ _ _ _ quiet).mp alarmed with ⟨k, below⟩
    rcases readings k with ⟨measurement, found, isReading⟩
    have member := List.mem_of_getElem? found
    rw [isReading, Measurement.reading, readingOf_val (bounds measurement member)] at below
    exact ⟨measurement, member, below⟩

/-! ## Along a run -/

/-- The measurements of the half-sweep under way, with the read of the next one that has been
made. -/
inductive ReadsSoFar (state : Measuring) (half : Nat) (measurements : List Measurement) : Prop
  | first (before : List Driver.Reading) {k : Fin 61} : state.point = .first k →
      before.length = 122 * half →
      state.driver.readings = before ++ measurements.flatMap Measurement.reads →
      ReadsSoFar state half measurements
  | second (before : List Driver.Reading) (read : Driver.Reading) {k : Fin 61} :
      state.point = .second k (returned read) → before.length = 122 * half →
      state.driver.readings = before ++ (measurements.flatMap Measurement.reads ++ [read]) →
      ReadsSoFar state half measurements

/-- `radar` has come from a quiet start by the measurements so far. -/
structure SweepsBy (xres : Nat) (state : Measuring) (half : Nat) (start : RadarState)
    (measurements : List Measurement) : Prop where
  quiet : start.buzFlag = 0
  count : measurements.length = state.point.bearing
  radar : state.client.radar = start.sweepPart (.ofHalf half) state.client.warnVal xres
    (measurements.map Measurement.reading)
  reads : ReadsSoFar state half measurements

/-- The half-sweep has measured the alarm. -/
def Recorded (byte : Driver.Reading → Byte) (reads : List Driver.Reading) (half : Nat)
    (alarm : Alarm) : Prop :=
  ∃ measurements, Records byte reads half measurements alarm

/-- The alarms are those of half-sweeps one after the other. -/
structure RecordedBy (byte : Driver.Reading → Byte) (reads : List Driver.Reading)
    (halves : List Nat) (alarms : List Alarm) : Prop where
  increasing : halves.Pairwise (· < ·)
  recorded : List.Forall₂ (Recorded byte reads) halves alarms

/-- The half-sweep is under way, hands over its alarm, or is the next to begin. -/
structure Measuring.Tracked (xres : Nat) (half : Nat) (state : Measuring) : Prop where
  small : ∀ read ∈ state.driver.readings, (returned read).toNat ≤ 250
  raised : ∃ halves, (∀ earlier ∈ halves, earlier < half) ∧
    RecordedBy returned state.driver.readings halves state.client.raised
  sweeping : ∀ direction, state.client.radarPoint = .halfSweep direction →
    direction = .ofHalf half ∧ ∃ start measurements, SweepsBy xres state half start measurements
  handing : ∀ direction, state.client.radarPoint.handsOver = some direction →
    direction = .ofHalf half ∧ state.driver.readings.length = 122 * (half + 1) ∧
      Recorded returned state.driver.readings half state.client.alarm
  between : (∀ direction, state.client.radarPoint ≠ .halfSweep direction) →
    state.client.radarPoint.handsOver = none →
      half % 2 = 0 ∧ state.driver.readings.length = 122 * half
  quiet : ∀ direction, state.client.radarPoint = .raise direction →
    state.client.radar.buzFlag = 0

section Tracked

variable {xres half : Nat} {state after : Measuring} {direction : Direction}

theorem Recorded.append {byte : Driver.Reading → Byte} {reads more : List Driver.Reading}
    {alarm : Alarm} (recorded : Recorded byte reads half alarm) :
    Recorded byte (reads ++ more) half alarm := by
  rcases recorded with ⟨measurements, records⟩
  exact ⟨measurements, records.append⟩

theorem RecordedBy.append {byte : Driver.Reading → Byte} {reads more : List Driver.Reading}
    {halves : List Nat} {alarms : List Alarm} (recorded : RecordedBy byte reads halves alarms) :
    RecordedBy byte (reads ++ more) halves alarms :=
  ⟨recorded.increasing, recorded.recorded.imp fun _ _ => Recorded.append⟩

theorem RecordedBy.concat {byte : Driver.Reading → Byte} {reads : List Driver.Reading}
    {halves : List Nat} {alarms : List Alarm} {alarm : Alarm}
    (recorded : RecordedBy byte reads halves alarms) (earlier : ∀ other ∈ halves, other < half)
    (last : Recorded byte reads half alarm) :
    RecordedBy byte reads (halves ++ [half]) (alarms ++ [alarm]) := by
  refine ⟨List.pairwise_append.mpr ⟨recorded.increasing, List.pairwise_singleton _ _, ?_⟩,
    List.rel_append recorded.recorded (.cons last .nil)⟩
  intro other isEarlier new isNew
  rw [List.mem_singleton.mp isNew]
  exact earlier other isEarlier

theorem ofHalf_forward (even : half % 2 = 0) : Direction.forward = .ofHalf half :=
  (if_pos even).symm

theorem back_ofHalf (isHalf : Direction.forward = .ofHalf half) :
    Direction.back = .ofHalf (half + 1) := by
  unfold Direction.ofHalf at isHalf ⊢
  split_ifs at isHalf with even
  rw [if_neg (by omega)]

theorem even_of_back (isHalf : Direction.back = .ofHalf half) : (half + 1) % 2 = 0 := by
  unfold Direction.ofHalf at isHalf
  split_ifs at isHalf with even
  omega

/-- A half-sweep begins without measurements. -/
theorem sweepsBy_start (quiet : state.client.radar.buzFlag = 0) (start : state.point = .first 0)
    (begins : state.driver.readings.length = 122 * half) :
    SweepsBy xres state half state.client.radar [] := by
  constructor
  · exact quiet
  · rw [start]
    rfl
  · rw [List.map_nil, RadarState.sweepPart_nil]
  · exact .first _ start begins (List.append_nil _).symm

/-- Where `radar_process` is neither in a half-sweep nor handing over. -/
theorem tracked_elsewhere
    (small : ∀ read ∈ state.driver.readings, (returned read).toNat ≤ 250)
    (raised : ∃ halves, (∀ earlier ∈ halves, earlier < half) ∧
      RecordedBy returned state.driver.readings halves state.client.raised)
    (even : half % 2 = 0) (begins : state.driver.readings.length = 122 * half)
    (noSweep : ∀ direction, state.client.radarPoint ≠ .halfSweep direction)
    (nothing : state.client.radarPoint.handsOver = none) : state.Tracked xres half := by
  refine ⟨small, raised, fun direction isPoint => absurd isPoint (noSweep direction), ?_,
    fun _ _ => ⟨even, begins⟩, ?_⟩
  · intro direction handsOver
    cases nothing.symm.trans handsOver
  · intro direction isRaise
    rw [isRaise] at nothing
    cases nothing

theorem SweepsBy.tracked {start : RadarState} {measurements : List Measurement}
    (sweeps : SweepsBy xres state half start measurements)
    (isPoint : state.client.radarPoint = .halfSweep direction) (isHalf : direction = .ofHalf half)
    (small : ∀ read ∈ state.driver.readings, (returned read).toNat ≤ 250)
    (raised : ∃ halves, (∀ earlier ∈ halves, earlier < half) ∧
      RecordedBy returned state.driver.readings halves state.client.raised) :
    state.Tracked xres half := by
  refine ⟨small, raised, ?_, ?_, ?_, ?_⟩
  · intro other isOther
    cases isPoint.symm.trans isOther
    exact ⟨isHalf, start, measurements, sweeps⟩
  · intro other handsOver
    rw [isPoint] at handsOver
    cases handsOver
  · exact fun noSweep _ => absurd isPoint (noSweep direction)
  · intro other isRaise
    cases isPoint.symm.trans isRaise

/-- The half-sweep has ended, and the next one or the next cycle begins. -/
theorem tracked_next (isHalf : direction = .ofHalf half)
    (isPoint : state.client.radarPoint = direction.next)
    (quiet : state.client.radar.buzFlag = 0) (start : state.point = .first 0)
    (ends : state.driver.readings.length = 122 * (half + 1))
    (small : ∀ read ∈ state.driver.readings, (returned read).toNat ≤ 250)
    (raised : ∃ halves, (∀ earlier ∈ halves, earlier < half + 1) ∧
      RecordedBy returned state.driver.readings halves state.client.raised) :
    state.Tracked xres (half + 1) := by
  cases direction with
  | forward =>
      exact SweepsBy.tracked (sweepsBy_start quiet start ends) isPoint (back_ofHalf isHalf) small
        raised
  | back =>
      apply tracked_elsewhere small raised (even_of_back isHalf) ends
      · intro direction isSweep
        cases isPoint.symm.trans isSweep
      · rw [isPoint]
        rfl

theorem Measuring.Tracked.outside (tracked : state.Tracked xres half)
    (noSweep : ∀ direction, state.client.radarPoint ≠ .halfSweep direction)
    (start : state.point = .first 0) (arrow : Option (Fin 5)) :
    ∃ half, Measuring.Tracked xres half { state with
      client := state.client.radarStep xres fun _ => 0
      arrow := arrow } := by
  have handing := tracked.handing
  have between := tracked.between noSweep
  have quiet := tracked.quiet
  cases point : state.client.radarPoint with
  | halfSweep direction => exact absurd point (noSweep direction)
  | cycleStart =>
      rcases between (by rw [point]; rfl) with ⟨even, begins⟩
      refine ⟨half, ?_⟩
      simp only [State.radarStep, point]
      exact tracked_elsewhere tracked.small tracked.raised even begins
        (fun _ => RadarPoint.noConfusion) rfl
  | storeWarn =>
      rcases between (by rw [point]; rfl) with ⟨even, begins⟩
      refine ⟨half, ?_⟩
      simp only [State.radarStep, point]
      exact SweepsBy.tracked (sweepsBy_start rfl start begins) rfl (ofHalf_forward even)
        tracked.small tracked.raised
  | deposit direction i =>
      have recorded := handing direction (by rw [point]; rfl)
      refine ⟨half, ?_⟩
      simp only [State.radarStep, point]
      refine ⟨tracked.small, tracked.raised, ?_, ?_, ?_, ?_⟩
      · intro other isOther
        split_ifs at isOther
      · intro other handsOver
        split_ifs at handsOver <;> cases handsOver <;> exact recorded
      · intro _ nothing
        split_ifs at nothing <;> cases nothing
      · intro other isOther
        split_ifs at isOther
  | alarmOff direction =>
      have recorded := handing direction (by rw [point]; rfl)
      refine ⟨half, ?_⟩
      simp only [State.radarStep, point]
      refine ⟨tracked.small, tracked.raised, fun _ => RadarPoint.noConfusion, ?_, ?_,
        fun _ _ => rfl⟩
      · intro other handsOver
        cases handsOver
        exact recorded
      · intro _ nothing
        cases nothing
  | raise direction =>
      rcases handing direction (by rw [point]; rfl) with ⟨isHalf, ends, recorded⟩
      have raised : ∃ halves, (∀ earlier ∈ halves, earlier < half + 1) ∧
          RecordedBy returned state.driver.readings halves
            (state.client.raised ++ [state.client.alarm]) := by
        rcases tracked.raised with ⟨halves, earlier, recordedBy⟩
        refine ⟨halves ++ [half], ?_, recordedBy.concat earlier recorded⟩
        intro other member
        rcases List.mem_append.mp member with isEarlier | isLast
        · exact Nat.lt_succ_of_lt (earlier other isEarlier)
        · rw [List.mem_singleton.mp isLast]
          exact Nat.lt_succ_self half
      have flagDown := quiet direction point
      refine ⟨half + 1, ?_⟩
      simp only [State.radarStep, point]
      exact tracked_next isHalf rfl flagDown start ends tracked.small raised

/-- The sample that ends a first read. -/
theorem SweepsBy.first {start : RadarState} {measurements : List Measurement}
    (sweeps : SweepsBy xres state half start measurements) {driver : DriverState}
    {k : Fin 61} (isFirst : state.point = .first k)
    (read : state.driver.next .sample = some driver) (arrow : Option (Fin 5)) :
    SweepsBy xres { state with
      driver := driver, point := .second k (sampled state.driver), arrow := arrow } half start
        measurements := by
  have count := sweeps.count
  rw [isFirst] at count
  refine ⟨sweeps.quiet, count, sweeps.radar, ?_⟩
  rcases sweeps.reads with ⟨before, -, begins, isReads⟩ | ⟨_, _, isSecond, -, -⟩
  · apply ReadsSoFar.second before (nextRead state.driver) rfl begins
    rw [(sample_cases read).2.2, isReads, List.append_assoc]
    rfl
  · cases isFirst.symm.trans isSecond

/-- The second read completes the measurement that is judged. -/
theorem SweepsBy.measured {start : RadarState} {measurements : List Measurement}
    (sweeps : SweepsBy xres state half start measurements) {driver : DriverState} {k : Fin 61}
    {buf : Byte} (isSecond : state.point = .second k buf)
    (read : state.driver.next .sample = some driver) :
    ∃ last : Measurement, last.buf returned = accepted buf (sampled state.driver) ∧
      (measurements ++ [last]).length = k + 1 ∧
      (state.client.radar.measure (.ofHalf half) state.client.warnVal xres
          ((Direction.ofHalf half).bearingAt k, last.reading)).closeSide xres k =
        start.sweepPart (.ofHalf half) state.client.warnVal xres
          ((measurements ++ [last]).map Measurement.reading) ∧
      ∃ before, before.length = 122 * half ∧
        driver.readings = before ++ (measurements ++ [last]).flatMap Measurement.reads := by
  rcases sweeps.reads with ⟨_, isFirst, -, -⟩ | ⟨before, first, isRead, begins, isReads⟩
  · cases isSecond.symm.trans isFirst
  cases isSecond.symm.trans isRead
  have count : measurements.length = k := by
    rw [sweeps.count, isSecond]
    rfl
  refine ⟨⟨first, nextRead state.driver⟩, rfl, ?_, ?_, before, begins, ?_⟩
  · rw [List.length_append, count, List.length_singleton]
  · rw [List.map_append, List.map_singleton,
      RadarState.sweepPart_concat k (by rw [List.length_map, count]), ← sweeps.radar]
  · refine (sample_cases read).2.2.trans ?_
    rw [isReads, List.append_assoc, List.append_assoc, List.flatMap_append,
      List.flatMap_singleton]
    rfl

/-- The sample that ends a second read, and with it the measurement. -/
theorem SweepsBy.second {start : RadarState} {measurements : List Measurement}
    (sweeps : SweepsBy xres state half start measurements)
    (isPoint : state.client.radarPoint = .halfSweep direction) (isHalf : direction = .ofHalf half)
    {driver : DriverState} {k : Fin 61} {buf : Byte} (isSecond : state.point = .second k buf)
    (sampledTwice : state.driver.next .sample = some driver)
    (small : ∀ read ∈ driver.readings, (returned read).toNat ≤ 250)
    (raised : ∃ halves, (∀ earlier ∈ halves, earlier < half) ∧
      RecordedBy returned driver.readings halves state.client.raised)
    (finished : { state with driver := driver }.finish xres direction k
      (accepted buf (sampled state.driver)) = some after) :
    ∃ half, after.Tracked xres half := by
  rcases sweeps.measured isSecond sampledTwice with
    ⟨last, isBuf, longer, swept, before, begins, made⟩
  rcases finish_cases finished with ⟨radar, isRadar, rest⟩
  have isSwept : radar = start.sweepPart (.ofHalf half) state.client.warnVal xres
      ((measurements ++ [last]).map Measurement.reading) := by
    rw [← swept, Measurement.reading, isBuf, ← isHalf]
    exact isRadar
  rcases rest with ⟨inside, isAfter⟩ | ⟨atEnd, isAfter⟩
  · subst isAfter
    refine ⟨half, SweepsBy.tracked ⟨sweeps.quiet, longer, isSwept, ?_⟩ isPoint isHalf small raised⟩
    exact .first before rfl begins made
  · subst isAfter
    have whole : (measurements ++ [last]).length = 61 := longer.trans atEnd
    have ends : driver.readings.length = 122 * (half + 1) := by
      rw [made, List.length_append, begins, length_reads, whole]
      omega
    by_cases alarm : radar.buzFlag ≠ 0
    · rw [if_pos alarm]
      refine ⟨half, small, raised, fun _ => RadarPoint.noConfusion, ?_, ?_,
        fun _ => RadarPoint.noConfusion⟩
      · intro _ handsOver
        cases handsOver
        rw [isSwept] at alarm
        have records := records_of_sweep sweeps.quiet begins made whole small alarm
        rw [← isSwept] at records
        exact ⟨isHalf, ends, measurements ++ [last], records⟩
      · intro _ nothing
        cases nothing
    · rw [if_neg alarm]
      rcases raised with ⟨halves, earlier, recorded⟩
      have later : ∀ other ∈ halves, other < half + 1 :=
        fun other member => Nat.lt_succ_of_lt (earlier other member)
      exact ⟨half + 1, tracked_next isHalf rfl (not_not.mp alarm) rfl ends small
        ⟨halves, later, recorded⟩⟩

/-- Steps that leave `radar_process` and the reads alone. -/
theorem Measuring.Tracked.keep (tracked : state.Tracked xres half)
    (radarPoint : after.client.radarPoint = state.client.radarPoint)
    (radar : after.client.radar = state.client.radar)
    (warnVal : after.client.warnVal = state.client.warnVal)
    (raised : after.client.raised = state.client.raised) (point : after.point = state.point)
    (reads : after.driver.readings = state.driver.readings) : after.Tracked xres half := by
  have alarm : after.client.alarm = state.client.alarm := by
    rw [State.alarm, State.alarm, radar, warnVal]
  constructor
  · rw [reads]
    exact tracked.small
  · rw [reads, raised]
    exact tracked.raised
  · rw [radarPoint]
    intro direction isPoint
    rcases tracked.sweeping direction isPoint with ⟨isHalf, start, measurements, sweeps⟩
    refine ⟨isHalf, start, measurements, sweeps.quiet, ?_, ?_, ?_⟩
    · rw [point]
      exact sweeps.count
    · rw [radar, warnVal]
      exact sweeps.radar
    · rcases sweeps.reads with ⟨before, isFirst, begins, isReads⟩ |
        ⟨before, read, isSecond, begins, isReads⟩
      · exact .first before (point.trans isFirst) begins (reads.trans isReads)
      · exact .second before read (point.trans isSecond) begins (reads.trans isReads)
  · rw [radarPoint, alarm, reads]
    exact tracked.handing
  · rw [radarPoint, reads]
    exact tracked.between
  · rw [radarPoint, radar]
    exact tracked.quiet

theorem Measuring.Tracked.step {action : MeasureAction} (tracked : state.Tracked xres half)
    (sound : state.Sound) (inStep : state.InStep)
    (stepped : (measuring xres).step state action = some after) :
    ∃ half, after.Tracked xres half := by
  cases action with
  | radar =>
      rcases radarStepped_of_step stepped with
        ⟨noSweep, isAfter⟩ | ⟨-, pinged, isAfter⟩ | ⟨isPoint, isFirst, read, isAfter⟩ |
          ⟨isPoint, isSecond, read, finished⟩
      · subst isAfter
        exact tracked.outside noSweep (inStep.idle noSweep).2 _
      · subst isAfter
        exact ⟨half, tracked.keep rfl rfl rfl rfl rfl (trigger_cases pinged).2.2⟩
      all_goals
        have reads := (sample_cases read).2.2
        have small : ∀ read ∈ state.driver.readings ++ [nextRead state.driver],
            (returned read).toNat ≤ 250 := by
          intro read member
          rcases List.mem_append.mp member with earlier | last
          · exact tracked.small read earlier
          · rw [List.mem_singleton.mp last]
            exact sampled_le sound.driver
        have raised : ∃ halves, (∀ earlier ∈ halves, earlier < half) ∧
            RecordedBy returned (state.driver.readings ++ [nextRead state.driver]) halves
              state.client.raised := by
          rcases tracked.raised with ⟨halves, earlier, recorded⟩
          exact ⟨halves, earlier, recorded.append⟩
        rw [nextRead, ← reads] at small raised
        rcases tracked.sweeping _ isPoint with ⟨isHalf, start, measurements, sweeps⟩
      · subst isAfter
        exact ⟨half, SweepsBy.tracked (sweeps.first isFirst read _) isPoint isHalf small raised⟩
      · exact sweeps.second isPoint isHalf isSecond read small raised finished
  | echo edge now =>
      rcases Option.map_eq_some_iff.mp stepped with ⟨driver, heard, isAfter⟩
      subst isAfter
      exact ⟨half, tracked.keep rfl rfl rfl rfl rfl (echo_cases heard).2⟩
  | sender time =>
      cases stepped
      rcases senderStep_radar state.client time with ⟨point, radar, warnVal, -, raised⟩
      exact ⟨half, tracked.keep point radar warnVal raised rfl rfl⟩
  | fpga button =>
      cases stepped
      rcases fpgaStep_radar state.client button with ⟨point, radar, warnVal, raised⟩
      exact ⟨half, tracked.keep point radar warnVal raised rfl rfl⟩

end Tracked

theorem tracked_of_run {xres : Nat} {condition : Measuring → MeasureAction → Prop}
    {actions : List MeasureAction} {state : Measuring}
    (run : (measuring xres).RunWhere condition actions state) :
    ∃ half, state.Tracked xres half := by
  induction run with
  | start initial =>
      rw [show _ = Measuring.initial from initial]
      refine ⟨0, tracked_elsewhere (fun _ none => by cases none) ?_ rfl rfl
        (fun _ => RadarPoint.noConfusion) rfl⟩
      exact ⟨[], fun _ none => (by cases none), .nil, .nil⟩
  | next action earlier _ stepped induction =>
      rcases induction with ⟨half, tracked⟩
      exact tracked.step (sound_of_run earlier) (inStep_of_run earlier) stepped

/-! ## Distances that were heard -/

/-- A sample finds echoes that the driver can measure. -/
def Measuring.SampledWell (state : Measuring) : MeasureAction → Prop
  | .radar => state.driver.triggered = true →
      Driver.Measurable state.driver.earlier state.driver.echoes
  | _ => True

/-- The driver of a run makes a run of its own. -/
theorem driver_of_run {xres : Nat} {actions : List MeasureAction} {state : Measuring}
    (run : (measuring xres).RunWhere Measuring.SampledWell actions state) :
    ∃ events, Driver.driver.RunWhere Driver.SampledWell events state.driver := by
  apply RunWhere.project Measuring.driver _ _ run
  · intro state initial
    rw [show state = _ from initial]
    rfl
  · intro state action after sampledWell stepped
    cases action with
    | radar =>
        rcases radarStepped_of_step stepped with
          ⟨-, isAfter⟩ | ⟨-, pinged, isAfter⟩ | ⟨-, -, read, isAfter⟩ | ⟨-, -, read, finished⟩
        · subst isAfter
          exact .inl rfl
        · subst isAfter
          exact .inr ⟨.trigger, trivial, pinged⟩
        · subst isAfter
          exact .inr ⟨.sample, sampledWell (sample_cases read).1, read⟩
        · rw [(finish_driver finished).1]
          exact .inr ⟨.sample, sampledWell (sample_cases read).1, read⟩
    | echo edge now =>
        rcases Option.map_eq_some_iff.mp stepped with ⟨driver, heard, isAfter⟩
        subst isAfter
        exact .inr ⟨.echo edge now, trivial, heard⟩
    | sender time =>
        cases stepped
        exact .inl rfl
    | fpga button =>
        cases stepped
        exact .inl rfl

/-- When every sample finds its echoes as it should, the alarms are those of half-sweeps one
after the other: each holds the distances of the pulses heard in two reads of its own
half-sweep for each slot, and was raised for one of them. -/
theorem alarms_from_echoes {xres : Nat} {actions : List MeasureAction} {state : Measuring}
    (run : (measuring xres).RunWhere Measuring.SampledWell actions state) :
    ∃ halves, RecordedBy heard state.driver.readings halves state.client.raised := by
  rcases driver_of_run run with ⟨events, driverRun⟩
  have reports := Driver.reportsOwnEcho_of_run _ _ driverRun
  rcases tracked_of_run run with ⟨half, tracked⟩
  rcases tracked.raised with ⟨halves, -, increasing, recorded⟩
  refine ⟨halves, increasing, recorded.imp ?_⟩
  rintro half alarm ⟨measurements, records⟩
  refine ⟨measurements, records.congr ?_⟩
  intro read isRead
  rw [returned, heard, reports read isRead]

/-- The last two edges are a pulse within one second, which is the usual case. -/
def ownPulse : List Driver.Echo → Bool
  | ⟨.falling, fell⟩ :: ⟨.rising, rose⟩ :: _ => rose.sec == fell.sec
  | _ => false

theorem measurable_of_ownPulse {earlier echoes : List Driver.Echo}
    (own : ownPulse echoes = true) : Driver.Measurable earlier echoes := by
  unfold ownPulse at own
  split at own
  · exact .inl (beq_iff_eq.mp own)
  · cases own

def Measuring.HearsPulse (state : Measuring) : MeasureAction → Prop
  | .radar => state.driver.triggered = true → ownPulse state.driver.echoes = true
  | _ => True

theorem Measuring.HearsPulse.sampledWell (state : Measuring) (action : MeasureAction)
    (hears : state.HearsPulse action) : state.SampledWell action := by
  cases action with
  | radar => exact fun triggered => measurable_of_ownPulse (hears triggered)
  | echo _ _ | sender _ | fpga _ => trivial

instance (state : Measuring) : ∀ action, Decidable (state.HearsPulse action)
  | .radar =>
      inferInstanceAs (Decidable (state.driver.triggered = true →
        ownPulse state.driver.echoes = true))
  | .echo _ _ | .sender _ | .fpga _ => inferInstanceAs (Decidable True)

/-- A read in the given second that hears an object at ten centimetres. -/
def nearRead (second : Nat) : List MeasureAction :=
  [.radar, .echo .rising { sec := second, usec := 60, normal := by decide },
    .echo .falling { sec := second, usec := 600, normal := by decide }, .radar]

/-- A cycle up to the end of its forward half-sweep, and the alarm. -/
def nearEchoes : List MeasureAction :=
  [.radar, .radar] ++ (List.range 122).flatMap nearRead ++ List.replicate 63 .radar

theorem near_echoes_raise_alarm :
    ∃ state, (measuring 1024).RunWhere Measuring.SampledWell nearEchoes state ∧
      state.client.raised.length = 1 ∧
      ∃ halves, RecordedBy heard state.driver.readings halves state.client.raised := by
  have executed : ((measuring 1024).executeWhere Measuring.HearsPulse .initial nearEchoes).any
      (fun state => state.client.raised.length == 1) = true := by
    decide +kernel
  rcases exists_runWhere _ rfl executed with ⟨state, run, raised⟩
  have sampledWell := run.weaken Measuring.HearsPulse.sampledWell
  exact ⟨state, sampledWell, beq_iff_eq.mp raised, alarms_from_echoes sampledWell⟩

end GamZ.Client
