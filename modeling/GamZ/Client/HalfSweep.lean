import GamZ.Foundation.LastWriter
import GamZ.Frame
import GamZ.Radar

/-! # Half-sweeps of `radar_process`

A cycle measures the half disc twice, forward and back. Every accepted reading
is stored in `r`, sounds the alarm if it is below the warn line, and paints one
sector. -/

namespace GamZ.Client

open CString LastWriter Raster

inductive Direction
  | forward
  | back
deriving DecidableEq, Repr

/-- The four measuring loops of a half-sweep, pass by pass. -/
def Direction.bearings : Direction → List Bearing
  | .forward =>
      ((List.range' 0 16).map fun i => ⟨.rightLower, i, i⟩) ++
        (downwards.map fun i => ⟨.rightUpper, i, 15 + (16 - i)⟩) ++
        (upwards.map fun i => ⟨.leftUpper, i, 30 + i⟩) ++
        (downwards.map fun i => ⟨.leftLower, i, 46 + (15 - i)⟩)
  | .back =>
      ((List.range' 0 16).map fun i => ⟨.leftLower, i, 44 + (15 - i)⟩) ++
        (downwards.map fun i => ⟨.leftUpper, i, 44 - (15 - i)⟩) ++
        (upwards.map fun i => ⟨.rightUpper, i, 30 - i⟩) ++
        (downwards.map fun i => ⟨.rightLower, i, i - 1⟩)

/-- `*side_pwm +=30;` on the way forward, `*side_pwm -=30;` on the way back. -/
def Direction.turn : Direction → Int
  | .forward => 30
  | .back => -30

def Direction.clearColor : Direction → Color
  | .forward => green
  | .back => blue

/-- A reading as a sector: the radius is twice the reading. -/
def sectorOf (warnVal : Byte) (reading : Reading) : Sector :=
  ⟨reading * 2, decide (reading.val < warnVal.toNat)⟩

def Direction.color (direction : Direction) (sector : Sector) : Color :=
  if sector.belowWarn then red else direction.clearColor

/-- The lowest row an octant is painted in. -/
def firstRow : Octant → Nat
  | .rightLower => 599
  | .rightUpper | .leftUpper | .leftLower => 598

/-- The painting loops of one pass. -/
def Direction.sectorPass (direction : Direction) (warnVal : Byte) (bearing : Bearing)
    (sector : Sector) : Pass Color where
  rows := rowsDown (firstRow bearing.octant) 100
  columns := bearing.octant.columns
  pixel repy repx :=
    let x := bearing.octant.x repx
    let y : Int := 599 - repy
    sectorPixel (warnVal.toNat * 2) (direction.color sector) sector.radius bearing.i x y
      (bearing.octant.temp x y)

/-- What `radar_process` carries through a half-sweep, with the sectors it has
painted. -/
structure RadarState where
  r : Nat → Int
  buzFlag : Int
  sidePwm : Int
  painted : Octant × Nat → Option Sector
  pfbdata : FrameBuffer Color

/-- The state of `radar_process` before its first cycle. -/
def RadarState.initial : RadarState where
  r := fun _ => 0
  buzFlag := 0
  sidePwm := 480
  painted := fun _ => none
  pfbdata := fun _ => black

/-- One pass of a measuring loop with the accepted reading `buf[0]`. -/
def RadarState.measure (direction : Direction) (warnVal : Byte) (xres : Nat) (state : RadarState)
    (pass : Bearing × Reading) : RadarState where
  r := Function.update state.r pass.1.slot (pass.2 * 2)
  buzFlag := if pass.2.val < warnVal.toNat then 1 else state.buzFlag
  sidePwm := state.sidePwm + direction.turn
  painted := Function.update state.painted (pass.1.octant, pass.1.i)
    (some (sectorOf warnVal pass.2))
  pfbdata := (direction.sectorPass warnVal pass.1 (sectorOf warnVal pass.2)).paint xres
    state.pfbdata

/-- `for(repy = 599 ; repy > 100; repy--)` -/
def centreColumn : Pass Color := columnPass (rowsDown 599 101)

def Direction.passes (direction : Direction) (readings : Fin 61 → Reading) :
    List (Bearing × Reading) :=
  direction.bearings.zip (List.ofFn readings)

/-- The first side, the centre column and the second side. -/
def RadarState.halfSweep (direction : Direction) (warnVal : Byte) (xres : Nat)
    (state : RadarState) (readings : Fin 61 → Reading) : RadarState :=
  let passes := direction.passes readings
  let firstSide := (passes.take 31).foldl (RadarState.measure direction warnVal xres) state
  let column := { firstSide with pfbdata := centreColumn.paint xres firstSide.pfbdata }
  (passes.drop 31).foldl (RadarState.measure direction warnVal xres) column

/-- `*(data_buf + i) = (r[i] / 2) + 1;` -/
def depositByte (r : Nat → Int) (i : Nat) : Byte :=
  UInt8.ofNat (r i / 2 + 1).toNat

/-- The frame sent for a half-sweep: the deposited bytes, then the sender's. -/
def recordFrame (r : Nat → Int) (time : Fin 6 → Byte) (warnData spare : Byte) : Frame :=
  fun k =>
    if k.val < 61 then depositByte r k.val
    else if later : k.val < 67 then time ⟨k.val - 61, by omega⟩
    else if k.val = 67 then warnData
    else if k.val = 68 then 0
    else spare

/-- A half-sweep without alarm sends no frame. -/
def RadarState.frameBuilt (state : RadarState) (time : Fin 6 → Byte) (warnData spare : Byte) :
    Option Frame :=
  if state.buzFlag ≠ 0 then some (recordFrame state.r time warnData spare) else none

/-! ## The two orders of bearings -/

@[simp] theorem Direction.length_bearings (direction : Direction) :
    direction.bearings.length = 61 := by
  cases direction <;> rfl

@[simp] theorem Direction.length_passes (direction : Direction) (readings : Fin 61 → Reading) :
    (direction.passes readings).length = 61 := by
  simp [passes]

def Direction.slotOf : Direction → Nat → Nat
  | .forward, k => k
  | .back, k => if k < 16 then 59 - k else 60 - k

def Direction.bearingAt (direction : Direction) (k : Fin 61) : Bearing :=
  direction.bearings.get (k.cast direction.length_bearings.symm)

theorem Direction.bearings_getElem (direction : Direction) (k : Fin 61)
    (occurs : k.val < direction.bearings.length) :
    direction.bearings[k.val] = direction.bearingAt k := rfl

theorem Direction.slot_bearingAt (direction : Direction) (k : Fin 61) :
    (direction.bearingAt k).slot = direction.slotOf k := by
  cases direction <;> revert k <;> decide

/-- The position of a sector's reading in a half-sweep. -/
def Direction.readingOf : Direction → Octant → Nat → Nat
  | .forward, .rightLower, i => i
  | .forward, .rightUpper, i => 31 - i
  | .forward, .leftUpper, i => 30 + i
  | .forward, .leftLower, i => 61 - i
  | .back, .leftLower, i => i
  | .back, .leftUpper, i => 31 - i
  | .back, .rightUpper, i => 30 + i
  | .back, .rightLower, i => 61 - i

theorem Direction.readingOf_lt (direction : Direction) (octant : Octant) (i : Fin 16)
    (positive : 0 < i.val) : direction.readingOf octant i < 61 := by
  cases direction <;> cases octant <;> simp only [readingOf] <;> omega

theorem Direction.bearingAt_readingOf (direction : Direction) (octant : Octant) (i : Fin 16)
    (positive : 0 < i.val) (small : direction.readingOf octant i < 61) :
    (direction.bearingAt ⟨direction.readingOf octant i, small⟩).octant = octant ∧
      (direction.bearingAt ⟨direction.readingOf octant i, small⟩).i = i.val := by
  revert i
  cases direction <;> cases octant <;> decide

theorem Direction.nodup_sectors (direction : Direction) :
    (direction.bearings.map fun bearing => (bearing.octant, bearing.i)).Nodup := by
  cases direction <;> decide

theorem Direction.sector_bearingAt_ne (direction : Direction) {j k : Fin 61} (different : j ≠ k) :
    ((direction.bearingAt j).octant, (direction.bearingAt j).i) ≠
      ((direction.bearingAt k).octant, (direction.bearingAt k).i) := by
  intro equal
  have nodup := direction.nodup_sectors
  have injective := List.inj_on_of_nodup_map nodup (List.get_mem ..) (List.get_mem ..) equal
  have distinct := List.nodup_iff_injective_get.mp nodup.of_map
  exact different (Fin.cast_injective _ (distinct injective))

/-! ## The state after a half-sweep -/

private theorem foldl_measure (direction : Direction) (warnVal : Byte) (xres : Nat)
    (passes : List (Bearing × Reading)) :
    ∀ state : RadarState,
      (passes.foldl (RadarState.measure direction warnVal xres) state).r =
          writeAll state.r (passes.map fun pass => (pass.1.slot, (pass.2 * 2 : Int))) ∧
        (passes.foldl (RadarState.measure direction warnVal xres) state).painted =
          writeAll state.painted
            (passes.map fun pass => ((pass.1.octant, pass.1.i), some (sectorOf warnVal pass.2))) ∧
        ((passes.foldl (RadarState.measure direction warnVal xres) state).buzFlag ≠ 0 ↔
          state.buzFlag ≠ 0 ∨ ∃ pass ∈ passes, pass.2.val < warnVal.toNat) := by
  induction passes with
  | nil => simp
  | cons pass passes induction =>
      intro state
      rcases induction (state.measure direction warnVal xres pass) with ⟨stored, painted, alarm⟩
      refine ⟨stored, painted, ?_⟩
      rw [List.foldl_cons, alarm]
      by_cases below : pass.2.val < warnVal.toNat <;>
        simp [RadarState.measure, below]

theorem passes_getElem (direction : Direction) (readings : Fin 61 → Reading) (k : Fin 61)
    (occurs : k.val < (direction.passes readings).length) :
    (direction.passes readings)[k.val] = (direction.bearingAt k, readings k) := by
  simp only [Direction.passes, List.getElem_zip, List.getElem_ofFn, direction.bearings_getElem k]

/-- The passes of both sides, in order, with the centre column between them. -/
private theorem halfSweep_fields (direction : Direction) (warnVal : Byte) (xres : Nat)
    (state : RadarState) (readings : Fin 61 → Reading) :
    (state.halfSweep direction warnVal xres readings).r =
        writeAll state.r ((direction.passes readings).map
          fun pass => (pass.1.slot, (pass.2 * 2 : Int))) ∧
      (state.halfSweep direction warnVal xres readings).painted =
        writeAll state.painted ((direction.passes readings).map
          fun pass => ((pass.1.octant, pass.1.i), some (sectorOf warnVal pass.2))) ∧
      ((state.halfSweep direction warnVal xres readings).buzFlag ≠ 0 ↔
        state.buzFlag ≠ 0 ∨
          ∃ pass ∈ direction.passes readings, pass.2.val < warnVal.toNat) := by
  rcases foldl_measure direction warnVal xres ((direction.passes readings).take 31) state with
    ⟨firstStored, firstPainted, firstAlarm⟩
  rcases foldl_measure direction warnVal xres ((direction.passes readings).drop 31)
      { (((direction.passes readings).take 31).foldl (RadarState.measure direction warnVal xres)
          state) with
        pfbdata := centreColumn.paint xres
          (((direction.passes readings).take 31).foldl
            (RadarState.measure direction warnVal xres) state).pfbdata } with
    ⟨stored, painted, alarm⟩
  have whole := List.take_append_drop 31 (direction.passes readings)
  refine ⟨stored.trans ?_, painted.trans ?_, alarm.trans ?_⟩
  · rw [firstStored, ← writeAll_append, ← List.map_append, whole]
  · rw [firstPainted, ← writeAll_append, ← List.map_append, whole]
  · rw [firstAlarm, or_assoc]
    have members : ∀ pass, pass ∈ direction.passes readings ↔
        pass ∈ (direction.passes readings).take 31 ∨
          pass ∈ (direction.passes readings).drop 31 := by
      intro pass
      rw [← List.mem_append, whole]
    simp only [members, or_and_right, exists_or]

section AfterHalfSweep

variable (direction : Direction) (warnVal : Byte) (xres : Nat) (state : RadarState)
  (readings : Fin 61 → Reading)

theorem halfSweep_buzFlag (quiet : state.buzFlag = 0) :
    (state.halfSweep direction warnVal xres readings).buzFlag ≠ 0 ↔
      ∃ k, (readings k).val < warnVal.toNat := by
  rw [(halfSweep_fields direction warnVal xres state readings).2.2]
  constructor
  · intro alarm
    rcases alarm with earlier | ⟨pass, member, below⟩
    · exact absurd quiet earlier
    · rcases List.getElem_of_mem member with ⟨k, occurs, equal⟩
      rw [direction.length_passes] at occurs
      have inPasses : k < (direction.passes readings).length := by simpa using occurs
      rw [← equal, passes_getElem direction readings ⟨k, occurs⟩ inPasses] at below
      exact ⟨_, below⟩
  · intro alarm
    rcases alarm with ⟨k, below⟩
    have occurs : k.val < (direction.passes readings).length := by simp
    refine .inr ⟨_, List.getElem_mem occurs, ?_⟩
    rw [passes_getElem direction readings k occurs]
    exact below

theorem halfSweep_r (k : Fin 61)
    (last : ∀ j : Fin 61, k < j → direction.slotOf j ≠ direction.slotOf k) :
    (state.halfSweep direction warnVal xres readings).r (direction.slotOf k) = readings k * 2 := by
  have inPasses : ∀ j : Fin 61, j.val < (direction.passes readings).length := by simp
  have occurs : k.val < ((direction.passes readings).map
      fun pass => (pass.1.slot, (pass.2 * 2 : Int))).length := by simp
  have written := writeAll_getElem state.r _ occurs (by
    intro j inList later
    have small : j < 61 := by simpa using inList
    simp only [List.getElem_map, passes_getElem direction readings ⟨j, small⟩ (inPasses _),
      passes_getElem direction readings k (inPasses k), direction.slot_bearingAt]
    exact last ⟨j, small⟩ later)
  rw [(halfSweep_fields direction warnVal xres state readings).1]
  simp only [List.getElem_map, passes_getElem direction readings k (inPasses k),
    direction.slot_bearingAt] at written
  exact written

theorem halfSweep_r_other (slot : Nat) (others : ∀ k : Fin 61, direction.slotOf k ≠ slot) :
    (state.halfSweep direction warnVal xres readings).r slot = state.r slot := by
  rw [(halfSweep_fields direction warnVal xres state readings).1]
  apply writeAll_of_forall_ne
  intro write member
  rcases List.getElem_of_mem member with ⟨k, occurs, equal⟩
  have small : k < 61 := by simpa using occurs
  have inPasses : k < (direction.passes readings).length := by simpa using small
  rw [← equal, List.getElem_map, passes_getElem direction readings ⟨k, small⟩ inPasses]
  simp only [direction.slot_bearingAt]
  exact others ⟨k, small⟩

theorem halfSweep_painted (octant : Octant) (i : Fin 16) (positive : 0 < i.val) :
    (state.halfSweep direction warnVal xres readings).painted (octant, i.val) =
      some (sectorOf warnVal
        (readings ⟨direction.readingOf octant i, direction.readingOf_lt octant i positive⟩)) := by
  have small := direction.readingOf_lt octant i positive
  rcases direction.bearingAt_readingOf octant i positive small with ⟨atOctant, atRow⟩
  have inPasses : ∀ j : Fin 61, j.val < (direction.passes readings).length := by simp
  have occurs : direction.readingOf octant i < ((direction.passes readings).map
      fun pass => ((pass.1.octant, pass.1.i), some (sectorOf warnVal pass.2))).length := by
    simpa using small
  have written := writeAll_getElem state.painted _ occurs (by
    intro j inList later
    have inRange : j < 61 := by simpa using inList
    simp only [List.getElem_map, passes_getElem direction readings ⟨j, inRange⟩ (inPasses _),
      passes_getElem direction readings ⟨_, small⟩ (inPasses _)]
    exact direction.sector_bearingAt_ne (Fin.ne_of_gt later))
  rw [(halfSweep_fields direction warnVal xres state readings).2.1]
  simp only [List.getElem_map, passes_getElem direction readings ⟨_, small⟩ (inPasses _),
    atOctant, atRow] at written
  exact written

end AfterHalfSweep

/-! ## What a half-sweep paints -/

def Direction.measurePass (direction : Direction) (warnVal : Byte) (pass : Bearing × Reading) :
    Pass Color :=
  direction.sectorPass warnVal pass.1 (sectorOf warnVal pass.2)

def Direction.drawnPasses (direction : Direction) (warnVal : Byte) (readings : Fin 61 → Reading) :
    List (Pass Color) :=
  ((direction.passes readings).take 31).map (direction.measurePass warnVal) ++ [centreColumn] ++
    ((direction.passes readings).drop 31).map (direction.measurePass warnVal)

private theorem foldl_measure_pfbdata (direction : Direction) (warnVal : Byte) (xres : Nat)
    (passes : List (Bearing × Reading)) :
    ∀ state : RadarState,
      (passes.foldl (RadarState.measure direction warnVal xres) state).pfbdata =
        (passes.map (direction.measurePass warnVal)).foldl
          (fun pfbdata pass => pass.paint xres pfbdata) state.pfbdata := by
  induction passes with
  | nil => exact fun _ => rfl
  | cons pass passes induction =>
      intro state
      rw [List.foldl_cons, induction, List.map_cons, List.foldl_cons]
      simp only [RadarState.measure, Direction.measurePass]

theorem halfSweep_pfbdata (direction : Direction) (warnVal : Byte) (xres : Nat)
    (state : RadarState) (readings : Fin 61 → Reading) :
    (state.halfSweep direction warnVal xres readings).pfbdata =
      (direction.drawnPasses warnVal readings).foldl (fun pfbdata pass => pass.paint xres pfbdata)
        state.pfbdata := by
  rw [RadarState.halfSweep, foldl_measure_pfbdata]
  simp only
  rw [foldl_measure_pfbdata, Direction.drawnPasses, List.foldl_append, List.foldl_append,
    List.foldl_cons, List.foldl_nil]

/-! ## A whole cycle -/

/-- The state after the forward half-sweep of a cycle, and after the one back. In
between the alarm has been taken over or was not raised. -/
def RadarState.after (state : RadarState) (warnVal : Byte) (xres : Nat)
    (there back : Fin 61 → Reading) : Direction → RadarState
  | .forward => { state with buzFlag := 0 }.halfSweep .forward warnVal xres there
  | .back =>
      { { state with buzFlag := 0 }.halfSweep .forward warnVal xres there with
        buzFlag := 0 }.halfSweep .back warnVal xres back

end GamZ.Client
