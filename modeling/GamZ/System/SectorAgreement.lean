import GamZ.Client.HalfSweep
import GamZ.Server.MakeRadar

/-! # Which reading belongs to which sector

The frame does not tell the direction of the sweep. `make_radar` inverts the
order of a forward half-sweep; a half-sweep back is read one slot off. -/

namespace GamZ.System

open CString LastWriter Client Server

/-- Whenever the half-sweep sends a frame, `make_radar` paints every sector of it
as the client did. -/
def SectorsAgree (warnVal : Byte) (state : RadarState) : Prop :=
  ∀ time spare frame, state.frameBuilt time warnVal spare = some frame →
    ∀ xres pfbdata octant (i : Fin 16), 0 < i.val →
      (makeRadar xres (upDataOf frame) pfbdata).painted (octant, i.val) =
        state.painted (octant, i.val)

/-! ## The sectors of `make_radar` -/

/-- The server's loops visit the slots in the order of a forward half-sweep. -/
theorem radarBearings_eq : radarBearings = Direction.forward.bearings := rfl

theorem makeRadar_painted (xres : Nat) (ptr : Fin 70 → Int)
    (pfbdata : Raster.FrameBuffer Color) (octant : Octant) (i : Fin 16) (positive : 0 < i.val) :
    (makeRadar xres ptr pfbdata).painted (octant, i.val) =
      some (radarSector (warnValOf ptr)
        (copySlots ptr (Direction.forward.readingOf octant i))) := by
  have small := Direction.forward.readingOf_lt octant i positive
  rcases Direction.forward.bearingAt_readingOf octant i positive small with ⟨atOctant, atRow⟩
  have atBearing := Direction.forward.bearings_getElem
  have occurs : Direction.forward.readingOf octant i <
      (Direction.forward.bearings.map fun bearing => ((bearing.octant, bearing.i),
        some (radarSector (warnValOf ptr) (copySlots ptr bearing.slot)))).length := by
    simpa using small
  have written := writeAll_getElem (fun _ => none) _ occurs (by
    intro j inList later
    have inRange : j < 61 := by simpa using inList
    simp only [List.getElem_map, atBearing ⟨j, inRange⟩, atBearing ⟨_, small⟩]
    exact Direction.forward.sector_bearingAt_ne (Fin.ne_of_gt later))
  simp only [List.getElem_map, atBearing ⟨_, small⟩, atOctant, atRow,
    Direction.forward.slot_bearingAt] at written
  rw [(makeRadar_eq xres ptr pfbdata).1, radarBearings_eq]
  exact written

/-! ## The record of a half-sweep -/

def Holds (state : RadarState) (values : Nat → Reading) : Prop :=
  ∀ slot < 61, state.r slot = (values slot).val * 2

theorem copySlots_recordFrame {state : RadarState} {values : Nat → Reading}
    (holds : Holds state values) (time : Fin 6 → Byte) (warnData spare : Byte) {slot : Nat}
    (inside : slot < 61) :
    copySlots (upDataOf (recordFrame state.r time warnData spare)) slot =
      (values slot).val + 1 := by
  have bound := (values slot).isLt
  have half : (((values slot).val : Int) * 2 / 2 + 1).toNat = (values slot).val + 1 := by omega
  have byteSized : (values slot).val + 1 < UInt8.size := by
    rw [UInt8.size]
    omega
  rw [copySlots, dif_pos inside, upDataOf, recordFrame, if_pos inside, depositByte,
    holds slot inside, half, UInt8.toNat_ofNat_of_lt' byteSized]
  rfl

theorem warnValOf_recordFrame (r : Nat → Int) (time : Fin 6 → Byte) (warnData spare : Byte) :
    warnValOf (upDataOf (recordFrame r time warnData spare)) = warnData.toNat := rfl

theorem radarSector_reading (warnVal : Byte) (reading : Reading) :
    radarSector warnVal.toNat (reading.val + 1) = sectorOf warnVal reading := by
  have back : ((reading.val : Int) + 1) - 1 = reading.val := by omega
  simp [radarSector, sectorOf, back]

theorem sectorOf_inj (warnVal : Byte) {first second : Reading}
    (same : sectorOf warnVal first = sectorOf warnVal second) : first = second := by
  have radius := congrArg Sector.radius same
  simp only [sectorOf] at radius
  apply Fin.ext
  omega

/-- With an alarm, the sectors agree when every slot holds the reading of its
sector. -/
theorem sectorsAgree_iff (direction : Direction) (warnVal : Byte) (xres : Nat)
    (state : RadarState) (quiet : state.buzFlag = 0) (readings : Fin 61 → Reading)
    (values : Nat → Reading)
    (holds : Holds (state.halfSweep direction warnVal xres readings) values) :
    SectorsAgree warnVal (state.halfSweep direction warnVal xres readings) ↔
      (∀ k, warnVal.toNat ≤ (readings k).val) ∨
        ∀ octant (i : Fin 16) (positive : 0 < i.val),
          values (Direction.forward.readingOf octant i) =
            readings ⟨direction.readingOf octant i,
              direction.readingOf_lt octant i positive⟩ := by
  have alarm := halfSweep_buzFlag direction warnVal xres state readings quiet
  constructor
  · intro agree
    by_cases below : ∃ k, (readings k).val < warnVal.toNat
    · right
      intro octant i positive
      have painted := agree (fun _ => 0) 0 _ (if_pos (alarm.mpr below)) 0 (fun _ => 0) octant i
        positive
      rw [makeRadar_painted _ _ _ octant i positive, warnValOf_recordFrame,
        copySlots_recordFrame holds _ _ _ (Direction.forward.readingOf_lt octant i positive),
        radarSector_reading, halfSweep_painted direction warnVal xres state readings octant i
          positive] at painted
      exact sectorOf_inj warnVal (Option.some.inj painted)
    · left
      intro k
      exact Nat.le_of_not_lt fun low => below ⟨k, low⟩
  · intro cases time spare frame built otherXres pfbdata octant i positive
    rcases cases with silent | same
    · have noAlarm : ¬ (state.halfSweep direction warnVal xres readings).buzFlag ≠ 0 := by
        rw [alarm]
        intro below
        rcases below with ⟨k, low⟩
        exact absurd low (Nat.not_lt.mpr (silent k))
      rw [RadarState.frameBuilt, if_neg noAlarm] at built
      cases built
    · have frameIs : recordFrame (state.halfSweep direction warnVal xres readings).r time warnVal
          spare = frame := by
        rw [RadarState.frameBuilt] at built
        split_ifs at built
        exact Option.some.inj built
      rw [← frameIs, makeRadar_painted _ _ _ octant i positive, warnValOf_recordFrame,
        copySlots_recordFrame holds _ _ _ (Direction.forward.readingOf_lt octant i positive),
        radarSector_reading, halfSweep_painted direction warnVal xres state readings octant i
          positive, same octant i positive]

/-! ## Both directions -/

private theorem ofNat_eq {k : Nat} (small : k < 61) : Fin.ofNat 61 k = ⟨k, small⟩ :=
  Fin.ext (Nat.mod_eq_of_lt small)

theorem holds_forward (warnVal : Byte) (xres : Nat) (state : RadarState)
    (readings : Fin 61 → Reading) :
    Holds (state.halfSweep .forward warnVal xres readings)
      (fun slot => readings (Fin.ofNat 61 slot)) := by
  intro slot inside
  have written := halfSweep_r .forward warnVal xres state readings ⟨slot, inside⟩
    (fun j later => Nat.ne_of_gt later)
  simp only [ofNat_eq inside]
  exact written

/-- The reading that a half-sweep back leaves in a slot. The last slot keeps the
last reading of the way forward, and one slot is measured twice. -/
def backValue (last : Reading) (back : Fin 61 → Reading) (slot : Nat) : Reading :=
  if slot = 60 then last
  else if 45 ≤ slot then back (Fin.ofNat 61 (59 - slot))
  else back (Fin.ofNat 61 (60 - slot))

/-- Every reading back but the sixteenth is the last one for its slot. -/
private theorem holds_backSlot (warnVal : Byte) (xres : Nat) (state : RadarState)
    (back : Fin 61 → Reading) (k : Fin 61) (notTwice : k.val ≠ 15) {slot : Nat}
    (slotIs : Direction.back.slotOf k = slot) :
    (state.halfSweep .back warnVal xres back).r slot = (back k).val * 2 := by
  rw [← slotIs]
  apply halfSweep_r .back warnVal xres state back k
  intro j later
  have order : k.val < j.val := later
  simp only [Direction.slotOf]
  split_ifs <;> omega

theorem holds_back (warnVal : Byte) (xres : Nat) (state : RadarState) (last : Reading)
    (kept : state.r 60 = last.val * 2) (back : Fin 61 → Reading) :
    Holds (state.halfSweep .back warnVal xres back) (backValue last back) := by
  intro slot inside
  unfold backValue
  split_ifs with lastSlot low
  · subst lastSlot
    rw [halfSweep_r_other .back warnVal xres state back 60 (by
      intro k
      simp only [Direction.slotOf]
      split_ifs <;> omega), kept]
  · have small : 59 - slot < 61 := by omega
    rw [ofNat_eq small]
    exact holds_backSlot warnVal xres state back ⟨59 - slot, small⟩ (by simp; omega)
      (by simp only [Direction.slotOf]; split_ifs <;> omega)
  · have small : 60 - slot < 61 := by omega
    rw [ofNat_eq small]
    exact holds_backSlot warnVal xres state back ⟨60 - slot, small⟩ (by simp; omega)
      (by simp only [Direction.slotOf]; split_ifs <;> omega)

/-- The reading whose slot `make_radar` takes for the `k`-th reading back. -/
def earlierReading (last : Reading) (back : Fin 61 → Reading) (k : Fin 61) : Reading :=
  if k.val ≤ 1 then last
  else if k.val ≤ 16 then back ⟨k.val - 2, by omega⟩
  else back ⟨k.val - 1, by omega⟩

theorem readingOf_mirror (octant : Octant) (i : Fin 16) :
    Direction.forward.readingOf octant i = 61 - Direction.back.readingOf octant i := by
  have := i.isLt
  cases octant <;> simp only [Direction.readingOf] <;> omega

theorem backValue_mirror (last : Reading) (back : Fin 61 → Reading) (k : Fin 61)
    (positive : 0 < k.val) : backValue last back (61 - k.val) = earlierReading last back k := by
  have := k.isLt
  unfold backValue earlierReading
  by_cases second : k.val ≤ 1
  · rw [if_pos (by omega), if_pos second]
  rw [if_neg (by omega), if_neg second]
  by_cases low : k.val ≤ 16
  · have position : 59 - (61 - k.val) = k.val - 2 := by omega
    rw [if_pos (by omega), if_pos low, position, ofNat_eq (by omega)]
  · have position : 60 - (61 - k.val) = k.val - 1 := by omega
    rw [if_neg (by omega), if_neg low, position, ofNat_eq (by omega)]

theorem backReading_positive (octant : Octant) (i : Fin 16) (positive : 0 < i.val) :
    0 < Direction.back.readingOf octant i := by
  have := i.isLt
  cases octant <;> simp only [Direction.readingOf] <;> omega

/-- The readings back agree with the slots `make_radar` takes for them. -/
theorem backValues_agree_iff (last : Reading) (back : Fin 61 → Reading) :
    (∀ octant (i : Fin 16) (positive : 0 < i.val),
        backValue last back (Direction.forward.readingOf octant i) =
          back ⟨Direction.back.readingOf octant i,
            Direction.back.readingOf_lt octant i positive⟩) ↔
      ∀ k : Fin 61, 0 < k.val → back k = earlierReading last back k := by
  constructor
  · intro same k positive
    have sector : ∃ octant, ∃ i : Fin 16, 0 < i.val ∧ Direction.back.readingOf octant i = k := by
      rcases Nat.lt_or_ge k.val 16 with low | high
      · exact ⟨.leftLower, ⟨k.val, low⟩, positive, rfl⟩
      rcases Nat.lt_or_ge k.val 31 with low | high
      · exact ⟨.leftUpper, ⟨31 - k.val, by omega⟩, by dsimp only; omega, by
          simp only [Direction.readingOf]; omega⟩
      rcases Nat.lt_or_ge k.val 46 with low | high
      · exact ⟨.rightUpper, ⟨k.val - 30, by omega⟩, by dsimp only; omega, by
          simp only [Direction.readingOf]; omega⟩
      · exact ⟨.rightLower, ⟨61 - k.val, by omega⟩, by dsimp only; omega, by
          simp only [Direction.readingOf]; omega⟩
    rcases sector with ⟨octant, i, inRange, position⟩
    have agrees := same octant i inRange
    have index : (⟨Direction.back.readingOf octant i,
        Direction.back.readingOf_lt octant i inRange⟩ : Fin 61) = k := Fin.ext position
    rw [readingOf_mirror, index, position, backValue_mirror last back k positive] at agrees
    exact agrees.symm
  · intro same octant i positive
    have atPosition := backReading_positive octant i positive
    rw [readingOf_mirror]
    rw [backValue_mirror last back ⟨_, Direction.back.readingOf_lt octant i positive⟩ atPosition]
    exact (same _ atPosition).symm

theorem forward_sectors_agree (warnVal : Byte) (xres : Nat) (state : RadarState)
    (there back : Fin 61 → Reading) :
    SectorsAgree warnVal (state.after warnVal xres there back .forward) := by
  apply (sectorsAgree_iff .forward warnVal xres { state with buzFlag := 0 } rfl there _
    (holds_forward warnVal xres _ there)).mpr
  right
  intro octant i positive
  rw [ofNat_eq (Direction.forward.readingOf_lt octant i positive)]

theorem back_sectors_agree_iff (warnVal : Byte) (xres : Nat) (state : RadarState)
    (there back : Fin 61 → Reading) :
    SectorsAgree warnVal (state.after warnVal xres there back .back) ↔
      (∀ k, warnVal.toNat ≤ (back k).val) ∨
        ∀ k : Fin 61, 0 < k.val → back k = earlierReading (there 60) back k := by
  have kept : ({ state with buzFlag := 0 }.halfSweep .forward warnVal xres there).r 60 =
      ((there 60).val * 2 : Int) :=
    holds_forward warnVal xres { state with buzFlag := 0 } there 60 (by decide)
  rw [RadarState.after]
  generalize { state with buzFlag := 0 }.halfSweep .forward warnVal xres there = turned at kept ⊢
  rw [sectorsAgree_iff .back warnVal xres { turned with buzFlag := 0 } rfl back _
    (holds_back warnVal xres { turned with buzFlag := 0 } (there 60) kept back),
    backValues_agree_iff]

/-- A forward half-sweep always agrees. One back agrees if it raises no alarm, or
if every reading but the first equals the one `make_radar` takes for it. -/
theorem half_sweep_sectors_agree_iff (direction : Direction) (warnVal : Byte) (xres : Nat)
    (state : RadarState) (there back : Fin 61 → Reading) :
    SectorsAgree warnVal (state.after warnVal xres there back direction) ↔
      direction = .forward ∨ (∀ k, warnVal.toNat ≤ (back k).val) ∨
        ∀ k : Fin 61, 0 < k.val → back k = earlierReading (there 60) back k := by
  cases direction with
  | forward => simp [forward_sectors_agree]
  | back => simp [back_sectors_agree_iff]

/-- An object at one bearing only, on the way back. -/
def oneObject (k : Fin 61) : Reading := if k = 30 then 10 else 200

theorem one_object_back_disagrees :
    ¬ ∀ (direction : Direction) (warnVal : Byte) (xres : Nat) (state : RadarState)
      (there back : Fin 61 → Reading),
      SectorsAgree warnVal (state.after warnVal xres there back direction) := by
  intro alwaysAgree
  have agree := alwaysAgree .back 20 1024 .initial (fun _ => 200) oneObject
  rcases (back_sectors_agree_iff 20 1024 .initial (fun _ => 200) oneObject).mp agree with
    silent | same
  · exact absurd (silent 30) (by decide)
  · exact absurd (same 30 (by decide)) (by decide)

end GamZ.System
