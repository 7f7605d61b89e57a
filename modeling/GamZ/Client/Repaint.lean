import GamZ.Client.HalfSweep

/-! # The picture of a forward half-sweep

At the start of a cycle `radar_process` repaints the whole half disc. -/

namespace GamZ.Client

open CString Raster

/-- The loops in front of the forward half-sweep. -/
def repaintPass (warnVal : Byte) : Pass Color where
  rows := rowsDown 599 0
  columns := List.range' 0 1024
  pixel repy repx :=
    let x : Int := repx - 512
    let y : Int := 599 - repy
    if disc x y ≤ 250000 then
      if WarnRing (warnVal.toNat * 2) x y then some yellow
      else if SteepSpoke x y then
        if disc x y ≤ 500 * 500 then some white else none
      else if FlatSpoke x y then
        if disc x y ≤ 500 * 500 then some white else none
      else if SteepSpoke (-x) y then
        if disc x y ≤ 500 * 500 then some white else none
      else if FlatSpoke (-x) y then
        if disc x y ≤ 500 * 500 then some white else none
      else if repx = 512 then some white
      else if RangeRing 100 x y then some white
      else if RangeRing 200 x y then some white
      else if RangeRing 300 x y then some white
      else if RangeRing 400 x y then some white
      else some black
    else none

def RadarState.startCycle (warnVal : Byte) (xres : Nat) (state : RadarState) : RadarState :=
  { state with
    sidePwm := 480
    buzFlag := 0
    pfbdata := (repaintPass warnVal).paint xres state.pfbdata }

/-! ## The passes that draw a forward half-sweep -/

/-- The pass of a bearing, with the reading of its slot. -/
def bearingPass (warnVal : Byte) (readings : Fin 61 → Reading) (bearing : Bearing) : Pass Color :=
  Direction.forward.sectorPass warnVal bearing
    (sectorOf warnVal (readings (Fin.ofNat 61 bearing.slot)))

theorem forward_passes (readings : Fin 61 → Reading) :
    Direction.forward.passes readings = Direction.forward.bearings.map
      fun bearing => (bearing, readings (Fin.ofNat 61 bearing.slot)) := by
  apply List.ext_getElem
  · simp
  · intro k inPasses inBearings
    have small : k < 61 := by simpa using inPasses
    have reading : Fin.ofNat 61 k = ⟨k, small⟩ := Fin.ext (Nat.mod_eq_of_lt small)
    rw [passes_getElem .forward readings ⟨k, small⟩ inPasses, List.getElem_map,
      Direction.forward.bearings_getElem ⟨k, small⟩, Direction.forward.slot_bearingAt,
      Direction.slotOf, reading]

def rightBearings : List Bearing := Direction.forward.bearings.take 31

def leftBearings : List Bearing := Direction.forward.bearings.drop 31

/-- The passes of a cycle up to the end of its forward half-sweep. -/
def forwardPasses (warnVal : Byte) (readings : Fin 61 → Reading) : List (Pass Color) :=
  [repaintPass warnVal] ++ rightBearings.map (bearingPass warnVal readings) ++
    [centreColumn] ++ leftBearings.map (bearingPass warnVal readings)

theorem RadarState.startCycle_pfbdata (warnVal : Byte) (xres : Nat) (state : RadarState) :
    (state.startCycle warnVal xres).pfbdata =
      (repaintPass warnVal).paint xres state.pfbdata := by
  simp only [startCycle]

theorem forward_pfbdata (warnVal : Byte) (xres : Nat) (state : RadarState)
    (readings : Fin 61 → Reading) :
    ((state.startCycle warnVal xres).halfSweep .forward warnVal xres readings).pfbdata =
      (forwardPasses warnVal readings).foldl (fun pfbdata pass => pass.paint xres pfbdata)
        state.pfbdata := by
  have drawn : [repaintPass warnVal] ++ Direction.forward.drawnPasses warnVal readings =
      forwardPasses warnVal readings := by
    rw [Direction.drawnPasses, forward_passes, ← List.map_take, ← List.map_drop, List.map_map,
      List.map_map, forwardPasses, List.append_assoc, List.append_assoc, List.append_assoc]
    rfl
  rw [halfSweep_pfbdata, RadarState.startCycle_pfbdata, ← drawn, List.foldl_append,
    List.foldl_cons, List.foldl_nil]

end GamZ.Client
