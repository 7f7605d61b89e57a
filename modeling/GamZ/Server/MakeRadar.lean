import GamZ.Foundation.LastWriter
import GamZ.Frame
import GamZ.Radar

/-! # `make_radar`

The server paints the half disc of a record: the outer ring and the warn ring,
then the sectors of both sides with the centre column between them. -/

namespace GamZ.Server

open LastWriter Raster

/-- The four painting loops, pass by pass. -/
def radarBearings : List Bearing :=
  ((List.range' 0 16).map fun i => ⟨.rightLower, i, i⟩) ++
    (downwards.map fun i => ⟨.rightUpper, i, 15 + (16 - i)⟩) ++
    (upwards.map fun i => ⟨.leftUpper, i, 30 + i⟩) ++
    (downwards.map fun i => ⟨.leftLower, i, 46 + (15 - i)⟩)

/-- The lowest row an octant is painted in. -/
def firstRow : Octant → Nat
  | .rightLower | .leftLower => 599
  | .rightUpper | .leftUpper => 598

/-- `for(repy = 599; repy >= 0; repy--)`: the outer ring. -/
def outerRingPass : Pass Color where
  rows := rowsDown 599 0
  columns := List.range' 0 1024
  pixel repy repx := if OuterRing (repx - 512) (599 - repy) then some white else none

/-- `for(repy = 598; repy >= 0; repy--)`: the outer ring again, the warn ring, and
everything outside the disc. -/
def backgroundPass (tempWarn : Int) : Pass Color where
  rows := rowsDown 598 0
  columns := List.range' 0 1024
  pixel repy repx :=
    let x : Int := repx - 512
    let y : Int := 599 - repy
    if OuterRing x y then some white
    else if disc x y ≤ 250000 then
      if WarnRing tempWarn x y then some yellow else none
    else if SteepSpoke x y then
      if disc x y ≤ 500 * 500 then some white else none
    else if FlatSpoke x y then
      if disc x y ≤ 500 * 500 then some white else none
    else if SteepSpoke (-x) y then
      if disc x y ≤ 500 * 500 then some white else none
    else if FlatSpoke (-x) y then
      if disc x y ≤ 500 * 500 then some white else none
    else if RangeRing 100 x y then some white
    else if RangeRing 200 x y then some white
    else if RangeRing 300 x y then some white
    else if RangeRing 400 x y then some white
    else some black

def radarSector (warnVal value : Int) : Sector :=
  ⟨(value - 1) * 2, decide (value - 1 < warnVal)⟩

def radarColor (sector : Sector) : Color :=
  if sector.belowWarn then red else green

/-- The painting loops of one pass. -/
def sectorPass (tempWarn : Int) (bearing : Bearing) (sector : Sector) : Pass Color where
  rows := rowsDown (firstRow bearing.octant) 100
  columns := bearing.octant.columns
  pixel repy repx :=
    let x := bearing.octant.x repx
    let y : Int := 599 - repy
    if OuterRing x y then some white
    else sectorPixel tempWarn (radarColor sector) sector.radius bearing.i x y
      (bearing.octant.temp x y)

/-- `for(repy = 599 ; repy >= 100; repy--)` -/
def centreColumn : Pass Color := columnPass (rowsDown 599 100)

theorem mem_outerRingPass_rows {repy : Nat} : repy ∈ outerRingPass.rows ↔ repy ≤ 599 := by
  rw [outerRingPass, mem_rowsDown]
  omega

theorem mem_backgroundPass_rows {tempWarn : Int} {repy : Nat} :
    repy ∈ (backgroundPass tempWarn).rows ↔ repy ≤ 598 := by
  rw [backgroundPass, mem_rowsDown]
  omega

theorem mem_centreColumn_rows {repy : Nat} :
    repy ∈ centreColumn.rows ↔ 100 ≤ repy ∧ repy ≤ 599 := by
  simp only [centreColumn, columnPass]
  rw [mem_rowsDown]

theorem centreColumn_writes {repy : Nat} (rows : 100 ≤ repy) (bottom : repy ≤ 599) :
    centreColumn.writes repy 512 = some white := by
  rw [centreColumn, columnPass_writes]
  rw [mem_rowsDown]
  exact ⟨rows, bottom⟩

/-- The local array `r` and the framebuffer, with the sectors painted. -/
structure DrawState where
  r : Nat → Int
  painted : Octant × Nat → Option Sector
  pfbdata : FrameBuffer Color

/-- One pass: the byte in `r` is replaced by the radius it stands for. -/
def DrawState.drawSector (warnVal : Int) (xres : Nat) (state : DrawState) (bearing : Bearing) :
    DrawState where
  r := Function.update state.r bearing.slot ((state.r bearing.slot - 1) * 2)
  painted := Function.update state.painted (bearing.octant, bearing.i)
    (some (radarSector warnVal (state.r bearing.slot)))
  pfbdata := (sectorPass (warnVal * 2) bearing
    (radarSector warnVal (state.r bearing.slot))).paint xres state.pfbdata

/-- `r[i] = *(ptr + i);` -/
def copySlots (ptr : Fin 70 → Int) (slot : Nat) : Int :=
  if inside : slot < 61 then ptr ⟨slot, by omega⟩ else 0

/-- `warn_val = *(ptr + 67);` -/
def warnValOf (ptr : Fin 70 → Int) : Int := ptr 67

def DrawState.background (xres : Nat) (ptr : Fin 70 → Int) (pfbdata : FrameBuffer Color) :
    DrawState where
  r := copySlots ptr
  painted := fun _ => none
  pfbdata := (backgroundPass (warnValOf ptr * 2)).paint xres (outerRingPass.paint xres pfbdata)

theorem DrawState.background_r (xres : Nat) (ptr : Fin 70 → Int)
    (pfbdata : FrameBuffer Color) :
    (DrawState.background xres ptr pfbdata).r = copySlots ptr := by
  simp only [background]

theorem DrawState.background_painted (xres : Nat) (ptr : Fin 70 → Int)
    (pfbdata : FrameBuffer Color) :
    (DrawState.background xres ptr pfbdata).painted = fun _ => none := by
  simp only [background]

theorem DrawState.background_pfbdata (xres : Nat) (ptr : Fin 70 → Int)
    (pfbdata : FrameBuffer Color) :
    (DrawState.background xres ptr pfbdata).pfbdata =
      (backgroundPass (warnValOf ptr * 2)).paint xres (outerRingPass.paint xres pfbdata) := by
  simp only [background]

def DrawState.drawColumn (xres : Nat) (state : DrawState) : DrawState :=
  { state with pfbdata := centreColumn.paint xres state.pfbdata }

theorem DrawState.drawColumn_r (xres : Nat) (state : DrawState) :
    (state.drawColumn xres).r = state.r := by
  simp only [drawColumn]

theorem DrawState.drawColumn_painted (xres : Nat) (state : DrawState) :
    (state.drawColumn xres).painted = state.painted := by
  simp only [drawColumn]

theorem DrawState.drawColumn_pfbdata (xres : Nat) (state : DrawState) :
    (state.drawColumn xres).pfbdata = centreColumn.paint xres state.pfbdata := by
  simp only [drawColumn]

def rightBearings : List Bearing := radarBearings.take 31

def leftBearings : List Bearing := radarBearings.drop 31

def makeRadar (xres : Nat) (ptr : Fin 70 → Int) (pfbdata : FrameBuffer Color) : DrawState :=
  let rightSide := rightBearings.foldl (DrawState.drawSector (warnValOf ptr) xres)
    (.background xres ptr pfbdata)
  leftBearings.foldl (DrawState.drawSector (warnValOf ptr) xres) (rightSide.drawColumn xres)

/-! ## What the passes draw -/

/-- The pass of a bearing, from the bytes as they were stored. -/
def bearingPass (warnVal : Int) (r : Nat → Int) (bearing : Bearing) : Pass Color :=
  sectorPass (warnVal * 2) bearing (radarSector warnVal (r bearing.slot))

private theorem foldl_drawSector (warnVal : Int) (xres : Nat) (bearings : List Bearing) :
    ∀ state : DrawState, (bearings.map Bearing.slot).Nodup →
      (bearings.foldl (DrawState.drawSector warnVal xres) state).painted =
          writeAll state.painted (bearings.map fun bearing =>
            ((bearing.octant, bearing.i), some (radarSector warnVal (state.r bearing.slot)))) ∧
        (bearings.foldl (DrawState.drawSector warnVal xres) state).pfbdata =
          (bearings.map (bearingPass warnVal state.r)).foldl
            (fun pfbdata pass => pass.paint xres pfbdata) state.pfbdata ∧
        ∀ slot ∉ bearings.map Bearing.slot,
          (bearings.foldl (DrawState.drawSector warnVal xres) state).r slot = state.r slot := by
  induction bearings with
  | nil => simp
  | cons bearing bearings induction =>
      intro state distinct
      rw [List.map_cons, List.nodup_cons] at distinct
      rcases distinct with ⟨fresh, distinct⟩
      rcases induction (state.drawSector warnVal xres bearing) distinct with
        ⟨painted, drawn, untouched⟩
      have sameByte : ∀ other ∈ bearings,
          (state.drawSector warnVal xres bearing).r other.slot = state.r other.slot := by
        intro other member
        have different : other.slot ≠ bearing.slot := fun equal =>
          fresh (equal ▸ List.mem_map_of_mem member)
        exact Function.update_of_ne different ..
      refine ⟨?_, ?_, ?_⟩
      · rw [List.foldl_cons, painted, List.map_cons, writeAll, writeAll, List.foldl_cons]
        congr 1
        apply List.map_congr_left
        intro other member
        rw [sameByte other member]
      · rw [List.foldl_cons, drawn, List.map_cons, List.foldl_cons]
        congr 1
        apply List.map_congr_left
        intro other member
        rw [bearingPass, bearingPass, sameByte other member]
      · intro slot outside
        rw [List.map_cons, List.mem_cons, not_or] at outside
        rw [List.foldl_cons, untouched slot outside.2]
        exact Function.update_of_ne outside.1 ..

theorem radarBearings_slots : radarBearings.map Bearing.slot = List.range 61 := by
  decide

def radarPasses (ptr : Fin 70 → Int) : List (Pass Color) :=
  [outerRingPass, backgroundPass (warnValOf ptr * 2)] ++
    rightBearings.map (bearingPass (warnValOf ptr) (copySlots ptr)) ++
    [centreColumn] ++
    leftBearings.map (bearingPass (warnValOf ptr) (copySlots ptr))

theorem right_append_left : rightBearings ++ leftBearings = radarBearings :=
  List.take_append_drop 31 radarBearings

/-- The passes read the record as it was handed over. -/
theorem makeRadar_eq (xres : Nat) (ptr : Fin 70 → Int) (pfbdata : FrameBuffer Color) :
    (makeRadar xres ptr pfbdata).painted =
        writeAll (fun _ => none) (radarBearings.map fun bearing =>
          ((bearing.octant, bearing.i),
            some (radarSector (warnValOf ptr) (copySlots ptr bearing.slot)))) ∧
      (makeRadar xres ptr pfbdata).pfbdata =
        (radarPasses ptr).foldl (fun pfbdata pass => pass.paint xres pfbdata) pfbdata := by
  have distinct : (radarBearings.map Bearing.slot).Nodup := by
    rw [radarBearings_slots]
    exact List.nodup_range
  rw [← right_append_left, List.map_append, List.nodup_append] at distinct
  rcases distinct with ⟨rightDistinct, leftDistinct, apart⟩
  rcases foldl_drawSector (warnValOf ptr) xres rightBearings (.background xres ptr pfbdata)
      rightDistinct with ⟨rightPainted, rightDrawn, untouched⟩
  rcases foldl_drawSector (warnValOf ptr) xres leftBearings
      ((rightBearings.foldl (DrawState.drawSector (warnValOf ptr) xres)
        (.background xres ptr pfbdata)).drawColumn xres) leftDistinct with
    ⟨leftPainted, leftDrawn, -⟩
  have sameByte : ∀ bearing ∈ leftBearings,
      ((rightBearings.foldl (DrawState.drawSector (warnValOf ptr) xres)
        (.background xres ptr pfbdata)).drawColumn xres).r bearing.slot =
        copySlots ptr bearing.slot := by
    intro bearing member
    have notOnRight : bearing.slot ∉ rightBearings.map Bearing.slot := fun onRight =>
      apart _ onRight _ (List.mem_map_of_mem member) rfl
    rw [DrawState.drawColumn_r, untouched _ notOnRight, DrawState.background_r]
  constructor
  · have sameSectors : (leftBearings.map fun bearing => ((bearing.octant, bearing.i),
          some (radarSector (warnValOf ptr)
            (((rightBearings.foldl (DrawState.drawSector (warnValOf ptr) xres)
              (.background xres ptr pfbdata)).drawColumn xres).r bearing.slot)))) =
        leftBearings.map fun bearing => ((bearing.octant, bearing.i),
          some (radarSector (warnValOf ptr) (copySlots ptr bearing.slot))) := by
      apply List.map_congr_left
      intro bearing member
      rw [sameByte bearing member]
    rw [makeRadar, leftPainted, sameSectors, DrawState.drawColumn_painted, rightPainted,
      ← writeAll_append, DrawState.background_r, ← List.map_append, right_append_left,
      DrawState.background_painted]
  · have samePasses : leftBearings.map (bearingPass (warnValOf ptr)
          ((rightBearings.foldl (DrawState.drawSector (warnValOf ptr) xres)
            (.background xres ptr pfbdata)).drawColumn xres).r) =
        leftBearings.map (bearingPass (warnValOf ptr) (copySlots ptr)) := by
      apply List.map_congr_left
      intro bearing member
      rw [bearingPass, bearingPass, sameByte bearing member]
    rw [makeRadar, leftDrawn, samePasses, radarPasses, List.foldl_append, List.foldl_append,
      List.foldl_append, DrawState.drawColumn_pfbdata, rightDrawn, DrawState.background_r,
      DrawState.background_pfbdata]
    simp only [List.foldl_cons, List.foldl_nil]

end GamZ.Server
