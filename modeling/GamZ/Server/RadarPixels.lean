import GamZ.Server.MakeRadar

/-! # The pixels of `make_radar`

More than sixty passes go over the half disc. Which of them paints a pixel last
depends on the sectors that hold it, not on the record. -/

namespace GamZ.Server

open Raster

/-! ## The passes at a pixel -/

theorem bearing_slot_lt {bearing : Bearing} (member : bearing ∈ radarBearings) :
    bearing.slot < 61 := by
  have inRange := List.mem_map_of_mem (f := Bearing.slot) member
  rw [radarBearings_slots] at inRange
  exact List.mem_range.mp inRange

/-- Inside the half disc the outer ring is not in the way. -/
theorem sectorPass_pixel {repx repy : Nat} (tempWarn : Int) (bearing : Bearing) (sector : Sector)
    (inDisc : disc ((repx : Int) - 512) (599 - (repy : Int)) ≤ 250000) :
    (sectorPass tempWarn bearing sector).pixel repy repx =
      sectorPixel tempWarn (radarColor sector) sector.radius bearing.i (bearing.octant.x repx)
        (599 - repy) (bearing.octant.temp (bearing.octant.x repx) (599 - repy)) := by
  have inner : ¬ OuterRing (bearing.octant.x repx) (599 - (repy : Int)) := by
    rw [OuterRing, bearing.octant.disc_x]
    omega
  simp only [sectorPass, if_neg inner]

def serverSectors (ptr : Fin 70 → Int) : List (Pass Color) :=
  rightBearings.map (bearingPass (warnValOf ptr) (copySlots ptr)) ++
    [centreColumn] ++
      leftBearings.map (bearingPass (warnValOf ptr) (copySlots ptr))

theorem radarPasses_eq (ptr : Fin 70 → Int) :
    radarPasses ptr =
      [outerRingPass, backgroundPass (warnValOf ptr * 2)] ++ serverSectors ptr := by
  simp only [radarPasses, serverSectors, List.append_assoc]

/-- What holds of the rings, of the centre column and of every sector. -/
theorem radarPasses_forall {ptr : Fin 70 → Int} {Property : Pass Color → Prop}
    (outerRing : Property outerRingPass)
    (background : Property (backgroundPass (warnValOf ptr * 2)))
    (column : Property centreColumn)
    (sectors : ∀ bearing ∈ radarBearings,
      Property (bearingPass (warnValOf ptr) (copySlots ptr) bearing)) :
    ∀ pass ∈ radarPasses ptr, Property pass := by
  intro pass member
  rw [radarPasses_eq, serverSectors, List.mem_append, List.mem_append, List.mem_append,
    List.mem_pair, List.mem_singleton, List.mem_map, List.mem_map] at member
  rcases member with (isRing | isBackground) | (⟨bearing, right, isSector⟩ | isColumn) |
    ⟨bearing, left, isSector⟩
  · exact isRing ▸ outerRing
  · exact isBackground ▸ background
  · exact isSector ▸ sectors bearing (List.take_subset 31 radarBearings right)
  · exact isColumn ▸ column
  · exact isSector ▸ sectors bearing (List.drop_subset 31 radarBearings left)

theorem bearingPass_mem (ptr : Fin 70 → Int) {bearing : Bearing}
    (member : bearing ∈ radarBearings) :
    bearingPass (warnValOf ptr) (copySlots ptr) bearing ∈ radarPasses ptr := by
  rw [← right_append_left, List.mem_append] at member
  rw [radarPasses_eq, serverSectors]
  apply List.mem_append_right
  rcases member with right | left
  · exact List.mem_append_left _ (List.mem_append_left _ (List.mem_map_of_mem right))
  · exact List.mem_append_right _ (List.mem_map_of_mem left)

theorem radarPasses_columns (ptr : Fin 70 → Int) :
    ∀ pass ∈ radarPasses ptr, ∀ column ∈ pass.columns, column < 1024 := by
  apply radarPasses_forall
  · intro column inPass
    simp only [outerRingPass, List.mem_range'_1] at inPass
    omega
  · intro column inPass
    simp only [backgroundPass, List.mem_range'_1] at inPass
    omega
  · intro column inPass
    simp only [centreColumn, columnPass, List.mem_singleton] at inPass
    omega
  · intro bearing _ column inPass
    exact octant_columns_lt bearing.octant inPass

theorem server_column_eq (ptr : Fin 70 → Int) (repy : Nat) (old : Color) :
    overlay (serverSectors ptr) repy 512 old =
      (centreColumn.writes repy 512).getD old := by
  have untouched : ∀ (bearings : List Bearing),
      ∀ pass ∈ bearings.map (bearingPass (warnValOf ptr) (copySlots ptr)),
        pass.writes repy 512 = none := by
    intro bearings pass member
    rcases List.mem_map.mp member with ⟨bearing, -, sector⟩
    subst sector
    apply Pass.writes_of_notMem
    simp only [bearingPass, sectorPass]
    exact .inr (centre_notMem_columns bearing.octant)
  rw [serverSectors, overlay_append, overlay_append, overlay_of_forall_none (untouched _),
    overlay_of_forall_none (untouched _), overlay, List.foldl_cons, List.foldl_nil]

theorem server_column (ptr : Fin 70 → Int) {repy : Nat} (rows : 100 ≤ repy) (bottom : repy ≤ 599)
    (old : Color) : overlay (radarPasses ptr) repy 512 old = white := by
  rw [radarPasses_eq, overlay_append, server_column_eq,
    centreColumn_writes rows bottom, Option.getD_some]

/-- A warn line that can be set: 10, 20, ..., 250. -/
def WarnValue (warnVal : Int) : Prop :=
  ∃ steps : Int, 1 ≤ steps ∧ steps ≤ 25 ∧ warnVal = 10 * steps

theorem top_untouched {ptr : Fin 70 → Int} (warnLine : WarnValue (warnValOf ptr)) :
    ∀ pass ∈ radarPasses ptr, pass.writes 99 512 = none := by
  have top : (599 : Int) - ((99 : Nat) : Int) = 500 := by decide
  have edge : ¬ OuterRing 0 500 := by decide
  have inDisc : disc 0 500 ≤ 250000 := by decide
  have offRing : ¬ WarnRing (warnValOf ptr * 2) 0 500 := by
    rcases warnLine with ⟨steps, positive, bounded, value⟩
    have distance : disc 0 500 = 250000 := by decide
    rw [WarnRing, distance]
    intro ring
    rcases le_or_gt steps 24 with low | high
    · have := ring.1
      nlinarith
    · have := ring.2
      nlinarith
  apply radarPasses_forall
  · rw [Pass.writes]
    simp only [outerRingPass, centreColumn_x, top, if_neg edge, ite_self]
  · rw [Pass.writes]
    simp only [backgroundPass, centreColumn_x, top, if_neg edge, if_pos inDisc, if_neg offRing,
      ite_self]
  · apply Pass.writes_of_notMem
    left
    intro row
    rw [mem_centreColumn_rows] at row
    omega
  · intro bearing _
    exact Pass.writes_of_notMem _ (.inr (centre_notMem_columns bearing.octant))

/-- Off the centre column the sectors are painted as if in one go. -/
theorem serverSectors_offCentre (ptr : Fin 70 → Int) {repx repy : Nat} (offCentre : repx ≠ 512)
    (old : Color) :
    overlay (serverSectors ptr) repy repx old =
      overlay (radarBearings.map (bearingPass (warnValOf ptr) (copySlots ptr))) repy repx old := by
  have column : ∀ color, overlay [centreColumn] repy repx color = color :=
    overlay_of_forall_none (by simp [centreColumn, column_writes repy offCentre])
  rw [serverSectors, overlay_append, overlay_append, column, ← overlay_append, ← List.map_append,
    right_append_left]

theorem makeRadar_apply {xres : Nat} (wide : 1024 ≤ xres) (ptr : Fin 70 → Int)
    (pfbdata : FrameBuffer Color) {repx repy : Nat} (inside : repx < xres) :
    (makeRadar xres ptr pfbdata).pfbdata (repy * xres + repx) =
      overlay (radarPasses ptr) repy repx (pfbdata (repy * xres + repx)) := by
  rw [(makeRadar_eq _ _ _).2]
  apply paintAll_apply _ inside
  intro pass member column inPass
  have := radarPasses_columns ptr pass member column inPass
  omega

/-! ## The last sector of a pixel -/

/-- The slot that the sector numbered `i` of an octant shows. -/
def sectorSlot : Octant → Nat → Nat
  | .rightLower, i => i
  | .rightUpper, i => 31 - i
  | .leftUpper, i => 30 + i
  | .leftLower, i => 61 - i

/-- The passes but for the first, which only goes over the lowest row of the second. -/
def sectorBearings : List Bearing := radarBearings.tail

theorem radarBearings_cons : radarBearings = ⟨.rightLower, 0, 0⟩ :: sectorBearings := rfl

theorem mem_sectorBearings (octant : Octant) (i : Fin 16) (positive : 0 < i.val) :
    ⟨octant, i.val, sectorSlot octant i.val⟩ ∈ sectorBearings := by
  revert i
  cases octant <;> decide

theorem sectorBearings_shape :
    ∀ bearing ∈ sectorBearings, 1 ≤ bearing.i ∧ bearing.i ≤ 15 ∧
      bearing.slot = sectorSlot bearing.octant bearing.i := by
  decide

/-- The pass that goes over a pixel last. -/
def painter (x y : Int) : Option Bearing :=
  sectorBearings.reverse.find? fun bearing => bearing.InSector x y

theorem exists_painter {x y : Int} (offCentre : x ≠ 0) (above : 0 ≤ y) :
    ∃ bearing, painter x y = some bearing := by
  rcases exists_inSector offCentre above with ⟨octant, holds, i, positive, wedge⟩
  apply Option.isSome_iff_exists.mp
  apply List.find?_isSome.mpr
  refine ⟨_, List.mem_reverse.mpr (mem_sectorBearings octant i positive), ?_⟩
  exact decide_eq_true ⟨holds, wedge⟩

theorem painter_some {x y : Int} {bearing : Bearing} (found : painter x y = some bearing) :
    bearing ∈ sectorBearings ∧ bearing.InSector x y := by
  rw [painter] at found
  have holds := List.find?_some found
  exact ⟨List.mem_reverse.mp (List.mem_of_find?_eq_some found), of_decide_eq_true holds⟩

theorem radarBearings_find {x y : Int} {bearing : Bearing} (found : painter x y = some bearing) :
    radarBearings.reverse.find? (fun bearing => bearing.InSector x y) = some bearing := by
  rw [radarBearings_cons, List.reverse_cons, List.find?_append]
  rw [painter] at found
  rw [found, Option.some_or]

/-! ## What is painted -/

theorem holds_columns {octant : Octant} {repx : Nat} {y : Int} (near : |(repx : Int) - 512| ≤ 500)
    (holds : octant.Holds (repx - 512) y) : repx ∈ octant.columns := by
  have bounds := abs_le.mp near
  cases octant <;> rw [Octant.columns, List.mem_range'_1] <;> have side := holds.1 <;> omega

theorem columns_x {octant : Octant} {repx : Nat} (column : repx ∈ octant.columns) :
    octant.x repx = |(repx : Int) - 512| := by
  cases octant <;> rw [Octant.columns, List.mem_range'_1] at column <;> rw [Octant.x]
  · exact (abs_of_pos (by omega)).symm
  · exact (abs_of_pos (by omega)).symm
  · rw [neg_one_mul, abs_of_neg (by omega)]
  · rw [neg_one_mul, abs_of_neg (by omega)]

/-- The rows of an octant are those above the axis, and the wedges end at the
diagonal, so the pass reaches just the pixels of its octant. -/
theorem wedge_holds {bearing : Bearing} {repx repy : Nat} (rows : repy ≤ 599)
    (near : |(repx : Int) - 512| ≤ 500) (low : 599 - (repy : Int) ≤ 499)
    (offCentre : repx ≠ 512) (row : repy ∈ rowsDown (firstRow bearing.octant) 100)
    (column : repx ∈ bearing.octant.columns)
    (wedge : Wedge bearing.i (bearing.octant.temp |(repx : Int) - 512| (599 - repy))) :
    bearing.octant.Holds (repx - 512) (599 - repy) := by
  have away : (1 : Int) ≤ |(repx : Int) - 512| := Int.one_le_abs (by omega)
  cases octant : bearing.octant <;> rw [octant] at row column wedge <;>
    rw [mem_rowsDown, firstRow] at row <;>
    rw [Octant.columns, List.mem_range'_1] at column
  · exact ⟨by omega, wedge.below_diagonal (by omega) away near⟩
  · exact ⟨by omega, wedge.below_diagonal (by omega) (by omega) (by omega)⟩
  · exact ⟨by omega, wedge.below_diagonal (by omega) (by omega) (by omega)⟩
  · exact ⟨by omega, wedge.below_diagonal (by omega) away near⟩

theorem rows_le {octant : Octant} {repy : Nat} (row : repy ∈ rowsDown (firstRow octant) 100) :
    repy ≤ 599 := by
  cases octant <;> rw [firstRow, mem_rowsDown] at row <;> omega

theorem holds_rows {octant : Octant} {repx repy : Nat} (rows : repy ≤ 599)
    (low : 599 - (repy : Int) ≤ 499) (offCentre : repx ≠ 512)
    (holds : octant.Holds (repx - 512) (599 - repy)) :
    repy ∈ rowsDown (firstRow octant) 100 := by
  have away : (1 : Int) ≤ |(repx : Int) - 512| := Int.one_le_abs (by omega)
  cases octant <;> rw [mem_rowsDown, firstRow] <;> have half := holds.2 <;> omega

/-- Off the figures a pass paints its sector and nothing else. -/
theorem sectorPass_writes (tempWarn : Int) (bearing : Bearing) (sector : Sector) (repx repy : Nat)
    (rows : repy ≤ 599) (offCentre : repx ≠ 512)
    (inDisc : disc ((repx : Int) - 512) (599 - (repy : Int)) ≤ 250000)
    (offRing : ¬ WarnRing tempWarn ((repx : Int) - 512) (599 - repy))
    (offFigure : ¬ OnFigure |(repx : Int) - 512| (599 - repy)) :
    (sectorPass tempWarn bearing sector).writes repy repx =
      if bearing.InSector (repx - 512) (599 - repy) then
        some (sectorColor (radarColor sector) sector.radius (disc (repx - 512) (599 - repy)))
      else none := by
  have away : (repx : Int) - 512 ≠ 0 := by omega
  rw [WarnRing, ← disc_abs] at offRing
  rcases disc_bounds inDisc away with ⟨near, low⟩
  by_cases reached : repy ∈ rowsDown (firstRow bearing.octant) 100 ∧ repx ∈ bearing.octant.columns
  · have inSquare : disc ((repx : Int) - 512) (599 - (repy : Int)) ≤ 500 * 500 := inDisc
    have wedges : Wedge bearing.i (bearing.octant.temp |(repx : Int) - 512| (599 - repy)) ↔
        bearing.InSector (repx - 512) (599 - repy) :=
      ⟨fun wedge => ⟨wedge_holds rows near low offCentre reached.1 reached.2 wedge, wedge⟩,
        fun inside => inside.2⟩
    rw [Pass.writes_of_mem _ reached.1 reached.2, sectorPass_pixel tempWarn bearing sector inDisc,
      columns_x reached.2, sectorPixel_plain offRing offFigure, disc_abs]
    simp only [wedges, inSquare, or_true, and_true]
  · have outside : ¬ bearing.InSector (repx - 512) (599 - repy) := fun inside =>
      reached ⟨holds_rows rows low offCentre inside.1, holds_columns near inside.1⟩
    rw [if_neg outside]
    exact Pass.writes_of_notMem _ (not_and_or.mp reached)

/-- The place of the pixel `x` to the right of the centre and `y` above it. -/
def pixelAt (xres : Nat) (x y : Int) : Nat :=
  (599 - y).toNat * xres + (x + 512).toNat

/-- Off the figures the colour of a pixel is that of the last sector that holds it. -/
theorem makeRadar_plain {xres : Nat} (wide : 1024 ≤ xres) (ptr : Fin 70 → Int)
    (pfbdata : FrameBuffer Color) {x y : Int} (offCentre : x ≠ 0) (above : 0 ≤ y)
    (inDisc : disc x y ≤ 250000) (offRing : ¬ WarnRing (warnValOf ptr * 2) x y)
    (offFigure : ¬ OnFigure |x| y) {bearing : Bearing} (found : painter x y = some bearing) :
    (makeRadar xres ptr pfbdata).pfbdata (pixelAt xres x y) =
      sectorColor (radarColor (radarSector (warnValOf ptr) (copySlots ptr bearing.slot)))
        ((copySlots ptr bearing.slot - 1) * 2) (disc x y) := by
  rcases disc_bounds inDisc offCentre with ⟨near, low⟩
  have bounds := abs_le.mp near
  have column : (((x + 512).toNat : Nat) : Int) - 512 = x := by omega
  have row : 599 - (((599 - y).toNat : Nat) : Int) = y := by omega
  have writes : ∀ bearing ∈ radarBearings,
      (bearingPass (warnValOf ptr) (copySlots ptr) bearing).writes (599 - y).toNat (x + 512).toNat =
        if bearing.InSector x y then
          some (sectorColor (radarColor (radarSector (warnValOf ptr) (copySlots ptr bearing.slot)))
            ((copySlots ptr bearing.slot - 1) * 2) (disc x y))
        else none := by
    intro bearing _
    have painted := sectorPass_writes (warnValOf ptr * 2) bearing
      (radarSector (warnValOf ptr) (copySlots ptr bearing.slot)) (x + 512).toNat (599 - y).toNat
      (by omega) (by omega)
    rw [column, row] at painted
    exact painted inDisc offRing offFigure
  rw [pixelAt, makeRadar_apply wide ptr pfbdata (by omega), radarPasses_eq, overlay_append,
    serverSectors_offCentre ptr (by omega), overlay_map radarBearings writes,
    radarBearings_find found, Option.map_some, Option.getD_some]

/-! ## The pixel specification -/

/-- The slope of a pixel against the nearer axis, times 10000. -/
def slope (x y : Int) : Int :=
  10000 * min |x| y / max |x| y

theorem temp_eq_slope {octant : Octant} {x y : Int} (above : 0 ≤ y)
    (holds : octant.Holds x y) : octant.temp |x| y = slope x y := by
  have nonneg := abs_nonneg x
  rw [slope, Int.mul_comm]
  cases octant <;> have half := holds.2 <;>
    rw [Octant.temp, Int.tdiv_eq_ediv_of_nonneg (by omega)]
  · rw [min_eq_right half, max_eq_left half]
  · rw [min_eq_left half, max_eq_right half]
  · rw [min_eq_left half, max_eq_right half]
  · rw [min_eq_right half, max_eq_left half]

/-- The colour of every pixel off the figures is decided by a sector of its octant whose
borders enclose its slope: black beyond the reading of the sector, and up to it red or
green by the warn line. -/
theorem makeRadar_pixel {xres : Nat} (wide : 1024 ≤ xres) (ptr : Fin 70 → Int)
    (pfbdata : FrameBuffer Color) {x y : Int} (offCentre : x ≠ 0) (above : 0 ≤ y)
    (inDisc : disc x y ≤ 250000) (offRing : ¬ WarnRing (warnValOf ptr * 2) x y)
    (offFigure : ¬ OnFigure |x| y) :
    ∃ octant i, octant.Holds x y ∧ 1 ≤ i ∧ i ≤ 15 ∧
      tanList.getD (i - 1) 0 ≤ slope x y ∧ slope x y ≤ tanList.getD i 0 ∧
      (makeRadar xres ptr pfbdata).pfbdata (pixelAt xres x y) =
        if disc x y > (2 * (copySlots ptr (sectorSlot octant i) - 1)) ^ 2 then black
        else if copySlots ptr (sectorSlot octant i) - 1 < warnValOf ptr then red
        else green := by
  rcases exists_painter offCentre above with ⟨⟨octant, i, slot⟩, found⟩
  rcases painter_some found with ⟨member, holds, wedge⟩
  rcases sectorBearings_shape _ member with ⟨positive, small, isSlot⟩
  dsimp only at holds wedge positive small isSlot
  rw [Wedge, if_neg (by omega), temp_eq_slope above holds] at wedge
  refine ⟨octant, i, holds, positive, small, wedge.2, wedge.1, ?_⟩
  rw [makeRadar_plain wide ptr pfbdata offCentre above inDisc offRing offFigure found, ← isSlot,
    sectorColor, radarColor, radarSector, sq, Int.mul_comm 2]
  by_cases near : disc x y ≤ (copySlots ptr slot - 1) * 2 * ((copySlots ptr slot - 1) * 2)
  · rw [if_pos near, if_neg (not_lt.mpr near)]
    simp only [decide_eq_true_eq]
  · rw [if_neg near, if_pos (not_le.mp near)]

/-! ## Frames -/

/-- A frame that the client can send: accepted readings, each stored as one more, and a
warn line that can be set. -/
structure SentFrame (ptr : Fin 70 → Int) : Prop where
  slots : ∀ slot < 61, 1 ≤ copySlots ptr slot ∧ copySlots ptr slot ≤ 251
  warnLine : WarnValue (warnValOf ptr)

/-- Every reading at 100 and the warn line at 50. -/
def evenFrame : Fin 70 → Int := fun k => if k = 67 then 50 else 101

theorem makeRadar_pixel_evenFrame :
    ∃ octant i, octant.Holds 20 5 ∧ 1 ≤ i ∧ i ≤ 15 ∧
      tanList.getD (i - 1) 0 ≤ slope 20 5 ∧ slope 20 5 ≤ tanList.getD i 0 ∧
      (makeRadar 1024 evenFrame fun _ => black).pfbdata (pixelAt 1024 20 5) =
        if disc 20 5 > (2 * (copySlots evenFrame (sectorSlot octant i) - 1)) ^ 2 then black
        else if copySlots evenFrame (sectorSlot octant i) - 1 < warnValOf evenFrame then red
        else green :=
  makeRadar_pixel (by decide) _ _ (by decide) (by decide) (by decide) (by decide) (by decide)

end GamZ.Server
