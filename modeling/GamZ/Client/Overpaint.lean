import GamZ.Client.Footprints
import GamZ.Server.RadarPixels

/-! # What stays on the client's screen

The half-sweep back paints over the one there, and the next cycle repaints the half disc.
Only what lies beyond the half disc can stay. -/

namespace GamZ.Client

open CString Raster
open Server (holds_columns columns_x)

/-! ## The passes of a half-sweep -/

section Passes

variable {direction : Direction} {warnVal : Byte} {readings : Fin 61 → Reading}

theorem measurePass_mem (k : Fin 61) :
    direction.measurePass warnVal (direction.bearingAt k, readings k) ∈
      direction.drawnPasses warnVal readings := by
  have occurs : k.val < (direction.passes readings).length := by simp
  have member : (direction.bearingAt k, readings k) ∈ direction.passes readings := by
    rw [← passes_getElem direction readings k occurs]
    exact List.getElem_mem occurs
  rw [← List.take_append_drop 31 (direction.passes readings), List.mem_append] at member
  rcases member with first | second
  · exact List.mem_append_left _ (List.mem_append_left _ (List.mem_map_of_mem first))
  · exact List.mem_append_right _ (List.mem_map_of_mem second)

/-- What holds of the centre column and of every sector. -/
theorem drawnPasses_forall {Property : Pass Color → Prop} (column : Property centreColumn)
    (sectors : ∀ pass, Property (direction.measurePass warnVal pass)) :
    ∀ pass ∈ direction.drawnPasses warnVal readings, Property pass := by
  intro pass member
  rw [Direction.drawnPasses, List.mem_append, List.mem_append, List.mem_singleton, List.mem_map,
    List.mem_map] at member
  rcases member with (⟨measured, -, isPass⟩ | isColumn) | ⟨measured, -, isPass⟩
  · exact isPass ▸ sectors measured
  · exact isColumn ▸ column
  · exact isPass ▸ sectors measured

/-- Where no sector shows its reading, the readings do not matter. -/
theorem drawnPasses_congr {repy repx : Nat} (readings other : Fin 61 → Reading)
    (same : ∀ bearing reading shown,
      (direction.measurePass warnVal (bearing, reading)).writes repy repx =
        (direction.measurePass warnVal (bearing, shown)).writes repy repx) :
    (direction.drawnPasses warnVal readings).map (fun pass => pass.writes repy repx) =
      (direction.drawnPasses warnVal other).map fun pass => pass.writes repy repx := by
  have sectors : (direction.passes readings).map
        (fun pass => (direction.measurePass warnVal pass).writes repy repx) =
      (direction.passes other).map
        fun pass => (direction.measurePass warnVal pass).writes repy repx := by
    apply List.ext_getElem
    · simp
    · intro k inFirst inSecond
      have small : k < 61 := by simpa using inFirst
      have inPasses : ∀ shown : Fin 61 → Reading, k < (direction.passes shown).length := by
        simpa using small
      rw [List.getElem_map, List.getElem_map,
        passes_getElem direction readings ⟨k, small⟩ (inPasses readings),
        passes_getElem direction other ⟨k, small⟩ (inPasses other)]
      exact same _ _ _
  simp only [Direction.drawnPasses, List.map_append, List.map_map, List.map_take, List.map_drop]
  have asMap : ∀ shown : Fin 61 → Reading,
      (direction.passes shown).map
          ((fun pass => pass.writes repy repx) ∘ direction.measurePass warnVal) =
        (direction.passes shown).map
          fun pass => (direction.measurePass warnVal pass).writes repy repx := fun _ => rfl
  rw [asMap, asMap, sectors]

end Passes

/-! ## Sectors at a pixel -/

/-- Beyond the half disc a sector shows nothing but the warn ring. -/
theorem sectorPixel_beyond {tempWarn radius x y temp : Int} {color : Color} {i : Nat}
    (beyond : 250000 < disc x y) (short : 0 ≤ radius ∧ radius ≤ 500) :
    sectorPixel tempWarn color radius i x y temp =
      if WarnRing tempWarn x y then some yellow else none := by
  have outside : ¬ disc x y ≤ 500 * 500 := by omega
  have tooFar : ¬ disc x y ≤ radius * radius := by
    have bound : radius * radius ≤ 500 * 500 := by
      apply mul_le_mul short.2 short.2 <;> omega
    omega
  have noRange : ∀ range ∈ [100, 200, 300, 400], ¬ RangeRing range x y := by
    intro range member onRange
    have near := onRange.1
    simp only [List.mem_cons, List.not_mem_nil, or_false] at member
    rcases member with isFirst | isSecond | isThird | isFourth <;> subst_vars <;> omega
  rw [sectorPixel, if_neg outside, if_neg tooFar, if_neg (noRange 100 (by simp)),
    if_neg (noRange 200 (by simp)), if_neg (noRange 300 (by simp)), if_neg (noRange 400 (by simp))]
  split_ifs <;> rfl

section Pixel

variable (direction : Direction) (warnVal : Byte) {repx repy : Nat}

/-- Beyond the half disc a pass does not show its reading. -/
theorem measurePass_beyond (beyond : 250000 < disc ((repx : Int) - 512) (599 - repy))
    (bearing : Bearing) (reading : Reading) :
    (direction.measurePass warnVal (bearing, reading)).writes repy repx =
      if (repy ∈ rowsDown (firstRow bearing.octant) 100 ∧ repx ∈ bearing.octant.columns) ∧
          WarnRing (warnVal.toNat * 2) (repx - 512) (599 - repy) then some yellow
      else none := by
  have far : 250000 < disc (bearing.octant.x repx) (599 - repy) := by
    rw [bearing.octant.disc_x]
    exact beyond
  have short : 0 ≤ (sectorOf warnVal reading).radius ∧ (sectorOf warnVal reading).radius ≤ 500 := by
    rw [sectorOf]
    dsimp only
    omega
  simp only [Pass.writes, Direction.measurePass, Direction.sectorPass,
    sectorPixel_beyond far short, WarnRing, bearing.octant.disc_x]
  split_ifs <;> tauto

/-- The centre column and the lowest row of the left side belong to no sector. -/
theorem measurePass_outside
    (outside : repx = 512 ∨ 599 < repy ∨ repx < 512 ∧ 598 < repy) (pass : Bearing × Reading) :
    (direction.measurePass warnVal pass).writes repy repx = none := by
  apply Pass.writes_of_notMem
  simp only [Direction.measurePass, Direction.sectorPass]
  cases pass.1.octant <;> rw [mem_rowsDown, Octant.columns, List.mem_range'_1, firstRow] <;> omega

/-- Every other pixel of the half disc is painted by some sector. -/
theorem exists_painting_pass (readings : Fin 61 → Reading) (rows : repy ≤ 599)
    (inDisc : disc ((repx : Int) - 512) (599 - (repy : Int)) ≤ 250000)
    (side : 512 < repx ∨ repx < 512 ∧ repy ≤ 598) :
    ∃ pass ∈ direction.drawnPasses warnVal readings, pass.writes repy repx ≠ none := by
  have away : (repx : Int) - 512 ≠ 0 := by omega
  have above : 0 ≤ 599 - (repy : Int) := by omega
  rcases disc_bounds inDisc away with ⟨near, low⟩
  rcases exists_inSector away above with ⟨octant, holds, i, positive, wedge⟩
  have column := holds_columns near holds
  have wideEnough : (1 : Int) ≤ |(repx : Int) - 512| := Int.one_le_abs away
  have row : repy ∈ rowsDown (firstRow octant) 100 := by
    cases octant <;> rw [Octant.columns, List.mem_range'_1] at column <;>
      rw [mem_rowsDown, firstRow] <;> have half := holds.2 <;> omega
  rw [← columns_x column] at wedge
  have small := direction.readingOf_lt octant i positive
  rcases direction.bearingAt_readingOf octant i positive small with ⟨atOctant, atRow⟩
  refine ⟨_, measurePass_mem ⟨_, small⟩, ?_⟩
  rw [Pass.writes, if_pos]
  · simp only [Direction.measurePass, Direction.sectorPass, atOctant, atRow]
    apply sectorPixel_ne_none _ wedge
    rw [octant.disc_x]
    exact inDisc
  · simp only [Direction.measurePass, Direction.sectorPass, atOctant]
    exact ⟨row, column⟩

end Pixel

/-! ## Cycles -/

theorem repaintPass_covers (warnVal : Byte) {repx repy : Nat} (columns : repx < 1024)
    (rows : repy ≤ 599)
    (inDisc : disc ((repx : Int) - 512) (599 - (repy : Int)) ≤ 250000) :
    (repaintPass warnVal).writes repy repx ≠ none := by
  have inSquare : disc ((repx : Int) - 512) (599 - (repy : Int)) ≤ 500 * 500 := inDisc
  rw [Pass.writes_of_mem]
  · simp only [repaintPass, if_pos inDisc, if_pos inSquare]
    split_ifs <;> exact Option.some_ne_none _
  · simp only [repaintPass]
    rw [mem_rowsDown]
    omega
  · simp only [repaintPass, List.mem_range'_1]
    omega

/-- Which pixels are repainted does not depend on the warn line. -/
theorem repaintPass_same_reach {warnVal : Byte} (other : Byte) {repx repy : Nat}
    (written : (repaintPass warnVal).writes repy repx ≠ none) :
    (repaintPass other).writes repy repx ≠ none := by
  have reached := Pass.mem_of_writes written
  rw [Pass.writes_of_mem _ reached.1 reached.2] at written
  simp only [repaintPass, mem_rowsDown, List.mem_range'_1] at reached
  apply repaintPass_covers other (by omega) (by omega)
  by_contra beyond
  exact written (if_neg beyond)

theorem passes_columns (cycle : Cycle) :
    ∀ pass ∈ cycle.passes, ∀ column ∈ pass.columns, column < 1024 := by
  have half : ∀ (direction : Direction) (readings : Fin 61 → Reading),
      ∀ pass ∈ direction.drawnPasses cycle.warnVal readings, ∀ column ∈ pass.columns,
        column < 1024 := by
    intro direction readings
    apply drawnPasses_forall
    · intro column inPass
      simp only [centreColumn, columnPass, List.mem_singleton] at inPass
      omega
    · intro pass column inPass
      exact octant_columns_lt pass.1.octant inPass
  intro pass member
  rw [Cycle.passes, List.mem_append, List.mem_append, List.mem_singleton] at member
  rcases member with (isRepaint | there) | back
  · intro column inPass
    simp only [isRepaint, repaintPass, List.mem_range'_1] at inPass
    omega
  · exact half .forward cycle.there pass there
  · exact half .back cycle.back pass back

/-- At every index a cycle is the overlay of its passes. -/
theorem cycle_pixel {xres : Nat} (wide : 1024 ≤ xres) (state : RadarState) (cycle : Cycle)
    {repx : Nat} (inRow : repx < xres) (repy : Nat) :
    (state.cycle xres cycle).1.pfbdata (repy * xres + repx) =
      overlay cycle.passes repy repx (state.pfbdata (repy * xres + repx)) := by
  rw [cycle_pfbdata]
  apply paintAll_apply _ inRow
  intro pass member column inPass
  exact lt_of_lt_of_le (passes_columns cycle pass member column inPass) wide

/-- A picture is known from its rows and columns. -/
theorem picture_ext {xres : Nat} (positive : 0 < xres) {first second : FrameBuffer Color}
    (same : ∀ repy repx, repx < xres → first (repy * xres + repx) = second (repy * xres + repx)) :
    first = second := by
  funext index
  have pixel := same (index / xres) (index % xres) (Nat.mod_lt index positive)
  rwa [Nat.div_add_mod'] at pixel

/-- The picture at the end of a cycle is that of the half-sweep back. What the half-sweep
there has measured leaves no trace. -/
theorem cycle_forgets_forward {xres : Nat} (wide : 1024 ≤ xres) (state : RadarState)
    (warnVal : Byte) (there other back : Fin 61 → Reading) :
    (state.cycle xres ⟨warnVal, there, back⟩).1.pfbdata =
      (state.cycle xres ⟨warnVal, other, back⟩).1.pfbdata := by
  have positive : 0 < xres := by omega
  apply picture_ext positive
  intro repy repx inRow
  rw [cycle_pixel wide state _ inRow, cycle_pixel wide state _ inRow, Cycle.passes, Cycle.passes]
  by_cases painted : repy ≤ 599 ∧ disc ((repx : Int) - 512) (599 - (repy : Int)) ≤ 250000 ∧
      (512 < repx ∨ repx < 512 ∧ repy ≤ 598)
  · rcases painted with ⟨rows, inDisc, side⟩
    rcases exists_painting_pass .back warnVal back rows inDisc side with ⟨pass, member, covers⟩
    have forgets : ∀ earlier : List (Pass Color), ∀ old : Color,
        overlay (earlier ++ Direction.back.drawnPasses warnVal back) repy repx old =
          overlay (Direction.back.drawnPasses warnVal back) repy repx old := by
      intro earlier old
      rw [overlay_append]
      exact overlay_of_covered member covers _ _
    rw [forgets, forgets]
  · have unread : ∀ bearing reading shown,
        (Direction.forward.measurePass warnVal (bearing, reading)).writes repy repx =
          (Direction.forward.measurePass warnVal (bearing, shown)).writes repy repx := by
      intro bearing reading shown
      rcases lt_or_ge 250000 (disc ((repx : Int) - 512) (599 - (repy : Int))) with beyond | inDisc
      · rw [measurePass_beyond .forward warnVal beyond, measurePass_beyond .forward warnVal beyond]
      · have outside : repx = 512 ∨ 599 < repy ∨ repx < 512 ∧ 598 < repy := by omega
        rw [measurePass_outside .forward warnVal outside,
          measurePass_outside .forward warnVal outside]
    have sameForward := drawnPasses_congr there other unread
    apply overlay_congr
    simp only [List.map_append, sameForward]

/-- An object that is gone when the sweep comes back. -/
theorem gone_object_forgotten :
    (RadarState.initial.cycle 1024 ⟨20, fun _ => 10, fun _ => 250⟩).1.pfbdata =
      (RadarState.initial.cycle 1024 ⟨20, fun _ => 250, fun _ => 250⟩).1.pfbdata :=
  cycle_forgets_forward (Nat.le_refl 1024) .initial 20 (fun _ => 10) (fun _ => 250) fun _ => 250

/-! ## Beyond the half disc -/

/-- The warn line is one that the panel sets. -/
def Cycle.OnScale (cycle : Cycle) : Prop :=
  10 ∣ cycle.warnVal.toNat ∧ cycle.warnVal.toNat ≤ 250

instance (cycle : Cycle) : Decidable cycle.OnScale :=
  inferInstanceAs (Decidable (10 ∣ cycle.warnVal.toNat ∧ cycle.warnVal.toNat ≤ 250))

/-- The pixel is in the widest warn ring, which lies around the half disc, and in reach of
a sector. -/
def InWidestRing (repy repx : Nat) : Prop :=
  WarnRing 500 ((repx : Int) - 512) (599 - repy) ∧
    ∃ octant : Octant, repy ∈ rowsDown (firstRow octant) 100 ∧ repx ∈ octant.columns

section Beyond

variable {cycle : Cycle} {repx repy : Nat}

/-- Only the widest warn ring lies around the half disc. -/
theorem Cycle.OnScale.highest (onScale : cycle.OnScale) {x y : Int} (beyond : 250000 < disc x y)
    (onRing : WarnRing (cycle.warnVal.toNat * 2) x y) : cycle.warnVal = 250 := by
  rcases onScale with ⟨tens, high⟩
  have wide : 245 < cycle.warnVal.toNat := by
    by_contra low
    have near := onRing.1
    have bound : ((cycle.warnVal.toNat * 2 + 10 : Int) * (cycle.warnVal.toNat * 2 + 10)) ≤
        500 * 500 := by
      apply mul_le_mul <;> omega
    omega
  apply UInt8.toNat_inj.mp
  have value : cycle.warnVal.toNat = 250 := by omega
  exact value

/-- Where the repaint does not reach, a cycle writes nothing but the widest warn ring. -/
theorem passes_beyond (onScale : cycle.OnScale)
    (unpainted : (repaintPass cycle.warnVal).writes repy repx = none) :
    ∀ pass ∈ cycle.passes, pass.writes repy repx ≠ none →
      pass.writes repy repx = some yellow ∧ cycle.warnVal = 250 ∧ InWidestRing repy repx := by
  have half : ∀ (direction : Direction) (readings : Fin 61 → Reading),
      ∀ pass ∈ direction.drawnPasses cycle.warnVal readings, pass.writes repy repx ≠ none →
        pass.writes repy repx = some yellow ∧ cycle.warnVal = 250 ∧ InWidestRing repy repx := by
    intro direction readings
    apply drawnPasses_forall
    · intro written
      have reached := Pass.mem_of_writes written
      simp only [centreColumn, columnPass, mem_rowsDown, List.mem_singleton] at reached
      rcases reached with ⟨⟨top, rows⟩, isCentre⟩
      subst isCentre
      refine absurd unpainted (repaintPass_covers _ (by decide) rows ?_)
      have tall : (599 - repy : Int) * (599 - repy) ≤ 498 * 498 := by
        apply mul_le_mul <;> omega
      rw [centreColumn_x, disc]
      omega
    · intro pass written
      have reached := Pass.mem_of_writes written
      simp only [Direction.measurePass, Direction.sectorPass] at reached
      have columns := octant_columns_lt pass.1.octant reached.2
      have rows : repy ≤ 599 := by
        have row := reached.1
        cases octant : pass.1.octant <;> rw [octant, firstRow, mem_rowsDown] at row <;> omega
      have beyond : 250000 < disc ((repx : Int) - 512) (599 - repy) := by
        by_contra inDisc
        exact repaintPass_covers _ columns rows (not_lt.mp inDisc) unpainted
      have pixel := measurePass_beyond direction cycle.warnVal beyond pass.1 pass.2
      by_cases onRing : WarnRing (cycle.warnVal.toNat * 2) ((repx : Int) - 512) (599 - repy)
      · rw [if_pos ⟨reached, onRing⟩] at pixel
        have highest := onScale.highest beyond onRing
        rw [highest] at onRing
        exact ⟨pixel, highest, onRing, pass.1.octant, reached⟩
      · rw [if_neg fun drawn => onRing drawn.2] at pixel
        exact absurd pixel written
  intro pass member written
  rw [Cycle.passes, List.mem_append, List.mem_append, List.mem_singleton] at member
  rcases member with (isRepaint | there) | back
  · rw [isRepaint] at written
    exact absurd unpainted written
  · exact half .forward cycle.there pass there written
  · exact half .back cycle.back pass back written

/-- With the warn line at its highest a cycle draws all of the widest ring. -/
theorem widestRing_drawn (highest : cycle.warnVal = 250) (inRing : InWidestRing repy repx) :
    ∃ pass ∈ cycle.passes, pass.writes repy repx ≠ none := by
  rcases inRing with ⟨onRing, octant, row, column⟩
  have small := Direction.forward.readingOf_lt octant 1 (by decide)
  rcases Direction.forward.bearingAt_readingOf octant 1 (by decide) small with ⟨atOctant, -⟩
  refine ⟨_, List.mem_append_left _ (List.mem_append_right _ (measurePass_mem ⟨_, small⟩)), ?_⟩
  rw [measurePass_beyond, if_pos]
  · exact Option.some_ne_none _
  · rw [atOctant, highest]
    exact ⟨⟨row, column⟩, onRing⟩
  · exact onRing.2

end Beyond

/-! ## The last cycle -/

theorem radarProcess_pixel {xres : Nat} (wide : 1024 ≤ xres) (cycles : List Cycle)
    (pfbdata : FrameBuffer Color) {repx : Nat} (inRow : repx < xres) (repy : Nat) :
    radarProcess xres cycles pfbdata (repy * xres + repx) =
      overlay ([rimPass] ++ cycles.flatMap Cycle.passes) repy repx
        (pfbdata (repy * xres + repx)) := by
  rw [radarProcess_eq_writeAll, radarStores, ← paintAll_eq_writeAll]
  apply paintAll_apply _ inRow
  intro pass member column inPass
  apply lt_of_lt_of_le _ wide
  rw [List.mem_append, List.mem_singleton, List.mem_flatMap] at member
  rcases member with isRim | ⟨cycle, -, ofCycle⟩
  · simp only [isRim, rimPass, List.mem_range'_1] at inPass
    omega
  · exact passes_columns cycle pass ofCycle column inPass

section LastCycle

variable {xres : Nat} {earlier : List Cycle} {last : Cycle}

/-- The last cycle covers what the earlier ones have written, or they have written nothing. -/
theorem overlay_last_cycle (onScale : ∀ cycle ∈ earlier ++ [last], cycle.OnScale)
    (noGhost : last.warnVal = 250 ∨ ∀ cycle ∈ earlier, cycle.warnVal ≠ 250) (repy repx : Nat)
    (old : Color) :
    overlay ([rimPass] ++ (earlier ++ [last]).flatMap Cycle.passes) repy repx old =
      overlay ([rimPass] ++ [last].flatMap Cycle.passes) repy repx old := by
  rw [List.flatMap_append, List.flatMap_singleton, ← List.append_assoc, overlay_append,
    overlay_append [rimPass] last.passes]
  by_cases covered : ∃ pass ∈ last.passes, pass.writes repy repx ≠ none
  · rcases covered with ⟨pass, member, covers⟩
    exact overlay_of_covered member covers _ _
  · have unpainted : ∀ pass ∈ last.passes, pass.writes repy repx = none := by
      intro pass member
      by_contra covers
      exact covered ⟨pass, member, covers⟩
    have outside : ∀ cycle ∈ earlier, (repaintPass cycle.warnVal).writes repy repx = none := by
      intro cycle _
      by_contra written
      refine covered ⟨_, ?_, repaintPass_same_reach last.warnVal written⟩
      exact List.mem_append_left _ (List.mem_append_left _ (List.mem_singleton_self _))
    have nothing : ∀ pass ∈ earlier.flatMap Cycle.passes, pass.writes repy repx = none := by
      intro pass member
      rcases List.mem_flatMap.mp member with ⟨cycle, isEarlier, ofCycle⟩
      by_contra written
      rcases passes_beyond (onScale cycle (List.mem_append_left _ isEarlier))
        (outside cycle isEarlier) pass ofCycle written with ⟨-, highest, inRing⟩
      rcases noGhost with lastHighest | noneHighest
      · exact covered (widestRing_drawn lastHighest inRing)
      · exact noneHighest cycle isEarlier highest
    rw [overlay_append, overlay_of_forall_none nothing]

/-- A pixel of the widest ring that is on the rim: 400 to the right of the centre and 301
above it. -/
theorem ghost_disc : disc (((912 : Nat) : Int) - 512) (599 - ((298 : Nat) : Int)) = 250601 := by
  decide

theorem inWidestRing_ghost : InWidestRing 298 912 := by
  refine ⟨?_, .rightLower, ?_, ?_⟩
  · rw [WarnRing, ghost_disc]
    decide
  · rw [mem_rowsDown, firstRow]
    omega
  · rw [Octant.columns, List.mem_range'_1]
    omega

theorem repaintPass_ghost (warnVal : Byte) : (repaintPass warnVal).writes 298 912 = none := by
  by_contra written
  have reached := Pass.mem_of_writes written
  rw [Pass.writes_of_mem _ reached.1 reached.2] at written
  simp only [repaintPass, ghost_disc] at written
  exact written (if_neg (by decide))

theorem rimPass_ghost : rimPass.writes 298 912 = some white := by
  rw [Pass.writes_of_mem]
  · simp only [rimPass, OuterRing, ghost_disc]
    exact if_pos (by decide)
  · simp only [rimPass, mem_rowsDown]
    omega
  · simp only [rimPass, List.mem_range'_1]
    omega

/-- The rim is drawn once, so a warn ring on it stays. -/
theorem ghost_stays (onScale : ∀ cycle ∈ earlier ++ [last], cycle.OnScale)
    (ghost : ∃ cycle ∈ earlier, cycle.warnVal = 250) (old : Color) :
    overlay ([rimPass] ++ (earlier ++ [last]).flatMap Cycle.passes) 298 912 old = yellow := by
  have only : ∀ pass ∈ (earlier ++ [last]).flatMap Cycle.passes,
      PaintsOnly (· = yellow) (pass.writes 298 912) := by
    intro pass member color painted
    rcases List.mem_flatMap.mp member with ⟨cycle, isCycle, ofCycle⟩
    have written : pass.writes 298 912 ≠ none := by
      rw [painted]
      exact Option.some_ne_none _
    have shown := (passes_beyond (onScale cycle isCycle) (repaintPass_ghost cycle.warnVal) pass
      ofCycle written).1
    exact Option.some.inj (painted.symm.trans shown)
  rcases ghost with ⟨cycle, isEarlier, highest⟩
  rcases widestRing_drawn highest inWidestRing_ghost with ⟨pass, ofCycle, covers⟩
  have drawn : pass ∈ (earlier ++ [last]).flatMap Cycle.passes :=
    List.mem_flatMap.mpr ⟨cycle, List.mem_append_left _ isEarlier, ofCycle⟩
  rw [overlay_append, overlay_of_covered drawn covers _ yellow, overlay_of_only only]

/-- The last cycle alone leaves the rim there white, unless its own ring is the widest. -/
theorem rim_stays (onScale : last.OnScale) (lower : last.warnVal ≠ 250) (old : Color) :
    overlay ([rimPass] ++ [last].flatMap Cycle.passes) 298 912 old = white := by
  have nothing : ∀ pass ∈ last.passes, pass.writes 298 912 = none := by
    intro pass member
    by_contra written
    exact lower (passes_beyond onScale (repaintPass_ghost last.warnVal) pass member written).2.1
  rw [List.flatMap_singleton, overlay_append, overlay_of_forall_none nothing, overlay,
    List.foldl_cons, List.foldl_nil, rimPass_ghost, Option.getD_some]

/-- The screen is always that of the last cycle alone, exactly if no earlier cycle had the
warn line at its highest, or the last one still has. -/
theorem picture_of_last_cycle_iff (wide : 1024 ≤ xres)
    (onScale : ∀ cycle ∈ earlier ++ [last], cycle.OnScale) :
    (∀ pfbdata, radarProcess xres (earlier ++ [last]) pfbdata = radarProcess xres [last] pfbdata) ↔
      last.warnVal = 250 ∨ ∀ cycle ∈ earlier, cycle.warnVal ≠ 250 := by
  have positive : 0 < xres := by omega
  constructor
  · intro same
    by_contra ghost
    simp only [not_or, not_forall, not_not] at ghost
    rcases ghost with ⟨lower, cycle, isEarlier, highest⟩
    have inRow : 912 < xres := by omega
    have pixel := congrFun (same fun _ => black) (298 * xres + 912)
    rw [radarProcess_pixel wide _ _ inRow, radarProcess_pixel wide _ _ inRow,
      ghost_stays onScale ⟨cycle, isEarlier, highest⟩,
      rim_stays (onScale last (by simp)) lower] at pixel
    exact absurd pixel (by decide)
  · intro noGhost pfbdata
    apply picture_ext positive
    intro repy repx inRow
    rw [radarProcess_pixel wide _ _ inRow, radarProcess_pixel wide _ _ inRow,
      overlay_last_cycle onScale noGhost]

end LastCycle

/-- The warn line is lowered from its highest value between two cycles. -/
theorem lowered_warn_line_stays :
    (∀ pfbdata, radarProcess 1024
        ([⟨250, fun _ => 100, fun _ => 100⟩] ++ [⟨240, fun _ => 100, fun _ => 100⟩]) pfbdata =
          radarProcess 1024 [⟨240, fun _ => 100, fun _ => 100⟩] pfbdata) ↔
      (240 : Byte) = 250 ∨
        ∀ cycle ∈ [(⟨250, fun _ => 100, fun _ => 100⟩ : Cycle)], cycle.warnVal ≠ 250 := by
  apply picture_of_last_cycle_iff (Nat.le_refl 1024)
  intro cycle member
  simp only [List.cons_append, List.nil_append, List.mem_cons, List.not_mem_nil, or_false] at member
  rcases member with isFirst | isLast
  · subst isFirst
    decide
  · subst isLast
    decide

end GamZ.Client
