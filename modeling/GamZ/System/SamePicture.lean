import GamZ.Client.Repaint
import GamZ.Server.RadarPixels
import GamZ.System.SectorAgreement

/-! # The two pictures of a forward half-sweep

Client and server draw the same passes over different backgrounds. They differ
in one row of the left side and at the top of the centre column. -/

namespace GamZ.System

open CString Raster Client Server

def SamePicture (xres : Nat) (client server : FrameBuffer Color) : Prop :=
  ∀ repx repy : Nat, repx < 1024 → repy ≤ 599 →
    disc ((repx : Int) - 512) (599 - (repy : Int)) ≤ 250000 →
      client (repy * xres + repx) = server (repy * xres + repx)

/-! ## Sectors off the centre column -/

/-- The server reads the record of a forward half-sweep. -/
structure IsRecord (warnVal : Byte) (readings : Fin 61 → Reading) (ptr : Fin 70 → Int) : Prop where
  slots : ∀ slot < 61, copySlots ptr slot = (readings (Fin.ofNat 61 slot)).val + 1
  warnVal : warnValOf ptr = warnVal.toNat

theorem isRecord_recordFrame (warnVal : Byte) (xres : Nat) (state : RadarState)
    (readings : Fin 61 → Reading) (time : Fin 6 → Byte) (spare : Byte) :
    IsRecord warnVal readings
      (upDataOf (recordFrame (state.halfSweep .forward warnVal xres readings).r time warnVal
        spare)) where
  slots _ inside :=
    copySlots_recordFrame (holds_forward warnVal xres state readings) time warnVal spare inside
  warnVal := warnValOf_recordFrame ..

section Sectors

variable {warnVal : Byte} {readings : Fin 61 → Reading} {ptr : Fin 70 → Int}

theorem serverPass_eq (record : IsRecord warnVal readings ptr) {bearing : Bearing}
    (member : bearing ∈ radarBearings) :
    Server.bearingPass (warnValOf ptr) (copySlots ptr) bearing =
      Server.sectorPass (warnVal.toNat * 2) bearing
        (sectorOf warnVal (readings (Fin.ofNat 61 bearing.slot))) := by
  rw [Server.bearingPass, record.slots _ (bearing_slot_lt member), record.warnVal,
    radarSector_reading]

/-- The octants have the same rows, but for the lowest one on the left. -/
theorem mem_firstRow_iff {octant : Octant} {repx repy : Nat} (column : repx ∈ octant.columns)
    (side : 512 < repx ∨ repy ≤ 598) :
    repy ∈ rowsDown (Server.firstRow octant) 100 ↔
      repy ∈ rowsDown (Client.firstRow octant) 100 := by
  cases octant with
  | leftLower =>
      rw [mem_rowsDown, mem_rowsDown, Server.firstRow, Client.firstRow]
      rw [Octant.columns, List.mem_range'_1] at column
      omega
  | rightLower | rightUpper | leftUpper => rfl

/-- Both boards write the same in a pass, but for the lowest row on the left. -/
theorem bearingPass_writes (record : IsRecord warnVal readings ptr) {bearing : Bearing}
    (member : bearing ∈ radarBearings) {repx repy : Nat}
    (inDisc : disc ((repx : Int) - 512) (599 - (repy : Int)) ≤ 250000)
    (side : 512 < repx ∨ repy ≤ 598) :
    (Client.bearingPass warnVal readings bearing).writes repy repx =
      (Server.bearingPass (warnValOf ptr) (copySlots ptr) bearing).writes repy repx := by
  rw [serverPass_eq record member, Pass.writes, Pass.writes, sectorPass_pixel _ _ _ inDisc]
  simp only [Client.bearingPass, Direction.sectorPass, Server.sectorPass]
  by_cases column : repx ∈ bearing.octant.columns
  · simp only [mem_firstRow_iff column side]
    rfl
  · simp only [column, and_false, if_false]

/-- The client paints every pixel of an octant in the pass of its wedge. -/
theorem exists_covering (warnVal : Byte) (readings : Fin 61 → Reading) {repx repy : Nat}
    (rows : repy ≤ 599)
    (inDisc : disc ((repx : Int) - 512) (599 - (repy : Int)) ≤ 250000)
    (side : 512 < repx ∨ repx < 512 ∧ repy ≤ 598) :
    ∃ bearing ∈ radarBearings,
      (Client.bearingPass warnVal readings bearing).writes repy repx ≠ none := by
  have offCentre : repx ≠ 512 := by omega
  have away : (repx : Int) - 512 ≠ 0 := by omega
  have above : 0 ≤ 599 - (repy : Int) := by omega
  rcases disc_bounds inDisc away with ⟨near, low⟩
  rcases exists_inSector away above with ⟨octant, holds, i, positive, wedge⟩
  have column := holds_columns near holds
  have row : repy ∈ rowsDown (Client.firstRow octant) 100 :=
    (mem_firstRow_iff column (by omega)).mp (holds_rows rows low offCentre holds)
  rw [← columns_x column] at wedge
  have small := Direction.forward.readingOf_lt octant i positive
  rcases Direction.forward.bearingAt_readingOf octant i positive small with ⟨atOctant, atRow⟩
  refine ⟨Direction.forward.bearingAt ⟨_, small⟩, List.get_mem .., ?_⟩
  rw [Pass.writes, if_pos]
  · simp only [Client.bearingPass, Direction.sectorPass, atOctant, atRow]
    apply sectorPixel_ne_none _ wedge
    rw [octant.disc_x]
    exact inDisc
  · simp only [Client.bearingPass, Direction.sectorPass, atOctant]
    exact ⟨row, column⟩

theorem rightBearings_eq : Client.rightBearings = Server.rightBearings := rfl

theorem leftBearings_eq : Client.leftBearings = Server.leftBearings := rfl

def clientSectors (warnVal : Byte) (readings : Fin 61 → Reading) : List (Pass Color) :=
  Client.rightBearings.map (Client.bearingPass warnVal readings) ++ [Client.centreColumn] ++
    Client.leftBearings.map (Client.bearingPass warnVal readings)

theorem forwardPasses_eq (warnVal : Byte) (readings : Fin 61 → Reading) :
    forwardPasses warnVal readings = [repaintPass warnVal] ++ clientSectors warnVal readings := by
  simp only [forwardPasses, clientSectors, List.append_assoc]

/-- Off the centre column the last writer of a pixel is a sector, so the colours
agree whatever was there before. -/
theorem overlay_sectors (record : IsRecord warnVal readings ptr) {repx repy : Nat}
    (rows : repy ≤ 599) (inDisc : disc ((repx : Int) - 512) (599 - (repy : Int)) ≤ 250000)
    (side : 512 < repx ∨ repx < 512 ∧ repy ≤ 598) (old other : Color) :
    overlay (forwardPasses warnVal readings) repy repx old =
      overlay (radarPasses ptr) repy repx other := by
  have offCentre : repx ≠ 512 := by omega
  have sameWrites : ∀ bearings : List Bearing, bearings ⊆ radarBearings →
      (bearings.map (Client.bearingPass warnVal readings)).map
          (fun pass => pass.writes repy repx) =
        (bearings.map (Server.bearingPass (warnValOf ptr) (copySlots ptr))).map
          fun pass => pass.writes repy repx := by
    intro bearings within
    rw [List.map_map, List.map_map]
    apply List.map_congr_left
    intro bearing member
    exact bearingPass_writes record (within member) inDisc (by omega)
  have sameSectors : (clientSectors warnVal readings).map (fun pass => pass.writes repy repx) =
      (serverSectors ptr).map fun pass => pass.writes repy repx := by
    simp only [clientSectors, serverSectors, List.map_append, rightBearings_eq, leftBearings_eq]
    rw [sameWrites Server.rightBearings (List.take_subset 31 radarBearings),
      sameWrites Server.leftBearings (List.drop_subset 31 radarBearings), List.map_singleton,
      List.map_singleton, Client.centreColumn, Server.centreColumn, column_writes repy offCentre,
      column_writes repy offCentre]
  rcases exists_covering warnVal readings rows inDisc side with ⟨bearing, member, covered⟩
  have drawn : Client.bearingPass warnVal readings bearing ∈ clientSectors warnVal readings := by
    rw [← right_append_left, List.mem_append] at member
    rcases member with right | left
    · exact List.mem_append_left _ (List.mem_append_left _ (List.mem_map_of_mem right))
    · exact List.mem_append_right _ (List.mem_map_of_mem left)
  rw [forwardPasses_eq, radarPasses_eq, overlay_append, overlay_append,
    ← overlay_congr sameSectors]
  exact overlay_of_covered drawn covered _ _

/-! ## The lowest row on the left -/

/-- A pixel `x` to the left of the centre in the lowest row, with what the last
sector shows there. -/
def axisPixel (tempWarn : Int) (inner : Color) (x : Int) : Color :=
  if WarnRing tempWarn x 0 then yellow
  else if FlatSpoke x 0 then white
  else if RangeRing 100 x 0 then white
  else if RangeRing 200 x 0 then white
  else if RangeRing 300 x 0 then white
  else if RangeRing 400 x 0 then white
  else inner

/-- The last sector of the half-sweep at `x` to the left in the lowest row. -/
def lastSectorColor (sector : Sector) (x : Int) : Color :=
  if disc x 0 ≤ sector.radius * sector.radius then radarColor sector else black

theorem sectorPixel_axis {tempWarn radius x : Int} {color : Color} (left : 1 ≤ x)
    (inDisc : disc x 0 ≤ 250000) :
    sectorPixel tempWarn color radius 1 x 0 0 =
      some (axisPixel tempWarn (if disc x 0 ≤ radius * radius then color else black) x) := by
  have inSquare : disc x 0 ≤ 500 * 500 := inDisc
  have steep : ¬ SteepSpoke x 0 := by
    rw [SteepSpoke]
    omega
  have wedge : Wedge 1 0 := by decide
  unfold sectorPixel axisPixel
  rw [if_neg steep, if_pos wedge, if_pos inSquare]
  split_ifs <;> rfl

theorem repaintPass_writes (warnVal : Byte) {repx repy : Nat} (columns : repx < 1024)
    (rows : repy ≤ 599) :
    (repaintPass warnVal).writes repy repx = (repaintPass warnVal).pixel repy repx := by
  apply Pass.writes_of_mem
  · simp only [repaintPass]
    rw [mem_rowsDown]
    omega
  · simp only [repaintPass, List.mem_range'_1]
    omega

theorem repaintPass_axis (warnVal : Byte) {repx : Nat} (left : repx < 512)
    (inDisc : disc (-1 * ((repx : Int) - 512)) 0 ≤ 250000) :
    (repaintPass warnVal).pixel 599 repx =
      some (axisPixel (warnVal.toNat * 2) black (-1 * ((repx : Int) - 512))) := by
  have x : (repx : Int) - 512 = -(-1 * ((repx : Int) - 512)) := by omega
  have offCentre : repx ≠ 512 := by omega
  have leftOfCentre : 1 ≤ -1 * ((repx : Int) - 512) := by omega
  simp only [repaintPass, lowestRow_y, axisPixel]
  generalize -1 * ((repx : Int) - 512) = mirrored at *
  have steep : ¬ SteepSpoke (-mirrored) 0 := by
    rw [SteepSpoke]
    omega
  have steepMirrored : ¬ SteepSpoke mirrored 0 := by
    rw [SteepSpoke]
    omega
  have flat : FlatSpoke (-mirrored) 0 ↔ FlatSpoke mirrored 0 := by
    rw [FlatSpoke, FlatSpoke]
    omega
  have inSquare : disc mirrored 0 ≤ 500 * 500 := inDisc
  simp only [x, WarnRing, RangeRing, disc_neg, neg_neg, steep, steepMirrored, flat, if_pos inDisc,
    if_pos inSquare, offCentre, if_false]
  split_ifs <;> rfl

/-- Off the centre the client's sectors leave the lowest row alone on the left. -/
theorem clientSectors_lowestRow (warnVal : Byte) (readings : Fin 61 → Reading) {repx : Nat}
    (left : repx < 512) :
    ∀ pass ∈ clientSectors warnVal readings, pass.writes 599 repx = none := by
  have untouched : ∀ bearing,
      (Client.bearingPass warnVal readings bearing).writes 599 repx = none := by
    intro bearing
    apply Pass.writes_of_notMem
    simp only [Client.bearingPass, Direction.sectorPass]
    cases bearing.octant <;>
      rw [mem_rowsDown, Octant.columns, List.mem_range'_1, Client.firstRow] <;> omega
  intro pass member
  rw [clientSectors, List.mem_append, List.mem_append, List.mem_map, List.mem_map,
    List.mem_singleton] at member
  rcases member with (⟨bearing, -, sector⟩ | column) | ⟨bearing, -, sector⟩
  · rw [← sector, untouched]
  · rw [column, Client.centreColumn, column_writes 599 (by omega)]
  · rw [← sector, untouched]

/-- The client's lowest row on the left comes from the repaint. -/
theorem client_lowestRow (warnVal : Byte) (readings : Fin 61 → Reading) {repx : Nat}
    (left : repx < 512) (inDisc : disc (-1 * ((repx : Int) - 512)) 0 ≤ 250000) (old : Color) :
    overlay (forwardPasses warnVal readings) 599 repx old =
      axisPixel (warnVal.toNat * 2) black (-1 * ((repx : Int) - 512)) := by
  rw [forwardPasses_eq, overlay_append,
    overlay_of_forall_none (clientSectors_lowestRow warnVal readings left), overlay,
    List.foldl_cons, List.foldl_nil, repaintPass_writes warnVal (by omega) (by decide),
    repaintPass_axis warnVal left inDisc, Option.getD_some]

/-- The server's lowest row on the left comes from the last pass. -/
theorem server_lowestRow (record : IsRecord warnVal readings ptr) {repx : Nat}
    (left : repx < 512) (inDisc : disc (-1 * ((repx : Int) - 512)) 0 ≤ 250000) (old : Color) :
    overlay (radarPasses ptr) 599 repx old =
      axisPixel (warnVal.toNat * 2)
        (lastSectorColor (sectorOf warnVal (readings 60)) (-1 * ((repx : Int) - 512)))
        (-1 * ((repx : Int) - 512)) := by
  have lastPass : Server.leftBearings = Server.leftBearings.dropLast ++ [⟨.leftLower, 1, 60⟩] := by
    decide
  have member : (⟨.leftLower, 1, 60⟩ : Bearing) ∈ radarBearings := by decide
  have reading : Fin.ofNat 61 (⟨.leftLower, 1, 60⟩ : Bearing).slot = 60 := rfl
  have mirrored : disc ((repx : Int) - 512) (599 - ((599 : Nat) : Int)) ≤ 250000 := by
    rw [lowestRow_y, ← disc_neg, neg_eq_neg_one_mul]
    exact inDisc
  have row : 599 ∈ rowsDown (Server.firstRow .leftLower) 100 := by
    rw [mem_rowsDown, Server.firstRow]
    omega
  have column : repx ∈ Octant.leftLower.columns := by
    rw [Octant.columns, List.mem_range'_1]
    omega
  have axis : (Server.sectorPass (warnVal.toNat * 2) ⟨.leftLower, 1, 60⟩
      (sectorOf warnVal (readings 60))).writes 599 repx =
        some (axisPixel (warnVal.toNat * 2)
          (lastSectorColor (sectorOf warnVal (readings 60)) (-1 * ((repx : Int) - 512)))
          (-1 * ((repx : Int) - 512))) := by
    have temp : Octant.leftLower.temp (Octant.leftLower.x repx) 0 = 0 := by
      simp [Octant.temp]
    rw [Pass.writes_of_mem, sectorPass_pixel _ _ _ mirrored, lowestRow_y]
    · simp only [temp]
      exact sectorPixel_axis (show 1 ≤ -1 * ((repx : Int) - 512) by omega) inDisc
    · simp only [Server.sectorPass]
      exact row
    · simp only [Server.sectorPass]
      exact column
  rw [radarPasses_eq, serverSectors, lastPass, List.map_append, ← List.append_assoc,
    ← List.append_assoc, overlay_append, List.map_singleton, serverPass_eq record member,
    overlay, List.foldl_cons, List.foldl_nil, reading, axis, Option.getD_some]

end Sectors

/-- A warn line that can be set: 10, 20, ..., 250. -/
def IsWarnLine (warnVal : Byte) : Prop :=
  ∃ steps : Nat, 1 ≤ steps ∧ steps ≤ 25 ∧ warnVal.toNat = 10 * steps

/-- Three pixels left of the centre the lowest row shows the last sector. -/
theorem axisPixel_three {warnVal : Byte} (warnLine : IsWarnLine warnVal) (inner : Color) :
    axisPixel (warnVal.toNat * 2) inner 3 = inner := by
  rcases warnLine with ⟨steps, positive, -, value⟩
  have outsideRing : ¬ WarnRing (warnVal.toNat * 2) 3 0 := by
    rw [WarnRing, value]
    intro ring
    have far := ring.2
    simp only [disc] at far
    push_cast at far
    nlinarith
  rw [axisPixel, if_neg outsideRing]
  rfl

theorem radarColor_ne_black (sector : Sector) : radarColor sector ≠ black := by
  rw [radarColor]
  split_ifs <;> decide

/-- The spoke hides the last sector as long as its radius is at most two. -/
theorem axisPixel_lastSector (tempWarn : Int) (warnVal : Byte) {reading : Reading}
    (near : reading.val ≤ 1) {x : Int} (left : 1 ≤ x) :
    axisPixel tempWarn (lastSectorColor (sectorOf warnVal reading) x) x =
      axisPixel tempWarn black x := by
  by_cases spoke : x ≤ 2
  · have flat : FlatSpoke x 0 := by
      rw [FlatSpoke]
      omega
    rw [axisPixel, axisPixel, if_pos flat, if_pos flat]
  · have outside : ¬ disc x 0 ≤ (sectorOf warnVal reading).radius *
        (sectorOf warnVal reading).radius := by
      simp only [disc, sectorOf]
      have : (reading.val : Int) ≤ 1 := by omega
      have : 0 ≤ (reading.val : Int) := by omega
      nlinarith
    rw [lastSectorColor, if_neg outside]

/-! ## The centre column -/

section Column

variable {warnVal : Byte} {readings : Fin 61 → Reading} {ptr : Fin 70 → Int}

/-- No warn ring reaches the upper edge of the half disc without enclosing it. -/
theorem warnRing_edge (warnLine : IsWarnLine warnVal) {y : Int} (high : 499 ≤ y) (top : y ≤ 500) :
    ¬ WarnRing (warnVal.toNat * 2) 0 y := by
  rcases warnLine with ⟨steps, -, -, value⟩
  rw [WarnRing, value]
  intro ring
  rcases ring with ⟨enclosed, beyond⟩
  simp only [disc] at enclosed beyond
  push_cast at enclosed beyond
  rcases Nat.lt_or_ge steps 25 with low | atEdge
  · have : (steps : Int) ≤ 24 := by omega
    nlinarith
  · have : (25 : Int) ≤ steps := by omega
    nlinarith

theorem repaintPass_edge (warnLine : IsWarnLine warnVal) {repy : Nat} (rows : 99 ≤ repy)
    (high : repy ≤ 100) : (repaintPass warnVal).pixel repy 512 = some white := by
  have ring := warnRing_edge warnLine (y := 599 - (repy : Int)) (by omega) (by omega)
  have steep : ¬ SteepSpoke 0 (599 - (repy : Int)) := by
    rw [SteepSpoke]
    omega
  have flat : ¬ FlatSpoke 0 (599 - (repy : Int)) := by
    rw [FlatSpoke]
    omega
  have inDisc : disc 0 (599 - (repy : Int)) ≤ 250000 := by
    simp only [disc]
    nlinarith
  simp only [repaintPass, centreColumn_x, neg_zero, if_pos inDisc, if_neg ring, if_neg steep,
    if_neg flat, if_true]

theorem client_column_eq (warnVal : Byte) (readings : Fin 61 → Reading) (repy : Nat)
    (old : Color) :
    overlay (clientSectors warnVal readings) repy 512 old =
      (Client.centreColumn.writes repy 512).getD old := by
  have untouched : ∀ (bearings : List Bearing),
      ∀ pass ∈ bearings.map (Client.bearingPass warnVal readings), pass.writes repy 512 = none := by
    intro bearings pass member
    rcases List.mem_map.mp member with ⟨bearing, -, sector⟩
    subst sector
    apply Pass.writes_of_notMem
    simp only [Client.bearingPass, Direction.sectorPass]
    exact .inr (centre_notMem_columns bearing.octant)
  rw [clientSectors, overlay_append, overlay_append, overlay_of_forall_none (untouched _),
    overlay_of_forall_none (untouched _), overlay, List.foldl_cons, List.foldl_nil]

/-- The client's centre column is white, by the repaint or by its own line. -/
theorem client_column (warnLine : IsWarnLine warnVal) (readings : Fin 61 → Reading) {repy : Nat}
    (rows : 99 ≤ repy) (bottom : repy ≤ 599) (old : Color) :
    overlay (forwardPasses warnVal readings) repy 512 old = white := by
  rw [forwardPasses_eq, overlay_append, client_column_eq, overlay, List.foldl_cons,
    List.foldl_nil, repaintPass_writes warnVal (by decide) bottom]
  rcases Nat.lt_or_ge 100 repy with low | high
  · rw [Client.centreColumn, columnPass_writes (mem_rowsDown.mpr ⟨low, bottom⟩),
      Option.getD_some]
  · have outside : repy ∉ Client.centreColumn.rows := by
      simp only [Client.centreColumn, columnPass]
      rw [mem_rowsDown]
      omega
    rw [Pass.writes_of_notMem _ (.inl outside), repaintPass_edge warnLine rows high,
      Option.getD_none, Option.getD_some]

theorem server_top (warnLine : IsWarnLine warnVal) (record : IsRecord warnVal readings ptr)
    (old : Color) : overlay (radarPasses ptr) 99 512 old = old := by
  rcases warnLine with ⟨steps, positive, bounded, value⟩
  have settable : WarnValue (warnValOf ptr) :=
    ⟨steps, by omega, by omega, by rw [record.warnVal, value, Nat.cast_mul, Nat.cast_ofNat]⟩
  exact overlay_of_forall_none (top_untouched settable) old

end Column

/-! ## The half disc -/

theorem forwardPasses_columns (warnVal : Byte) (readings : Fin 61 → Reading) :
    ∀ pass ∈ forwardPasses warnVal readings, ∀ column ∈ pass.columns, column < 1024 := by
  intro pass member column inPass
  rw [forwardPasses_eq, clientSectors, List.mem_append, List.mem_append, List.mem_append,
    List.mem_singleton, List.mem_singleton, List.mem_map, List.mem_map] at member
  rcases member with repaint | (⟨bearing, -, sector⟩ | centre) | ⟨bearing, -, sector⟩
  · subst repaint
    simp only [repaintPass, List.mem_range'_1] at inPass
    omega
  · subst sector
    simp only [Client.bearingPass, Direction.sectorPass] at inPass
    exact octant_columns_lt bearing.octant inPass
  · subst centre
    simp only [Client.centreColumn, columnPass, List.mem_singleton] at inPass
    omega
  · subst sector
    simp only [Client.bearingPass, Direction.sectorPass] at inPass
    exact octant_columns_lt bearing.octant inPass

section Pictures

variable (warnVal : Byte) (xres : Nat) (state : RadarState) (readings : Fin 61 → Reading)
  (time : Fin 6 → Byte) (spare : Byte) (serverFb : FrameBuffer Color)

/-- The client after the repaint and the forward half-sweep of a cycle. -/
def sweptState : RadarState :=
  (state.startCycle warnVal xres).halfSweep .forward warnVal xres readings

/-- The server's framebuffer after `make_radar` on the frame of that half-sweep. -/
def serverPicture : FrameBuffer Color :=
  (makeRadar xres (upDataOf (recordFrame (sweptState warnVal xres state readings).r time warnVal
    spare)) serverFb).pfbdata

variable {warnVal xres}

theorem client_pixel (wide : 1024 ≤ xres) {repx repy : Nat} (columns : repx < 1024) :
    (sweptState warnVal xres state readings).pfbdata (repy * xres + repx) =
      overlay (forwardPasses warnVal readings) repy repx (state.pfbdata (repy * xres + repx)) := by
  rw [sweptState, forward_pfbdata]
  apply paintAll_apply _ (by omega)
  intro pass member column inPass
  have := forwardPasses_columns warnVal readings pass member column inPass
  omega

theorem server_pixel (wide : 1024 ≤ xres) {repx repy : Nat} (columns : repx < 1024) :
    serverPicture warnVal xres state readings time spare serverFb (repy * xres + repx) =
      overlay (radarPasses (upDataOf (recordFrame (sweptState warnVal xres state readings).r time
        warnVal spare))) repy repx (serverFb (repy * xres + repx)) := by
  rw [serverPicture, (makeRadar_eq _ _ _).2]
  apply paintAll_apply _ (by omega)
  intro pass member column inPass
  have := radarPasses_columns _ pass member column inPass
  omega

theorem isRecord_swept (warnVal : Byte) (xres : Nat) :
    IsRecord warnVal readings (upDataOf (recordFrame (sweptState warnVal xres state readings).r
      time warnVal spare)) :=
  isRecord_recordFrame warnVal xres (state.startCycle warnVal xres) readings time spare

theorem samePicture_top (wide : 1024 ≤ xres) (warnLine : IsWarnLine warnVal)
    (same : SamePicture xres (sweptState warnVal xres state readings).pfbdata
      (serverPicture warnVal xres state readings time spare serverFb)) :
    serverFb (99 * xres + 512) = white := by
  have record := isRecord_swept state readings time spare warnVal xres
  have pixel := same 512 99 (by decide) (by decide) (by decide)
  rw [client_pixel state readings wide (by decide),
    server_pixel state readings time spare serverFb wide (by decide),
    client_column warnLine readings (by decide) (by decide), server_top warnLine record] at pixel
  exact pixel.symm

theorem samePicture_left (wide : 1024 ≤ xres) (warnLine : IsWarnLine warnVal)
    (same : SamePicture xres (sweptState warnVal xres state readings).pfbdata
      (serverPicture warnVal xres state readings time spare serverFb)) :
    (readings 60).val ≤ 1 := by
  have record := isRecord_swept state readings time spare warnVal xres
  have pixel := same 509 599 (by decide) (by decide) (by decide)
  have position : (-1 : Int) * (((509 : Nat) : Int) - 512) = 3 := by decide
  rw [client_pixel state readings wide (by decide),
    server_pixel state readings time spare serverFb wide (by decide),
    client_lowestRow warnVal readings (by decide) (by decide),
    server_lowestRow record (by decide) (by decide), position, axisPixel_three warnLine,
    axisPixel_three warnLine, lastSectorColor] at pixel
  by_contra far
  rw [if_pos] at pixel
  · exact radarColor_ne_black _ pixel.symm
  · simp only [disc, sectorOf]
    have : (2 : Int) ≤ (readings 60).val := by omega
    nlinarith

theorem samePicture_of (wide : 1024 ≤ xres) (warnLine : IsWarnLine warnVal)
    (top : serverFb (99 * xres + 512) = white) (near : (readings 60).val ≤ 1) :
    SamePicture xres (sweptState warnVal xres state readings).pfbdata
      (serverPicture warnVal xres state readings time spare serverFb) := by
  have record := isRecord_swept state readings time spare warnVal xres
  intro repx repy columns rows inDisc
  rw [client_pixel state readings wide columns,
    server_pixel state readings time spare serverFb wide columns]
  rcases Nat.lt_trichotomy repx 512 with left | centre | right
  · rcases Nat.lt_or_ge 598 repy with lowest | above
    · have lowestRow : repy = 599 := by omega
      subst lowestRow
      have mirrored : disc (-1 * ((repx : Int) - 512)) 0 ≤ 250000 := by
        rw [neg_one_mul, disc_neg]
        exact inDisc
      rw [client_lowestRow warnVal readings left mirrored, server_lowestRow record left mirrored,
        axisPixel_lastSector _ warnVal near (by omega)]
    · exact overlay_sectors record rows inDisc (.inr ⟨left, above⟩) _ _
  · subst centre
    have high : 99 ≤ repy := by
      by_contra beyond
      simp only [disc] at inDisc
      have : (500 : Int) < 599 - repy := by omega
      nlinarith
    rw [client_column warnLine readings high rows]
    rcases Nat.lt_or_ge 99 repy with below | atTop
    · rw [server_column _ below rows]
    · have topRow : repy = 99 := by omega
      subst topRow
      rw [server_top warnLine record, top]
  · exact overlay_sectors record rows inDisc (.inl right) _ _

end Pictures

/-- Whenever the half-sweep sends a frame, `make_radar` shows the client's picture. -/
def PicturesAgree (warnVal : Byte) (xres : Nat) (state : RadarState)
    (readings : Fin 61 → Reading) (serverFb : FrameBuffer Color) : Prop :=
  ∀ time spare frame,
    (sweptState warnVal xres state readings).frameBuilt time warnVal spare = some frame →
      SamePicture xres (sweptState warnVal xres state readings).pfbdata
        (makeRadar xres (upDataOf frame) serverFb).pfbdata

theorem swept_alarm (warnVal : Byte) (xres : Nat) (state : RadarState)
    (readings : Fin 61 → Reading) :
    (sweptState warnVal xres state readings).buzFlag ≠ 0 ↔
      ∃ k, (readings k).val < warnVal.toNat :=
  halfSweep_buzFlag .forward warnVal xres (state.startCycle warnVal xres) readings rfl

theorem picturesAgree_alarm {warnVal : Byte} {xres : Nat} {state : RadarState}
    {readings : Fin 61 → Reading} {serverFb : FrameBuffer Color} (wide : 1024 ≤ xres)
    (warnLine : IsWarnLine warnVal) (alarm : ∃ k, (readings k).val < warnVal.toNat)
    (agree : PicturesAgree warnVal xres state readings serverFb) :
    serverFb (99 * xres + 512) = white ∧ (readings 60).val ≤ 1 := by
  have same := agree (fun _ => 0) 0 _
    (if_pos ((swept_alarm warnVal xres state readings).mpr alarm))
  exact ⟨samePicture_top state readings (fun _ => 0) 0 serverFb wide warnLine same,
    samePicture_left state readings (fun _ => 0) 0 serverFb wide warnLine same⟩

/-- The pictures agree exactly if there is no alarm, or if the server's framebuffer
was white at the top of the centre column, which `make_radar` leaves alone, and the
last reading is at most one, so that the lowest row on the left shows no sector. -/
theorem same_picture_iff {warnVal : Byte} {xres : Nat} (wide : 1024 ≤ xres)
    (warnLine : IsWarnLine warnVal) (state : RadarState) (readings : Fin 61 → Reading)
    (serverFb : FrameBuffer Color) :
    PicturesAgree warnVal xres state readings serverFb ↔
      (∀ k, warnVal.toNat ≤ (readings k).val) ∨
        serverFb (99 * xres + 512) = white ∧ (readings 60).val ≤ 1 := by
  have alarm := swept_alarm warnVal xres state readings
  constructor
  · intro agree
    by_cases below : ∃ k, (readings k).val < warnVal.toNat
    · exact .inr (picturesAgree_alarm wide warnLine below agree)
    · left
      intro k
      exact Nat.le_of_not_lt fun low => below ⟨k, low⟩
  · intro cases time spare frame built
    rw [RadarState.frameBuilt] at built
    split_ifs at built with raised
    rw [← Option.some.inj built]
    rcases cases with silent | ⟨top, near⟩
    · rcases alarm.mp raised with ⟨k, low⟩
      exact absurd low (Nat.not_lt.mpr (silent k))
    · exact samePicture_of state readings time spare serverFb wide warnLine top near

/-- The warn line at 100 and an object at 50 cm all around, over black screens. -/
theorem surrounded_pictures :
    1024 ≤ 1024 ∧ IsWarnLine 100 ∧
      (PicturesAgree 100 1024 .initial (fun _ => 50) (fun _ => black) ↔
        (∀ k : Fin 61, (100 : Byte).toNat ≤ ((fun _ => 50 : Fin 61 → Reading) k).val) ∨
          black = white ∧ (50 : Reading).val ≤ 1) :=
  have warnLine : IsWarnLine 100 := ⟨10, by decide, by decide, by decide⟩
  ⟨by decide, warnLine,
    same_picture_iff (by decide) warnLine .initial (fun _ => 50) (fun _ => black)⟩

theorem surrounded_pictures_differ :
    ¬ ∀ (warnVal : Byte) (xres : Nat) (state : RadarState) (readings : Fin 61 → Reading)
      (serverFb : FrameBuffer Color), 1024 ≤ xres → IsWarnLine warnVal →
      PicturesAgree warnVal xres state readings serverFb := by
  intro alwaysAgree
  have warnLine : IsWarnLine 100 := ⟨10, by decide, by decide, by decide⟩
  have agree := alwaysAgree 100 1024 .initial (fun _ => 50) (fun _ => black) (by decide) warnLine
  have top := (picturesAgree_alarm (by decide) warnLine ⟨0, by decide⟩ agree).1
  exact absurd top (by decide)

end GamZ.System
