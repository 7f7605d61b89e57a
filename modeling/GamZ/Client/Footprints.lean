import GamZ.Client.Controls
import GamZ.Client.MakeButton
import GamZ.Client.SweepLog
import GamZ.Foundation.Interleaving

/-! # Two processes on one framebuffer

`radar_process` draws the half disc and `fpga_process` the buttons. `radar_process` waits
for `semaphore` in front of most stores, but the wait and the store are two steps, so the
stores of the two processes may come in any order. The buttons lie above all the radar
draws, and so the order leaves no trace. -/

namespace GamZ.Client

open CString LastWriter Raster Transition TransitionSystem

/-! ## The stores of `radar_process` -/

/-- The white rim in front of `while(!quit)`. -/
def rimPass : Pass Color where
  rows := rowsDown 599 0
  columns := List.range' 0 1024
  pixel repy repx :=
    let x : Int := repx - 512
    let y : Int := 599 - repy
    if OuterRing x y then some white else none

def RadarState.drawRim (xres : Nat) (state : RadarState) : RadarState :=
  { state with pfbdata := rimPass.paint xres state.pfbdata }

/-- The framebuffer that `radar_process` leaves after the given cycles. -/
def radarProcess (xres : Nat) (cycles : List Cycle) (pfbdata : FrameBuffer Color) :
    FrameBuffer Color :=
  let started := { RadarState.initial with pfbdata := pfbdata }.drawRim xres
  (cycles.foldl (fun state cycle => (state.cycle xres cycle).1) started).pfbdata

def Cycle.passes (cycle : Cycle) : List (Pass Color) :=
  [repaintPass cycle.warnVal] ++ Direction.forward.drawnPasses cycle.warnVal cycle.there ++
    Direction.back.drawnPasses cycle.warnVal cycle.back

def radarStores (xres : Nat) (cycles : List Cycle) : List (Nat × Color) :=
  ([rimPass] ++ cycles.flatMap Cycle.passes).flatMap fun pass => pass.stores xres

/-- A cycle can start with every warn line that the panel reaches. -/
theorem exists_cycle_of_run {actions : List ControlAction} {state : ControlState}
    (run : controls.Run actions state) (there back : Fin 61 → Reading) :
    ∃ cycle : Cycle, (cycle.warnVal.toNat : Int) = state.panel.settings.warnLine ∧
      cycle.there = there ∧ cycle.back = back := by
  rcases (safeControls_of_run run).panel.warnLine with ⟨-, low, high⟩
  refine ⟨⟨UInt8.ofNat state.panel.settings.warnLine.toNat, there, back⟩, ?_, rfl, rfl⟩
  rw [UInt8.toNat_ofNat']
  omega

theorem loggedHalf_pfbdata (direction : Direction) (warnVal : Byte) (xres : Nat)
    (state : RadarState) (readings : Fin 61 → Reading) :
    (state.loggedHalf direction warnVal xres readings).1.pfbdata =
      (state.halfSweep direction warnVal xres readings).pfbdata := by
  rw [RadarState.loggedHalf, halfSweepLogged_eq]
  dsimp only [RadarState.handOver]
  split_ifs <;> rfl

theorem cycle_pfbdata (xres : Nat) (state : RadarState) (cycle : Cycle) :
    (state.cycle xres cycle).1.pfbdata =
      cycle.passes.foldl (fun pfbdata pass => pass.paint xres pfbdata) state.pfbdata := by
  rw [RadarState.cycle, loggedHalf_pfbdata, halfSweep_pfbdata, loggedHalf_pfbdata,
    halfSweep_pfbdata, RadarState.startCycle_pfbdata, Cycle.passes, List.foldl_append,
    List.foldl_append, List.foldl_cons, List.foldl_nil]

theorem cycles_pfbdata (xres : Nat) (cycles : List Cycle) :
    ∀ state : RadarState,
      (cycles.foldl (fun state cycle => (state.cycle xres cycle).1) state).pfbdata =
        (cycles.flatMap Cycle.passes).foldl (fun pfbdata pass => pass.paint xres pfbdata)
          state.pfbdata := by
  induction cycles with
  | nil => exact fun _ => rfl
  | cons cycle cycles induction =>
      intro state
      rw [List.foldl_cons, induction, cycle_pfbdata, List.flatMap_cons, List.foldl_append]

theorem radarProcess_eq_writeAll (xres : Nat) (cycles : List Cycle)
    (pfbdata : FrameBuffer Color) :
    radarProcess xres cycles pfbdata = writeAll pfbdata (radarStores xres cycles) := by
  rw [radarProcess, cycles_pfbdata, RadarState.drawRim, radarStores, ← paintAll_eq_writeAll,
    List.foldl_append, List.foldl_cons, List.foldl_nil]

/-! ## The rows of the radar -/

/-- All the pass writes lies in this row or below. -/
def DrawsBelow (first : Nat) (pass : Pass Color) : Prop :=
  ∀ repy ∈ pass.rows, ∀ repx ∈ pass.columns, pass.pixel repy repx ≠ none → first ≤ repy

theorem drawsBelow_of_rows {first : Nat} {pass : Pass Color}
    (rows : ∀ repy ∈ pass.rows, first ≤ repy) : DrawsBelow first pass :=
  fun repy row _ _ _ => rows repy row

/-- The outer rim reaches up to row 90. -/
theorem row_of_disc {x : Int} {repy : Nat} (inRim : disc x (599 - repy) ≤ 260000) :
    90 ≤ repy := by
  by_contra high
  have above : (510 : Int) ≤ 599 - repy := by omega
  have tall : 510 * 510 ≤ (599 - repy : Int) * (599 - repy) := by
    apply mul_le_mul above above <;> omega
  have wide := mul_self_nonneg x
  rw [disc] at inRim
  omega

theorem rimPass_drawsBelow : DrawsBelow 90 rimPass := by
  intro repy _ repx _ drawn
  dsimp only [rimPass] at drawn
  split_ifs at drawn with onRim
  · exact row_of_disc onRim.1
  · exact absurd rfl drawn

/-- The warn ring is drawn inside the half disc only. -/
theorem repaintPass_drawsBelow (warnVal : Byte) : DrawsBelow 90 (repaintPass warnVal) := by
  intro repy _ repx _ drawn
  by_cases inDisc : disc ((repx : Int) - 512) (599 - repy) ≤ 250000
  · exact row_of_disc (le_trans inDisc (by decide))
  · exact absurd (if_neg inDisc) drawn

/-- The sectors begin in row 100. Whatever the warn ring, no loop goes above. -/
theorem sectorPass_drawsBelow (direction : Direction) (warnVal : Byte) (bearing : Bearing)
    (sector : Sector) : DrawsBelow 90 (direction.sectorPass warnVal bearing sector) := by
  apply drawsBelow_of_rows
  intro repy row
  have bounds := mem_rowsDown.mp row
  omega

theorem centreColumn_drawsBelow : DrawsBelow 90 centreColumn := by
  apply drawsBelow_of_rows
  intro repy row
  dsimp only [centreColumn, columnPass] at row
  have bounds := mem_rowsDown.mp row
  omega

theorem drawnPasses_drawsBelow (direction : Direction) (warnVal : Byte)
    (readings : Fin 61 → Reading) :
    ∀ pass ∈ direction.drawnPasses warnVal readings, DrawsBelow 90 pass := by
  have sectors : ∀ measured : List (Bearing × Reading),
      ∀ pass ∈ measured.map (direction.measurePass warnVal), DrawsBelow 90 pass := by
    intro measured pass member
    rcases List.mem_map.mp member with ⟨bearing, -, isPass⟩
    subst isPass
    exact sectorPass_drawsBelow direction warnVal bearing.1 _
  intro pass member
  rcases List.mem_append.mp member with earlier | second
  · rcases List.mem_append.mp earlier with first | column
    · exact sectors _ pass first
    · rw [List.mem_singleton.mp column]
      exact centreColumn_drawsBelow
  · exact sectors _ pass second

theorem passes_drawsBelow (cycle : Cycle) : ∀ pass ∈ cycle.passes, DrawsBelow 90 pass := by
  intro pass member
  rcases List.mem_append.mp member with earlier | back
  · rcases List.mem_append.mp earlier with repaint | there
    · rw [List.mem_singleton.mp repaint]
      exact repaintPass_drawsBelow cycle.warnVal
    · exact drawnPasses_drawsBelow .forward cycle.warnVal cycle.there pass there
  · exact drawnPasses_drawsBelow .back cycle.warnVal cycle.back pass back

theorem stores_below {passes : List (Pass Color)} (drawBelow : ∀ pass ∈ passes, DrawsBelow 90 pass)
    (xres : Nat) {index : Nat}
    (stored : index ∈ footprint (passes.flatMap fun pass => pass.stores xres)) :
    90 * xres ≤ index := by
  rcases mem_footprint.mp stored with ⟨store, member, atIndex⟩
  rcases List.mem_flatMap.mp member with ⟨pass, isPass, inPass⟩
  rcases Pass.exists_pixel_of_mem_stores inPass with ⟨repy, row, repx, column, painted, indexed⟩
  have lowRow := drawBelow pass isPass repy row repx column (by simp [painted])
  calc
    90 * xres ≤ repy * xres := Nat.mul_le_mul_right xres lowRow
    _ ≤ repy * xres + repx := Nat.le_add_right _ _
    _ = index := indexed.symm.trans atIndex

theorem radarStores_below (xres : Nat) (cycles : List Cycle) {index : Nat}
    (stored : index ∈ footprint (radarStores xres cycles)) : 90 * xres ≤ index := by
  apply stores_below _ xres stored
  intro pass member
  rcases List.mem_append.mp member with rim | later
  · rw [List.mem_singleton.mp rim]
    exact rimPass_drawsBelow
  · rcases List.mem_flatMap.mp later with ⟨cycle, -, inCycle⟩
    exact passes_drawsBelow cycle pass inCycle

/-! ## The stores of `fpga_process` -/

structure ButtonDrawing where
  button : TouchButton
  color : Color
  mod : Int

def ButtonDrawing.stores (xres : Nat) (drawing : ButtonDrawing) : List (Nat × Color) :=
  makeButton xres drawing.button.positionX.toNat drawing.color drawing.mod

def buttonStores (xres : Nat) (drawings : List ButtonDrawing) : List (Nat × Color) :=
  drawings.flatMap (ButtonDrawing.stores xres)

/-- The buttons in front of the loop of `fpga_process`. -/
def firstButtons : List ButtonDrawing :=
  [⟨.brighter, puple, 2⟩, ⟨.dimmer, puple, 3⟩, ⟨.mute, puple, 0⟩, ⟨.warnUp, puple, 2⟩,
    ⟨.warnDown, puple, 3⟩]

theorem positionX_le (button : TouchButton) : button.positionX.toNat ≤ 860 := by
  cases button <;> decide

theorem buttonStores_above {xres : Nat} (wide : 1024 ≤ xres) (drawings : List ButtonDrawing)
    {index : Nat} (stored : index ∈ footprint (buttonStores xres drawings)) :
    index < 80 * xres := by
  rcases mem_footprint.mp stored with ⟨store, member, atIndex⟩
  rcases List.mem_flatMap.mp member with ⟨drawing, -, inButton⟩
  rcases makeButton_inside store inButton with ⟨repy, row, repx, column, indexed⟩
  have position := positionX_le drawing.button
  have inRow : repx < xres := by
    have bounds := List.mem_range'_1.mp column
    omega
  calc
    index = repy * xres + repx := atIndex.symm.trans indexed
    _ < repy * xres + xres := Nat.add_lt_add_left inRow _
    _ = (repy + 1) * xres := (Nat.succ_mul repy xres).symm
    _ ≤ 80 * xres := Nat.mul_le_mul_right xres row

/-! ## Any order of the stores -/

/-- The processes store at different indices, and whatever order their stores come in,
the framebuffer is that of `radar_process` with the buttons drawn over it. -/
structure DrawnApart (xres : Nat) (cycles : List Cycle) (drawings : List ButtonDrawing) :
    Prop where
  disjoint : ∀ index ∈ footprint (radarStores xres cycles),
    index ∉ footprint (buttonStores xres drawings)
  anyOrder : ∀ (pfbdata : FrameBuffer Color) (stores : List (Nat × Color)),
    Interleaving (radarStores xres cycles) (buttonStores xres drawings) stores →
      writeAll pfbdata stores =
        writeAll (radarProcess xres cycles pfbdata) (buttonStores xres drawings)

theorem footprints_disjoint {xres : Nat} (wide : 1024 ≤ xres) (cycles : List Cycle)
    (drawings : List ButtonDrawing) :
    ∀ index ∈ footprint (radarStores xres cycles),
      index ∉ footprint (buttonStores xres drawings) := by
  intro index byRadar byButtons
  have below := radarStores_below xres cycles byRadar
  have above := buttonStores_above wide drawings byButtons
  omega

theorem drawing_does_not_interfere {xres : Nat} (wide : 1024 ≤ xres) (cycles : List Cycle)
    (drawings : List ButtonDrawing) : DrawnApart xres cycles drawings := by
  have disjoint := footprints_disjoint wide cycles drawings
  constructor
  · exact disjoint
  · intro pfbdata stores interleaving
    rw [radarProcess_eq_writeAll, interleaving.writeAll_eq disjoint]

/-- The five buttons and one cycle on the board's own screen. -/
theorem first_buttons_drawn_apart :
    DrawnApart 1024 [⟨20, fun _ => 100, fun _ => 10⟩] firstButtons :=
  drawing_does_not_interfere (Nat.le_refl 1024) _ _

end GamZ.Client
