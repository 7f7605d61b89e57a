import GamZ.Foundation.Raster

/-! # Drawing with a state

A loop over rows and columns that carries a state from pixel to pixel. When the state
does what it should in every row, the loop draws a picture that does not depend on it. -/

namespace GamZ.Raster

open LastWriter

variable {State Color : Type*}

structure RowLoop (State Color : Type*) where
  first : Nat
  count : Nat
  columns : List Nat
  plot : Nat → State → Nat → State
  endRow : State → State
  stores : State → List (Nat × Color)

namespace RowLoop

def row (loop : RowLoop State Color) (state : State) (repy : Nat) : State :=
  loop.endRow (loop.columns.foldl (loop.plot repy) state)

def run (loop : RowLoop State Color) (state : State) : State :=
  (List.range' loop.first loop.count).foldl loop.row state

/-- The pass that draws the picture in the rows and columns of the loop. -/
def pass (loop : RowLoop State Color) (picture : Nat → Nat → Color) : Pass Color where
  rows := List.range' loop.first loop.count
  columns := loop.columns
  pixel repy repx := some (picture repy repx)

/-- Every pixel is stored once with the colour of the picture, as long as the state is
as `AtRow` says at the start of a row, and as `Within` says in it. -/
structure Draws (loop : RowLoop State Color) (xres : Nat) (AtRow Within : Nat → State → Prop)
    (picture : Nat → Nat → Color) : Prop where
  enter : ∀ repy state, AtRow repy state → Within repy state
  stays : ∀ repy state, Within repy state → ∀ repx, Within repy (loop.plot repy state repx)
  plots : ∀ repy state, Within repy state → ∀ repx,
    loop.stores (loop.plot repy state repx) =
      loop.stores state ++ [(repy * xres + repx, picture repy repx)]
  endRow : ∀ state, loop.stores (loop.endRow state) = loop.stores state
  next : ∀ repy state, AtRow repy state → AtRow (repy + 1) (loop.row state repy)

section Draws

variable {loop : RowLoop State Color} {xres : Nat} {AtRow Within : Nat → State → Prop}
  {picture : Nat → Nat → Color}

theorem Draws.stores_columns (draws : loop.Draws xres AtRow Within picture) {repy : Nat}
    (columns : List Nat) :
    ∀ state, Within repy state →
      loop.stores (columns.foldl (loop.plot repy) state) =
        loop.stores state ++ columns.map fun repx => (repy * xres + repx, picture repy repx) := by
  induction columns with
  | nil => simp
  | cons repx columns induction =>
      intro state within
      rw [List.foldl_cons, induction _ (draws.stays repy state within repx),
        draws.plots repy state within repx, List.map_cons, List.append_assoc,
        List.singleton_append]

theorem Draws.stores_row (draws : loop.Draws xres AtRow Within picture) {repy : Nat}
    {state : State} (atRow : AtRow repy state) :
    loop.stores (loop.row state repy) =
      loop.stores state ++
        loop.columns.map fun repx => (repy * xres + repx, picture repy repx) := by
  rw [row, draws.endRow, draws.stores_columns loop.columns state (draws.enter repy state atRow)]

private theorem Draws.stores_rows (draws : loop.Draws xres AtRow Within picture) (count : Nat) :
    ∀ first state, AtRow first state →
      loop.stores ((List.range' first count).foldl loop.row state) =
        loop.stores state ++ (List.range' first count).flatMap fun repy =>
          loop.columns.map fun repx => (repy * xres + repx, picture repy repx) := by
  induction count with
  | zero => simp
  | succ count induction =>
      intro first state atRow
      rw [List.range'_succ, List.foldl_cons, induction _ _ (draws.next first state atRow),
        draws.stores_row atRow, List.flatMap_cons, List.append_assoc]

/-- The loop makes the stores of the pass that draws the picture. -/
theorem Draws.stores_run (draws : loop.Draws xres AtRow Within picture) {state : State}
    (atFirst : AtRow loop.first state) :
    loop.stores (loop.run state) = loop.stores state ++ (loop.pass picture).stores xres := by
  rw [run, draws.stores_rows loop.count loop.first state atFirst, Pass.stores]
  simp only [pass, Option.map_some, List.filterMap_eq_map']

theorem Draws.inside (draws : loop.Draws xres AtRow Within picture) {state : State}
    (atFirst : AtRow loop.first state) (unused : loop.stores state = []) :
    ∀ store ∈ loop.stores (loop.run state),
      ∃ repy ∈ List.range' loop.first loop.count, ∃ repx ∈ loop.columns,
        store.1 = repy * xres + repx := by
  intro store member
  rw [draws.stores_run atFirst, unused, List.nil_append] at member
  rcases Pass.exists_pixel_of_mem_stores member with ⟨repy, row, repx, column, -, indexed⟩
  exact ⟨repy, row, repx, column, indexed⟩

/-- After the loop the framebuffer shows the picture. -/
theorem Draws.writeAll_run (draws : loop.Draws xres AtRow Within picture) {state : State}
    (atFirst : AtRow loop.first state) (unused : loop.stores state = [])
    (columnsInside : ∀ repx ∈ loop.columns, repx < xres) (pfbdata : FrameBuffer Color)
    {repy repx : Nat} (row : repy ∈ List.range' loop.first loop.count)
    (column : repx ∈ loop.columns) :
    writeAll pfbdata (loop.stores (loop.run state)) (repy * xres + repx) = picture repy repx := by
  have written : (loop.pass picture).writes repy repx = some (picture repy repx) :=
    Pass.writes_of_mem _ row column
  rw [draws.stores_run atFirst, unused, List.nil_append, ← Pass.paint_eq_writeAll,
    Pass.paint_apply _ (columnsInside repx column) columnsInside, written, Option.getD_some]

end Draws

/-- A flag that some columns raise and none lowers is up at the end of the row if it was
up before, or if one of the columns raises it. -/
theorem foldl_flag {Within : State → Prop} {plot : State → Nat → State} {flag : State → Bool}
    {hit : Nat → Bool} (stays : ∀ state, Within state → ∀ repx, Within (plot state repx))
    (raises : ∀ state, Within state → ∀ repx, flag (plot state repx) = (flag state || hit repx))
    (columns : List Nat) :
    ∀ state, Within state → flag (columns.foldl plot state) = (flag state || columns.any hit) := by
  induction columns with
  | nil => simp
  | cons repx columns induction =>
      intro state within
      rw [List.foldl_cons, induction _ (stays state within repx), raises state within repx,
        List.any_cons, Bool.or_assoc]

end RowLoop

end GamZ.Raster
