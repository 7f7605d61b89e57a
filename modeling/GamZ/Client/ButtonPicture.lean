import GamZ.Client.MakeButton
import GamZ.Foundation.RowLoop

/-! # The picture of a button

The arrows of `make_button` take their width from a counter that the loop carries from
row to row. Row by row the counter is what the row asks for, so a button is a picture in
its own coordinates, whose origin is its upper left corner. -/

namespace GamZ.Client

open LastWriter Raster

/-! ## One pixel in the coordinates of the button -/

section Pixel

variable (index : Nat) (offCorners : Prop) [Decidable offCorners] (color : Color) (mod x y : Int)

def ButtonLoop.pixel (loop : ButtonLoop) : ButtonLoop :=
  let draw := loop.store index
  if offCorners then
    if mod = 0 then
      if ButtonRing (x - 75) (y - 40) then draw black else draw color
    else if mod = 1 then
      if ButtonCross (x - 75) (y - 40) then draw black else draw color
    else if mod = 2 then
      if ButtonArrow loop.i (x - 75) y then { draw black with inc := true } else draw color
    else if mod = 3 then
      if ButtonArrow loop.j (x - 75) y then { draw black with inc := true } else draw color
    else loop
  else if disc (x - 15) (y - 15) ≤ 225 then draw color
  else if disc (x - 135) (y - 15) ≤ 225 then draw color
  else if disc (x - 15) (y - 65) ≤ 225 then draw color
  else if disc (x - 135) (y - 65) ≤ 225 then draw color
  else draw black

/-- How many rows of an arrow lie above row `y`. -/
def arrowRows (y : Int) : Int := max 0 (min (y - 20) 41)

/-- The mark in the middle of the button. -/
def Marked : Prop :=
  if mod = 0 then ButtonRing (x - 75) (y - 40)
  else if mod = 1 then ButtonCross (x - 75) (y - 40)
  else if mod = 2 then ButtonArrow (y - 20) (x - 75) y
  else ButtonArrow (60 - y) (x - 75) y

instance : Decidable (Marked mod x y) :=
  inferInstanceAs (Decidable (if mod = 0 then ButtonRing (x - 75) (y - 40)
    else if mod = 1 then ButtonCross (x - 75) (y - 40)
    else if mod = 2 then ButtonArrow (y - 20) (x - 75) y
    else ButtonArrow (60 - y) (x - 75) y))

abbrev RoundedCorner : Prop :=
  disc (x - 15) (y - 15) ≤ 225 ∨ disc (x - 135) (y - 15) ≤ 225 ∨
    disc (x - 15) (y - 65) ≤ 225 ∨ disc (x - 135) (y - 65) ≤ 225

def buttonColor : Color :=
  if offCorners then if Marked mod x y then black else color
  else if RoundedCorner x y then color else black

/-- The counters of an arrow are as row `y` asks for. -/
def ButtonLoop.InRow (loop : ButtonLoop) : Prop :=
  mod = 2 ∨ mod = 3 → loop.i = arrowRows y ∧ loop.j = 40 - arrowRows y

def ButtonLoop.AtRow (loop : ButtonLoop) : Prop :=
  loop.inc = false ∧ loop.InRow mod y

/-- Whether the pixel sets `inc`. -/
def raisesInc : Bool := decide ((mod = 2 ∨ mod = 3) ∧ offCorners ∧ Marked mod x y)

variable {index offCorners color mod x y}

theorem buttonArrow_congr {width full : Int} (rows : y ≥ 20 ∧ y ≤ 60 → width = full) :
    ButtonArrow width x y ↔ ButtonArrow full x y := by
  constructor <;> rintro ⟨inside, marked⟩
  · rw [rows inside] at marked
    exact ⟨inside, marked⟩
  · rw [← rows inside] at marked
    exact ⟨inside, marked⟩

theorem arrowRows_succ (y : Int) :
    arrowRows (y + 1) = if 20 ≤ y ∧ y ≤ 60 then arrowRows y + 1 else arrowRows y := by
  rw [arrowRows, arrowRows]
  split_ifs <;> omega

/-- `if(inc)` makes the counters ready for the next row. -/
theorem ButtonLoop.endRow_atRow {loop : ButtonLoop} (inRow : loop.InRow mod y)
    (raised : mod = 2 ∨ mod = 3 → loop.inc = decide (20 ≤ y ∧ y ≤ 60)) :
    loop.endRow.AtRow mod (y + 1) := by
  constructor
  · rw [endRow]
    split_ifs with inc
    · rfl
    · exact Bool.eq_false_iff.mpr inc
  · intro arrow
    rcases inRow arrow with ⟨i, j⟩
    by_cases inside : 20 ≤ y ∧ y ≤ 60
    · have inc : loop.inc = true := (raised arrow).trans (decide_eq_true inside)
      rw [arrowRows_succ, if_pos inside, endRow, if_pos inc]
      constructor <;> dsimp only <;> omega
    · have noInc : loop.inc = false := (raised arrow).trans (decide_eq_false inside)
      rw [arrowRows_succ, if_neg inside, endRow, noInc]
      exact ⟨i, j⟩

theorem ButtonLoop.InRow.upArrow {loop : ButtonLoop} (inRow : loop.InRow 2 y) :
    ButtonArrow loop.i (x - 75) y ↔ Marked 2 x y := by
  apply buttonArrow_congr
  intro inside
  rw [(inRow (.inl rfl)).1, arrowRows]
  omega

theorem ButtonLoop.InRow.downArrow {loop : ButtonLoop} (inRow : loop.InRow 3 y) :
    ButtonArrow loop.j (x - 75) y ↔ Marked 3 x y := by
  apply buttonArrow_congr
  intro inside
  rw [(inRow (.inr rfl)).2, arrowRows]
  omega

theorem marked_rows (arrow : mod = 2 ∨ mod = 3) (marked : Marked mod x y) :
    20 ≤ y ∧ y ≤ 60 := by
  rcases arrow with isUp | isDown
  · subst isUp
    exact marked.1
  · subst isDown
    exact marked.1

theorem marked_middle (arrow : mod = 2 ∨ mod = 3) (inside : 20 ≤ y ∧ y ≤ 60) :
    Marked mod 75 y := by
  rcases arrow with isUp | isDown
  · subst isUp
    exact ⟨inside, by omega⟩
  · subst isDown
    exact ⟨inside, by omega⟩

/-- The state behind a pixel that was stored. -/
def ButtonLoop.drawn (loop : ButtonLoop) (index : Nat) (color : Color) (raised : Bool) :
    ButtonLoop :=
  { loop.store index color with inc := loop.inc || raised }

theorem ButtonLoop.pixel_corner (loop : ButtonLoop) (corner : ¬ offCorners) :
    loop.pixel index offCorners color mod x y =
      loop.drawn index (buttonColor offCorners color mod x y) (raisesInc offCorners mod x y) := by
  have noMark : raisesInc offCorners mod x y = false := by simp [raisesInc, corner]
  rw [noMark, drawn, Bool.or_false, buttonColor, if_neg corner, ButtonLoop.pixel, if_neg corner]
  simp only [RoundedCorner, ite_or]
  split_ifs <;> rfl

theorem ButtonLoop.drawn_mark {Mark : Prop} [Decidable Mark] (loop : ButtonLoop)
    (off : offCorners) (isMark : Mark ↔ Marked mod x y) :
    loop.drawn index (buttonColor offCorners color mod x y) (raisesInc offCorners mod x y) =
      if Mark then loop.drawn index black (decide (mod = 2 ∨ mod = 3))
      else loop.store index color := by
  rw [buttonColor, if_pos off]
  by_cases marked : Marked mod x y
  · rw [if_pos marked, if_pos (isMark.mpr marked)]
    simp [raisesInc, off, marked]
  · rw [if_neg marked, if_neg (mt isMark.mp marked)]
    simp [raisesInc, marked, drawn, store]

/-- Where the counters are as the row asks for, they leave no trace in the pixel. -/
theorem ButtonLoop.pixel_eq {loop : ButtonLoop} (inRow : loop.InRow mod y)
    (mode : 0 ≤ mod ∧ mod ≤ 3) :
    loop.pixel index offCorners color mod x y =
      loop.drawn index (buttonColor offCorners color mod x y) (raisesInc offCorners mod x y) := by
  by_cases off : offCorners
  · have modes : mod = 0 ∨ mod = 1 ∨ mod = 2 ∨ mod = 3 := by omega
    rw [ButtonLoop.pixel, if_pos off]
    rcases modes with isRing | isCross | isUp | isDown
    · subst isRing
      have isMark : ButtonRing (x - 75) (y - 40) ↔ Marked 0 x y := Iff.rfl
      rw [loop.drawn_mark off isMark]
      simp [drawn, store]
    · subst isCross
      have isMark : ButtonCross (x - 75) (y - 40) ↔ Marked 1 x y := Iff.rfl
      rw [loop.drawn_mark off isMark]
      simp [drawn, store]
    · subst isUp
      rw [loop.drawn_mark off inRow.upArrow]
      simp [drawn, store]
    · subst isDown
      rw [loop.drawn_mark off inRow.downArrow]
      simp [drawn, store]
  · exact loop.pixel_corner off

end Pixel

/-! ## The whole button -/

section Button

variable (xres top left : Nat) (OffCorners : Nat → Nat → Prop)
  [∀ repy repx, Decidable (OffCorners repy repx)] (color : Color) (mod : Int)

/-- A button with its upper left corner in the given row and column. -/
def buttonLoop : RowLoop ButtonLoop Color where
  first := top
  count := 80
  columns := List.range' left 150
  plot repy loop repx :=
    loop.pixel (repy * xres + repx) (OffCorners repy repx) color mod (repx - left) (repy - top)
  endRow := ButtonLoop.endRow
  stores := ButtonLoop.stores

def buttonPicture (repy repx : Nat) : Color :=
  buttonColor (OffCorners repy repx) color mod (repx - left) (repy - top)

variable {xres top left OffCorners color mod}

theorem buttonLoop_row (loop : ButtonLoop) (repy : Nat) :
    (buttonLoop xres top left OffCorners color mod).row loop repy =
      ((List.range' left 150).foldl ((buttonLoop xres top left OffCorners color mod).plot repy)
        loop).endRow := rfl

/-- A function whose inner loop draws the pixels of the button is the loop. -/
theorem foldl_eq_buttonLoop {plot : Nat → ButtonLoop → Nat → ButtonLoop}
    (same : ∀ repy loop repx,
      plot repy loop repx = (buttonLoop xres top left OffCorners color mod).plot repy loop repx)
    (loop : ButtonLoop) :
    (List.range' top 80).foldl
        (fun loop repy => ((List.range' left 150).foldl (plot repy) loop).endRow) loop =
      (buttonLoop xres top left OffCorners color mod).run loop := by
  have samePlot : plot = (buttonLoop xres top left OffCorners color mod).plot := by
    funext repy loop repx
    exact same repy loop repx
  rw [samePlot]
  rfl

theorem buttonLoop_plot (mode : 0 ≤ mod ∧ mod ≤ 3) (repy : Nat) (loop : ButtonLoop)
    (inRow : loop.InRow mod (repy - top)) (repx : Nat) :
    (buttonLoop xres top left OffCorners color mod).plot repy loop repx =
      loop.drawn (repy * xres + repx) (buttonPicture top left OffCorners color mod repy repx)
        (raisesInc (OffCorners repy repx) mod (repx - left) (repy - top)) :=
  loop.pixel_eq inRow mode

theorem buttonLoop_stays (mode : 0 ≤ mod ∧ mod ≤ 3) (repy : Nat) (loop : ButtonLoop)
    (inRow : loop.InRow mod (repy - top)) (repx : Nat) :
    ((buttonLoop xres top left OffCorners color mod).plot repy loop repx).InRow mod
      (repy - top) := by
  rw [buttonLoop_plot mode repy loop inRow]
  exact inRow

/-- The middle column is marked in every row of an arrow, and no column in another row. -/
theorem any_raisesInc (arrow : mod = 2 ∨ mod = 3) {repy : Nat}
    (middle : OffCorners repy (left + 75)) :
    (List.range' left 150).any (fun repx =>
      raisesInc (OffCorners repy repx) mod (repx - left) (repy - top)) =
        decide ((20 : Int) ≤ repy - top ∧ repy - top ≤ (60 : Int)) := by
  rw [Bool.eq_iff_iff, List.any_eq_true, decide_eq_true_iff]
  constructor
  · rintro ⟨repx, -, raised⟩
    exact marked_rows arrow (of_decide_eq_true raised).2.2
  · intro inside
    refine ⟨left + 75, List.mem_range'_1.mpr (by omega), decide_eq_true ⟨arrow, middle, ?_⟩⟩
    have column : ((left + 75 : Nat) : Int) - left = 75 := by omega
    rw [column]
    exact marked_middle arrow inside

/-- At the end of a row the counters are ready for the next. -/
theorem buttonLoop_next (mode : 0 ≤ mod ∧ mod ≤ 3)
    (middle : ∀ repy, OffCorners repy (left + 75)) (repy : Nat) (loop : ButtonLoop)
    (atRow : loop.AtRow mod (repy - top)) :
    ((buttonLoop xres top left OffCorners color mod).row loop repy).AtRow mod
      ((repy + 1 : Nat) - top) := by
  have nextRow : ((repy + 1 : Nat) : Int) - top = repy - top + 1 := by omega
  rw [nextRow, buttonLoop_row]
  apply ButtonLoop.endRow_atRow
  · apply List.foldlRecOn _ _ atRow.2
    intro loop inRow repx _
    exact buttonLoop_stays mode repy loop inRow repx
  · intro arrow
    have raises : ∀ loop : ButtonLoop, loop.InRow mod (repy - top) → ∀ repx,
        ((buttonLoop xres top left OffCorners color mod).plot repy loop repx).inc =
          (loop.inc || raisesInc (OffCorners repy repx) mod (repx - left) (repy - top)) := by
      intro loop inRow repx
      rw [buttonLoop_plot mode repy loop inRow]
      rfl
    have raised := RowLoop.foldl_flag (buttonLoop_stays mode repy) raises
      (List.range' left 150) loop atRow.2
    rw [atRow.1, Bool.false_or, any_raisesInc arrow (middle repy)] at raised
    exact raised

theorem buttonLoop_draws (mode : 0 ≤ mod ∧ mod ≤ 3)
    (middle : ∀ repy, OffCorners repy (left + 75)) :
    (buttonLoop xres top left OffCorners color mod).Draws xres
      (fun repy loop => loop.AtRow mod (repy - top))
      (fun repy loop => loop.InRow mod (repy - top))
      (buttonPicture top left OffCorners color mod) where
  enter _ _ atRow := atRow.2
  stays := buttonLoop_stays mode
  plots repy loop inRow repx := by
    rw [buttonLoop_plot mode repy loop inRow]
    rfl
  endRow := ButtonLoop.endRow_stores
  next := buttonLoop_next mode middle

theorem ButtonLoop.initial_atRow : ButtonLoop.initial.AtRow mod ((top : Int) - top) := by
  rw [Int.sub_self]
  exact ⟨rfl, fun _ => ⟨rfl, rfl⟩⟩

/-- After the loop the framebuffer shows the button. -/
theorem buttonLoop_pixel (mode : 0 ≤ mod ∧ mod ≤ 3)
    (middle : ∀ repy, OffCorners repy (left + 75)) (wide : left + 150 ≤ xres)
    (pfbdata : FrameBuffer Color) {repy repx : Nat} (row : repy < 80) (column : repx < 150) :
    writeAll pfbdata ((buttonLoop xres top left OffCorners color mod).run .initial).stores
        ((top + repy) * xres + (left + repx)) =
      buttonColor (OffCorners (top + repy) (left + repx)) color mod repx repy := by
  have columnsInside : ∀ repx ∈ List.range' left 150, repx < xres := by
    intro repx member
    have bounds := List.mem_range'_1.mp member
    omega
  have inRows : top + repy ∈ List.range' top 80 := List.mem_range'_1.mpr (by omega)
  have inColumns : left + repx ∈ List.range' left 150 := List.mem_range'_1.mpr (by omega)
  have x : ((left + repx : Nat) : Int) - left = repx := by omega
  have y : ((top + repy : Nat) : Int) - top = repy := by omega
  calc
    _ = buttonPicture top left OffCorners color mod (top + repy) (left + repx) :=
      (buttonLoop_draws mode middle).writeAll_run ButtonLoop.initial_atRow rfl columnsInside
        pfbdata inRows inColumns
    _ = buttonColor (OffCorners (top + repy) (left + repx)) color mod repx repy := by
      rw [buttonPicture, x, y]

theorem buttonLoop_inside (mode : 0 ≤ mod ∧ mod ≤ 3)
    (middle : ∀ repy, OffCorners repy (left + 75)) :
    ∀ store ∈ ((buttonLoop xres top left OffCorners color mod).run .initial).stores,
      ∃ repy ∈ List.range' top 80, ∃ repx ∈ List.range' left 150,
        store.1 = repy * xres + repx :=
  (buttonLoop_draws mode middle).inside ButtonLoop.initial_atRow rfl

end Button

/-! ## What `make_button` leaves -/

section MakeButton

variable (xres positionX : Nat) (color : Color) (mod : Int)

abbrev makeButtonLoop : RowLoop ButtonLoop Color :=
  buttonLoop xres 0 positionX (fun repy repx => OffCorners positionX repy repx) color mod

variable {xres positionX color mod}

theorem ButtonLoop.plot_eq_pixel (loop : ButtonLoop) (repy repx : Nat) :
    loop.plot xres positionX color mod repy repx =
      loop.pixel (repy * xres + repx) (OffCorners positionX repy repx) color mod
        (repx - positionX) (repy - (0 : Nat)) := by
  have row : (repy : Int) - (0 : Nat) = repy := Int.sub_zero _
  have first : (repx : Int) - positionX - 15 = repx - 15 - positionX := by omega
  have last : (repx : Int) - positionX - 135 = repx - 135 - positionX := by omega
  rw [ButtonLoop.plot, pixel, row, first, last]

theorem makeButton_eq_run : makeButton xres positionX color mod =
    ((makeButtonLoop xres positionX color mod).run .initial).stores := by
  rw [makeButton, List.range_eq_range']
  exact congrArg ButtonLoop.stores
    (foldl_eq_buttonLoop (fun repy loop repx => loop.plot_eq_pixel repy repx) .initial)

theorem offCorners_middle (repy : Nat) : OffCorners positionX repy (positionX + 75 : Nat) := by
  rw [OffCorners]
  omega

theorem makeButton_pixel (mode : 0 ≤ mod ∧ mod ≤ 3) (wide : positionX + 150 ≤ xres)
    (pfbdata : FrameBuffer Color) {repy repx : Nat} (row : repy < 80) (column : repx < 150) :
    writeAll pfbdata (makeButton xres positionX color mod) (repy * xres + (positionX + repx)) =
      buttonColor (OffCorners positionX repy (positionX + repx : Nat)) color mod repx repy := by
  have pixel : writeAll pfbdata ((makeButtonLoop xres positionX color mod).run .initial).stores
      ((0 + repy) * xres + (positionX + repx)) = _ :=
    buttonLoop_pixel mode offCorners_middle wide pfbdata row column
  rw [makeButton_eq_run]
  simpa only [Nat.zero_add] using pixel

end MakeButton

end GamZ.Client
