import GamZ.Client.ButtonPicture

/-! # The practice program for the buttons

Beside `make_button`, which moves a button to the right, the practice program has
`make_button_y`, which moves it down. The test for the corners adds `position_y` to the
row, where every other place subtracts it. -/

namespace GamZ.Practice

open Client LastWriter Raster

/-- `make_button` is that of the client, but for a counter that it prints. -/
abbrev makeButton : Nat → Nat → Color → Int → List (Nat × Color) := Client.makeButton

/-- The corner test of `make_button_y`, with the sign that it has there. -/
abbrev OffCornersY (positionY repy repx : Int) : Prop :=
  (repx ≥ 15 ∨ repy + positionY ≥ 15) ∧ (repx < 135 ∨ repy + positionY ≥ 15) ∧
    (repx ≥ 15 ∨ repy + positionY < 65) ∧ (repx < 135 ∨ repy + positionY < 65)

section Button

variable (xres positionY : Nat) (color : Color) (mod : Int)

/-- The body of the inner loop of `make_button_y`. -/
def plotY (repy : Nat) (loop : ButtonLoop) (repx : Nat) : ButtonLoop :=
  let x : Int := repx - 75
  let y : Int := repy - positionY - 40
  let draw := loop.store (repy * xres + repx)
  if OffCornersY positionY repy repx then
    if mod = 0 then
      if ButtonRing x y then draw black else draw color
    else if mod = 1 then
      if ButtonCross x y then draw black else draw color
    else if mod = 2 then
      if ButtonArrow loop.i x (repy - positionY) then { draw black with inc := true }
      else draw color
    else if mod = 3 then
      if ButtonArrow loop.j x (repy - positionY) then { draw black with inc := true }
      else draw color
    else loop
  else if disc (repx - 15) (repy - positionY - 15) ≤ 225 then draw color
  else if disc (repx - 135) (repy - positionY - 15) ≤ 225 then draw color
  else if disc (repx - 15) (repy - positionY - 65) ≤ 225 then draw color
  else if disc (repx - 135) (repy - positionY - 65) ≤ 225 then draw color
  else draw black

def rowY (loop : ButtonLoop) (repy : Nat) : ButtonLoop :=
  ((List.range 150).foldl (plotY xres positionY color mod repy) loop).endRow

/-- The stores of `make_button_y`, one after the other. -/
def makeButtonY : List (Nat × Color) :=
  ((List.range' positionY 80).foldl (rowY xres positionY color mod) .initial).stores

abbrev makeButtonYLoop : RowLoop ButtonLoop Color :=
  buttonLoop xres positionY 0 (fun repy repx => OffCornersY positionY repy repx) color mod

variable {xres positionY color mod}

theorem plotY_eq_pixel (loop : ButtonLoop) (repy repx : Nat) :
    plotY xres positionY color mod repy loop repx =
      loop.pixel (repy * xres + repx) (OffCornersY positionY repy repx) color mod
        (repx - (0 : Nat)) (repy - positionY) := by
  have column : (repx : Int) - (0 : Nat) = repx := Int.sub_zero _
  rw [plotY, ButtonLoop.pixel, column]

theorem makeButtonY_eq_run : makeButtonY xres positionY color mod =
    ((makeButtonYLoop xres positionY color mod).run .initial).stores := by
  have columns : rowY xres positionY color mod = fun loop repy =>
      ((List.range' 0 150).foldl (plotY xres positionY color mod repy) loop).endRow := by
    funext loop repy
    rw [rowY, List.range_eq_range']
  rw [makeButtonY, columns,
    foldl_eq_buttonLoop (fun repy loop repx => plotY_eq_pixel loop repy repx)]

theorem offCornersY_middle (repy : Nat) : OffCornersY positionY repy (0 + 75 : Nat) := by
  rw [OffCornersY]
  omega

theorem makeButtonY_pixel (mode : 0 ≤ mod ∧ mod ≤ 3) (wide : 150 ≤ xres)
    (pfbdata : FrameBuffer Color) {repy repx : Nat} (row : repy < 80) (column : repx < 150) :
    writeAll pfbdata (makeButtonY xres positionY color mod) ((positionY + repy) * xres + repx) =
      buttonColor (OffCornersY positionY (positionY + repy : Nat) repx) color mod repx repy := by
  have pixel : writeAll pfbdata ((makeButtonYLoop xres positionY color mod).run .initial).stores
      ((positionY + repy) * xres + (0 + repx)) = _ :=
    buttonLoop_pixel mode offCornersY_middle (by omega) pfbdata row column
  rw [makeButtonY_eq_run]
  simpa only [Nat.zero_add] using pixel

theorem makeButton_pixel (mode : 0 ≤ mod ∧ mod ≤ 3) (wide : 150 ≤ xres)
    (pfbdata : FrameBuffer Color) {repy repx : Nat} (row : repy < 80) (column : repx < 150) :
    writeAll pfbdata (makeButton xres 0 color mod) (repy * xres + repx) =
      buttonColor (OffCorners 0 repy repx) color mod repx repy := by
  have pixel : writeAll pfbdata (Client.makeButton xres 0 color mod)
      (repy * xres + (0 + repx)) = _ :=
    Client.makeButton_pixel mode (by omega) pfbdata row column
  simpa only [Nat.zero_add, Nat.cast_zero] using pixel

/-! ## The button that is moved down -/

/-- The rows and columns of a button at the left edge of the screen. -/
def InRectangle (xres top index : Nat) : Prop :=
  ∃ repy < 80, ∃ repx < 150, index = (top + repy) * xres + repx

/-- `make_button_y` draws what `make_button` draws, further down, and neither draws
anything else. -/
structure MovedDown (xres positionY : Nat) (color : Color) (mod : Int)
    (pfbdata : FrameBuffer Color) : Prop where
  samePixels : ∀ repy < 80, ∀ repx < 150,
    writeAll pfbdata (makeButtonY xres positionY color mod) ((positionY + repy) * xres + repx) =
      writeAll pfbdata (makeButton xres 0 color mod) (repy * xres + repx)
  inside : ∀ store ∈ makeButton xres 0 color mod, InRectangle xres 0 store.1
  insideY : ∀ store ∈ makeButtonY xres positionY color mod, InRectangle xres positionY store.1

theorem makeButton_inside : ∀ store ∈ makeButton xres 0 color mod,
    InRectangle xres 0 store.1 := by
  intro store member
  rcases Client.makeButton_inside store member with ⟨repy, row, repx, column, indexed⟩
  have bounds := List.mem_range'_1.mp column
  exact ⟨repy, row, repx, by omega, by rw [Nat.zero_add, indexed]⟩

theorem makeButtonY_inside (mode : 0 ≤ mod ∧ mod ≤ 3) :
    ∀ store ∈ makeButtonY xres positionY color mod, InRectangle xres positionY store.1 := by
  intro store member
  rw [makeButtonY_eq_run] at member
  rcases buttonLoop_inside mode offCornersY_middle store member with
    ⟨repy, row, repx, column, indexed⟩
  have rows := List.mem_range'_1.mp row
  have columns := List.mem_range'_1.mp column
  have moved : positionY + (repy - positionY) = repy := by omega
  exact ⟨repy - positionY, by omega, repx, by omega, by rw [moved, indexed]⟩

theorem samePixel (mode : 0 ≤ mod ∧ mod ≤ 3) (wide : 150 ≤ xres) (pfbdata : FrameBuffer Color)
    {repy repx : Nat} (row : repy < 80) (column : repx < 150)
    (sameTest : OffCornersY positionY (positionY + repy : Nat) repx ↔ OffCorners 0 repy repx) :
    writeAll pfbdata (makeButtonY xres positionY color mod) ((positionY + repy) * xres + repx) =
      writeAll pfbdata (makeButton xres 0 color mod) (repy * xres + repx) := by
  rw [makeButtonY_pixel mode wide pfbdata row column, makeButton_pixel mode wide pfbdata row column,
    buttonColor, buttonColor]
  simp only [sameTest]

/-- Between the corners the button is moved down as it is, wherever it goes. -/
theorem samePixel_between_corners (mode : 0 ≤ mod ∧ mod ≤ 3) (wide : 150 ≤ xres)
    (pfbdata : FrameBuffer Color) {repy repx : Nat} (row : repy < 80)
    (between : 15 ≤ repx ∧ repx < 135) :
    writeAll pfbdata (makeButtonY xres positionY color mod) ((positionY + repy) * xres + repx) =
      writeAll pfbdata (makeButton xres 0 color mod) (repy * xres + repx) := by
  apply samePixel mode wide pfbdata row (by omega)
  rw [OffCornersY, OffCorners]
  omega

theorem samePixel_at_top (mode : 0 ≤ mod ∧ mod ≤ 3) (wide : 150 ≤ xres)
    (pfbdata : FrameBuffer Color) {repy repx : Nat} (row : repy < 80) (column : repx < 150) :
    writeAll pfbdata (makeButtonY xres 0 color mod) ((0 + repy) * xres + repx) =
      writeAll pfbdata (makeButton xres 0 color mod) (repy * xres + repx) := by
  apply samePixel mode wide pfbdata row column
  rw [OffCornersY, OffCorners]
  omega

theorem samePixel_black (mode : 0 ≤ mod ∧ mod ≤ 3) (wide : 150 ≤ xres)
    (pfbdata : FrameBuffer Color) {repy repx : Nat} (row : repy < 80) (column : repx < 150) :
    writeAll pfbdata (makeButtonY xres positionY black mod) ((positionY + repy) * xres + repx) =
      writeAll pfbdata (makeButton xres 0 black mod) (repy * xres + repx) := by
  rw [makeButtonY_pixel mode wide pfbdata row column, makeButton_pixel mode wide pfbdata row column]
  simp only [buttonColor, ite_self]

/-- `make_button_y` takes the last pixel of the left side for one of the corner below,
and cuts it off. -/
theorem last_pixel_of_left_side (mode : 0 ≤ mod ∧ mod ≤ 3) (wide : 150 ≤ xres)
    (pfbdata : FrameBuffer Color) (moved : 0 < positionY) :
    writeAll pfbdata (makeButtonY xres positionY color mod) ((positionY + 64) * xres + 0) = black ∧
      writeAll pfbdata (makeButton xres 0 color mod) (64 * xres + 0) = color := by
  have modes : mod = 0 ∨ mod = 1 ∨ mod = 2 ∨ mod = 3 := by omega
  have inCorner : ¬ OffCornersY positionY (positionY + 64 : Nat) (0 : Nat) := by
    rw [OffCornersY]
    omega
  have cutOff : ¬ RoundedCorner (0 : Nat) (64 : Nat) := by decide
  have onSide : OffCorners 0 (64 : Nat) (0 : Nat) := by decide
  have unmarked : ¬ Marked mod (0 : Nat) (64 : Nat) := by
    rcases modes with isMode | isMode | isMode | isMode <;> subst isMode <;> decide
  constructor
  · rw [makeButtonY_pixel mode wide pfbdata (by decide) (by decide), buttonColor, if_neg inCorner,
      if_neg cutOff]
  · rw [makeButton_pixel mode wide pfbdata (by decide) (by decide), buttonColor, if_pos onSide,
      if_neg unmarked]

theorem not_movedDown (mode : 0 ≤ mod ∧ mod ≤ 3) (wide : 150 ≤ xres)
    {pfbdata : FrameBuffer Color} (moved : 0 < positionY) (visible : color ≠ black) :
    ¬ MovedDown xres positionY color mod pfbdata := by
  intro movedDown
  have sameCorner := movedDown.samePixels 64 (by decide) 0 (by decide)
  rcases last_pixel_of_left_side mode wide pfbdata moved with ⟨cut, drawn⟩
  rw [cut, drawn] at sameCorner
  exact visible sameCorner.symm

/-- The copy differs by one sign, and only a black button or one that stays hides it. -/
theorem makeButtonY_movedDown_iff (wide : 150 ≤ xres) (mode : 0 ≤ mod ∧ mod ≤ 3)
    (positionY : Nat) (color : Color) (pfbdata : FrameBuffer Color) :
    MovedDown xres positionY color mod pfbdata ↔ positionY = 0 ∨ color = black := by
  constructor
  · intro movedDown
    by_contra differs
    rw [not_or] at differs
    exact not_movedDown mode wide (Nat.pos_of_ne_zero differs.1) differs.2 movedDown
  · intro hidden
    refine ⟨?_, makeButton_inside, makeButtonY_inside mode⟩
    intro repy row repx column
    rcases hidden with stays | isBlack
    · subst stays
      exact samePixel_at_top mode wide pfbdata row column
    · subst isBlack
      exact samePixel_black mode wide pfbdata row column

/-- A button at the top of the board's own screen. -/
theorem makeButtonY_movedDown_at_top : MovedDown 1024 0 puple 2 fun _ => white :=
  (makeButtonY_movedDown_iff (by decide) (by decide) 0 puple _).mpr (.inl rfl)

/-- The practice program itself moves its last button to row 200 and draws it in the
colour 992. -/
theorem makeButtonY_not_movedDown :
    ¬ ∀ (xres positionY : Nat) (color : Color) (mod : Int) (pfbdata : FrameBuffer Color),
      150 ≤ xres → 0 ≤ mod ∧ mod ≤ 3 → MovedDown xres positionY color mod pfbdata := by
  intro always
  have called := always 1024 200 992 1 (fun _ => black) (by decide) (by decide)
  exact not_movedDown (by decide) (by decide) (by decide) (by decide) called

end Button

end GamZ.Practice
