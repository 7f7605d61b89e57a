import GamZ.Client.Panel
import GamZ.Radar

/-! # The buttons on the screen

`make_button` draws one button into the topmost rows of the screen: a field with rounded
corners, and in its middle a ring, a cross or an arrow. The arrows change their width
from row to row. -/

namespace GamZ.Client

def puple : Color := 60957

/-- What `make_button` keeps from pixel to pixel, with the stores it has made. -/
structure ButtonLoop where
  i : Int
  j : Int
  inc : Bool
  stores : List (Nat × Color)

def ButtonLoop.initial : ButtonLoop where
  i := 0
  j := 40
  inc := false
  stores := []

/-- `*(pfbdata+offset+repx) = color;` -/
def ButtonLoop.store (loop : ButtonLoop) (index : Nat) (color : Color) : ButtonLoop :=
  { loop with stores := loop.stores ++ [(index, color)] }

/-- The part of the button between its four corners. -/
abbrev OffCorners (positionX repy repx : Int) : Prop :=
  (repx ≥ 15 + positionX ∨ repy ≥ 15) ∧ (repx < 135 + positionX ∨ repy ≥ 15) ∧
    (repx ≥ 15 + positionX ∨ repy < 65) ∧ (repx < 135 + positionX ∨ repy < 65)

abbrev ButtonRing (x y : Int) : Prop :=
  disc x y ≤ 529 ∧ disc x y ≥ 324

abbrev ButtonCross (x y : Int) : Prop :=
  ((x ≥ -20 ∧ x < 20) ∧ (y ≥ -20 ∧ y < 20)) ∧
    ((y ≥ x - 1 ∧ y ≤ x + 1) ∨ (y ≤ -1 * x + 1 ∧ y ≥ -1 * x - 1))

abbrev ButtonArrow (width x repy : Int) : Prop :=
  (repy ≥ 20 ∧ repy ≤ 60) ∧ (x ≥ -1 * width ∧ x ≤ width)

section Button

variable (xres positionX : Nat) (color : Color) (mod : Int)

/-- The body of the inner loop. A mark that `mod` does not name is not drawn. -/
def ButtonLoop.plot (repy : Nat) (loop : ButtonLoop) (repx : Nat) : ButtonLoop :=
  let x : Int := repx - positionX - 75
  let y : Int := repy - 40
  let draw := loop.store (repy * xres + repx)
  if OffCorners positionX repy repx then
    if mod = 0 then
      if ButtonRing x y then draw black else draw color
    else if mod = 1 then
      if ButtonCross x y then draw black else draw color
    else if mod = 2 then
      if ButtonArrow loop.i x repy then { draw black with inc := true } else draw color
    else if mod = 3 then
      if ButtonArrow loop.j x repy then { draw black with inc := true } else draw color
    else loop
  else if disc (repx - 15 - positionX) (repy - 15) ≤ 225 then draw color
  else if disc (repx - 135 - positionX) (repy - 15) ≤ 225 then draw color
  else if disc (repx - 15 - positionX) (repy - 65) ≤ 225 then draw color
  else if disc (repx - 135 - positionX) (repy - 65) ≤ 225 then draw color
  else draw black

/-- `if(inc)` at the end of a row. -/
def ButtonLoop.endRow (loop : ButtonLoop) : ButtonLoop :=
  if loop.inc then { loop with i := loop.i + 1, j := loop.j - 1, inc := false } else loop

def ButtonLoop.row (loop : ButtonLoop) (repy : Nat) : ButtonLoop :=
  ((List.range' positionX 150).foldl (ButtonLoop.plot xres positionX color mod repy) loop).endRow

/-- The stores of `make_button`, one after the other. -/
def makeButton : List (Nat × Color) :=
  ((List.range 80).foldl (ButtonLoop.row xres positionX color mod) .initial).stores

/-! ## Where a button is drawn -/

def InButton (index : Nat) : Prop :=
  ∃ repy < 80, ∃ repx ∈ List.range' positionX 150, index = repy * xres + repx

def ButtonLoop.StaysInside (loop : ButtonLoop) : Prop :=
  ∀ store ∈ loop.stores, InButton xres positionX store.1

variable {xres positionX color mod}

/-- A pixel of the inner loop is stored at its own index or not at all. -/
theorem ButtonLoop.plot_stores (repy repx : Nat) (loop : ButtonLoop) :
    (loop.plot xres positionX color mod repy repx).stores = loop.stores ∨
      ∃ shown, (loop.plot xres positionX color mod repy repx).stores =
        loop.stores ++ [(repy * xres + repx, shown)] := by
  dsimp only [ButtonLoop.plot]
  split_ifs <;> first
    | exact .inl rfl
    | exact .inr ⟨_, rfl⟩

theorem ButtonLoop.StaysInside.plot {loop : ButtonLoop} {repy repx : Nat}
    (inside : loop.StaysInside xres positionX) (row : repy < 80)
    (column : repx ∈ List.range' positionX 150) :
    (loop.plot xres positionX color mod repy repx).StaysInside xres positionX := by
  intro store member
  rcases loop.plot_stores repy repx with same | ⟨shown, stored⟩
  · rw [same] at member
    exact inside store member
  · rw [stored] at member
    rcases List.mem_append.mp member with earlier | last
    · exact inside store earlier
    · rw [List.mem_singleton.mp last]
      exact ⟨repy, row, repx, column, rfl⟩

theorem ButtonLoop.endRow_stores (loop : ButtonLoop) : loop.endRow.stores = loop.stores := by
  rw [endRow]
  split_ifs <;> rfl

theorem ButtonLoop.StaysInside.row {loop : ButtonLoop} {repy : Nat}
    (inside : loop.StaysInside xres positionX) (row : repy < 80) :
    (loop.row xres positionX color mod repy).StaysInside xres positionX := by
  rw [StaysInside, ButtonLoop.row, endRow_stores]
  apply List.foldlRecOn _ _ inside
  intro loop inside repx column
  exact inside.plot row column

theorem makeButton_inside : ∀ store ∈ makeButton xres positionX color mod,
    InButton xres positionX store.1 := by
  rw [makeButton]
  apply List.foldlRecOn (motive := ButtonLoop.StaysInside xres positionX)
  · exact fun store member => nomatch member
  · intro loop inside repy row
    exact inside.row (List.mem_range.mp row)

end Button

end GamZ.Client
