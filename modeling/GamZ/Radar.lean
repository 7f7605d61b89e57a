import GamZ.Foundation.Raster
import Mathlib.Algebra.Order.Ring.Abs
import Mathlib.Data.List.GetD
import Mathlib.Tactic.IntervalCases

/-! # The half disc on both boards

Each octant of the half disc is painted in sectors, numbered by the entries of
`tan_list`. A pixel has the coordinates `x` to the right of the centre and `y`
above it. -/

namespace GamZ

open Raster

abbrev Color := UInt16

def white : Color := 0xffff

def black : Color := 0x0000

def yellow : Color := 0b1111111111100000

def red : Color := 0b1111100000000000

def green : Color := 0b0000001111100000

def blue : Color := 0b0000000000011111

def tanList : List Int :=
  [0, 524, 1051, 1583, 2125, 2679, 3249, 3838, 4452, 5095, 5773, 6494, 7265, 8097, 9004, 10000]

inductive Octant
  | rightLower
  | rightUpper
  | leftUpper
  | leftLower
deriving DecidableEq, Repr

/-- One pass of a painting loop: the octant, the loop variable and the slot of
`r` it uses. -/
structure Bearing where
  octant : Octant
  i : Nat
  slot : Nat
deriving DecidableEq, Repr

/-- How a sector is painted: in colour up to a radius, the colour telling whether
the reading is below the warn line. -/
structure Sector where
  radius : Int
  belowWarn : Bool
deriving DecidableEq, Repr

/-- `for(i = 1; i <= 15; i++)` -/
def upwards : List Nat := List.range' 1 15

/-- `for(i = 15; i > 0; i--)` -/
def downwards : List Nat := (List.range' 1 15).reverse

/-- `for(repy = first; repy >= last; repy--)` -/
def rowsDown (first last : Nat) : List Nat := (List.range' last (first + 1 - last)).reverse

/-- An accepted reading of the distance sensor, 0 to 250. -/
abbrev Reading := Fin 251

/-- Readings are written as numbers. -/
instance readingHasValues : NeZero 251 := ⟨by decide⟩

/-! ## Figures -/

def disc (x y : Int) : Int := x * x + y * y

theorem disc_neg (x y : Int) : disc (-x) y = disc x y := by
  simp [disc]

abbrev WarnRing (tempWarn x y : Int) : Prop :=
  disc x y ≤ (tempWarn + 10) * (tempWarn + 10) ∧ disc x y > tempWarn * tempWarn

abbrev RangeRing (radius x y : Int) : Prop :=
  disc x y ≤ (radius + 3) * (radius + 3) ∧ disc x y > radius * radius

abbrev OuterRing (x y : Int) : Prop :=
  disc x y ≤ 250000 + 10000 ∧ disc x y > 250000

abbrev SteepSpoke (x y : Int) : Prop :=
  y ≥ 2 * x - 1 ∧ y ≤ 2 * x + 1

abbrev FlatSpoke (x y : Int) : Prop :=
  2 * y ≥ x - 2 ∧ 2 * y ≤ x + 2

abbrev Wedge (i : Nat) (temp : Int) : Prop :=
  if i = 0 then temp ≤ tanList.getD i 0
  else temp ≤ tanList.getD i 0 ∧ temp ≥ tanList.getD (i - 1) 0

/-! ## Painting an octant -/

namespace Octant

def columns : Octant → List Nat
  | rightLower | rightUpper => List.range' 513 500
  | leftUpper | leftLower => List.range' 0 512

/-- `x`, mirrored on the left. -/
def x (octant : Octant) (repx : Nat) : Int :=
  match octant with
  | rightLower | rightUpper => repx - 512
  | leftUpper | leftLower => -1 * (repx - 512)

/-- The tangent `temp` of the angle to the nearer axis, times 10000. -/
def temp : Octant → Int → Int → Int
  | rightLower, x, y | leftLower, x, y => (y * 10000).tdiv x
  | rightUpper, x, y | leftUpper, x, y => (x * 10000).tdiv y

end Octant

theorem Octant.disc_x (octant : Octant) (repx : Nat) (y : Int) :
    disc (octant.x repx) y = disc ((repx : Int) - 512) y := by
  cases octant <;> simp only [x, neg_one_mul, disc_neg]

def sectorPixel (tempWarn : Int) (color : Color) (radius : Int) (i : Nat) (x y temp : Int) :
    Option Color :=
  if WarnRing tempWarn x y then some yellow
  else if SteepSpoke x y then
    if disc x y ≤ 500 * 500 then some white else none
  else if FlatSpoke x y then
    if disc x y ≤ 500 * 500 then some white else none
  else if RangeRing 100 x y then some white
  else if RangeRing 200 x y then some white
  else if RangeRing 300 x y then some white
  else if RangeRing 400 x y then some white
  else if Wedge i temp then
    if disc x y ≤ radius * radius then some color
    else if disc x y ≤ 500 * 500 then some black
    else none
  else none

/-- The vertical line through the centre, painted between the two sides. -/
def columnPass (rows : List Nat) : Pass Color where
  rows := rows
  columns := [512]
  pixel _ _ := some white

/-! ## Rows, columns and wedges -/

theorem mem_rowsDown {first last repy : Nat} :
    repy ∈ rowsDown first last ↔ last ≤ repy ∧ repy ≤ first := by
  simp only [rowsDown, List.mem_reverse, List.mem_range'_1]
  omega

theorem lowestRow_y : (599 : Int) - ((599 : Nat) : Int) = 0 := by decide

theorem centreColumn_x : ((512 : Nat) : Int) - 512 = 0 := by decide

/-- A value between the ends of a sequence lies between two neighbours. -/
private theorem exists_neighbours (sequence : Nat → Int) (value : Int)
    (low : sequence 0 ≤ value) :
    ∀ last, value ≤ sequence (last + 1) →
      ∃ i, 0 < i ∧ i ≤ last + 1 ∧ sequence (i - 1) ≤ value ∧ value ≤ sequence i := by
  intro last
  induction last with
  | zero => exact fun high => ⟨1, by decide, by decide, low, high⟩
  | succ last induction =>
      intro high
      rcases le_total (sequence (last + 1)) value with above | below
      · exact ⟨last + 2, by omega, by omega, above, high⟩
      · rcases induction below with ⟨i, positive, inRange, between⟩
        exact ⟨i, positive, by omega, between⟩

theorem exists_wedge (temp : Int) (low : 0 ≤ temp) (high : temp ≤ 10000) :
    ∃ i : Fin 16, 0 < i.val ∧ Wedge i.val temp := by
  rcases exists_neighbours (fun i => tanList.getD i 0) temp low 14 high with
    ⟨i, positive, inRange, above, below⟩
  refine ⟨⟨i, by omega⟩, positive, ?_⟩
  rw [Wedge, if_neg (Nat.ne_of_gt positive)]
  exact ⟨below, above⟩

theorem tangent_bounds {opposite adjacent : Int} (nonneg : 0 ≤ opposite)
    (positive : 0 < adjacent) (shorter : opposite ≤ adjacent) :
    0 ≤ (opposite * 10000).tdiv adjacent ∧ (opposite * 10000).tdiv adjacent ≤ 10000 := by
  rw [Int.tdiv_eq_ediv_of_nonneg (by omega)]
  constructor
  · exact Int.ediv_nonneg (by omega) (by omega)
  · apply Int.ediv_le_of_le_mul positive
    omega

theorem disc_abs (x y : Int) : disc |x| y = disc x y := by
  rw [disc, disc, abs_mul_abs_self]

/-- A pixel off the centre column stays below the top row. -/
theorem disc_bounds {x y : Int} (inDisc : disc x y ≤ 250000) (offCentre : x ≠ 0) :
    |x| ≤ 500 ∧ y ≤ 499 := by
  have away := Int.one_le_abs offCentre
  rw [← disc_abs, disc] at inDisc
  constructor
  · by_contra far
    have := mul_self_nonneg y
    nlinarith
  · by_contra high
    nlinarith

theorem octant_columns_lt (octant : Octant) {column : Nat} (member : column ∈ octant.columns) :
    column < 1024 := by
  cases octant <;> rw [Octant.columns, List.mem_range'_1] at member <;> omega

theorem centre_notMem_columns (octant : Octant) : 512 ∉ octant.columns := by
  cases octant <;> rw [Octant.columns, List.mem_range'_1] <;> omega

theorem columnPass_writes {rows : List Nat} {repy : Nat} (row : repy ∈ rows) :
    (columnPass rows).writes repy 512 = some white := by
  rw [Pass.writes_of_mem]
  · rfl
  · exact row
  · exact List.mem_singleton_self 512

theorem column_writes {rows : List Nat} {repx : Nat} (repy : Nat) (offCentre : repx ≠ 512) :
    (columnPass rows).writes repy repx = none := by
  rw [Pass.writes, if_neg]
  simp [columnPass, offCentre]

/-! ## Sectors of the half disc -/

/-- The octants of a pixel: the side by the sign of `x`, the half by the diagonal. -/
def Octant.Holds : Octant → Int → Int → Prop
  | rightLower, x, y => 0 < x ∧ y ≤ |x|
  | rightUpper, x, y => 0 < x ∧ |x| ≤ y
  | leftUpper, x, y => x < 0 ∧ |x| ≤ y
  | leftLower, x, y => x < 0 ∧ y ≤ |x|

instance (octant : Octant) (x y : Int) : Decidable (octant.Holds x y) :=
  match octant with
  | .rightLower => inferInstanceAs (Decidable (_ ∧ _))
  | .rightUpper => inferInstanceAs (Decidable (_ ∧ _))
  | .leftUpper => inferInstanceAs (Decidable (_ ∧ _))
  | .leftLower => inferInstanceAs (Decidable (_ ∧ _))

/-- The pixel lies in the octant of the pass and between the borders of its sector. -/
def Bearing.InSector (bearing : Bearing) (x y : Int) : Prop :=
  bearing.octant.Holds x y ∧ Wedge bearing.i (bearing.octant.temp |x| y)

instance (bearing : Bearing) (x y : Int) : Decidable (bearing.InSector x y) :=
  inferInstanceAs (Decidable (_ ∧ _))

/-- The spokes and range rings, which every pass draws over its sector. -/
def OnFigure (x y : Int) : Prop :=
  SteepSpoke x y ∨ FlatSpoke x y ∨ ∃ radius ∈ [100, 200, 300, 400], RangeRing radius x y

instance (x y : Int) : Decidable (OnFigure x y) :=
  inferInstanceAs (Decidable (_ ∨ _ ∨ _))

/-- What a sector shows at a squared distance from the centre. -/
def sectorColor (color : Color) (radius distance : Int) : Color :=
  if distance ≤ radius * radius then color else black

theorem sectorPixel_ring {tempWarn radius x y temp : Int} {color : Color} {i : Nat}
    (onRing : WarnRing tempWarn x y) :
    sectorPixel tempWarn color radius i x y temp = some yellow :=
  if_pos onRing

theorem sectorPixel_figure {tempWarn radius x y temp : Int} {color : Color} {i : Nat}
    (offRing : ¬ WarnRing tempWarn x y) (onFigure : OnFigure x y) :
    sectorPixel tempWarn color radius i x y temp =
      if disc x y ≤ 500 * 500 then some white else none := by
  rw [sectorPixel, if_neg offRing]
  by_cases steep : SteepSpoke x y
  · rw [if_pos steep]
  by_cases flat : FlatSpoke x y
  · rw [if_neg steep, if_pos flat]
  rcases onFigure with onSteep | onFlat | ⟨radius, member, onRing⟩
  · exact absurd onSteep steep
  · exact absurd onFlat flat
  · have near : disc x y ≤ 500 * 500 := by
      have bound := onRing.1
      have small : radius ≤ 400 ∧ 0 ≤ radius := by
        simp only [List.mem_cons, List.not_mem_nil, or_false] at member
        omega
      nlinarith
    rw [if_neg steep, if_neg flat]
    simp only [List.mem_cons, List.not_mem_nil, or_false] at member
    by_cases first : RangeRing 100 x y
    · rw [if_pos first, if_pos near]
    by_cases second : RangeRing 200 x y
    · rw [if_neg first, if_pos second, if_pos near]
    by_cases third : RangeRing 300 x y
    · rw [if_neg first, if_neg second, if_pos third, if_pos near]
    have fourth : RangeRing 400 x y := by
      rcases member with isFirst | isSecond | isThird | isFourth
      · exact absurd (isFirst ▸ onRing) first
      · exact absurd (isSecond ▸ onRing) second
      · exact absurd (isThird ▸ onRing) third
      · exact isFourth ▸ onRing
    rw [if_neg first, if_neg second, if_neg third, if_pos fourth, if_pos near]

/-- Off the figures a pass paints its sector and nothing else. -/
theorem sectorPixel_plain {tempWarn radius x y temp : Int} {color : Color} {i : Nat}
    (offRing : ¬ WarnRing tempWarn x y) (offFigure : ¬ OnFigure x y) :
    sectorPixel tempWarn color radius i x y temp =
      if Wedge i temp ∧ (disc x y ≤ radius * radius ∨ disc x y ≤ 500 * 500) then
        some (sectorColor color radius (disc x y))
      else none := by
  simp only [OnFigure, List.mem_cons, List.not_mem_nil, or_false, exists_eq_or_imp,
    exists_eq_left, not_or] at offFigure
  rcases offFigure with ⟨steep, flat, first, second, third, fourth⟩
  rw [sectorPixel, if_neg offRing, if_neg steep, if_neg flat, if_neg first, if_neg second,
    if_neg third, if_neg fourth, sectorColor]
  by_cases wedge : Wedge i temp
  · by_cases near : disc x y ≤ radius * radius
    · rw [if_pos wedge, if_pos near, if_pos near, if_pos ⟨wedge, .inl near⟩]
    · by_cases inSquare : disc x y ≤ 500 * 500
      · rw [if_pos wedge, if_neg near, if_neg near, if_pos inSquare, if_pos ⟨wedge, .inr inSquare⟩]
      · rw [if_pos wedge, if_neg near, if_neg inSquare,
          if_neg fun reached => reached.2.elim near inSquare]
  · rw [if_neg wedge, if_neg fun reached => wedge reached.1]

theorem sectorPixel_ne_none {tempWarn radius x y temp : Int} {color : Color} {i : Nat}
    (inDisc : disc x y ≤ 250000) (wedge : Wedge i temp) :
    sectorPixel tempWarn color radius i x y temp ≠ none := by
  have inSquare : disc x y ≤ 500 * 500 := inDisc
  by_cases onRing : WarnRing tempWarn x y
  · rw [sectorPixel_ring onRing]
    exact Option.some_ne_none _
  by_cases onFigure : OnFigure x y
  · rw [sectorPixel_figure onRing onFigure, if_pos inSquare]
    exact Option.some_ne_none _
  · rw [sectorPixel_plain onRing onFigure, if_pos ⟨wedge, .inr inSquare⟩]
    exact Option.some_ne_none _

/-- A colour of its own is painted by a pass inside its sector only. -/
theorem sectorPixel_own {tempWarn radius x y temp : Int} {color shown : Color} {i : Nat}
    (painted : sectorPixel tempWarn color radius i x y temp = some shown)
    (notYellow : shown ≠ yellow) (notWhite : shown ≠ white) (notBlack : shown ≠ black) :
    shown = color ∧ disc x y ≤ radius * radius ∧ ¬ WarnRing tempWarn x y ∧ ¬ OnFigure x y := by
  by_cases onRing : WarnRing tempWarn x y
  · rw [sectorPixel_ring onRing] at painted
    exact absurd (Option.some.inj painted).symm notYellow
  by_cases onFigure : OnFigure x y
  · rw [sectorPixel_figure onRing onFigure] at painted
    split_ifs at painted
    exact absurd (Option.some.inj painted).symm notWhite
  · rw [sectorPixel_plain onRing onFigure, sectorColor] at painted
    split_ifs at painted with _ near
    · exact ⟨(Option.some.inj painted).symm, near, onRing, onFigure⟩
    · exact absurd (Option.some.inj painted).symm notBlack

private theorem tanList_le (i : Nat) : tanList.getD i 0 ≤ 10000 := by
  rcases Nat.lt_or_ge i 16 with inside | outside
  · interval_cases i <;> decide
  · rw [List.getD_eq_default _ _ outside]
    decide

theorem Wedge.below_diagonal {i : Nat} {opposite adjacent : Int} (nonneg : 0 ≤ opposite)
    (positive : 0 < adjacent) (near : adjacent ≤ 500)
    (wedge : Wedge i ((opposite * 10000).tdiv adjacent)) : opposite ≤ adjacent := by
  have bound : (opposite * 10000).tdiv adjacent ≤ 10000 := by
    rw [Wedge] at wedge
    split_ifs at wedge with first
    · exact le_trans wedge (tanList_le i)
    · exact le_trans wedge.1 (tanList_le i)
  rw [Int.tdiv_eq_ediv_of_nonneg (by omega)] at bound
  have quotient := Int.lt_ediv_add_one_mul_self (opposite * 10000) positive
  nlinarith

/-- Every pixel off the centre column lies in the wedge of one of its octants. -/
theorem exists_inSector {x y : Int} (offCentre : x ≠ 0) (above : 0 ≤ y) :
    ∃ octant : Octant, octant.Holds x y ∧
      ∃ i : Fin 16, 0 < i.val ∧ Wedge i.val (octant.temp |x| y) := by
  have positive : 0 < |x| := abs_pos.mpr offCentre
  rcases le_total y |x| with flat | steep
  · rcases tangent_bounds above positive flat with ⟨low, high⟩
    rcases lt_or_gt_of_ne offCentre with left | right
    · exact ⟨.leftLower, ⟨left, flat⟩, exists_wedge _ low high⟩
    · exact ⟨.rightLower, ⟨right, flat⟩, exists_wedge _ low high⟩
  · rcases tangent_bounds positive.le (lt_of_lt_of_le positive steep) steep with ⟨low, high⟩
    rcases lt_or_gt_of_ne offCentre with left | right
    · exact ⟨.leftUpper, ⟨left, steep⟩, exists_wedge _ low high⟩
    · exact ⟨.rightUpper, ⟨right, steep⟩, exists_wedge _ low high⟩

end GamZ
