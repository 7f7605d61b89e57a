import GamZ.Foundation.Stdio

/-! # String functions on arrays of a fixed size

An array is the list of its bytes. A function that would write outside of it has
no result. -/

namespace GamZ.CharBuffer

open CString Stdio

/-- The array with some bytes written from an offset on. -/
def storeAt (buffer : List Byte) (offset : Nat) (bytes : List Byte) : Option (List Byte) :=
  if offset + bytes.length ≤ buffer.length then
    some (buffer.take offset ++ (bytes ++ buffer.drop (offset + bytes.length)))
  else none

/-- `strcpy`, and `sprintf` of the text. -/
def strcpy (target : List Byte) (text : List Byte) : Option (List Byte) :=
  storeAt target 0 (text ++ [0])

def strlen (buffer : List Byte) : Nat :=
  (contents buffer).length

/-- Without a NUL in the target it is looked for, and the text written, outside. -/
def strncat (target source : List Byte) (count : Nat) : Option (List Byte) :=
  storeAt target (strlen target) ((contents source).take count ++ [0])

/-- The number of bytes arrives as a `size_t`. -/
def memset (buffer : List Byte) (offset : Nat) (value : Byte) (count : Int) :
    Option (List Byte) :=
  storeAt buffer offset (List.replicate (count % 2 ^ 32).toNat value)

theorem storeAt_append (before middle after bytes : List Byte)
    (sameLength : middle.length = bytes.length) :
    storeAt (before ++ (middle ++ after)) before.length bytes =
      some (before ++ (bytes ++ after)) := by
  have inside : before.length + bytes.length ≤ (before ++ (middle ++ after)).length := by
    simp only [List.length_append]
    omega
  have dropped : (before ++ (middle ++ after)).drop (before.length + bytes.length) = after := by
    rw [← List.drop_drop, List.drop_left, ← sameLength, List.drop_left]
  rw [storeAt, if_pos inside, dropped, List.take_left]

theorem storeAt_eq_none {buffer bytes : List Byte} {offset : Nat}
    (outside : buffer.length < offset + bytes.length) : storeAt buffer offset bytes = none := by
  rw [storeAt, if_neg (by omega)]

theorem length_storeAt {buffer bytes stored : List Byte} {offset : Nat}
    (run : storeAt buffer offset bytes = some stored) : stored.length = buffer.length := by
  unfold storeAt at run
  split at run
  · cases run
    simp only [List.length_append, List.length_take, List.length_drop]
    omega
  · cases run

theorem length_strcpy {target text stored : List Byte} (run : strcpy target text = some stored) :
    stored.length = target.length :=
  length_storeAt run

/-- A text fits with its terminator or not at all. -/
theorem strcpy_eq_some_iff {target text stored : List Byte} :
    strcpy target text = some stored ↔
      text.length < target.length ∧ stored = text ++ 0 :: target.drop (text.length + 1) := by
  rw [strcpy, storeAt, List.length_append, List.length_singleton, Nat.zero_add]
  constructor
  · intro run
    split at run
    · rename_i fits
      cases run
      exact ⟨fits, by simp⟩
    · cases run
  · intro fits
    rw [if_pos (Nat.succ_le_of_lt fits.1), fits.2]
    simp

theorem contents_strcpy {target text stored : List Byte} (noNul : (0 : Byte) ∉ text)
    (run : strcpy target text = some stored) : contents stored = text := by
  rw [(strcpy_eq_some_iff.mp run).2, contents_append_zero _ _ noNul]

/-! ## Formats -/

/-- `%d` with a minimal width, filled on the left. -/
def padLeft (width : Nat) (fill : Byte) (text : List Byte) : List Byte :=
  List.replicate (width - text.length) fill ++ text

def minus : List Byte := [byte '-']

def signedDecimal (value : Int) : List Byte :=
  if value < 0 then minus ++ decimal value.natAbs else decimal value.natAbs

/-- `%<width>d` -/
def spacePadded (width : Nat) (value : Int) : List Byte :=
  padLeft width space (signedDecimal value)

/-- `%0<width>d`; the zeros stand behind the sign. -/
def zeroPadded (width : Nat) (value : Int) : List Byte :=
  if value < 0 then minus ++ padLeft (width - 1) (byte '0') (decimal value.natAbs)
  else padLeft width (byte '0') (decimal value.natAbs)

theorem le_length_padLeft (width : Nat) (fill : Byte) (text : List Byte) :
    width ≤ (padLeft width fill text).length := by
  simp only [padLeft, List.length_append, List.length_replicate]
  omega

theorem zero_not_mem_padLeft {width : Nat} {fill : Byte} {text : List Byte} (filled : fill ≠ 0)
    (noNul : (0 : Byte) ∉ text) : (0 : Byte) ∉ padLeft width fill text := by
  intro member
  rcases List.mem_append.mp member with inFill | inText
  · exact filled (List.eq_of_mem_replicate inFill).symm
  · exact noNul inText

theorem zero_not_mem_signedDecimal (value : Int) : (0 : Byte) ∉ signedDecimal value := by
  unfold signedDecimal
  split
  · intro member
    rcases List.mem_append.mp member with inSign | inDigits
    · exact absurd inSign (by decide)
    · exact zero_not_mem_decimal _ inDigits
  · exact zero_not_mem_decimal _

theorem zero_not_mem_spacePadded (width : Nat) (value : Int) :
    (0 : Byte) ∉ spacePadded width value :=
  zero_not_mem_padLeft (by decide) (zero_not_mem_signedDecimal value)

theorem zero_not_mem_zeroPadded (width : Nat) (value : Int) :
    (0 : Byte) ∉ zeroPadded width value := by
  unfold zeroPadded
  split
  · intro member
    rcases List.mem_append.mp member with inSign | inDigits
    · exact absurd inSign (by decide)
    · exact zero_not_mem_padLeft (by decide) (zero_not_mem_decimal _) inDigits
  · exact zero_not_mem_padLeft (by decide) (zero_not_mem_decimal _)

theorem le_length_zeroPadded (width : Nat) (value : Int) :
    width ≤ (zeroPadded width value).length := by
  unfold zeroPadded
  split
  · have digits := le_length_padLeft (width - 1) (byte '0') (decimal value.natAbs)
    have sign : minus.length = 1 := rfl
    rw [List.length_append, sign]
    omega
  · exact le_length_padLeft _ _ _

theorem le_length_spacePadded (width : Nat) (value : Int) :
    width ≤ (spacePadded width value).length :=
  le_length_padLeft _ _ _

theorem length_padLeft_le_iff {width : Nat} {fill : Byte} {text : List Byte} :
    (padLeft width fill text).length ≤ width ↔ text.length ≤ width := by
  simp only [padLeft, List.length_append, List.length_replicate]
  omega

theorem length_decimal_le_iff {width : Nat} (positive : 0 < width) (value : Nat) :
    (decimal value).length ≤ width ↔ value < 10 ^ width := by
  rw [decimal, List.length_map, Nat.length_toDigits_le_iff (by decide) positive]

/-- The numbers that are no wider than their format. -/
def FitsWidth (width : Nat) (value : Int) : Prop :=
  -(10 ^ (width - 1) : Nat) < value ∧ value < (10 ^ width : Nat)

instance (width : Nat) (value : Int) : Decidable (FitsWidth width value) := by
  unfold FitsWidth
  infer_instance

theorem fitsWidth_iff {width : Nat} (wide : 1 < width) (value : Int) :
    FitsWidth width value ↔
      if value < 0 then (decimal value.natAbs).length + 1 ≤ width
      else (decimal value.natAbs).length ≤ width := by
  unfold FitsWidth
  split_ifs with negative
  · have digits := length_decimal_le_iff (show 0 < width - 1 by omega) value.natAbs
    have below : (0 : Int) < (10 ^ width : Nat) := by positivity
    constructor
    · intro fits
      have short := digits.mpr (by omega)
      omega
    · intro short
      have small := digits.mp (by omega)
      omega
  · have digits := length_decimal_le_iff (show 0 < width by omega) value.natAbs
    have below : (0 : Int) < (10 ^ (width - 1) : Nat) := by positivity
    rw [digits]
    omega

theorem length_zeroPadded_le_iff {width : Nat} (wide : 1 < width) (value : Int) :
    (zeroPadded width value).length ≤ width ↔ FitsWidth width value := by
  rw [fitsWidth_iff wide, zeroPadded]
  split_ifs with negative
  · have digits : (padLeft (width - 1) (byte '0') (decimal value.natAbs)).length ≤ width - 1 ↔
        (decimal value.natAbs).length ≤ width - 1 := length_padLeft_le_iff
    have sign : minus.length = 1 := rfl
    rw [List.length_append, sign]
    omega
  · exact length_padLeft_le_iff

theorem length_spacePadded_le_iff {width : Nat} (wide : 1 < width) (value : Int) :
    (spacePadded width value).length ≤ width ↔ FitsWidth width value := by
  rw [fitsWidth_iff wide, spacePadded, length_padLeft_le_iff, signedDecimal]
  split_ifs with negative
  · rw [List.length_append, Nat.add_comm]
    rfl
  · rfl

end GamZ.CharBuffer
