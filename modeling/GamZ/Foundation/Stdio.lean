import Mathlib.Tactic.IntervalCases
import GamZ.Foundation.CString

/-! # Line input and decimal text

The parts of the C library that move numbers through text files: `fgets` on an
open stream, the `%d` conversion of a nonnegative number and `atoi`. -/

namespace GamZ.Stdio

open CString

def newline : Byte := byte '\n'
def space : Byte := byte ' '

/-! ## Reading lines -/

/-- An open input stream: the bytes not read yet and the end-of-file flag that
`feof` reports. -/
structure Stream where
  rest : List Byte
  eof : Bool
  deriving DecidableEq, Repr

def fopenRead (file : List Byte) : Stream where
  rest := file
  eof := false

/-- At most `room` characters, up to and including a newline. The last
component tells that the end of the file was met. -/
def takeLine : Nat → List Byte → List Byte × List Byte × Bool
  | 0, rest => ([], rest, false)
  | _ + 1, [] => ([], [], true)
  | room + 1, character :: rest =>
      if character = newline then ([character], rest, false)
      else
        let (line, remaining, eof) := takeLine room rest
        (character :: line, remaining, eof)

/-- `fgets` into a buffer of `size` bytes. `none` is the null result, with which
the buffer is left as it was. -/
def fgets (size : Nat) (stream : Stream) : Option (List Byte) × Stream :=
  let (line, rest, eof) := takeLine (size - 1) stream.rest
  (if line = [] then none else some line, { rest, eof := stream.eof || eof })

theorem takeLine_length (room : Nat) (rest : List Byte) :
    (takeLine room rest).1.length ≤ room := by
  induction room, rest using takeLine.induct with
  | case1 => simp [takeLine]
  | case2 => simp [takeLine]
  | case3 room rest => simp [takeLine]
  | case4 room character rest different line remaining eof taken induction =>
      rw [taken] at induction
      simpa [takeLine, different, taken] using induction

theorem fgets_length {size : Nat} {stream next : Stream} {line : List Byte}
    (positive : 0 < size) (read : fgets size stream = (some line, next)) :
    line.length < size := by
  have bound := takeLine_length (size - 1) stream.rest
  simp only [fgets, Prod.mk.injEq] at read
  rcases read with ⟨isLine, -⟩
  split at isLine
  · cases isLine
  · cases isLine
    omega

theorem takeLine_line (text rest : List Byte) (noNewline : newline ∉ text) :
    ∀ room, text.length < room →
      takeLine room (text ++ newline :: rest) = (text ++ [newline], rest, false) := by
  induction text with
  | nil =>
      intro room fits
      rcases Nat.exists_eq_add_of_lt fits with ⟨room, rfl⟩
      simp [takeLine]
  | cons head tail induction =>
      intro room fits
      have headOther : head ≠ newline := fun equal => noNewline (by simp [equal])
      have tailNoNewline : newline ∉ tail := fun member => noNewline (by simp [member])
      cases room with
      | zero => simp at fits
      | succ room =>
          have shorter : tail.length < room := by simpa using fits
          simp [takeLine, headOther, induction tailNoNewline room shorter]

/-- A line that fits the buffer is read whole, its newline included. -/
theorem fgets_line {size : Nat} {text rest : List Byte} (noNewline : newline ∉ text)
    (fits : text.length + 1 < size) (eof : Bool) :
    fgets size ⟨text ++ newline :: rest, eof⟩ = (some (text ++ [newline]), ⟨rest, eof⟩) := by
  have taken := takeLine_line text rest noNewline (size - 1) (by omega)
  simp [fgets, taken]

/-- At the end of the file nothing is read and the flag is raised. -/
theorem fgets_end {size : Nat} (large : 1 < size) (eof : Bool) :
    fgets size ⟨[], eof⟩ = (none, ⟨[], true⟩) := by
  cases size with
  | zero => omega
  | succ size =>
      cases size with
      | zero => omega
      | succ room => simp [fgets, takeLine]

/-! ## Decimal text -/

/-- The `%d` conversion of a nonnegative number. -/
def decimal (value : Nat) : List Byte :=
  (Nat.toDigits 10 value).map byte

def isSpace (character : Byte) : Bool :=
  character = space || (9 ≤ character && character ≤ 13)

def isDigit (character : Byte) : Bool :=
  byte '0' ≤ character && character ≤ byte '9'

/-- The number read from the leading digits, continuing from `value`. -/
def parseDigits (value : Nat) : List Byte → Nat
  | [] => value
  | character :: rest =>
      if isDigit character then
        parseDigits (10 * value + (character.toNat - (byte '0').toNat)) rest
      else value

/-- `atoi`: white space, an optional sign, then digits. -/
def atoi (text : List Byte) : Int :=
  match text.dropWhile isSpace with
  | [] => 0
  | character :: rest =>
      if character = byte '-' then -(parseDigits 0 rest : Int)
      else if character = byte '+' then parseDigits 0 rest
      else parseDigits 0 (character :: rest)

theorem decimal_of_lt_ten {value : Nat} (small : value < 10) :
    decimal value = [UInt8.ofNat (48 + value)] := by
  rw [decimal, Nat.toDigits_of_lt_base small]
  interval_cases value <;> rfl

theorem decimal_of_ten_le {value : Nat} (large : 10 ≤ value) :
    decimal value = decimal (value / 10) ++ [UInt8.ofNat (48 + value % 10)] := by
  have last := decimal_of_lt_ten (Nat.mod_lt value (by decide : 0 < 10))
  rw [decimal, Nat.toDigits_of_lt_base (Nat.mod_lt value (by decide))] at last
  rw [decimal, Nat.toDigits_of_base_le (by decide) large, List.map_append, last]
  rfl

private theorem digit_facts {digit : Nat} (small : digit < 10) :
    isDigit (UInt8.ofNat (48 + digit)) = true ∧
      (UInt8.ofNat (48 + digit)).toNat - (byte '0').toNat = digit := by
  interval_cases digit <;> decide

theorem isDigit_of_mem_decimal (value : Nat) (character : Byte)
    (member : character ∈ decimal value) : isDigit character = true := by
  induction value using Nat.strong_induction_on with
  | _ value induction =>
      by_cases small : value < 10
      · rw [decimal_of_lt_ten small, List.mem_singleton] at member
        exact member ▸ (digit_facts small).1
      · rw [decimal_of_ten_le (by omega)] at member
        rcases List.mem_append.mp member with earlier | last
        · exact induction (value / 10) (by omega) earlier
        · rw [List.mem_singleton] at last
          exact last ▸ (digit_facts (Nat.mod_lt value (by decide))).1

theorem parseDigits_append (value : Nat) (digits rest : List Byte)
    (allDigits : ∀ character ∈ digits, isDigit character = true) :
    parseDigits value (digits ++ rest) = parseDigits (parseDigits value digits) rest := by
  induction digits generalizing value with
  | nil => rfl
  | cons head tail induction =>
      have headDigit := allDigits head (by simp)
      have tailDigits : ∀ character ∈ tail, isDigit character = true :=
        fun character member => allDigits character (by simp [member])
      simp only [List.cons_append, parseDigits, headDigit, if_true]
      exact induction _ tailDigits

theorem parseDigits_decimal (value : Nat) : parseDigits 0 (decimal value) = value := by
  induction value using Nat.strong_induction_on with
  | _ value induction =>
      by_cases small : value < 10
      · rcases digit_facts small with ⟨digit, number⟩
        rw [decimal_of_lt_ten small]
        simp only [parseDigits, digit, if_true, number]
        omega
      · have lastSmall : value % 10 < 10 := Nat.mod_lt value (by decide)
        rcases digit_facts lastSmall with ⟨digit, number⟩
        rw [decimal_of_ten_le (by omega),
          parseDigits_append _ _ _ (isDigit_of_mem_decimal _),
          induction (value / 10) (by omega)]
        simp only [parseDigits, digit, if_true, number]
        omega

theorem decimal_ne_nil (value : Nat) : decimal value ≠ [] := by
  simp [decimal]

theorem decimal_two_digits {value : Nat} (large : 10 ≤ value) :
    ∃ first second rest, decimal value = first :: second :: rest := by
  rw [decimal_of_ten_le large]
  cases front : decimal (value / 10) with
  | nil => exact absurd front (decimal_ne_nil _)
  | cons first rest =>
      cases rest with
      | nil => exact ⟨_, _, _, rfl⟩
      | cons second rest => exact ⟨_, _, _, rfl⟩

theorem decimal_length_le {value : Nat} (small : value < 1000) :
    (decimal value).length ≤ 3 := by
  rw [decimal, List.length_map, Nat.length_toDigits_le_iff (by decide) (by decide)]
  exact small

private theorem not_isDigit_facts :
    isDigit newline = false ∧ isDigit space = false ∧ isDigit 0 = false ∧
      isDigit (byte '-') = false ∧ isDigit (byte '+') = false := by
  decide

theorem newline_not_mem_decimal (value : Nat) : newline ∉ decimal value := fun member =>
  absurd (isDigit_of_mem_decimal _ _ member) (by simp [not_isDigit_facts])

theorem space_not_mem_decimal (value : Nat) : space ∉ decimal value := fun member =>
  absurd (isDigit_of_mem_decimal _ _ member) (by simp [not_isDigit_facts])

theorem zero_not_mem_decimal (value : Nat) : (0 : Byte) ∉ decimal value := fun member =>
  absurd (isDigit_of_mem_decimal _ _ member) (by simp [not_isDigit_facts])

private theorem not_isSpace_of_isDigit {character : Byte} (digit : isDigit character = true) :
    isSpace character = false := by
  have lower : 48 ≤ character.toNat := by
    simp only [isDigit, Bool.and_eq_true, decide_eq_true_eq, UInt8.le_iff_toNat_le] at digit
    exact digit.1
  have notBlank : character ≠ space := by
    intro equal
    rw [equal] at lower
    exact absurd lower (by decide)
  have aboveRange : ¬ character ≤ 13 := by
    rw [UInt8.le_iff_toNat_le]
    have limit : (13 : Byte).toNat = 13 := rfl
    omega
  simp [isSpace, notBlank, aboveRange]

theorem atoi_decimal (value : Nat) (rest : List Byte) :
    atoi (decimal value ++ 0 :: rest) = value := by
  have parsed : parseDigits 0 (decimal value ++ 0 :: rest) = value := by
    rw [parseDigits_append _ _ _ (isDigit_of_mem_decimal _),
      parseDigits_decimal]
    simp [parseDigits, not_isDigit_facts]
  cases shape : decimal value with
  | nil => exact absurd shape (decimal_ne_nil value)
  | cons head tail =>
      have headDigit : isDigit head = true :=
        isDigit_of_mem_decimal value head (by simp [shape])
      have notMinus : head ≠ byte '-' := by
        intro equal
        rw [equal] at headDigit
        simp [not_isDigit_facts] at headDigit
      have notPlus : head ≠ byte '+' := by
        intro equal
        rw [equal] at headDigit
        simp [not_isDigit_facts] at headDigit
      rw [shape] at parsed
      simp only [List.cons_append] at parsed ⊢
      simp [atoi, not_isSpace_of_isDigit headDigit, notMinus, notPlus,
        parsed]

end GamZ.Stdio
