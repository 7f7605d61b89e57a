import GamZ.Driver.CharDevice
import Mathlib.Data.List.FinRange
import Mathlib.Logic.Function.Basic

/-! # The seven-segment display

`fnd/` packs four digits into one 16-bit register and reads them back. The
register holds the last value written. -/

namespace GamZ.Driver

open CString

/-- `unsigned char value[4]`, and the buffers of the same size of its users. -/
abbrev FndBuffer := Fin 4 → Byte

/-- `value[0] << 12 | value[1] << 8 | value[2] << 4 | value[3]` -/
def fndPack (value : FndBuffer) : UInt16 :=
  UInt16.ofNat ((value 0).toNat <<< 12 ||| (value 1).toNat <<< 8 ||| (value 2).toNat <<< 4 |||
    (value 3).toNat)

/-- `(_s_value >> shift) & 0xF` -/
def fndNibble (value : UInt16) (shift : Nat) : Byte :=
  UInt8.ofNat (value.toNat >>> shift &&& 0xF)

def fndUnpack (value : UInt16) : FndBuffer
  | 0 => fndNibble value 12
  | 1 => fndNibble value 8
  | 2 => fndNibble value 4
  | 3 => fndNibble value 0

/-- The register after a write, the bytes taken from the user, and the result. -/
structure FndWrite where
  register : UInt16
  consumed : Nat
  returned : Int

/-- `count` is not looked at. `copy_from_user` leaves `notCopied` bytes out. -/
def iomFndWrite (register : UInt16) (buf : FndBuffer) (notCopied : Nat) : FndWrite :=
  if notCopied ≠ 0 then { register, consumed := 4 - notCopied, returned := -efault }
  else { register := fndPack buf, consumed := 4, returned := 1 }

/-- The user's buffer after a read, the bytes stored in it, and the result. -/
structure FndRead where
  buffer : FndBuffer
  produced : Nat
  returned : Int

def copyToUser (buf value : FndBuffer) (length : Nat) : FndBuffer :=
  fun i => if i.val < length then value i else buf i

def iomFndRead (register : UInt16) (buf : FndBuffer) (notCopied : Nat) : FndRead where
  buffer := copyToUser buf (fndUnpack register) (1 - notCopied)
  produced := 1 - notCopied
  returned := if notCopied ≠ 0 then -efault else 1

/-! ## Sequences of calls -/

abbrev Digits := Fin 4 → Fin 10

def Digits.data (digits : Digits) : FndBuffer :=
  fun i => UInt8.ofNat (digits i)

inductive FndOperation
  | write (digits : Digits)
  | read (buf : FndBuffer)

def FndOperation.register (register : UInt16) : FndOperation → UInt16
  | .write digits => (iomFndWrite register digits.data 0).register
  | .read _ => register

def registerAfter (register : UInt16) (operations : List FndOperation) : UInt16 :=
  operations.foldl FndOperation.register register

def FndOperation.written (last : Option Digits) : FndOperation → Option Digits
  | .write digits => some digits
  | .read _ => last

def lastWritten (operations : List FndOperation) : Option Digits :=
  operations.foldl FndOperation.written none

/-- A call returns the number of bytes it takes or stores, and a read stores what
was written last. -/
def FndOperation.Lawful (register : UInt16) (last : Option Digits) : FndOperation → Prop
  | .write digits =>
      (iomFndWrite register digits.data 0).returned =
        (iomFndWrite register digits.data 0).consumed
  | .read buf =>
      (iomFndRead register buf 0).returned = (iomFndRead register buf 0).produced ∧
        ∀ digits, last = some digits → (iomFndRead register buf 0).buffer = digits.data

def ReadBackLaw (register : UInt16) (operations : List FndOperation) : Prop :=
  ∀ before operation after, operations = before ++ operation :: after →
    operation.Lawful (registerAfter register before) (lastWritten before)

def FndOperation.IsWrite : FndOperation → Prop
  | .write _ => True
  | .read _ => False

/-! ## The test program -/

/-- The argument that passes the assertions of `fpga_fnd_test`. -/
structure FndArgument where
  digits : List (Fin 10)
  fits : digits.length ≤ 4

/-- `data`, padded with zeros. -/
def FndArgument.padded (argument : FndArgument) : Digits :=
  fun i => argument.digits[i.val]?.getD 0

def FndArgument.printed (argument : FndArgument) (register : UInt16) : List Byte :=
  let written := iomFndWrite register argument.padded.data 0
  let read := iomFndRead written.register (fun _ => 0) 0
  (List.finRange 4).take argument.digits.length |>.map read.buffer

/-! ## Digits in the register -/

private theorem or_of_nibble {high low : Nat} (count : Nat) (small : low < 1 <<< count) :
    high <<< count ||| low = high <<< count + low := by
  rw [Nat.one_shiftLeft] at small
  exact (Nat.shiftLeft_add_eq_or_of_lt small high).symm

theorem fndPack_toNat (value : FndBuffer) (small : ∀ i, (value i).toNat < 16) :
    (fndPack value).toNat = (value 0).toNat * 4096 + (value 1).toNat * 256 +
      (value 2).toNat * 16 + (value 3).toNat := by
  have first := small 0
  have second := small 1
  have third := small 2
  have fourth := small 3
  have upper : (value 0).toNat <<< 12 ||| (value 1).toNat <<< 8 =
      ((value 0).toNat * 16 + (value 1).toNat) <<< 8 := by
    rw [Nat.shiftLeft_eq (value 1).toNat, or_of_nibble 12 (by omega)]
    omega
  have upperThree : ((value 0).toNat * 16 + (value 1).toNat) <<< 8 ||| (value 2).toNat <<< 4 =
      (((value 0).toNat * 16 + (value 1).toNat) * 16 + (value 2).toNat) <<< 4 := by
    rw [Nat.shiftLeft_eq (value 2).toNat, or_of_nibble 8 (by omega)]
    omega
  rw [fndPack, upper, upperThree, or_of_nibble 4 (by omega), UInt16.toNat_ofNat']
  omega

theorem fndNibble_eq (value : UInt16) (shift : Nat) :
    fndNibble value shift = UInt8.ofNat (value.toNat >>> shift % 16) := by
  have masked : value.toNat >>> shift &&& 15 = value.toNat >>> shift % 16 :=
    Nat.and_two_pow_sub_one_eq_mod (value.toNat >>> shift) 4
  rw [fndNibble]
  exact congrArg UInt8.ofNat masked

/-- Four nibbles go through the register and back. -/
theorem fndUnpack_fndPack (value : FndBuffer) (small : ∀ i, (value i).toNat < 16) :
    fndUnpack (fndPack value) = value := by
  have first := small 0
  have second := small 1
  have third := small 2
  have fourth := small 3
  have packed := fndPack_toNat value small
  have nibble : ∀ (i : Fin 4) (shift : Nat),
      (fndPack value).toNat >>> shift % 16 = (value i).toNat →
      fndNibble (fndPack value) shift = value i := by
    intro i shift digit
    rw [fndNibble_eq, digit, UInt8.ofNat_toNat]
  funext i
  match i with
  | 0 => exact nibble 0 12 (by omega)
  | 1 => exact nibble 1 8 (by omega)
  | 2 => exact nibble 2 4 (by omega)
  | 3 => exact nibble 3 0 (by omega)

theorem Digits.data_lt (digits : Digits) (i : Fin 4) : (digits.data i).toNat < 16 := by
  have digit := (digits i).isLt
  rw [Digits.data, UInt8.toNat_ofNat']
  omega

theorem zero_eq_digit_iff (digit : Fin 10) : 0 = UInt8.ofNat digit ↔ digit = 0 := by
  revert digit
  decide

/-- After a write of digits, a read stores the first one alone. -/
theorem read_after_write (register : UInt16) (digits : Digits) (buf : FndBuffer) :
    (iomFndRead (iomFndWrite register digits.data 0).register buf 0).buffer =
      Function.update buf 0 (digits.data 0) := by
  have back := fndUnpack_fndPack digits.data digits.data_lt
  funext i
  have written : (iomFndWrite register digits.data 0).register = fndPack digits.data := rfl
  simp only [written, iomFndRead, copyToUser, back]
  by_cases first : i = 0
  · rw [first, Function.update_self]
    rfl
  · have notFirst : ¬ i.val < 1 - 0 := by
      intro small
      exact first (Fin.ext (by omega))
    rw [if_neg notFirst, Function.update_of_ne first]

/-! ## Runs -/

theorem registerAfter_reads (register : UInt16) (reads : List FndBuffer) :
    registerAfter register (reads.map .read) = register := by
  induction reads with
  | nil => rfl
  | cons buf reads induction => exact induction

theorem registerAfter_write_reads (register : UInt16) (before : List FndOperation)
    (digits : Digits) (reads : List FndBuffer) :
    registerAfter register (before ++ .write digits :: reads.map .read) =
      (iomFndWrite (registerAfter register before) digits.data 0).register := by
  rw [registerAfter, List.foldl_append, List.foldl_cons]
  exact registerAfter_reads _ reads

theorem lastWritten_of_reads {operations : List FndOperation}
    (reads : ∀ operation ∈ operations, ¬ operation.IsWrite) : lastWritten operations = none := by
  have kept : ∀ last, operations.foldl FndOperation.written last = last := by
    induction operations with
    | nil => exact fun _ => rfl
    | cons operation operations induction =>
        intro last
        cases operation with
        | write digits => exact absurd trivial (reads (.write digits) (by simp))
        | read buf =>
            exact induction (fun other member => reads other (List.mem_cons_of_mem _ member)) last
  exact kept none

theorem write_not_lawful (register : UInt16) (last : Option Digits) (digits : Digits) :
    ¬ (FndOperation.write digits).Lawful register last := by
  intro lawful
  have counts : (1 : Int) = (4 : Nat) := lawful
  exact absurd counts (by decide)

theorem readBackLaw_iff (register : UInt16) (operations : List FndOperation) :
    ReadBackLaw register operations ↔ ∀ operation ∈ operations, ¬ operation.IsWrite := by
  constructor
  · intro law operation member isWrite
    rcases List.append_of_mem member with ⟨before, after, split⟩
    cases operation with
    | write digits => exact write_not_lawful _ _ digits (law before _ after split)
    | read buf => exact isWrite
  · intro reads before operation after split
    cases operation with
    | write digits => exact absurd trivial (reads (.write digits) (by simp [split]))
    | read buf =>
        have earlier : lastWritten before = none := lastWritten_of_reads
          fun other member => reads other (by simp [split, member])
        refine ⟨rfl, ?_⟩
        intro digits impossible
        rw [earlier] at impossible
        cases impossible

theorem update_eq_data_iff (buf : FndBuffer) (digits : Digits) :
    Function.update buf 0 (digits.data 0) = digits.data ↔ ∀ i, i ≠ 0 → buf i = digits.data i := by
  constructor
  · intro filled i notFirst
    rw [← filled, Function.update_of_ne notFirst]
  · intro alike
    funext i
    by_cases first : i = 0
    · rw [first, Function.update_self]
    · rw [Function.update_of_ne first]
      exact alike i first

theorem FndArgument.printed_eq_iff (argument : FndArgument) (register : UInt16) :
    argument.printed register = argument.digits.map (fun digit => UInt8.ofNat digit) ↔
      ∀ digit ∈ argument.digits.tail, digit = 0 := by
  have firstDigit : argument.padded.data 0 =
      UInt8.ofNat (argument.digits[0]?.getD (0 : Fin 10)).val := rfl
  have positions : List.finRange 4 = [0, 1, 2, 3] := rfl
  simp only [printed, read_after_write, positions]
  rcases argument with ⟨digits, fits⟩
  match digits with
  | [] => simp
  | [a] => simp [firstDigit]
  | [a, b] => simp [firstDigit, zero_eq_digit_iff]
  | [a, b, c] => simp [firstDigit, zero_eq_digit_iff]
  | [a, b, c, d] => simp [firstDigit, zero_eq_digit_iff]
  | a :: b :: c :: d :: e :: rest =>
      simp only [List.length_cons] at fits
      omega

/-- A sequence is lawful as long as nothing is written. After a write, a read
fills the buffer only where the buffer has the other three digits already, and the
test program prints its argument only if all digits but the first are zero. -/
theorem fnd_read_back_iff (register : UInt16) :
    (∀ operations, ReadBackLaw register operations ↔
      ∀ operation ∈ operations, ¬ operation.IsWrite) ∧
    (∀ (before : List FndOperation) (digits : Digits) (reads : List FndBuffer) (buf : FndBuffer),
      (iomFndRead (registerAfter register (before ++ .write digits :: reads.map .read))
          buf 0).buffer = digits.data ↔
        ∀ i, i ≠ 0 → buf i = digits.data i) ∧
    ∀ argument : FndArgument,
      argument.printed register = argument.digits.map (fun digit => UInt8.ofNat digit) ↔
        ∀ digit ∈ argument.digits.tail, digit = 0 := by
  refine ⟨readBackLaw_iff register, ?_, fun argument => argument.printed_eq_iff register⟩
  intro before digits reads buf
  rw [registerAfter_write_reads, read_after_write]
  exact update_eq_data_iff buf digits

/-- Digits 1 2 3 4 are written and read back. -/
theorem one_two_three_four_lost :
    ¬ ∀ (register : UInt16) (operations : List FndOperation), ReadBackLaw register operations := by
  intro law
  have written := law 0 [.write fun i => ⟨i.val + 1, by omega⟩, .read fun _ => 0] [] _ _ rfl
  exact write_not_lawful _ _ _ written

end GamZ.Driver
