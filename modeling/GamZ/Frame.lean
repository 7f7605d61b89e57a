import GamZ.Foundation.Stdio
import Mathlib.Data.List.FinRange

/-! # Messages between the two boards

The client announces every alarm record with a `data_in` header and sends the
record as one frame of 70 bytes; `logout` ends the session. Both texts travel
with their terminating NUL. -/

namespace GamZ

open CString Stdio

/-- One alarm record. Slots 0 to 60 hold the half-sweep, 61 to 66 the time,
67 the warn distance. -/
abbrev Frame := Fin 70 → Byte

/-- Slots are written as numbers. -/
instance frameHasSlots : NeZero 70 := ⟨by decide⟩

/-- Readings of a half-sweep are written as numbers. -/
instance sweepHasReadings : NeZero 61 := ⟨by decide⟩

abbrev sweepSlot (i : Fin 61) : Fin 70 := i.castLE (by decide)

namespace Frame

def bytes (frame : Frame) : List Byte :=
  (List.finRange 70).map frame

@[simp] theorem length_bytes (frame : Frame) : frame.bytes.length = 70 := by
  simp [bytes]

end Frame

/-- The record as the server keeps it in `up_data`. -/
def upDataOf (frame : Frame) : Fin 70 → Int :=
  fun k => (frame k).toNat

def dataInText : List Byte :=
  ['d', 'a', 't', 'a', '_', 'i', 'n'].map byte

def logoutText : List Byte :=
  ['l', 'o', 'g', 'o', 'u', 't'].map byte

def dataInMessage : List Byte := dataInText ++ [0]

def logoutMessage : List Byte := logoutText ++ [0]

@[simp] theorem length_dataInMessage : dataInMessage.length = 8 := rfl

@[simp] theorem length_logoutMessage : logoutMessage.length = 7 := rfl

/-- The bytes the client puts on the socket: records, then possibly a logout. -/
def wire (frames : List Frame) (logout : Bool) : List Byte :=
  frames.flatMap (fun frame => dataInMessage ++ frame.bytes) ++
    if logout then logoutMessage else []

@[simp] theorem wire_nil (logout : Bool) :
    wire [] logout = if logout then logoutMessage else [] := rfl

@[simp] theorem wire_cons (frame : Frame) (frames : List Frame) (logout : Bool) :
    wire (frame :: frames) logout =
      dataInMessage ++ (frame.bytes ++ wire frames logout) := by
  simp [wire]

/-! ## Text of a record

The server keeps a record as one line of its history file: the 70 values, each
followed by a space, then a newline. -/

def recordLine (frame : Frame) : List Byte :=
  frame.bytes.flatMap (fun value => decimal value.toNat ++ [space]) ++ [newline]

/-- The history file holding the given records, oldest first. -/
def storeText (frames : List Frame) : List Byte :=
  (frames.map recordLine).flatten

private theorem length_flatMap_decimal (values : List Byte) :
    (values.flatMap fun value => decimal value.toNat ++ [space]).length ≤
      4 * values.length := by
  induction values with
  | nil => simp
  | cons head tail induction =>
      have headShort : (decimal head.toNat).length ≤ 3 :=
        decimal_length_le (by have := head.toNat_lt; omega)
      simp only [List.flatMap_cons, List.length_append, List.length_cons,
        List.length_nil]
      omega

theorem recordLine_length_lt (frame : Frame) : (recordLine frame).length < 512 := by
  have bound := length_flatMap_decimal frame.bytes
  rw [Frame.length_bytes] at bound
  rw [recordLine, List.length_append, List.length_singleton]
  omega

private theorem mem_flatMap_decimal {values : List Byte} {character : Byte}
    (member : character ∈ values.flatMap fun value => decimal value.toNat ++ [space]) :
    character = space ∨ ∃ value : Nat, character ∈ decimal value := by
  rcases List.mem_flatMap.mp member with ⟨value, -, inToken⟩
  rcases List.mem_append.mp inToken with digit | blank
  · exact .inr ⟨_, digit⟩
  · exact .inl (List.mem_singleton.mp blank)

theorem zero_not_mem_recordLine (frame : Frame) : (0 : Byte) ∉ recordLine frame := by
  intro member
  rcases List.mem_append.mp member with inValues | last
  · rcases mem_flatMap_decimal inValues with blank | ⟨value, digit⟩
    · exact absurd blank (by decide)
    · exact zero_not_mem_decimal value digit
  · exact absurd (List.mem_singleton.mp last) (by decide)

theorem newline_not_mem_values (frame : Frame) :
    newline ∉ frame.bytes.flatMap fun value => decimal value.toNat ++ [space] := by
  intro member
  rcases mem_flatMap_decimal member with blank | ⟨value, digit⟩
  · exact absurd blank (by decide)
  · exact newline_not_mem_decimal value digit

end GamZ
