import GamZ.Server.RecordFile
import Mathlib.Data.List.SplitLengths

/-! # The frames of a byte stream

The client writes messages, the server reads bytes. Where a frame begins and ends in
the stream is settled by the messages, whatever the reads make of it. -/

namespace GamZ.Server

open CString

/-- The seventy bytes behind each header, as far as the stream consists of whole
records. -/
def framesIn (stream : List Byte) : List Frame :=
  if 78 ≤ stream.length ∧ stream.take 8 = dataInMessage then
    recordOf (stream.drop 8) :: framesIn (stream.drop 78)
  else []
termination_by stream.length
decreasing_by
  rw [List.length_drop]
  omega

theorem framesIn_short {stream : List Byte} (short : stream.length < 78) :
    framesIn stream = [] := by
  rw [framesIn, if_neg fun whole => by omega]

theorem framesIn_record (frame : Frame) (rest : List Byte) :
    framesIn (dataInMessage ++ (frame.bytes ++ rest)) = frame :: framesIn rest := by
  have long : 78 ≤ (dataInMessage ++ (frame.bytes ++ rest)).length := by
    simp only [List.length_append, length_dataInMessage, Frame.length_bytes]
    omega
  have header : (dataInMessage ++ (frame.bytes ++ rest)).take 8 = dataInMessage :=
    List.take_left' length_dataInMessage
  have content : (dataInMessage ++ (frame.bytes ++ rest)).drop 8 = frame.bytes ++ rest :=
    List.drop_left' length_dataInMessage
  have behind : (dataInMessage ++ (frame.bytes ++ rest)).drop 78 = rest := by
    rw [show 78 = 8 + 70 from rfl, ← List.drop_drop, content, List.drop_left' frame.length_bytes]
  rw [framesIn, if_pos ⟨long, header⟩, content, behind]
  congr 1
  funext i
  have inside : i.val < frame.bytes.length := by simp
  rw [recordOf, List.getD_append _ _ _ _ inside, List.getD_eq_getElem _ _ inside]
  simp [Frame.bytes]

/-- Of the client's stream, cut off anywhere, these are the frames that are whole. -/
theorem framesIn_take_wire (frames : List Frame) (logout : Bool) :
    ∀ total, framesIn ((wire frames logout).take total) = frames.take (total / 78) := by
  induction frames with
  | nil =>
      intro total
      have short : ((wire [] logout).take total).length < 78 := by
        cases logout <;> simp [logoutMessage, logoutText]
      rw [framesIn_short short, List.take_nil]
  | cons frame frames induction =>
      intro total
      rcases Nat.lt_or_ge total 78 with short | long
      · have cut : ((wire (frame :: frames) logout).take total).length < 78 := by
          rw [List.length_take]
          omega
        rw [framesIn_short cut, Nat.div_eq_of_lt short, List.take_zero]
      · have front : (wire (frame :: frames) logout).take total =
            dataInMessage ++ (frame.bytes ++ (wire frames logout).take (total - 78)) := by
          rw [wire_cons, List.take_append, List.take_append, length_dataInMessage,
            Frame.length_bytes, List.take_of_length_le (by rw [length_dataInMessage]; omega),
            List.take_of_length_le (by rw [Frame.length_bytes]; omega)]
          rfl
        have more : total / 78 = (total - 78) / 78 + 1 := by omega
        rw [front, framesIn_record, induction, more, List.take_succ_cons]

theorem flatten_splitLengths_take (sizes : List Nat) :
    ∀ stream : List Byte, (sizes.splitLengths stream).flatten = stream.take sizes.sum := by
  induction sizes with
  | nil => simp
  | cons size sizes induction =>
      intro stream
      rw [List.splitLengths_cons, List.flatten_cons, induction, List.sum_cons, List.take_add]

/-! ## The stream byte by byte -/

section Bytes

variable {frames : List Frame} {logout : Bool} {position : Nat}

theorem drop_wire (frames : List Frame) (logout : Bool) :
    ∀ count ≤ frames.length,
      (wire frames logout).drop (78 * count) = wire (frames.drop count) logout := by
  induction frames with
  | nil =>
      intro count within
      rw [Nat.le_zero.mp within]
      rfl
  | cons frame frames induction =>
      intro count within
      cases count with
      | zero => rfl
      | succ count =>
          have behind : (wire (frame :: frames) logout).drop 78 = wire frames logout := by
            rw [wire_cons, show 78 = 8 + 70 from rfl, ← List.drop_drop,
              List.drop_left' length_dataInMessage, List.drop_left' frame.length_bytes]
          rw [Nat.mul_succ, Nat.add_comm, ← List.drop_drop, behind, List.drop_succ_cons]
          exact induction count (Nat.le_of_succ_le_succ within)

theorem length_wire_eq (frames : List Frame) (logout : Bool) :
    (wire frames logout).length = 78 * frames.length + if logout then 7 else 0 := by
  induction frames with
  | nil => cases logout <;> rfl
  | cons frame frames induction =>
      rw [wire_cons, List.length_append, List.length_append, induction, length_dataInMessage,
        Frame.length_bytes, List.length_cons]
      omega

private theorem getD_wire (frames : List Frame) (logout : Bool) {count : Nat}
    (within : count ≤ frames.length) (offset : Nat) :
    (wire frames logout).getD (78 * count + offset) 0 =
      (wire (frames.drop count) logout).getD offset 0 := by
  rw [← drop_wire frames logout count within, List.getD_eq_getElem?_getD,
    List.getD_eq_getElem?_getD, List.getElem?_drop]

theorem headerByte (inRecords : position < 78 * frames.length) (inHeader : position % 78 < 8) :
    (wire frames logout).getD position 0 = dataInMessage.getD (position % 78) 0 := by
  have occurs : position / 78 < frames.length := by omega
  have split := getD_wire frames logout (Nat.le_of_lt occurs) (position % 78)
  rw [Nat.div_add_mod, List.drop_eq_getElem_cons occurs, wire_cons,
    List.getD_append _ _ _ _ (by rw [length_dataInMessage]; exact inHeader)] at split
  exact split

theorem frameByte (occurs : position / 78 < frames.length) (inFrame : 8 ≤ position % 78) :
    (wire frames logout).getD position 0 =
      frames[position / 78] ⟨position % 78 - 8, by omega⟩ := by
  have split := getD_wire frames logout (Nat.le_of_lt occurs) (position % 78)
  have slot : position % 78 - 8 < (frames[position / 78]).bytes.length := by
    rw [Frame.length_bytes]
    omega
  rw [Nat.div_add_mod, List.drop_eq_getElem_cons occurs, wire_cons,
    List.getD_append_right _ _ _ _ (by rw [length_dataInMessage]; exact inFrame),
    length_dataInMessage, List.getD_append _ _ _ _ slot, List.getD_eq_getElem _ _ slot] at split
  rw [split]
  simp [Frame.bytes]

theorem endByte (behind : 78 * frames.length ≤ position) :
    (wire frames logout).getD position 0 =
      (if logout then logoutMessage else []).getD (position - 78 * frames.length) 0 := by
  have split := getD_wire frames logout (Nat.le_refl _) (position - 78 * frames.length)
  rw [Nat.add_sub_cancel' behind, List.drop_length, wire_nil] at split
  exact split

end Bytes

/-! ## What a read is taken for -/

/-- The `read` of `size` bytes at a position of the stream. -/
def readAt (stream : List Byte) (position size : Nat) : List Byte :=
  (stream.drop position).take size

theorem getD_readAt (stream : List Byte) (position size i : Nat) :
    (readAt stream position size).getD i 0 =
      if i < size then stream.getD (position + i) 0 else 0 := by
  rw [readAt, List.getD_eq_getElem?_getD, List.getElem?_take]
  split_ifs
  · rw [List.getElem?_drop, List.getD_eq_getElem?_getD]
  · rfl

theorem splitLengths_drop (stream : List Byte) (position size : Nat) (sizes : List Nat) :
    (size :: sizes).splitLengths (stream.drop position) =
      readAt stream position size :: sizes.splitLengths (stream.drop (position + size)) := by
  rw [List.splitLengths_cons, List.drop_drop, readAt]

theorem readAt_eq_text_iff {text : List Byte} (noNul : (0 : Byte) ∉ text) (stream : List Byte)
    (position size : Nat) :
    contents (readAt stream position size) = text ↔
      ∀ i ≤ text.length,
        (if i < size then stream.getD (position + i) 0 else 0) = text.getD i 0 := by
  simp only [contents_eq_iff noNul, getD_readAt]

theorem recordOf_readAt (stream : List Byte) (position size : Nat) (i : Fin 70) :
    recordOf (readBuffer (readAt stream position size)) i =
      if i.val < size then stream.getD (position + i.val) 0 else 0 := by
  rw [← getD_readAt, recordOf, readBuffer]
  rcases Nat.lt_or_ge i.val (readAt stream position size).length with inside | outside
  · rw [List.getD_append _ _ _ _ inside]
  · rw [List.getD_append_right _ _ _ _ outside, List.getD_eq_default _ _ outside]
    simp [List.getD_eq_getElem?_getD]

end GamZ.Server
