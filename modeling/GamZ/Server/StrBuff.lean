import GamZ.Frame

/-! # Loading the history file into `str_buff`

The receiver and the history view read `input.txt` with the same loop: `fgets`
into one row of a 10 by 512 array after the other, until `feof`. -/

namespace GamZ.Server

open CString Stdio

/-- What makes a run of the C code undefined. -/
inductive Fault
  /-- A stdio call received the null stream of a failed `fopen`. -/
  | nullStream
  /-- A row of `str_buff` beyond the tenth was accessed. -/
  | strBuffRow
  /-- A character was stored beyond the four bytes of `temp`. -/
  | tempOverrun
  /-- A value was stored beyond the rows or columns of `data`. -/
  | dataOverrun
  deriving DecidableEq, Repr

/-- One row of `str_buff`: the characters in front of the terminator that
`fgets` or `strcpy` put there. Both fit the 512 bytes. -/
abbrev Row := { text : List Byte // text.length < 512 }

abbrev StrBuff := Vector Row 10

namespace StrBuff

/-- `memset(str_buff, 0, sizeof(str_buff))` -/
def cleared : StrBuff := Vector.replicate 10 ⟨[], by decide⟩

def store (strBuff : StrBuff) (i : Nat) (row : Row) : Except Fault StrBuff :=
  if inside : i < 10 then .ok (strBuff.set i row inside) else .error .strBuffRow

def load (strBuff : StrBuff) (i : Nat) : Except Fault Row :=
  if inside : i < 10 then .ok (strBuff[i]) else .error .strBuffRow

/-- What `strcpy` leaves in the target row. -/
def copied (row : Row) : Row :=
  ⟨contents row.val,
    Nat.lt_of_le_of_lt (List.takeWhile_sublist _).length_le row.property⟩

/-- `strcpy(str_buff[target], str_buff[source])` -/
def copyRow (strBuff : StrBuff) (target source : Nat) : Except Fault StrBuff := do
  let row ← strBuff.load source
  strBuff.store target (copied row)

theorem load_inside (strBuff : StrBuff) {i : Nat} (inside : i < 10) :
    strBuff.load i = .ok (strBuff[i]) := by
  simp [load, inside]

theorem store_inside (strBuff : StrBuff) {i : Nat} (inside : i < 10) (row : Row) :
    strBuff.store i row = .ok (strBuff.set i row inside) := by
  simp [store, inside]

theorem copyRow_inside (strBuff : StrBuff) {target source : Nat}
    (targetInside : target < 10) (sourceInside : source < 10) :
    strBuff.copyRow target source =
      .ok (strBuff.set target (copied (strBuff[source])) targetInside) := by
  simp only [copyRow, load_inside strBuff sourceInside, bind, Except.bind,
    store_inside strBuff targetInside]

theorem contents_copied (row : Row) : contents (copied row).val = contents row.val :=
  contents_of_noNul _ (zero_not_mem_contents row.val)

end StrBuff

/-- `fgets(str_buff[i], 512, fp)` -/
def fgetsRow (stream : Stream) : Option Row × Stream :=
  match read : fgets 512 stream with
  | (some line, next) => (some ⟨line, fgets_length (by decide) read⟩, next)
  | (none, next) => (none, next)

structure Loaded where
  strBuff : StrBuff
  n : Nat

/-- The `while(1)` loop that fills `str_buff` from row `i` on, with `rowsLeft`
rows still in the array. Each pass moves to the next row, so only a file without
an eleventh line gets to the end of the array unharmed. -/
def loadLoop : (rowsLeft i : Nat) → StrBuff → Stream → Except Fault Loaded
  | 0, i, strBuff, stream =>
      match fgetsRow stream with
      | (some _, _) => .error .strBuffRow
      | (none, _) => .ok ⟨strBuff, i⟩
  | rowsLeft + 1, i, strBuff, stream => do
      let (line, next) := fgetsRow stream
      let strBuff ← match line with
        | some row => strBuff.store i row
        | none => .ok strBuff
      if next.eof then .ok ⟨strBuff, i⟩
      else loadLoop rowsLeft (i + 1) strBuff next

/-- Open `input.txt` for reading and load it. An absent file yields the null
stream, on which `fgets` is called all the same. -/
def loadRows (inputTxt : Option (List Byte)) (strBuff : StrBuff) : Except Fault Loaded :=
  match inputTxt with
  | none => .error .nullStream
  | some file => loadLoop 10 0 strBuff (fopenRead file)

/-! ## Loading a file of short lines -/

structure IsLine (line : List Byte) : Prop where
  short : line.length < 512
  shape : ∃ text, newline ∉ text ∧ line = text ++ [newline]

theorem isLine_recordLine (frame : Frame) : IsLine (recordLine frame) where
  short := recordLine_length_lt frame
  shape := ⟨_, newline_not_mem_values frame, rfl⟩

theorem fgetsRow_of_line {stream next : Stream} {line : List Byte}
    (read : fgets 512 stream = (some line, next)) :
    fgetsRow stream = (some ⟨line, fgets_length (by decide) read⟩, next) := by
  unfold fgetsRow
  split
  · rename_i taken after equal
    rw [read] at equal
    cases equal
    rfl
  · rename_i after equal
    rw [read] at equal
    cases equal

theorem fgetsRow_of_none {stream next : Stream} (read : fgets 512 stream = (none, next)) :
    fgetsRow stream = (none, next) := by
  unfold fgetsRow
  split
  · rename_i taken after equal
    rw [read] at equal
    cases equal
  · rename_i after equal
    rw [read] at equal
    cases equal
    rfl

theorem fgetsRow_line {line : List Byte} (isLine : IsLine line) (rest : List Byte) :
    fgetsRow ⟨line ++ rest, false⟩ = (some ⟨line, isLine.short⟩, ⟨rest, false⟩) := by
  rcases isLine with ⟨short, text, noNewline, rfl⟩
  have fits : text.length + 1 < 512 := by simpa using short
  have read : fgets 512 ⟨(text ++ [newline]) ++ rest, false⟩ =
      (some (text ++ [newline]), ⟨rest, false⟩) := by
    rw [List.append_assoc, List.singleton_append]
    exact fgets_line noNewline fits false
  exact fgetsRow_of_line read

theorem fgetsRow_end : fgetsRow ⟨[], false⟩ = (none, ⟨[], true⟩) :=
  fgetsRow_of_none (fgets_end (by decide) false)

/-- The rows from `i` on hold the given lines. -/
def HoldsLines (strBuff : StrBuff) (i : Nat) (lines : List (List Byte)) : Prop :=
  ∀ j (occurs : j < lines.length) (inside : i + j < 10),
    (strBuff[i + j]).val = lines[j]

theorem loadLoop_lines (lines : List (List Byte)) (allLines : ∀ line ∈ lines, IsLine line) :
    ∀ (rowsLeft i : Nat) (strBuff : StrBuff), i + rowsLeft = 10 →
      lines.length ≤ rowsLeft →
      ∃ loaded, loadLoop rowsLeft i strBuff ⟨lines.flatten, false⟩ = .ok loaded ∧
        loaded.n = i + lines.length ∧ HoldsLines loaded.strBuff i lines ∧
        ∀ j (inside : j < 10), j < i → loaded.strBuff[j] = strBuff[j] := by
  induction lines with
  | nil =>
      intro rowsLeft i strBuff _ _
      refine ⟨⟨strBuff, i⟩, ?_, rfl, ?_, fun _ _ _ => rfl⟩
      · cases rowsLeft with
        | zero => simp [loadLoop, fgetsRow_end]
        | succ rowsLeft => simp [loadLoop, fgetsRow_end, bind, Except.bind]
      · intro j occurs
        simp at occurs
  | cons line lines induction =>
      intro rowsLeft i strBuff atRow fits
      cases rowsLeft with
      | zero => simp at fits
      | succ rowsLeft =>
          have isLine := allLines line (by simp)
          have inside : i < 10 := by omega
          have shorter : lines.length ≤ rowsLeft := by simpa using fits
          rcases induction (fun other member => allLines other (by simp [member]))
              rowsLeft (i + 1) (strBuff.set i ⟨line, isLine.short⟩) (by omega) shorter with
            ⟨loaded, run, count, holds, before⟩
          refine ⟨loaded, ?_, ?_, ?_, ?_⟩
          · simpa [loadLoop, fgetsRow_line isLine, StrBuff.store_inside, inside, bind, Except.bind]
              using run
          · simp only [count, List.length_cons]
            omega
          · intro j occurs within
            cases j with
            | zero =>
                have kept := before i inside (Nat.lt_succ_self i)
                simp [kept]
            | succ j =>
                have earlier := holds j (by simpa using occurs) (by omega)
                have sameRow : i + 1 + j = i + (j + 1) := by omega
                simpa [sameRow] using earlier
          · intro j within earlier
            rw [before j within (by omega), Vector.getElem_set_ne (by omega) (by omega) (by omega)]

end GamZ.Server
