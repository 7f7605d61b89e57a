import GamZ.Server.RecordFile

/-! # The history loader of `update_process`

The lines of `input.txt` are split into numbers by a character loop over `temp`,
`z` and `data_index`. Only a space ends a number: the newline and the
terminating NUL of a line are stored in `temp` like digits, and `z` is carried
over to the next line. -/

namespace GamZ.Server

open CString Stdio

def setValue (data : Fin 10 → Fin 70 → Int) (row dataIndex : Nat) (value : Int) :
    Fin 10 → Fin 70 → Int :=
  fun i k => if i.val = row ∧ k.val = dataIndex then value else data i k

structure Tokens where
  temp : Vector Byte 4
  z : Nat
  dataIndex : Nat
  data : Fin 10 → Fin 70 → Int

namespace Tokens

/-- `temp[z] = character` -/
def put (tokens : Tokens) (character : Byte) : Except Fault (Vector Byte 4) :=
  if inside : tokens.z < 4 then .ok (tokens.temp.set tokens.z character inside)
  else .error .tempOverrun

/-- `temp[z++] = cha_buff;` -/
def storeChar (tokens : Tokens) (character : Byte) : Except Fault Tokens := do
  let temp ← tokens.put character
  pure { tokens with temp, z := tokens.z + 1 }

/-- `data[row][data_index++] = value` -/
def storeValue (tokens : Tokens) (row : Nat) (value : Int) : Except Fault Tokens :=
  if row < 10 ∧ tokens.dataIndex < 70 then
    .ok { tokens with
      data := setValue tokens.data row tokens.dataIndex value
      dataIndex := tokens.dataIndex + 1 }
  else .error .dataOverrun

/-- The branch of a space: terminate `temp`, convert it and clear it. -/
def endToken (tokens : Tokens) (row : Nat) : Except Fault Tokens := do
  let temp ← tokens.put 0
  let tokens ← { tokens with temp, z := 0 }.storeValue row (atoi temp.toList)
  pure { tokens with temp := Vector.replicate 4 0 }

def step (row : Nat) (tokens : Tokens) (character : Byte) : Except Fault Tokens :=
  if character ≠ space then tokens.storeChar character
  else if character = space ∨ character = 0 then tokens.endToken row
  else .ok tokens

end Tokens

def tokenize (row : Nat) (tokens : Tokens) (text : List Byte) : Except Fault Tokens :=
  text.foldlM (Tokens.step row) tokens

/-- The characters of one row up to and including the NUL, then
`data_index = 0`. -/
def tokenizeRow (strBuff : StrBuff) (tokens : Tokens) (row : Nat) : Except Fault Tokens := do
  let text ← strBuff.load row
  let tokens ← tokenize row tokens (contents text.val ++ [0])
  pure { tokens with dataIndex := 0 }

/-- The loaded history: `n` and `data`. -/
structure History where
  n : Nat
  data : Fin 10 → Fin 70 → Int

/-- `memset(data,0,700)` clears 175 of the 700 numbers. -/
def clearData (data : Fin 10 → Fin 70 → Int) : Fin 10 → Fin 70 → Int :=
  fun i k => if 4 * (70 * i.val + k.val) < 700 then 0 else data i k

/-- The history load of `update_process`, with whatever `str_buff`, `temp` and
`data` held before. -/
def loadHistory (inputTxt : Option (List Byte)) (strBuff : StrBuff) (temp : Vector Byte 4)
    (data : Fin 10 → Fin 70 → Int) : Except Fault History := do
  let loaded ← loadRows inputTxt strBuff
  let tokens ← (List.range loaded.n).foldlM (tokenizeRow loaded.strBuff)
    { temp, z := 0, dataIndex := 0, data := clearData data }
  pure { n := loaded.n, data := tokens.data }

/-! ## Storing characters -/

theorem tokenize_append (row : Nat) (tokens : Tokens) (first second : List Byte) :
    tokenize row tokens (first ++ second) =
      (tokenize row tokens first >>= fun tokens => tokenize row tokens second) :=
  List.foldlM_append

theorem step_other {row : Nat} {tokens : Tokens} {character : Byte}
    (notSpace : character ≠ space) (inside : tokens.z < 4) :
    tokens.step row character =
      .ok { tokens with
        temp := tokens.temp.set tokens.z character inside
        z := tokens.z + 1 } := by
  simp [Tokens.step, notSpace, Tokens.storeChar, Tokens.put, inside, bind, Except.bind, pure,
    Except.pure]

theorem step_overrun {row : Nat} {tokens : Tokens} {character : Byte}
    (outside : 4 ≤ tokens.z) : tokens.step row character = .error .tempOverrun := by
  have notInside : ¬ tokens.z < 4 := by omega
  by_cases isSpace : character = space
  · simp [Tokens.step, isSpace, Tokens.endToken, Tokens.put, notInside, bind, Except.bind]
  · simp [Tokens.step, isSpace, Tokens.storeChar, Tokens.put, notInside, bind, Except.bind]

/-- Characters other than spaces go into `temp` one after the other. -/
theorem tokenize_chars (row : Nat) (text : List Byte) (noSpace : space ∉ text) :
    ∀ (tokens : Tokens) (before after : List Byte),
      tokens.temp.toList = before ++ after → before.length = tokens.z →
      text.length ≤ after.length →
      ∃ temp : Vector Byte 4,
        tokenize row tokens text = .ok { tokens with temp, z := tokens.z + text.length } ∧
        temp.toList = before ++ text ++ after.drop text.length := by
  induction text with
  | nil =>
      intro tokens before after shape _ _
      exact ⟨tokens.temp, rfl, by simpa using shape⟩
  | cons character text induction =>
      intro tokens before after shape atZ fits
      cases after with
      | nil => simp at fits
      | cons old after =>
          have notSpace : character ≠ space := fun equal => noSpace (by simp [equal])
          have restNoSpace : space ∉ text := fun member => noSpace (by simp [member])
          have size : (before ++ old :: after).length = 4 := by
            rw [← shape, Vector.length_toList]
          have inside : tokens.z < 4 := by
            rw [List.length_append, List.length_cons] at size
            omega
          have written : (tokens.temp.set tokens.z character inside).toList =
              (before ++ [character]) ++ after := by
            rw [Vector.toList_set, shape, ← atZ, List.set_append_right _ _ (Nat.le_refl _)]
            simp
          rcases induction restNoSpace
              { tokens with
                temp := tokens.temp.set tokens.z character inside
                z := tokens.z + 1 }
              (before ++ [character]) after written (by simp [atZ])
              (by simpa using fits) with ⟨temp, run, shape⟩
          refine ⟨temp, ?_, by simpa using shape⟩
          rw [tokenize, List.foldlM_cons, step_other notSpace inside]
          simp only [tokenize, bind, Except.bind] at run ⊢
          rw [run, List.length_cons, Nat.add_assoc, Nat.add_comm 1]

/-! ## One token -/

/-- The state between two tokens of a row: `temp` is clear and `data` shows what
the row's earlier tokens wrote. -/
def betweenTokens (dataIndex : Nat) (data : Fin 10 → Fin 70 → Int) : Tokens where
  temp := Vector.replicate 4 0
  z := 0
  dataIndex := dataIndex
  data := data

theorem step_space (row : Nat) (tokens : Tokens) (inside : tokens.z < 4)
    (inData : row < 10 ∧ tokens.dataIndex < 70) :
    tokens.step row space = .ok (betweenTokens (tokens.dataIndex + 1)
      (setValue tokens.data row tokens.dataIndex
        (atoi (tokens.temp.set tokens.z 0 inside).toList))) := by
  simp [Tokens.step, Tokens.endToken, Tokens.put, inside, Tokens.storeValue, inData,
    betweenTokens, bind, Except.bind, pure, Except.pure]

theorem tokenize_concat (row : Nat) (tokens : Tokens) (text : List Byte) (character : Byte) :
    tokenize row tokens (text ++ [character]) =
      (tokenize row tokens text >>= fun tokens => tokens.step row character) := by
  simp [tokenize, List.foldlM_append]

/-- A number read into an empty `temp`. -/
theorem tokenize_token {row : Nat} {tokens : Tokens} (value : Byte) (atStart : tokens.z = 0)
    (inData : row < 10 ∧ tokens.dataIndex < 70) :
    tokenize row tokens (decimal value.toNat ++ [space]) =
      .ok (betweenTokens (tokens.dataIndex + 1)
        (setValue tokens.data row tokens.dataIndex value.toNat)) := by
  have short : (decimal value.toNat).length ≤ 3 :=
    decimal_length_le (by have := value.toNat_lt; omega)
  have size : tokens.temp.toList.length = 4 := Vector.length_toList
  rcases tokenize_chars row (decimal value.toNat) (space_not_mem_decimal _) tokens []
      tokens.temp.toList rfl atStart.symm (by omega) with ⟨temp, run, shape⟩
  have inside : (decimal value.toNat).length < 4 := by omega
  have terminated : atoi (temp.set (decimal value.toNat).length 0 inside).toList =
      value.toNat := by
    rw [Vector.toList_set, shape, List.nil_append, List.set_append_right _ _ (Nat.le_refl _),
      Nat.sub_self]
    cases after : tokens.temp.toList.drop (decimal value.toNat).length with
    | nil =>
        have := congrArg List.length after
        rw [List.length_drop, size] at this
        simp at this
        omega
    | cons old after => exact atoi_decimal _ _
  rw [tokenize_concat, run]
  simp only [bind, Except.bind, atStart, Nat.zero_add]
  have ended := step_space row
    { tokens with temp, z := (decimal value.toNat).length } inside inData
  rw [ended, terminated]

/-- The row `data[row]` with the given values from `dataIndex` on. -/
def setValues (data : Fin 10 → Fin 70 → Int) (row dataIndex : Nat) (values : List Byte) :
    Fin 10 → Fin 70 → Int :=
  fun i k =>
    if i.val = row ∧ dataIndex ≤ k.val ∧ k.val < dataIndex + values.length then
      ((values.getD (k.val - dataIndex) 0).toNat : Int)
    else data i k

private theorem setValues_cons (data : Fin 10 → Fin 70 → Int) (row dataIndex : Nat)
    (value : Byte) (values : List Byte) :
    setValues (setValue data row dataIndex value.toNat) row (dataIndex + 1) values =
      setValues data row dataIndex (value :: values) := by
  funext i k
  by_cases sameRow : i.val = row
  · by_cases here : k.val = dataIndex
    · simp [setValues, setValue, sameRow, here]
    · by_cases later : dataIndex < k.val
      · have position : k.val - dataIndex = (k.val - (dataIndex + 1)) + 1 := by omega
        have bounds : (dataIndex + 1 ≤ k.val ∧ k.val < dataIndex + 1 + values.length) ↔
            dataIndex ≤ k.val ∧ k.val < dataIndex + (values.length + 1) := by omega
        simp only [setValues, setValue, sameRow, here, bounds, position, true_and, and_false,
          if_false, List.length_cons, List.getD_cons_succ]
      · have before : ¬ dataIndex + 1 ≤ k.val ∧ ¬ dataIndex ≤ k.val := by omega
        simp [setValues, setValue, here, before]
  · simp [setValues, setValue, sameRow]

/-- The remaining numbers of a row, from a state between tokens on. -/
theorem tokenize_values {row : Nat} (inRow : row < 10) (values : List Byte) :
    ∀ (dataIndex : Nat) (data : Fin 10 → Fin 70 → Int), dataIndex + values.length ≤ 70 →
      tokenize row (betweenTokens dataIndex data)
          (values.flatMap fun value => decimal value.toNat ++ [space]) =
        .ok (betweenTokens (dataIndex + values.length)
          (setValues data row dataIndex values)) := by
  induction values with
  | nil =>
      intro dataIndex data _
      have unchanged : setValues data row dataIndex [] = data := by
        funext i k
        have nowhere : ¬ (dataIndex ≤ k.val ∧ k.val < dataIndex + 0) := by omega
        simp only [setValues, List.length_nil, nowhere, and_false, if_false]
      rw [unchanged]
      rfl
  | cons value values induction =>
      intro dataIndex data fits
      rw [List.length_cons] at fits
      have inData : row < 10 ∧ dataIndex < 70 := ⟨inRow, by omega⟩
      have first := tokenize_token value (rfl : (betweenTokens dataIndex data).z = 0) inData
      rw [List.flatMap_cons, tokenize_append, first]
      simp only [bind, Except.bind, betweenTokens] at induction ⊢
      rw [induction (dataIndex + 1) _ (by omega), setValues_cons, List.length_cons,
        Nat.add_assoc, Nat.add_comm 1]

/-! ## One row -/

/-- The state at the start of a later row: the newline and the NUL of the row
before stand in `temp`. -/
def betweenRows (data : Fin 10 → Fin 70 → Int) : Tokens where
  temp := #v[newline, 0, 0, 0]
  z := 2
  dataIndex := 0
  data := data

private theorem tokenize_lineEnd (row : Nat) (data : Fin 10 → Fin 70 → Int) :
    tokenize row (betweenTokens 70 data) [newline, 0] =
      .ok { betweenRows data with dataIndex := 70 } := by
  have newlineOther : newline ≠ space := by decide
  have nulOther : (0 : Byte) ≠ space := by decide
  have written : ((Vector.replicate 4 (0 : Byte)).set 0 newline (by decide)).set 1 0 (by decide) =
      #v[newline, 0, 0, 0] := by
    decide
  simp only [tokenize, List.foldlM_cons, List.foldlM_nil, betweenTokens, bind, Except.bind, pure,
    Except.pure]
  rw [step_other newlineOther (show 0 < 4 by decide)]
  simp only
  rw [step_other nulOther (show 0 + 1 < 4 by decide)]
  simp only [Nat.zero_add, written, betweenRows]

private theorem recordLine_split (frame : Frame) :
    ∃ rest : List Byte, rest.length = 69 ∧ frame.bytes = frame 0 :: rest ∧
      recordLine frame ++ [0] =
        (decimal (frame 0).toNat ++ [space]) ++
          ((rest.flatMap fun value => decimal value.toNat ++ [space]) ++ [newline, 0]) := by
  refine ⟨(List.finRange 70).tail.map frame, by simp, ?_, ?_⟩
  · rw [Frame.bytes, List.finRange_succ, List.map_cons, List.tail_cons]
  · rw [recordLine, Frame.bytes, List.finRange_succ, List.map_cons, List.tail_cons,
      List.flatMap_cons]
    simp

/-- From the first number on, the rest of a row is read as printed. -/
private theorem tokenize_afterFirst {row : Nat} (inRow : row < 10) (rest : List Byte)
    (restLength : rest.length = 69) (data : Fin 10 → Fin 70 → Int) (value : Byte) :
    tokenize row (betweenTokens 1 (setValue data row 0 value.toNat))
        ((rest.flatMap fun value => decimal value.toNat ++ [space]) ++ [newline, 0]) =
      .ok { betweenRows (setValues data row 0 (value :: rest)) with dataIndex := 70 } := by
  rw [tokenize_append, tokenize_values inRow rest 1 _ (by omega), restLength]
  simp only [bind, Except.bind]
  rw [setValues_cons]
  exact tokenize_lineEnd row _

/-- The first row: every number is read as printed. -/
private theorem tokenize_firstRow {row : Nat} (inRow : row < 10) (frame : Frame)
    (tokens : Tokens) (atStart : tokens.z = 0) (atSlot : tokens.dataIndex = 0) :
    tokenize row tokens (recordLine frame ++ [0]) =
      .ok { betweenRows (setValues tokens.data row 0 frame.bytes) with dataIndex := 70 } := by
  rcases recordLine_split frame with ⟨rest, restLength, bytes, text⟩
  rw [text, tokenize_append, tokenize_token (frame 0) atStart ⟨inRow, by omega⟩, atSlot, bytes]
  exact tokenize_afterFirst inRow rest restLength tokens.data (frame 0)

/-- A later row whose first number has one digit: the digit lands behind the
newline and the NUL in `temp`, and the number is read as zero. -/
private theorem tokenize_laterRow_short {row : Nat} (inRow : row < 10) (frame : Frame)
    (data : Fin 10 → Fin 70 → Int) (short : (frame 0).toNat < 10) :
    tokenize row (betweenRows data) (recordLine frame ++ [0]) =
      .ok { betweenRows (setValues data row 0 (0 :: frame.bytes.tail)) with
        dataIndex := 70 } := by
  rcases recordLine_split frame with ⟨rest, restLength, bytes, text⟩
  have digit := decimal_of_lt_ten short
  have notSpace : UInt8.ofNat (48 + (frame 0).toNat) ≠ space := fun equal =>
    space_not_mem_decimal (frame 0).toNat (by simp [digit, equal])
  have first : tokenize row (betweenRows data) (decimal (frame 0).toNat ++ [space]) =
      .ok (betweenTokens 1 (setValue data row 0 (0 : Byte).toNat)) := by
    have one : tokenize row (betweenRows data) (decimal (frame 0).toNat) =
        .ok { betweenRows data with
          temp := #v[newline, 0, UInt8.ofNat (48 + (frame 0).toNat), 0], z := 3 } := by
      rw [digit]
      simp only [tokenize, List.foldlM_cons, List.foldlM_nil, betweenRows]
      rw [step_other notSpace (show 2 < 4 by decide)]
      rfl
    rw [tokenize_concat, one]
    exact step_space row
      { betweenRows data with
        temp := #v[newline, 0, UInt8.ofNat (48 + (frame 0).toNat), 0], z := 3 }
      (show 3 < 4 by decide) ⟨inRow, show 0 < 70 by decide⟩
  rw [text, tokenize_append, first, bytes, List.tail_cons]
  exact tokenize_afterFirst inRow rest restLength data 0

/-- A later row whose first number has more digits: a character is stored beyond
`temp`. -/
private theorem tokenize_laterRow_long {row : Nat} (frame : Frame)
    (data : Fin 10 → Fin 70 → Int) (long : 10 ≤ (frame 0).toNat) :
    tokenize row (betweenRows data) (recordLine frame ++ [0]) = .error .tempOverrun := by
  rcases recordLine_split frame with ⟨rest, -, -, text⟩
  rcases decimal_two_digits long with ⟨first, second, more, digits⟩
  have firstOther : first ≠ space := fun equal =>
    space_not_mem_decimal (frame 0).toNat (by simp [digits, equal])
  have secondOther : second ≠ space := fun equal =>
    space_not_mem_decimal (frame 0).toNat (by simp [digits, equal])
  have overrun : tokenize row (betweenRows data) (decimal (frame 0).toNat ++ [space]) =
      .error .tempOverrun := by
    rw [digits]
    simp only [tokenize, List.cons_append, List.foldlM_cons, betweenRows]
    rw [step_other firstOther (show 2 < 4 by decide)]
    simp only [bind, Except.bind]
    rw [step_other secondOther (show 2 + 1 < 4 by decide)]
    cases more with
    | nil =>
        simp only [List.nil_append, List.foldlM_cons]
        rw [step_overrun (show 4 ≤ 2 + 1 + 1 by decide)]
        rfl
    | cons third more =>
        simp only [List.cons_append, List.foldlM_cons]
        rw [step_overrun (show 4 ≤ 2 + 1 + 1 by decide)]
        rfl
  rw [text, tokenize_append, overrun]
  rfl

/-! ## The whole file -/

/-- The rows of the given frames stand in `str_buff`. -/
private def HoldsFrames (strBuff : StrBuff) (frames : List Frame) : Prop :=
  ∀ (i : Nat) (occurs : i < frames.length) (inside : i < 10),
    contents (strBuff[i]).val = recordLine frames[i]

private theorem tokenizeRow_eq {strBuff : StrBuff} {frames : List Frame}
    (holds : HoldsFrames strBuff frames) {i : Nat} (occurs : i < frames.length)
    (inside : i < 10) (tokens : Tokens) :
    tokenizeRow strBuff tokens i =
      (tokenize i tokens (recordLine frames[i] ++ [0]) >>= fun tokens =>
        pure { tokens with dataIndex := 0 }) := by
  simp only [tokenizeRow, StrBuff.load_inside strBuff inside, bind, Except.bind,
    holds i occurs inside]

/-- The bytes the loop finds in a row: it takes the first number of a later row
for zero. -/
def loadedBytes (i : Nat) (frame : Frame) : List Byte :=
  if i = 0 then frame.bytes else 0 :: frame.bytes.tail

/-- A row overruns `temp` exactly when it is not the first one and its first
number has more than one digit. -/
def Overruns (frames : List Frame) : Prop :=
  ∃ (i : Nat) (occurs : i < frames.length), 0 < i ∧ 10 ≤ (frames[i] 0).toNat

/-- `data` holds what the loop finds in the rows before `count`. -/
def HoldsLoaded (frames : List Frame) (count : Nat) (data : Fin 10 → Fin 70 → Int) : Prop :=
  ∀ (i : Nat) (occurs : i < frames.length) (inside : i < 10), i < count → ∀ k : Fin 70,
    data ⟨i, inside⟩ k = ((loadedBytes i frames[i]).getD k.val 0).toNat

theorem length_loadedBytes (i : Nat) (frame : Frame) : (loadedBytes i frame).length = 70 := by
  unfold loadedBytes
  split <;> simp

private theorem holdsLoaded_setValues {frames : List Frame} {count : Nat}
    {data : Fin 10 → Fin 70 → Int} (holds : HoldsLoaded frames count data)
    (occurs : count < frames.length) :
    HoldsLoaded frames (count + 1)
      (setValues data count 0 (loadedBytes count frames[count])) := by
  intro i occursHere inside early k
  by_cases newest : i = count
  · subst newest
    have inFrame : (i = i ∧ 0 ≤ k.val ∧ k.val < 0 + (loadedBytes i frames[i]).length) := by
      rw [length_loadedBytes]
      omega
    rw [setValues, if_pos inFrame, Nat.sub_zero]
  · simpa [setValues, newest] using holds i occursHere inside (by omega) k

/-- One more row: the first row is read from a clear `z`, a later one behind the
newline and the NUL of the row before. -/
private theorem tokenizeRow_next {strBuff : StrBuff} {frames : List Frame}
    (holds : HoldsFrames strBuff frames) {i : Nat} (occurs : i < frames.length)
    (inside : i < 10) {tokens : Tokens}
    (reached : if i = 0 then tokens.z = 0 ∧ tokens.dataIndex = 0
      else tokens = betweenRows tokens.data) :
    (tokenizeRow strBuff tokens i =
        .ok (betweenRows (setValues tokens.data i 0 (loadedBytes i frames[i]))) ∧
      ¬ (0 < i ∧ 10 ≤ (frames[i] 0).toNat)) ∨
    (tokenizeRow strBuff tokens i = .error .tempOverrun ∧
      0 < i ∧ 10 ≤ (frames[i] 0).toNat) := by
  rw [tokenizeRow_eq holds occurs inside]
  by_cases first : i = 0
  · subst first
    rw [if_pos rfl] at reached
    left
    rw [tokenize_firstRow inside frames[0] tokens reached.1 reached.2]
    exact ⟨rfl, by omega⟩
  · rw [if_neg first] at reached
    rw [reached]
    by_cases short : (frames[i] 0).toNat < 10
    · left
      rw [tokenize_laterRow_short inside frames[i] tokens.data short, loadedBytes,
        if_neg first]
      exact ⟨rfl, by omega⟩
    · right
      rw [tokenize_laterRow_long frames[i] tokens.data (by omega)]
      exact ⟨rfl, by omega, by omega⟩

private theorem foldlM_tokenizeRow {strBuff : StrBuff} {frames : List Frame}
    (short : frames.length ≤ 8) (holds : HoldsFrames strBuff frames)
    (start : Tokens) (atStart : start.z = 0) (atSlot : start.dataIndex = 0) :
    ∀ count, count ≤ frames.length →
      (∃ tokens, (List.range count).foldlM (tokenizeRow strBuff) start = .ok tokens ∧
          (if count = 0 then tokens.z = 0 ∧ tokens.dataIndex = 0
            else tokens = betweenRows tokens.data) ∧
          HoldsLoaded frames count tokens.data ∧
          ∀ (i : Nat) (occurs : i < frames.length), i < count →
            ¬ (0 < i ∧ 10 ≤ (frames[i] 0).toNat)) ∨
        (List.range count).foldlM (tokenizeRow strBuff) start = .error .tempOverrun ∧
          Overruns frames := by
  intro count
  induction count with
  | zero =>
      intro _
      exact .inl ⟨start, rfl, by simp [atStart, atSlot], fun _ _ _ early => by omega,
        fun _ _ early => by omega⟩
  | succ count induction =>
      intro within
      rw [List.range_succ, List.foldlM_append]
      rcases induction (by omega) with ⟨tokens, run, reached, loaded, clean⟩ | ⟨run, overruns⟩
      · rcases tokenizeRow_next holds (by omega : count < frames.length) (by omega) reached with
          ⟨next, notHere⟩ | ⟨next, here⟩
        · left
          refine ⟨betweenRows (setValues tokens.data count 0 (loadedBytes count frames[count])),
            ?_, ?_, holdsLoaded_setValues loaded (by omega), ?_⟩
          · rw [run]
            simp only [List.foldlM_cons, List.foldlM_nil, bind, Except.bind, next, pure,
              Except.pure]
          · rw [if_neg (by omega)]
            rfl
          · intro i occurs early
            by_cases newest : i = count
            · subst newest
              exact notHere
            · exact clean i occurs (by omega)
        · right
          refine ⟨?_, count, by omega, here⟩
          rw [run]
          simp only [List.foldlM_cons, bind, Except.bind, next]
      · right
        refine ⟨?_, overruns⟩
        rw [run]
        rfl

private theorem loadedBytes_getD (i : Nat) (frame : Frame) (k : Fin 70) :
    (loadedBytes i frame).getD k.val 0 = if 0 < i ∧ k = 0 then 0 else frame k := by
  have asGiven : frame.bytes.getD k.val 0 = frame k := by
    rw [List.getD_eq_getElem _ _ (by simp)]
    simp [Frame.bytes]
  by_cases first : i = 0
  · rw [loadedBytes, if_pos first, asGiven, if_neg (by simp [first])]
  · by_cases slot : k = 0
    · subst slot
      simp [loadedBytes, first, Nat.pos_of_ne_zero first]
    · have positive : k.val ≠ 0 := fun equal => slot (Fin.ext equal)
      rcases Nat.exists_eq_succ_of_ne_zero positive with ⟨before, equal⟩
      have tail : (0 :: frame.bytes.tail).getD k.val 0 = frame.bytes.getD k.val 0 := by
        rw [equal, List.getD_cons_succ]
        simp [List.getD_eq_getElem?_getD, List.getElem?_tail]
      rw [loadedBytes, if_neg first, tail, asGiven, if_neg (by simp [slot])]

/-- The loop over the rows of a loaded view. -/
def splitRows (loaded : Loaded) (temp : Vector Byte 4) (data : Fin 10 → Fin 70 → Int) :
    Except Fault Tokens :=
  (List.range loaded.n).foldlM (tokenizeRow loaded.strBuff)
    { temp, z := 0, dataIndex := 0, data := clearData data }

def parseRows (loaded : Loaded) (temp : Vector Byte 4) (data : Fin 10 → Fin 70 → Int) :
    Except Fault History := do
  let tokens ← splitRows loaded temp data
  pure { n := loaded.n, data := tokens.data }

theorem loadHistory_eq (inputTxt : Option (List Byte)) (strBuff : StrBuff) (temp : Vector Byte 4)
    (data : Fin 10 → Fin 70 → Int) :
    loadHistory inputTxt strBuff temp data =
      (loadRows inputTxt strBuff >>= fun loaded => parseRows loaded temp data) := rfl

/-- What becomes of a record: the first number of all but the oldest is lost. -/
def loadedRow (i : Nat) (frame : Frame) : Fin 70 → Int :=
  fun k => if 0 < i ∧ k = 0 then 0 else (frame k).toNat

/-- What the loop makes of the rows of records. -/
theorem parseRows_lines {frames : List Frame} (short : frames.length ≤ 8) {loaded : Loaded}
    (count : loaded.n = frames.length)
    (rows : ∀ (i : Nat) (occurs : i < frames.length) (inside : i < 10),
      contents (loaded.strBuff[i]).val = recordLine frames[i])
    (temp : Vector Byte 4) (data : Fin 10 → Fin 70 → Int) :
    (∃ history, parseRows loaded temp data = .ok history ∧ history.n = frames.length ∧
        (∀ (i : Nat) (occurs : i < frames.length) (inside : i < 10),
          history.data ⟨i, inside⟩ = loadedRow i frames[i]) ∧
        ¬ Overruns frames) ∨
      parseRows loaded temp data = .error .tempOverrun ∧ Overruns frames := by
  rcases foldlM_tokenizeRow short rows
      { temp, z := 0, dataIndex := 0, data := clearData data } rfl rfl frames.length
      (Nat.le_refl _) with ⟨tokens, rowsRun, -, loadedData, clean⟩ | ⟨rowsRun, overruns⟩
  · left
    refine ⟨⟨frames.length, tokens.data⟩, ?_, rfl, ?_, ?_⟩
    · simp only [parseRows, splitRows, count, rowsRun, bind, Except.bind, pure, Except.pure]
    · intro i occurs inside
      funext k
      refine (loadedData i occurs inside occurs k).trans ?_
      rw [loadedBytes_getD, loadedRow]
      split_ifs <;> rfl
    · intro overruns
      rcases overruns with ⟨i, occurs, here⟩
      exact clean i occurs occurs here
  · right
    refine ⟨?_, overruns⟩
    simp only [parseRows, splitRows, count, rowsRun, bind, Except.bind]

/-- What the loader makes of a file of records, whatever `str_buff`, `temp` and
`data` held before. -/
theorem loadHistory_storeText (frames : List Frame) (short : frames.length ≤ 8)
    (strBuff : StrBuff) (temp : Vector Byte 4) (data : Fin 10 → Fin 70 → Int) :
    (∃ history, loadHistory (some (storeText frames)) strBuff temp data = .ok history ∧
        history.n = frames.length ∧
        (∀ (i : Nat) (occurs : i < frames.length) (inside : i < 10),
          history.data ⟨i, inside⟩ = loadedRow i frames[i]) ∧
        ¬ Overruns frames) ∨
      loadHistory (some (storeText frames)) strBuff temp data = .error .tempOverrun ∧
        Overruns frames := by
  rcases loadRows_storeText frames (by omega) strBuff with ⟨loaded, run, count, rows⟩
  have parsed : loadHistory (some (storeText frames)) strBuff temp data =
      parseRows loaded temp data := by
    rw [loadHistory_eq, run]
    rfl
  rw [parsed]
  apply parseRows_lines short count
  intro i occurs inside
  rw [rows i inside occurs]
  simp [occurs]

/-- The records come back from the file exactly when every record after the
first starts with a zero byte. -/
theorem history_round_trip_iff (frames : List Frame) (short : frames.length ≤ 8)
    (strBuff : StrBuff) (temp : Vector Byte 4) (data : Fin 10 → Fin 70 → Int) :
    (∃ history, loadHistory (some (storeText frames)) strBuff temp data = .ok history ∧
        history.n = frames.length ∧
        ∀ (i : Nat) (occurs : i < frames.length) (inside : i < 10) (k : Fin 70),
          history.data ⟨i, inside⟩ k = (frames[i] k).toNat) ↔
      ∀ (i : Nat) (occurs : i < frames.length), 0 < i → frames[i] 0 = 0 := by
  constructor
  · intro roundTrip i occurs later
    rcases roundTrip with ⟨history, run, -, same⟩
    rcases loadHistory_storeText frames short strBuff temp data with
      ⟨found, foundRun, -, loaded, -⟩ | ⟨failed, -⟩
    · rw [run] at foundRun
      cases foundRun
      have inside : i < 10 := by omega
      have value := same i occurs inside 0
      rw [loaded i occurs inside, loadedRow, if_pos ⟨later, rfl⟩] at value
      exact UInt8.toNat_inj.mp (Int.ofNat.inj value).symm
    · rw [run] at failed
      cases failed
  · intro zeros
    rcases loadHistory_storeText frames short strBuff temp data with
      ⟨history, run, count, loaded, -⟩ | ⟨-, i, occurs, later, long⟩
    · refine ⟨history, run, count, ?_⟩
      intro i occurs inside k
      rw [loaded i occurs inside, loadedRow]
      split_ifs with first
      · rw [first.2, zeros i occurs first.1]
        rfl
      · rfl
    · rw [zeros i occurs later] at long
      exact absurd long (by decide)

theorem history_round_trip_two_zero_frames :
    (∃ history, loadHistory (some (storeText [constantFrame 9, constantFrame 0]))
        StrBuff.cleared (Vector.replicate 4 0) (fun _ _ => 0) = .ok history ∧
        history.n = [constantFrame 9, constantFrame 0].length ∧
        ∀ (i : Nat) (occurs : i < [constantFrame 9, constantFrame 0].length)
          (inside : i < 10) (k : Fin 70),
          history.data ⟨i, inside⟩ k = ([constantFrame 9, constantFrame 0][i] k).toNat) ↔
      ∀ (i : Nat) (occurs : i < [constantFrame 9, constantFrame 0].length), 0 < i →
        [constantFrame 9, constantFrame 0][i] 0 = 0 :=
  history_round_trip_iff [constantFrame 9, constantFrame 0] (by decide) StrBuff.cleared
    (Vector.replicate 4 0) (fun _ _ => 0)

/-- Two records of reading 199: the second one overruns `temp`. -/
theorem second_record_overruns_temp :
    loadHistory (some (storeText [constantFrame 200, constantFrame 200])) StrBuff.cleared
      (Vector.replicate 4 0) (fun _ _ => 0) = .error .tempOverrun := by
  rcases loadHistory_storeText [constantFrame 200, constantFrame 200] (by decide)
      StrBuff.cleared (Vector.replicate 4 0) (fun _ _ => 0) with ⟨_, -, -, -, clean⟩ | ⟨failed, -⟩
  · exact absurd ⟨1, by decide, by decide, by decide⟩ clean
  · exact failed

end GamZ.Server
