import GamZ.Server.RecordStore
import Mathlib.Data.List.GetD

/-! # `client_receive_process`

The receive loop works on whatever each `read` returns. It compares the zeroed
and refilled buffer with the two command texts, and after `data_in` takes the
next read for the frame. -/

namespace GamZ.Server

open CString Stdio BoundedFifo

/-- The buffer after `memset(buff,0,sizeof(buff))` and a `read` of the given
bytes. -/
def readBuffer (bytes : List Byte) : List Byte :=
  bytes ++ List.replicate (512 - bytes.length) 0

/-- What the loop did with a sequence of reads: the frames handed to the store,
whether it left on a logout, and the reads it never made. -/
structure Received where
  stored : List Frame
  left : Bool
  unread : List (List Byte)

structure Outcome extends Received where
  memory : ServerMemory

/-- The loop, run on the results of its successive reads. When they are used up
the process blocks in `read`. -/
def clientReceiveProcess : List (List Byte) → ServerMemory → Except Fault Outcome
  | [], memory => .ok { stored := [], left := false, unread := [], memory }
  | bytes :: reads, memory =>
      if strcmp (readBuffer bytes) logoutMessage = 0 then
        .ok { stored := [], left := true, unread := reads,
              memory := { memory with logout := 1 } }
      else if strcmp (readBuffer bytes) dataInMessage = 0 then
        match reads with
        | [] => .ok { stored := [], left := false, unread := [], memory }
        | frameBytes :: reads => do
            let memory ← storeRecord (readBuffer frameBytes) memory
            let outcome ← clientReceiveProcess reads memory
            pure { outcome with
              stored := recordOf (readBuffer frameBytes) :: outcome.stored }
      else clientReceiveProcess reads memory

/-- The control flow of the loop on its own. It depends on the reads only. -/
def received : List (List Byte) → Received
  | [] => { stored := [], left := false, unread := [] }
  | bytes :: reads =>
      if strcmp (readBuffer bytes) logoutMessage = 0 then
        { stored := [], left := true, unread := reads }
      else if strcmp (readBuffer bytes) dataInMessage = 0 then
        match reads with
        | [] => { stored := [], left := false, unread := [] }
        | frameBytes :: reads =>
            let rest := received reads
            { rest with stored := recordOf (readBuffer frameBytes) :: rest.stored }
      else received reads

/-! ## One pass of the loop -/

private theorem strcmp_readBuffer (bytes text : List Byte) (noNul : (0 : Byte) ∉ text) :
    strcmp (readBuffer bytes) (text ++ [0]) = 0 ↔ contents bytes = text := by
  rw [strcmp_eq_zero_iff, readBuffer, contents_append_replicate,
    contents_append_zero text [] noNul]

theorem strcmp_logout_iff (bytes : List Byte) :
    strcmp (readBuffer bytes) logoutMessage = 0 ↔ contents bytes = logoutText :=
  strcmp_readBuffer bytes logoutText (by decide)

theorem strcmp_dataIn_iff (bytes : List Byte) :
    strcmp (readBuffer bytes) dataInMessage = 0 ↔ contents bytes = dataInText :=
  strcmp_readBuffer bytes dataInText (by decide)

theorem dataInText_ne_logoutText : dataInText ≠ logoutText := by decide

theorem received_logout {bytes : List Byte} (isLogout : contents bytes = logoutText)
    (reads : List (List Byte)) :
    received (bytes :: reads) = { stored := [], left := true, unread := reads } := by
  cases reads <;> simp [received, strcmp_logout_iff, isLogout]

theorem received_dataIn {bytes : List Byte} (isDataIn : contents bytes = dataInText)
    (frameBytes : List Byte) (reads : List (List Byte)) :
    received (bytes :: frameBytes :: reads) =
      { received reads with
        stored := recordOf (readBuffer frameBytes) :: (received reads).stored } := by
  simp [received, strcmp_logout_iff, strcmp_dataIn_iff, isDataIn, dataInText_ne_logoutText]

theorem received_dataIn_last {bytes : List Byte} (isDataIn : contents bytes = dataInText) :
    received [bytes] = { stored := [], left := false, unread := [] } := by
  simp [received, strcmp_logout_iff, strcmp_dataIn_iff, isDataIn, dataInText_ne_logoutText]

theorem received_other {bytes : List Byte} (notLogout : contents bytes ≠ logoutText)
    (notDataIn : contents bytes ≠ dataInText) (reads : List (List Byte)) :
    received (bytes :: reads) = received reads := by
  cases reads <;>
    simp [received, strcmp_logout_iff, strcmp_dataIn_iff, notLogout, notDataIn]

theorem received_induction {motive : List (List Byte) → Prop}
    (blocked : motive [])
    (logout : ∀ bytes reads, contents bytes = logoutText → motive (bytes :: reads))
    (headerLast : ∀ bytes, contents bytes = dataInText → motive [bytes])
    (record : ∀ bytes frameBytes reads, contents bytes = dataInText → motive reads →
      motive (bytes :: frameBytes :: reads))
    (other : ∀ bytes reads, contents bytes ≠ logoutText → contents bytes ≠ dataInText →
      motive reads → motive (bytes :: reads)) :
    ∀ reads, motive reads := by
  intro reads
  induction reads using received.induct with
  | case1 => exact blocked
  | case2 bytes reads isLogout =>
      exact logout bytes reads ((strcmp_logout_iff bytes).mp isLogout)
  | case3 bytes notLogout isDataIn =>
      exact headerLast bytes ((strcmp_dataIn_iff bytes).mp isDataIn)
  | case4 bytes notLogout isDataIn frameBytes reads induction =>
      exact record bytes frameBytes reads ((strcmp_dataIn_iff bytes).mp isDataIn) induction
  | case5 bytes reads notLogout notDataIn induction =>
      exact other bytes reads (fun isText => notLogout ((strcmp_logout_iff bytes).mpr isText))
        (fun isText => notDataIn ((strcmp_dataIn_iff bytes).mpr isText)) induction

@[simp] theorem contents_dataInMessage : contents dataInMessage = dataInText :=
  contents_append_zero dataInText [] (by decide)

@[simp] theorem contents_logoutMessage : contents logoutMessage = logoutText :=
  contents_append_zero logoutText [] (by decide)

@[simp] theorem recordOf_readBuffer_bytes (frame : Frame) :
    recordOf (readBuffer frame.bytes) = frame := by
  funext i
  have inside : i.val < frame.bytes.length := by simp
  rw [recordOf, readBuffer, List.getD_append _ _ _ _ inside, List.getD_eq_getElem _ _ inside]
  simp [Frame.bytes]

/-! ## Storing over a whole session -/

/-- `input.txt` was left by a server that last stored these records. -/
def LeftBy (queue : List Frame) (memory : ServerMemory) : Prop :=
  memory.inputTxt = some (storeText queue) ∧ queue.length ≤ 8

theorem loadRows_storeText (queue : List Frame) (short : queue.length ≤ 10)
    (strBuff : StrBuff) :
    ∃ loaded, loadRows (some (storeText queue)) strBuff = .ok loaded ∧
      loaded.n = queue.length ∧
      RowTexts loaded.strBuff (fun j => (queue.map recordLine).getD j []) queue.length := by
  have allLines : ∀ line ∈ queue.map recordLine, IsLine line := by
    intro line member
    rcases List.mem_map.mp member with ⟨frame, -, rfl⟩
    exact isLine_recordLine frame
  rcases loadLoop_lines (queue.map recordLine) allLines 10 0 strBuff rfl (by simpa using short)
    with ⟨loaded, run, count, holds, -⟩
  refine ⟨loaded, run, by simpa using count, ?_⟩
  intro j inside early
  have occurs : j < (queue.map recordLine).length := by simpa using early
  have held := holds j occurs (by omega)
  simp only [Nat.zero_add, List.getElem_map] at held
  simp only [held, List.getD_eq_getElem _ _ occurs, List.getElem_map]
  exact contents_of_noNul _ (zero_not_mem_recordLine _)

private theorem map_getD_succ (lines : List (List Byte)) :
    ((List.range (lines.length - 1)).map fun j => lines.getD (j + 1) []) = lines.tail := by
  apply List.ext_getElem
  · simp
  · intro j inRange inTail
    have occurs : j + 1 < lines.length := by
      rw [List.length_tail] at inTail
      omega
    simp only [List.getElem_map, List.getElem_range, List.getElem_tail]
    exact List.getD_eq_getElem _ _ occurs

private theorem reopen_storeText {queue : List Frame} {loaded : Loaded}
    (bounded : queue.length ≤ 8) (count : loaded.n = queue.length)
    (rows : RowTexts loaded.strBuff (fun j => (queue.map recordLine).getD j []) queue.length) :
    reopen (storeText queue) loaded =
      .ok (storeText (if queue.length < 8 then queue else queue.tail)) := by
  by_cases room : queue.length < 8
  · rw [reopen, count, if_pos room, if_pos room]
  · have rewritten := shift_print_rows loaded.strBuff _ (by omega) (by omega) rows
    have dropped := map_getD_succ (queue.map recordLine)
    rw [List.length_map, ← List.map_tail] at dropped
    rw [dropped] at rewritten
    rw [reopen, count, if_neg room, if_neg room]
    exact rewritten

/-- The memory once `frame` has been stored behind the records of `queue`. -/
def ServerMemory.afterStore (memory : ServerMemory) (queue : List Frame) (frame : Frame) :
    ServerMemory :=
  { memory with
    inputTxt := some (storeText (push 8 queue frame))
    upData := fun k => (frame k).toNat
    updateFlag := 1
    semaphore := 0 }

/-- The memory once all given frames have been stored behind those of `queue`. -/
def ServerMemory.afterAll (memory : ServerMemory) (queue : List Frame) :
    List Frame → ServerMemory
  | [] => memory
  | frame :: frames =>
      (memory.afterStore queue frame).afterAll (push 8 queue frame) frames

theorem leftBy_afterStore {queue : List Frame} {memory : ServerMemory}
    (leftBy : LeftBy queue memory) (frame : Frame) :
    LeftBy (push 8 queue frame) (memory.afterStore queue frame) :=
  ⟨rfl, length_push_le (by decide) leftBy.2 frame⟩

theorem leftBy_afterAll (frames : List Frame) :
    ∀ {queue : List Frame} {memory : ServerMemory}, LeftBy queue memory →
      LeftBy (frames.foldl (push 8) queue) (memory.afterAll queue frames) := by
  induction frames with
  | nil => exact fun leftBy => leftBy
  | cons frame frames induction =>
      intro queue memory leftBy
      exact induction (leftBy_afterStore leftBy frame)

theorem afterAll_concat (frames : List Frame) (newest : Frame) :
    ∀ (queue : List Frame) (memory : ServerMemory),
      memory.afterAll queue (frames ++ [newest]) =
        (memory.afterAll queue frames).afterStore (frames.foldl (push 8) queue) newest := by
  induction frames with
  | nil => exact fun _ _ => rfl
  | cons frame frames induction => exact fun _ _ => induction _ _

/-- Storing a record is a push onto the bounded queue of the last eight. -/
theorem storeRecord_push {queue : List Frame} {memory : ServerMemory}
    (leftBy : LeftBy queue memory) (buff : List Byte) :
    storeRecord buff memory = .ok (memory.afterStore queue (recordOf buff)) := by
  rcases leftBy with ⟨text, bounded⟩
  rcases loadRows_storeText queue (by omega) StrBuff.cleared with
    ⟨loaded, run, count, rows⟩
  have reopened := reopen_storeText bounded count rows
  have pushed : storeText (if queue.length < 8 then queue else queue.tail) ++
      recordLine (recordOf buff) = storeText (push 8 queue (recordOf buff)) := by
    unfold push
    split <;> simp [storeText]
  simp only [storeRecord, text, run, Option.getD_some, reopened, printRecord_eq, pushed, bind,
    Except.bind, pure, Except.pure, ServerMemory.afterStore]

/-- Over a file left by the server the loop never leaves `str_buff`, takes the
frames its control flow gives it, and stores them one after the other. -/
theorem clientReceiveProcess_eq (reads : List (List Byte)) :
    ∀ (queue : List Frame) (memory : ServerMemory), LeftBy queue memory →
      ∃ outcome, clientReceiveProcess reads memory = .ok outcome ∧
        outcome.toReceived = received reads ∧
        outcome.memory =
          { memory.afterAll queue (received reads).stored with
            logout := if (received reads).left then 1 else memory.logout } := by
  induction reads using received.induct with
  | case1 => exact fun queue memory _ => ⟨_, rfl, rfl, rfl⟩
  | case2 bytes reads isLogout =>
      intro queue memory _
      refine ⟨⟨⟨[], true, reads⟩, { memory with logout := 1 }⟩, ?_, ?_, ?_⟩ <;>
        cases reads <;>
        simp [clientReceiveProcess, received, isLogout, ServerMemory.afterAll]
  | case3 bytes notLogout isDataIn =>
      intro queue memory _
      refine ⟨⟨⟨[], false, []⟩, memory⟩, ?_, ?_, ?_⟩ <;>
        simp [clientReceiveProcess, received, notLogout, isDataIn, ServerMemory.afterAll]
  | case4 bytes notLogout isDataIn frameBytes reads induction =>
      intro queue memory leftBy
      have stored := storeRecord_push leftBy (readBuffer frameBytes)
      rcases induction _ _ (leftBy_afterStore leftBy (recordOf (readBuffer frameBytes))) with
        ⟨outcome, run, control, final⟩
      refine ⟨{ outcome with
        stored := recordOf (readBuffer frameBytes) :: outcome.stored }, ?_, ?_, ?_⟩
      · simp [clientReceiveProcess, notLogout, isDataIn, stored, run, bind, Except.bind, pure,
          Except.pure]
      · simp [received, notLogout, isDataIn, ← control]
      · rw [final]
        simp [received, notLogout, isDataIn, ServerMemory.afterAll, ServerMemory.afterStore]
  | case5 bytes reads notLogout notDataIn induction =>
      intro queue memory leftBy
      rcases induction queue memory leftBy with ⟨outcome, run, control, final⟩
      refine ⟨outcome, ?_, ?_, ?_⟩ <;>
        cases reads <;>
        simp_all [clientReceiveProcess, received]

end GamZ.Server
