import GamZ.Server.Receive

/-! # The history file over whole sessions

When every header and every frame arrives as a read of its own, the file is the
bounded queue of the last eight records ever stored. -/

namespace GamZ.Server

open CString Stdio BoundedFifo

def messageReads (frames : List Frame) (logout : Bool) : List (List Byte) :=
  frames.flatMap (fun frame => [dataInMessage, frame.bytes]) ++
    if logout then [logoutMessage] else []

@[simp] theorem messageReads_cons (frame : Frame) (frames : List Frame) (logout : Bool) :
    messageReads (frame :: frames) logout =
      dataInMessage :: frame.bytes :: messageReads frames logout := by
  simp [messageReads]

theorem received_messageReads_append (frames : List Frame) (reads : List (List Byte)) :
    received (messageReads frames false ++ reads) =
      { received reads with stored := frames ++ (received reads).stored } := by
  induction frames with
  | nil => rfl
  | cons frame frames induction =>
      rw [messageReads_cons, List.cons_append, List.cons_append,
        received_dataIn contents_dataInMessage, induction, recordOf_readBuffer_bytes]
      rfl

theorem received_messageReads (frames : List Frame) (logout : Bool) :
    received (messageReads frames logout) =
      { stored := frames, left := logout, unread := [] } := by
  have split : messageReads frames logout =
      messageReads frames false ++ if logout then [logoutMessage] else [] := by
    simp [messageReads]
  rw [split, received_messageReads_append]
  cases logout with
  | false => simp [received]
  | true => simp [received_logout contents_logoutMessage []]

/-- The file is empty, or was left by runs of the server that stored the given
frames in this order. -/
inductive FileLeftByRuns : List Frame → Option (List Byte) → Prop
  | empty : FileLeftByRuns [] (some [])
  | run {history memory reads outcome} :
      FileLeftByRuns history memory.inputTxt →
      clientReceiveProcess reads memory = .ok outcome →
      FileLeftByRuns (history ++ outcome.stored) outcome.memory.inputTxt

theorem foldl_push_rtake (frames history : List Frame) :
    frames.foldl (push 8) (history.rtake 8) = (history ++ frames).rtake 8 := by
  induction frames generalizing history with
  | nil => simp
  | cons frame frames induction =>
      rw [List.foldl_cons, push_rtake (by decide), induction, List.append_assoc,
        List.singleton_append]

/-- Earlier runs leave the last eight of the frames they stored. -/
theorem FileLeftByRuns.text {history : List Frame} {inputTxt : Option (List Byte)}
    (earlier : FileLeftByRuns history inputTxt) :
    inputTxt = some (storeText (history.rtake 8)) := by
  induction earlier with
  | empty => simp [storeText]
  | @run history memory reads outcome _ ran induction =>
      have bounded : (history.rtake 8).length ≤ 8 := by
        rw [length_rtake]
        omega
      have leftBy : LeftBy (history.rtake 8) memory := ⟨induction, bounded⟩
      rcases clientReceiveProcess_eq reads _ memory leftBy with
        ⟨found, foundRun, control, final⟩
      rw [ran] at foundRun
      cases foundRun
      have left := (leftBy_afterAll outcome.stored leftBy).1
      rw [foldl_push_rtake] at left
      rw [final, ← control]
      exact left

theorem FileLeftByRuns.leftBy {history : List Frame} {memory : ServerMemory}
    (earlier : FileLeftByRuns history memory.inputTxt) : LeftBy (history.rtake 8) memory := by
  refine ⟨earlier.text, ?_⟩
  rw [length_rtake]
  omega

/-- Whenever the receiver has just handled a frame, the file holds the last eight
frames ever stored, and the shared variables announce the newest one. Reaching
an outcome means that no access left `str_buff`. -/
theorem record_file_bounded_fifo (history before : List Frame) (newest : Frame)
    (memory : ServerMemory) (earlier : FileLeftByRuns history memory.inputTxt) :
    ∃ outcome,
      clientReceiveProcess (messageReads (before ++ [newest]) false) memory = .ok outcome ∧
      outcome.stored = before ++ [newest] ∧
      outcome.memory.inputTxt =
        some (storeText ((history ++ (before ++ [newest])).rtake 8)) ∧
      outcome.memory.upData = (fun k => ((newest k).toNat : Int)) ∧
      outcome.memory.updateFlag = 1 ∧
      outcome.memory.semaphore = 0 := by
  rcases clientReceiveProcess_eq (messageReads (before ++ [newest]) false) _ memory
      earlier.leftBy with ⟨outcome, run, control, final⟩
  rw [received_messageReads] at control final
  have left := (leftBy_afterAll (before ++ [newest]) earlier.leftBy).1
  rw [foldl_push_rtake] at left
  refine ⟨outcome, run, by rw [control], ?_, ?_, ?_, ?_⟩
  · rw [final]
    exact left
  all_goals
    rw [final, afterAll_concat]
    rfl

/-- The server's shared variables and file at its first start. -/
def ServerMemory.initial : ServerMemory where
  inputTxt := some []
  upData := fun _ => 0
  updateFlag := 0
  semaphore := 0
  logout := 0

def constantFrame (value : Byte) : Frame := fun _ => value

def sevenFrames : List Frame :=
  [constantFrame 1, constantFrame 2, constantFrame 3, constantFrame 4, constantFrame 5,
    constantFrame 6, constantFrame 7]

/-- One run fills the store with eight frames, and the two of the next run take the place of
the oldest. -/
theorem full_record_file_drops_oldest :
    ∃ memory, FileLeftByRuns (sevenFrames ++ [constantFrame 8]) memory.inputTxt ∧
      ∃ outcome,
        clientReceiveProcess (messageReads ([constantFrame 9] ++ [constantFrame 10]) false)
          memory = .ok outcome ∧
        outcome.stored = [constantFrame 9] ++ [constantFrame 10] ∧
        outcome.memory.inputTxt = some (storeText (sevenFrames.drop 2 ++
          [constantFrame 8, constantFrame 9, constantFrame 10])) ∧
        outcome.memory.upData = (fun _ => 10) ∧
        outcome.memory.updateFlag = 1 ∧
        outcome.memory.semaphore = 0 := by
  rcases record_file_bounded_fifo [] sevenFrames (constantFrame 8) .initial .empty with
    ⟨filled, run, stored, -⟩
  have full : FileLeftByRuns (sevenFrames ++ [constantFrame 8]) filled.memory.inputTxt := by
    have left := FileLeftByRuns.run .empty run
    rwa [stored, List.nil_append] at left
  exact ⟨filled.memory, full,
    record_file_bounded_fifo _ [constantFrame 9] (constantFrame 10) filled.memory full⟩

end GamZ.Server
