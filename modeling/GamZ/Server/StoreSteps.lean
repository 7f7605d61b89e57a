import GamZ.Server.Processes

/-! # Storing a record step by step

Only the receiver changes `input.txt`, so whatever `update_process` does, the file
goes through the same stages for every frame, from the queue of the last eight
records to that queue with the frame pushed onto it. -/

namespace GamZ.Server

open CString Stdio BoundedFifo Transition TransitionSystem

/-! ## What a step changes -/

/-- The points between which the receiver works on the file and its rows only. -/
inductive FileWork : ReceiverPoint → ReceiverPoint → Prop
  | opened : FileWork .opening (.loading 0 ⟨0, false⟩)
  | lineRead {i : Nat} {file next : OpenFile} : FileWork (.loading i file) (.loading (i + 1) next)
  | endRead {i : Nat} {file : OpenFile} : FileWork (.loading i file) (.closing i)
  | closed {n : Nat} : FileWork (.closing n) (.reopening n)
  | appending {n : Nat} : FileWork (.reopening n) (.storing 0)
  | truncated {n : Nat} : FileWork (.reopening n) (.rewriting n 0)
  | rewritten {n i : Nat} : FileWork (.rewriting n i) (.rewriting n (i + 1))
  | allRewritten {n i : Nat} : FileWork (.rewriting n i) (.storing 0)
  | printed {k : Fin 70} (inside : k.val + 1 < 70) :
      FileWork (.printing k) (.storing ⟨k.val + 1, inside⟩)
  | allPrinted {k : Fin 70} : k.val + 1 = 70 → FileWork (.printing k) .endLine
  | lineEnded : FileWork .endLine .announcing
  | storeClosed : FileWork .closingStore .unlocking

/-- The steps of the receiver, by what they change. -/
inductive ReceiverMove (state : ServerState) (frame : Frame) : ServerState → Prop
  | arrive : state.receiverPoint = .reading →
      ReceiverMove state frame { state with
        buff := frame
        strBuff := .cleared
        received := state.received ++ [frame]
        receiverPoint := .locking }
  | lock : state.receiverPoint = .locking →
      ReceiverMove state frame { state with
        memory := { state.memory with semaphore := 1 }
        receiverPoint := .opening }
  | work {before later : ReceiverPoint} (strBuff : StrBuff) (inputTxt : Option (List Byte)) :
      state.receiverPoint = before → FileWork before later →
      ReceiverMove state frame { state with
        strBuff := strBuff
        memory := { state.memory with inputTxt := inputTxt }
        receiverPoint := later }
  | store (k : Fin 70) : state.receiverPoint = .storing k →
      ReceiverMove state frame { state with
        memory := { state.memory with
          upData := Function.update state.memory.upData k (upDataOf state.buff k) }
        receiverPoint := .printing k }
  | announce : state.receiverPoint = .announcing →
      ReceiverMove state frame { state with
        memory := { state.memory with updateFlag := 1 }
        receiverPoint := .closingStore }
  | unlock : state.receiverPoint = .unlocking →
      ReceiverMove state frame { state with
        memory := { state.memory with semaphore := 0 }
        receiverPoint := .reading }

theorem receiverMove_of_step {state after : ServerState} {frame : Frame}
    (stepped : state.receiverStep frame = .ok after) : ReceiverMove state frame after := by
  cases point : state.receiverPoint with
  | reading =>
      simp only [ServerState.receiverStep, point, pure, Except.pure] at stepped
      cases stepped
      exact .arrive point
  | locking =>
      simp only [ServerState.receiverStep, point, pure, Except.pure] at stepped
      cases stepped
      exact .lock point
  | opening =>
      simp only [ServerState.receiverStep, point, pure, Except.pure] at stepped
      split at stepped <;> cases stepped
      exact .work state.strBuff state.memory.inputTxt point .opened
  | loading i file =>
      simp only [ServerState.receiverStep, point, bind, Except.bind, pure, Except.pure] at stepped
      split at stepped <;> cases stepped
      rename_i result _
      apply ReceiverMove.work result.1 state.memory.inputTxt point
      cases result.2.eof with
      | false => exact .lineRead
      | true => exact .endRead
  | closing n =>
      simp only [ServerState.receiverStep, point, pure, Except.pure] at stepped
      cases stepped
      exact .work state.strBuff state.memory.inputTxt point .closed
  | reopening n =>
      simp only [ServerState.receiverStep, point, bind, Except.bind, pure, Except.pure] at stepped
      split_ifs at stepped
      · cases stepped
        exact .work state.strBuff _ point .appending
      · split at stepped <;> cases stepped
        exact .work _ _ point .truncated
  | rewriting n i =>
      simp only [ServerState.receiverStep, point, bind, Except.bind, pure, Except.pure] at stepped
      split_ifs at stepped
      · split at stepped <;> cases stepped
        exact .work state.strBuff _ point .rewritten
      · cases stepped
        exact .work state.strBuff state.memory.inputTxt point .allRewritten
  | storing k =>
      simp only [ServerState.receiverStep, point, pure, Except.pure] at stepped
      cases stepped
      exact .store k point
  | printing k =>
      simp only [ServerState.receiverStep, point, pure, Except.pure] at stepped
      cases stepped
      apply ReceiverMove.work state.strBuff _ point
      split_ifs with inside
      · exact .printed inside
      · exact .allPrinted (by omega)
  | endLine =>
      simp only [ServerState.receiverStep, point, pure, Except.pure] at stepped
      cases stepped
      exact .work state.strBuff _ point .lineEnded
  | announcing =>
      simp only [ServerState.receiverStep, point, pure, Except.pure] at stepped
      cases stepped
      exact .announce point
  | closingStore =>
      simp only [ServerState.receiverStep, point, pure, Except.pure] at stepped
      cases stepped
      exact .work state.strBuff state.memory.inputTxt point .storeClosed
  | unlocking =>
      simp only [ServerState.receiverStep, point, pure, Except.pure] at stepped
      cases stepped
      exact .unlock point

/-- The points between which the updater neither draws nor touches the semaphore. -/
inductive Passage : UpdaterPoint → UpdaterPoint → Prop
  | buttonRead : Passage .top .testing
  | flagSet : Passage .testing .waiting
  | flagClear : Passage .testing .button
  | spinning : Passage .waiting .waiting
  | pressed : Passage .button .locking
  | notPressed : Passage .button .top
  | opened : Passage .opening (.loading 0 ⟨0, false⟩)
  | lineRead {i : Nat} {file next : OpenFile} : Passage (.loading i file) (.loading (i + 1) next)
  | endRead {i : Nat} {file : OpenFile} : Passage (.loading i file) (.unlocking i)
  | looking : Passage .viewing .viewing
  | left : Passage .viewing .top

/-- The steps of the updater, by what they change. -/
inductive UpdaterMove (state : ServerState) : ServerState → Prop
  | pass {before later : UpdaterPoint} (pressed : Bool) (viewBuff : StrBuff) :
      state.updaterPoint = before → Passage before later →
      UpdaterMove state { state with
        pressed := pressed
        viewBuff := viewBuff
        updaterPoint := later }
  | begin : state.updaterPoint = .waiting →
      UpdaterMove state { state with seen := [], updaterPoint := .drawing 0 }
  | draw (k : Fin 68) (inside : k.val + 1 < 68) : state.updaterPoint = .drawing k →
      UpdaterMove state { state with
        seen := state.seen ++ [state.memory.upData (drawReads.get k)]
        updaterPoint := .drawing ⟨k.val + 1, inside⟩ }
  | finish (k : Fin 68) : k.val + 1 = 68 → state.updaterPoint = .drawing k →
      UpdaterMove state { state with
        seen := state.seen ++ [state.memory.upData (drawReads.get k)]
        images := state.images ++ [state.seen ++ [state.memory.upData (drawReads.get k)]]
        drawn := state.drawn ++ [state.seen ++ [state.memory.upData (drawReads.get k)]]
        updaterPoint := .lowering }
  | lower : state.updaterPoint = .lowering →
      UpdaterMove state { state with
        memory := { state.memory with updateFlag := 0 }
        updaterPoint := .button }
  | lock : state.updaterPoint = .locking →
      UpdaterMove state { state with
        memory := { state.memory with semaphore := 1 }
        updaterPoint := .opening }
  | unlock (n : Nat) : state.updaterPoint = .unlocking n →
      UpdaterMove state { state with
        memory := { state.memory with semaphore := 0 }
        updaterPoint := .closing n }
  | view (n : Nat) : state.updaterPoint = .closing n →
      UpdaterMove state { state with
        n := n
        views := state.views ++ [⟨state.viewBuff, n⟩]
        updaterPoint := .splitting }
  | enter (temp : Vector Byte 4) (data : Fin 10 → Fin 70 → Int) (row : Fin 70 → Int) :
      state.updaterPoint = .splitting →
      UpdaterMove state { state with
        num := (state.n : Int) - 1
        temp := temp
        data := data
        row := row
        drawn := state.drawn ++ [imageOf row]
        updaterPoint := .viewing }
  | browse (num : Int) (row : Fin 70 → Int) : state.updaterPoint = .viewing →
      UpdaterMove state { state with
        num := num
        row := row
        drawn := state.drawn ++ [imageOf row] }

theorem exists_of_split (state : ServerState) (input : UpdaterInput) :
    ∃ temp data, state.split input = { state with temp := temp, data := data } := by
  unfold ServerState.split
  split <;> exact ⟨_, _, rfl⟩

theorem updaterMove_of_step {state after : ServerState} {input : UpdaterInput}
    (stepped : state.updaterStep input = .ok after) : UpdaterMove state after := by
  cases point : state.updaterPoint with
  | top =>
      simp only [ServerState.updaterStep, point, pure, Except.pure] at stepped
      cases stepped
      exact .pass _ state.viewBuff point .buttonRead
  | testing =>
      simp only [ServerState.updaterStep, point, pure, Except.pure] at stepped
      cases stepped
      apply UpdaterMove.pass state.pressed state.viewBuff point
      split_ifs
      · exact .flagSet
      · exact .flagClear
  | waiting =>
      simp only [ServerState.updaterStep, point, pure, Except.pure] at stepped
      split_ifs at stepped
      · cases stepped
        have still := UpdaterMove.pass state.pressed state.viewBuff point .spinning
        rwa [← point] at still
      · cases stepped
        exact .begin point
  | drawing k =>
      simp only [ServerState.updaterStep, point, pure, Except.pure] at stepped
      split_ifs at stepped with inside
      · cases stepped
        exact .draw k inside point
      · cases stepped
        exact .finish k (by omega) point
  | lowering =>
      simp only [ServerState.updaterStep, point, pure, Except.pure] at stepped
      cases stepped
      exact .lower point
  | button =>
      simp only [ServerState.updaterStep, point, pure, Except.pure] at stepped
      cases stepped
      apply UpdaterMove.pass state.pressed state.viewBuff point
      split_ifs
      · exact .pressed
      · exact .notPressed
  | locking =>
      simp only [ServerState.updaterStep, point, pure, Except.pure] at stepped
      cases stepped
      exact .lock point
  | opening =>
      simp only [ServerState.updaterStep, point, pure, Except.pure] at stepped
      split at stepped <;> cases stepped
      exact .pass state.pressed state.viewBuff point .opened
  | loading i file =>
      simp only [ServerState.updaterStep, point, bind, Except.bind, pure, Except.pure] at stepped
      split at stepped <;> cases stepped
      rename_i result _
      apply UpdaterMove.pass state.pressed result.1 point
      cases result.2.eof with
      | false => exact .lineRead
      | true => exact .endRead
  | unlocking n =>
      simp only [ServerState.updaterStep, point, pure, Except.pure] at stepped
      cases stepped
      exact .unlock n point
  | closing n =>
      simp only [ServerState.updaterStep, point, pure, Except.pure] at stepped
      cases stepped
      exact .view n point
  | splitting =>
      rcases exists_of_split state input with ⟨temp, data, isSplit⟩
      simp only [ServerState.updaterStep, point, isSplit, pure, Except.pure] at stepped
      cases stepped
      exact .enter temp data _ point
  | viewing =>
      simp only [ServerState.updaterStep, point, pure, Except.pure] at stepped
      split_ifs at stepped
      · cases stepped
        exact .pass state.pressed state.viewBuff point .left
      · split at stepped <;> cases stepped
        · exact .browse _ _ point
        · have still := UpdaterMove.pass state.pressed state.viewBuff point .looking
          rwa [← point] at still

/-! ## Loading line by line -/

def lines (queue : List Frame) (j : Nat) : List Byte := (queue.map recordLine).getD j []

structure LoadedUpTo (queue : List Frame) (i : Nat) (file : OpenFile) (strBuff : StrBuff) :
    Prop where
  inQueue : i ≤ queue.length
  file : file = ⟨(storeText (queue.take i)).length, false⟩
  rows : RowTexts strBuff (lines queue) i

theorem loadedUpTo_zero (queue : List Frame) (strBuff : StrBuff) :
    LoadedUpTo queue 0 ⟨0, false⟩ strBuff where
  inQueue := Nat.zero_le _
  file := rfl
  rows _ _ early := absurd early (Nat.not_lt_zero _)

theorem lines_getElem {queue : List Frame} {i : Nat} (occurs : i < queue.length) :
    lines queue i = recordLine queue[i] := by
  rw [lines, List.getD_eq_getElem _ _ (by simpa using occurs), List.getElem_map]

theorem storeText_append (first second : List Frame) :
    storeText (first ++ second) = storeText first ++ storeText second := by
  simp [storeText]

theorem drop_storeText (queue : List Frame) (i : Nat) :
    (storeText queue).drop (storeText (queue.take i)).length = storeText (queue.drop i) := by
  have split := storeText_append (queue.take i) (queue.drop i)
  rw [List.take_append_drop] at split
  rw [split, List.drop_left]

theorem LoadedUpTo.next {queue : List Frame} {i : Nat} {file : OpenFile} {strBuff : StrBuff}
    (loaded : LoadedUpTo queue i file strBuff) (occurs : i < queue.length) (inside : i < 10) :
    ∃ rows after, fgetsStep (storeText queue) file i strBuff = .ok (rows, after) ∧
      after.eof = false ∧ LoadedUpTo queue (i + 1) after rows := by
  have isLine := isLine_recordLine queue[i]
  have rest : (storeText queue).drop file.position =
      recordLine queue[i] ++ storeText (queue.drop (i + 1)) := by
    rw [loaded.file, drop_storeText, List.drop_eq_getElem_cons occurs]
    rfl
  have read := fgetsRow_line isLine (storeText (queue.drop (i + 1)))
  refine ⟨strBuff.set i ⟨recordLine queue[i], isLine.short⟩ inside,
    ⟨file.position + (recordLine queue[i]).length, false⟩, ?_, rfl, ?_⟩
  · have noEof : file.eof = false := by rw [loaded.file]
    simp only [fgetsStep, rest, noEof, read, StrBuff.store_inside strBuff inside, bind,
      Except.bind, pure, Except.pure, List.length_append, Nat.add_sub_cancel]
  · refine ⟨occurs, ?_, ?_⟩
    · rw [loaded.file, List.take_succ_eq_append_getElem occurs, storeText_append,
        List.length_append]
      simp [storeText]
    · intro j within early
      by_cases here : j = i
      · subst here
        rw [Vector.getElem_set_self, lines_getElem occurs]
        exact contents_of_noNul _ (zero_not_mem_recordLine _)
      · rw [Vector.getElem_set_ne inside within (by omega), loaded.rows j within (by omega)]

theorem LoadedUpTo.stop {queue : List Frame} {file : OpenFile} {strBuff : StrBuff}
    (loaded : LoadedUpTo queue queue.length file strBuff) :
    ∃ after, fgetsStep (storeText queue) file queue.length strBuff = .ok (strBuff, after) ∧
      after.eof = true := by
  have rest : (storeText queue).drop file.position = [] := by
    rw [loaded.file, List.take_length, List.drop_length]
  have noEof : file.eof = false := by rw [loaded.file]
  refine ⟨⟨file.position, true⟩, ?_, rfl⟩
  simp only [fgetsStep, rest, noEof, fgetsRow_end, bind, Except.bind, pure, Except.pure]
  rfl

/-! ## The stages of a store -/

def keptOf (queue : List Frame) : List Frame :=
  if queue.length < 8 then queue else queue.tail

theorem push_eq (queue : List Frame) (frame : Frame) :
    push 8 queue frame = keptOf queue ++ [frame] := by
  rw [push, keptOf]
  split_ifs <;> rfl

/-- The text of the first `k` values of a record. -/
def valuesText (frame : Frame) (k : Nat) : List Byte :=
  (frame.bytes.take k).flatMap fun value => decimal value.toNat ++ [space]

theorem valuesText_succ (frame : Frame) (k : Fin 70) :
    valuesText frame (k.val + 1) =
      valuesText frame k.val ++ (decimal (frame k).toNat ++ [space]) := by
  have inside : k.val < frame.bytes.length := by simp
  have value : frame.bytes[k.val] = frame k := by simp [Frame.bytes]
  rw [valuesText, List.take_succ_eq_append_getElem inside, List.flatMap_append, value]
  simp [valuesText]

theorem valuesText_all (frame : Frame) :
    valuesText frame 70 ++ [newline] = recordLine frame := by
  have all : frame.bytes.take 70 = frame.bytes := List.take_of_length_le (by simp)
  rw [valuesText, all, recordLine]

/-- What the file and the loaded rows hold at each point of the receiver, over a
queue of at most eight records. -/
def AtStage (queue : List Frame) (state : ServerState) : Prop :=
  match state.receiverPoint with
  | .reading | .locking | .opening => state.memory.inputTxt = some (storeText queue)
  | .loading i file =>
      state.memory.inputTxt = some (storeText queue) ∧ LoadedUpTo queue i file state.strBuff
  | .closing n | .reopening n =>
      state.memory.inputTxt = some (storeText queue) ∧ n = queue.length ∧
        RowTexts state.strBuff (lines queue) n
  | .rewriting n i =>
      state.memory.inputTxt = some (storeText (queue.tail.take i)) ∧ n = 8 ∧ queue.length = 8 ∧
        i ≤ 7 ∧ RowTexts state.strBuff (lines queue.tail) 7
  | .storing k | .printing k =>
      state.memory.inputTxt = some (storeText (keptOf queue) ++ valuesText state.buff k)
  | .endLine =>
      state.memory.inputTxt = some (storeText (keptOf queue) ++ valuesText state.buff 70)
  | .announcing | .closingStore | .unlocking =>
      state.memory.inputTxt = some (storeText (push 8 queue state.buff))

/-- The queue in the file after the given frames. -/
def queueAfter (history frames : List Frame) : List Frame := (history ++ frames).rtake 8

theorem length_queueAfter_le (history frames : List Frame) :
    (queueAfter history frames).length ≤ 8 := by
  rw [queueAfter, length_rtake]
  omega

theorem queueAfter_concat (history frames : List Frame) (frame : Frame) :
    queueAfter history (frames ++ [frame]) = push 8 (queueAfter history frames) frame := by
  rw [queueAfter, queueAfter, push_rtake (by decide), List.append_assoc]

/-- The frames stored so far, and the one being stored. -/
structure Stores (history stored : List Frame) (state : ServerState) : Prop where
  received : state.received =
    stored ++ if state.receiverPoint = .reading then [] else [state.buff]
  stage : AtStage (queueAfter history stored) state

theorem stores_initial (history : List Frame) (data : Fin 10 → Fin 70 → Int) :
    Stores history [] (.initial history data) where
  received := rfl
  stage := by
    simp [AtStage, ServerState.initial, queueAfter]

/-! ## Steps -/

theorem lines_tail (queue : List Frame) (j : Nat) : lines queue.tail j = lines queue (j + 1) := by
  cases queue <;> simp [lines]

section Receiver

variable {queue : List Frame} {state : ServerState}

private theorem AtStage.loading (stage : AtStage queue state) (short : queue.length ≤ 8) {i : Nat}
    {file : OpenFile} (point : state.receiverPoint = .loading i file) (frame : Frame) :
    ∃ after, state.receiverStep frame = .ok after ∧ AtStage queue after := by
  simp only [AtStage, point] at stage
  rcases stage with ⟨text, loaded⟩
  rcases Nat.lt_or_ge i queue.length with occurs | atEnd
  · rcases loaded.next occurs (by omega) with ⟨rows, next, read, noEof, loadedNext⟩
    refine ⟨_, by
      simp only [ServerState.receiverStep, point, text, Option.getD_some, read, bind, Except.bind]
      rfl, ?_⟩
    simp only [noEof]
    exact ⟨text, loadedNext⟩
  · have last : i = queue.length := Nat.le_antisymm loaded.inQueue atEnd
    subst last
    rcases loaded.stop with ⟨next, read, eof⟩
    refine ⟨_, by
      simp only [ServerState.receiverStep, point, text, Option.getD_some, read, bind, Except.bind]
      rfl, ?_⟩
    simp only [eof]
    exact ⟨text, rfl, loaded.rows⟩

/-- With room left the record is appended, otherwise the rows are shifted first. -/
private theorem AtStage.reopening (stage : AtStage queue state) (short : queue.length ≤ 8)
    {n : Nat} (point : state.receiverPoint = .reopening n) (frame : Frame) :
    ∃ after, state.receiverStep frame = .ok after ∧ AtStage queue after := by
  simp only [AtStage, point] at stage
  rcases stage with ⟨text, count, rows⟩
  by_cases room : n < 8
  · refine ⟨_, by simp only [ServerState.receiverStep, point, if_pos room]; rfl, ?_⟩
    have kept : keptOf queue = queue := if_pos (count ▸ room)
    simp [AtStage, ServerState.print, text, kept, valuesText]
  · rcases shiftRows_texts state.strBuff (lines queue) (by omega) (by omega) rows with
      ⟨shifted, run, moved⟩
    have full : n = 8 := by omega
    subst full
    refine ⟨_, by
      simp only [ServerState.receiverStep, point, if_neg room, run, bind, Except.bind]
      rfl, ?_⟩
    refine ⟨by simp [storeText], rfl, count.symm, by omega, ?_⟩
    intro j inside early
    rw [moved j inside early, lines_tail]

/-- The next of the seven kept lines is written, or all of them are. -/
private theorem AtStage.rewriting (stage : AtStage queue state) {n i : Nat}
    (point : state.receiverPoint = .rewriting n i) (frame : Frame) :
    ∃ after, state.receiverStep frame = .ok after ∧ AtStage queue after := by
  simp only [AtStage, point] at stage
  rcases stage with ⟨text, count, full, within, rows⟩
  subst count
  have inTail : queue.tail.length = 7 := by
    rw [List.length_tail]
    omega
  by_cases more : i < 7
  · have occurs : i < queue.tail.length := by omega
    have line := rows i (by omega) more
    rw [lines_getElem occurs] at line
    refine ⟨_, by
      simp only [ServerState.receiverStep, point, if_pos more,
        StrBuff.load_inside state.strBuff (show i < 10 by omega), bind, Except.bind]
      rfl, ?_⟩
    refine ⟨?_, rfl, full, more, rows⟩
    rw [List.take_succ_eq_append_getElem occurs, storeText_append, line]
    simp [ServerState.print, text, storeText]
  · have done : i = 7 := by omega
    subst done
    refine ⟨_, by simp only [ServerState.receiverStep, point]; rfl, ?_⟩
    have kept : keptOf queue = queue.tail := if_neg (by omega)
    have all : queue.tail.take 7 = queue.tail := List.take_of_length_le (by omega)
    rw [all] at text
    simp [AtStage, text, kept, valuesText]

private theorem AtStage.printing (stage : AtStage queue state) {k : Fin 70}
    (point : state.receiverPoint = .printing k) (frame : Frame) :
    ∃ after, state.receiverStep frame = .ok after ∧ AtStage queue after := by
  simp only [AtStage, point] at stage
  refine ⟨_, by simp only [ServerState.receiverStep, point]; rfl, ?_⟩
  have value := valuesText_succ state.buff k
  by_cases inside : k.val + 1 < 70
  · simp [AtStage, ServerState.print, stage, inside, value]
  · have last : k.val + 1 = 70 := by omega
    rw [last] at value
    simp [AtStage, ServerState.print, stage, inside, value]

/-- The receiver never leaves `str_buff`, and it goes from stage to stage. -/
theorem AtStage.receiverStep (stage : AtStage queue state) (short : queue.length ≤ 8)
    (under : state.receiverPoint ≠ .unlocking) (frame : Frame) :
    ∃ after, state.receiverStep frame = .ok after ∧ AtStage queue after := by
  cases point : state.receiverPoint with
  | loading i file => exact stage.loading short point frame
  | reopening n => exact stage.reopening short point frame
  | rewriting n i => exact stage.rewriting point frame
  | printing k => exact stage.printing point frame
  | opening =>
      simp only [AtStage, point] at stage
      refine ⟨_, by simp only [ServerState.receiverStep, point, stage]; rfl, ?_⟩
      exact ⟨stage, loadedUpTo_zero queue _⟩
  | endLine =>
      simp only [AtStage, point] at stage
      refine ⟨_, by simp only [ServerState.receiverStep, point]; rfl, ?_⟩
      have line := valuesText_all state.buff
      simp [AtStage, ServerState.print, stage, push_eq, storeText, ← line]
  | reading | locking | closing | storing | announcing | closingStore =>
      simp only [AtStage, point] at stage
      refine ⟨_, by simp only [ServerState.receiverStep, point]; rfl, ?_⟩
      exact stage
  | unlocking => exact absurd point under

end Receiver

theorem AtStage.unlock {queue : List Frame} {state : ServerState} (stage : AtStage queue state)
    (last : state.receiverPoint = .unlocking) (frame : Frame) :
    ∃ after, state.receiverStep frame = .ok after ∧ AtStage (push 8 queue state.buff) after := by
  simp only [AtStage, last] at stage
  refine ⟨_, by simp only [ServerState.receiverStep, last]; rfl, ?_⟩
  exact stage

/-- A frame is taken over when it arrives, and only then. -/
theorem receiverStep_received {state after : ServerState} {frame : Frame}
    (stepped : state.receiverStep frame = .ok after) :
    after.received = state.received ++ (if state.receiverPoint = .reading then [frame] else []) ∧
      after.buff = (if state.receiverPoint = .reading then frame else state.buff) ∧
      (after.receiverPoint = .reading ↔ state.receiverPoint = .unlocking) := by
  cases receiverMove_of_step stepped with
  | work strBuff inputTxt started work => cases work <;> simp [started]
  | arrive point | lock point | store _ point | announce point | unlock point => simp [point]

theorem Stores.receiverStep {history stored : List Frame} {state after : ServerState}
    (stores : Stores history stored state) {frame : Frame}
    (stepped : state.receiverStep frame = .ok after) :
    Stores history
      (if state.receiverPoint = .unlocking then stored ++ [state.buff] else stored) after := by
  rcases stores with ⟨received, stage⟩
  rcases receiverStep_received stepped with ⟨arrived, buff, reading⟩
  have short := length_queueAfter_le history stored
  by_cases last : state.receiverPoint = .unlocking
  · rcases stage.unlock last frame with ⟨found, foundStep, foundStage⟩
    rw [stepped] at foundStep
    cases foundStep
    rw [if_pos last]
    constructor
    · rw [arrived, received, if_pos (reading.mpr last), last]
      simp
    · rw [queueAfter_concat]
      exact foundStage
  · rcases stage.receiverStep short last frame with ⟨found, foundStep, foundStage⟩
    rw [stepped] at foundStep
    cases foundStep
    rw [if_neg last]
    refine ⟨?_, foundStage⟩
    have busy : after.receiverPoint ≠ .reading := fun isReading => last (reading.mp isReading)
    rw [arrived, received, if_neg busy, buff]
    by_cases waiting : state.receiverPoint = .reading <;> simp [waiting]

theorem updaterStep_frame {state after : ServerState} {input : UpdaterInput}
    (stepped : state.updaterStep input = .ok after) :
    after.receiverPoint = state.receiverPoint ∧ after.buff = state.buff ∧
      after.strBuff = state.strBuff ∧ after.received = state.received ∧
      after.memory.inputTxt = state.memory.inputTxt ∧
      after.memory.upData = state.memory.upData := by
  cases updaterMove_of_step stepped <;> exact ⟨rfl, rfl, rfl, rfl, rfl, rfl⟩

theorem Stores.updaterStep {history stored : List Frame} {state after : ServerState}
    (stores : Stores history stored state) {input : UpdaterInput}
    (stepped : state.updaterStep input = .ok after) : Stores history stored after := by
  rcases updaterStep_frame stepped with ⟨point, buff, strBuff, received, inputTxt, -⟩
  rcases stores with ⟨arrived, stage⟩
  refine ⟨by rw [received, point, buff, arrived], ?_⟩
  simp only [AtStage, point, buff, strBuff, inputTxt]
  exact stage

/-! ## A store comes to its end -/

/-- The most steps that the receiver still needs for the frame at hand. -/
def ReceiverPoint.stepsLeft : ReceiverPoint → Nat
  | .reading => 0
  | .locking => 165
  | .opening => 164
  | .loading i _ => 155 + (8 - i)
  | .closing _ => 154
  | .reopening _ => 153
  | .rewriting _ i => 145 + (7 - i)
  | .storing k => 6 + 2 * (69 - k.val)
  | .printing k => 5 + 2 * (69 - k.val)
  | .endLine => 4
  | .announcing => 3
  | .closingStore => 2
  | .unlocking => 1

theorem ReceiverPoint.stepsLeft_le (point : ReceiverPoint) : point.stepsLeft ≤ 165 := by
  cases point <;> dsimp only [stepsLeft] <;> omega

theorem stepsLeft_lt {queue : List Frame} (short : queue.length ≤ 8) {state after : ServerState}
    {frame : Frame} (stageAfter : state.receiverPoint ≠ .unlocking → AtStage queue after)
    (busy : state.receiverPoint ≠ .reading) (stepped : state.receiverStep frame = .ok after) :
    after.receiverPoint.stepsLeft < state.receiverPoint.stepsLeft := by
  cases receiverMove_of_step stepped with
  | arrive point => exact absurd point busy
  | lock point | store _ point | announce point | unlock point =>
      rw [point]
      dsimp only [ReceiverPoint.stepsLeft]
      omega
  | work strBuff inputTxt point moved =>
      rw [point] at stageAfter ⊢
      cases moved with
      | lineRead =>
          have within := (stageAfter (by simp)).2.inQueue
          dsimp only [ReceiverPoint.stepsLeft]
          omega
      | rewritten =>
          have within := (stageAfter (by simp)).2.2.2.1
          dsimp only [ReceiverPoint.stepsLeft]
          omega
      | allPrinted last =>
          dsimp only [ReceiverPoint.stepsLeft]
          omega
      | opened | endRead | closed | appending | truncated | allRewritten | printed | lineEnded
      | storeClosed =>
          dsimp only [ReceiverPoint.stepsLeft]
          omega

/-- The receiver can always take its next step, and unless it reads, that step brings it
nearer to its next read. -/
theorem Stores.next {history stored : List Frame} {state : ServerState}
    (stores : Stores history stored state) (frame : Frame) :
    ∃ after, state.receiverStep frame = .ok after ∧
      (state.receiverPoint ≠ .reading →
        after.receiverPoint.stepsLeft < state.receiverPoint.stepsLeft) := by
  have short := length_queueAfter_le history stored
  by_cases last : state.receiverPoint = .unlocking
  · rcases stores.stage.unlock last frame with ⟨after, stepped, -⟩
    refine ⟨after, stepped, fun busy => ?_⟩
    exact stepsLeft_lt short (fun under => absurd last under) busy stepped
  · rcases stores.stage.receiverStep short last frame with ⟨after, stepped, stage⟩
    exact ⟨after, stepped, fun busy => stepsLeft_lt short (fun _ => stage) busy stepped⟩

/-! ## Whole runs -/

private theorem ok_of_toOption {outcome : Except Fault ServerState} {after : ServerState}
    (stepped : outcome.toOption = some after) : outcome = .ok after := by
  cases outcome with
  | error fault => cases stepped
  | ok found =>
      cases stepped
      rfl

theorem receiverStep_of_step {history : List Frame} {state after : ServerState} {frame : Frame}
    (stepped : (serverProcesses history).step state (.receiver frame) = some after) :
    state.receiverStep frame = .ok after :=
  ok_of_toOption stepped

theorem updaterStep_of_step {history : List Frame} {state after : ServerState}
    {input : UpdaterInput}
    (stepped : (serverProcesses history).step state (.updater input) = some after) :
    state.updaterStep input = .ok after :=
  ok_of_toOption stepped

/-- In every run the file goes through the stages of one store after the other. -/
theorem stores_of_run {history : List Frame} {actions : List ServerAction} {state : ServerState}
    (run : (serverProcesses history).Run actions state) :
    ∃ stored, Stores history stored state := by
  apply run.invariant fun _ state => ∃ stored, Stores history stored state
  · intro state initial
    rcases initial with ⟨data, initial⟩
    subst initial
    exact ⟨[], stores_initial history data⟩
  · intro actions state action after stores _ stepped
    rcases stores with ⟨stored, stores⟩
    cases action with
    | receiver frame => exact ⟨_, stores.receiverStep (receiverStep_of_step stepped)⟩
    | updater input => exact ⟨stored, stores.updaterStep (updaterStep_of_step stepped)⟩

/-- Whatever `update_process` does, the receiver never leaves its arrays and never
meets a missing file. -/
theorem receiver_never_faults {history : List Frame} {actions : List ServerAction}
    {state : ServerState} (run : (serverProcesses history).Run actions state) (frame : Frame) :
    ∃ after, state.receiverStep frame = .ok after := by
  rcases stores_of_run run with ⟨stored, stores⟩
  by_cases last : state.receiverPoint = .unlocking
  · rcases stores.stage.unlock last frame with ⟨after, stepped, -⟩
    exact ⟨after, stepped⟩
  · rcases stores.stage.receiverStep (length_queueAfter_le history stored) last frame with
      ⟨after, stepped, -⟩
    exact ⟨after, stepped⟩

end GamZ.Server
