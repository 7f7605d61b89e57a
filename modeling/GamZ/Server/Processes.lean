import GamZ.Foundation.Transition
import GamZ.Server.HistoryBrowsing

/-! # The processes of the server

`client_receive_process` stores arriving frames in `input.txt` and `up_data`;
`update_process` draws `up_data` and the rows of the history, which it loads from
the file. Every access to a shared variable and every call on the file is one step,
a `fprintf` takes effect at once, and the steps of the two processes interleave in
any order. Behind an overrun of `temp`, and with `data[-1]`, the history view goes on
with any values. The text display is left out: a time byte of three digits, on which
its composer fails, is no fault of these steps. -/

namespace GamZ.Server

open CString Stdio BoundedFifo Transition

/-! ## Program points -/

structure OpenFile where
  position : Nat
  eof : Bool
deriving DecidableEq, Repr

inductive ReceiverPoint
  /-- `read(*sock, buff, BUFF_SIZE);` up to the frame behind a header -/
  | reading
  /-- `*semaphore = 1;` -/
  | locking
  /-- `fp = fopen("input.txt", "r");` -/
  | opening
  /-- `fgets(str_buff[i], 512, fp);` -/
  | loading (i : Nat) (file : OpenFile)
  /-- `fclose(fp);` -/
  | closing (n : Nat)
  /-- `fopen` for appending, or for writing after the rows are shifted -/
  | reopening (n : Nat)
  /-- `fprintf(fp,"%s",str_buff[i]);` -/
  | rewriting (n i : Nat)
  /-- `*(up_data + i) = buff[i];` -/
  | storing (i : Fin 70)
  /-- `fprintf(fp,"%d ",buff[i]);` -/
  | printing (i : Fin 70)
  /-- `fprintf(fp,"\n");` -/
  | endLine
  /-- `*update_flag = 1;` -/
  | announcing
  /-- `fclose(fp);` -/
  | closingStore
  /-- `*semaphore = 0;` -/
  | unlocking
deriving DecidableEq, Repr

inductive UpdaterPoint
  /-- `read(dev, &push_sw_buff,9);` -/
  | top
  /-- `if(*update_flag)` -/
  | testing
  /-- `while(*semaphore){}` -/
  | waiting
  /-- `make_radar` and the time text read `up_data` -/
  | drawing (k : Fin 68)
  /-- `*update_flag = 0;` -/
  | lowering
  /-- `if(push_sw_buff[0] == 1)` -/
  | button
  /-- `*semaphore = 1;` -/
  | locking
  /-- `fp = fopen("input.txt", "r");` -/
  | opening
  /-- `fgets(str_buff[i], 512, fp);` -/
  | loading (i : Nat) (file : OpenFile)
  /-- `*semaphore = 0;` -/
  | unlocking (n : Nat)
  /-- `fclose(fp);` -/
  | closing (n : Nat)
  /-- The rows are split into numbers, and `data[n-1]` is drawn. -/
  | splitting
  /-- `while(1)` of the history view -/
  | viewing
deriving DecidableEq, Repr

/-- The entries of `up_data` in the order in which a draw reads them. -/
def drawReads : List (Fin 70) :=
  (List.finRange 61).map sweepSlot ++ [67, 67, 61, 62, 63, 64, 65]

@[simp] theorem length_drawReads : drawReads.length = 68 := rfl

/-- What a draw shows, as the values it reads. -/
def imageOf (upData : Fin 70 → Int) : List Int := drawReads.map upData

/-- The shared memory, the file, and what the two processes hold themselves. The
frames received, the images drawn from `up_data`, the rows loaded for the history
view, the row it has drawn last, and all images drawn, those of the history among
them, are kept as history. -/
structure ServerState where
  receiverPoint : ReceiverPoint
  buff : Frame
  strBuff : StrBuff
  updaterPoint : UpdaterPoint
  pressed : Bool
  viewBuff : StrBuff
  seen : List Int
  n : Nat
  num : Int
  temp : Vector Byte 4
  data : Fin 10 → Fin 70 → Int
  memory : ServerMemory
  received : List Frame
  images : List (List Int)
  views : List Loaded
  row : Fin 70 → Int
  drawn : List (List Int)

/-- Both processes at their start, over the file of earlier runs and whatever `data`
holds. -/
def ServerState.initial (history : List Frame) (data : Fin 10 → Fin 70 → Int) : ServerState where
  receiverPoint := .reading
  buff := fun _ => 0
  strBuff := .cleared
  updaterPoint := .top
  pressed := false
  viewBuff := .cleared
  seen := []
  n := 0
  num := 0
  temp := Vector.replicate 4 0
  data := data
  memory := { ServerMemory.initial with inputTxt := some (storeText (history.rtake 8)) }
  received := []
  images := []
  views := []
  row := fun _ => 0
  drawn := []

/-! ## Steps -/

/-- `fgets` into row `i` of the file as it is now. -/
def fgetsStep (text : List Byte) (file : OpenFile) (i : Nat) (strBuff : StrBuff) :
    Except Fault (StrBuff × OpenFile) := do
  let stream : Stream := ⟨text.drop file.position, file.eof⟩
  let (line, next) := fgetsRow stream
  let strBuff ← match line with
    | some row => strBuff.store i row
    | none => .ok strBuff
  pure (strBuff, ⟨file.position + (stream.rest.length - next.rest.length), next.eof⟩)

def ServerState.print (state : ServerState) (text : List Byte) : ServerState :=
  { state with
    memory := { state.memory with inputTxt := some (state.memory.inputTxt.getD [] ++ text) } }

/-- A step of `client_receive_process`; `frame` is the frame that arrives if it is
waiting for one. -/
def ServerState.receiverStep (state : ServerState) (frame : Frame) :
    Except Fault ServerState :=
  match state.receiverPoint with
  | .reading =>
      pure { state with
        buff := frame
        strBuff := .cleared
        received := state.received ++ [frame]
        receiverPoint := .locking }
  | .locking =>
      pure { state with
        memory := { state.memory with semaphore := 1 }
        receiverPoint := .opening }
  | .opening =>
      match state.memory.inputTxt with
      | none => .error .nullStream
      | some _ => pure { state with receiverPoint := .loading 0 ⟨0, false⟩ }
  | .loading i file => do
      let (strBuff, next) ← fgetsStep (state.memory.inputTxt.getD []) file i state.strBuff
      pure { state with
        strBuff := strBuff
        receiverPoint := if next.eof then .closing i else .loading (i + 1) next }
  | .closing n => pure { state with receiverPoint := .reopening n }
  | .reopening n =>
      if n < 8 then
        pure { state.print [] with receiverPoint := .storing 0 }
      else do
        let strBuff ← shiftRows n state.strBuff
        pure { state with
          memory := { state.memory with inputTxt := some [] }
          strBuff := strBuff
          receiverPoint := .rewriting n 0 }
  | .rewriting n i =>
      if i < n - 1 then do
        let row ← state.strBuff.load i
        pure { state.print (contents row.val) with receiverPoint := .rewriting n (i + 1) }
      else pure { state with receiverPoint := .storing 0 }
  | .storing i =>
      pure { state with
        memory := { state.memory with
          upData := Function.update state.memory.upData i (state.buff i).toNat }
        receiverPoint := .printing i }
  | .printing i =>
      pure { state.print (decimal (state.buff i).toNat ++ [space]) with
        receiverPoint :=
          if inside : i.val + 1 < 70 then .storing ⟨i.val + 1, inside⟩ else .endLine }
  | .endLine => pure { state.print [newline] with receiverPoint := .announcing }
  | .announcing =>
      pure { state with
        memory := { state.memory with updateFlag := 1 }
        receiverPoint := .closingStore }
  | .closingStore => pure { state with receiverPoint := .unlocking }
  | .unlocking =>
      pure { state with
        memory := { state.memory with semaphore := 0 }
        receiverPoint := .reading }

/-- What a step of `update_process` takes from outside. -/
structure UpdaterInput where
  /-- What it reads of the switches, at the top of its loop and in that of the history. -/
  pushSwBuff : Switches
  /-- What `temp` and `data` hold behind an overrun of `temp`. -/
  temp : Vector Byte 4
  data : Fin 10 → Fin 70 → Int
  /-- What stands in the place of a row that `data` does not have. -/
  row : Fin 70 → Int

/-- The switches, where all accesses are inside. -/
def UpdaterInput.of (pushSwBuff : Switches) : UpdaterInput where
  pushSwBuff := pushSwBuff
  temp := Vector.replicate 4 0
  data := fun _ _ => 0
  row := fun _ => 0

/-- The rows are split into numbers. -/
def ServerState.split (state : ServerState) (input : UpdaterInput) : ServerState :=
  match splitRows ⟨state.viewBuff, state.n⟩ state.temp state.data with
  | .ok tokens => { state with temp := tokens.temp, data := tokens.data }
  | .error _ => { state with temp := input.temp, data := input.data }

/-- `make_radar(pfbdata, fvs,data[num]);` -/
def ServerState.drawRow (state : ServerState) (num : Int) (input : UpdaterInput) : ServerState :=
  let row := (rowAt state.data num).getD input.row
  { state with num := num, row := row, drawn := state.drawn ++ [imageOf row] }

/-- A step of `update_process`. -/
def ServerState.updaterStep (state : ServerState) (input : UpdaterInput) :
    Except Fault ServerState :=
  match state.updaterPoint with
  | .top =>
      pure { state with
        pressed := decide (firstSwitch input.pushSwBuff = 1)
        updaterPoint := .testing }
  | .testing =>
      pure { state with
        updaterPoint := if state.memory.updateFlag ≠ 0 then .waiting else .button }
  | .waiting =>
      if state.memory.semaphore ≠ 0 then pure state
      else pure { state with seen := [], updaterPoint := .drawing 0 }
  | .drawing k =>
      let seen := state.seen ++ [state.memory.upData (drawReads.get k)]
      if inside : k.val + 1 < 68 then
        pure { state with seen := seen, updaterPoint := .drawing ⟨k.val + 1, inside⟩ }
      else
        pure { state with
          seen := seen
          images := state.images ++ [seen]
          drawn := state.drawn ++ [seen]
          updaterPoint := .lowering }
  | .lowering =>
      pure { state with
        memory := { state.memory with updateFlag := 0 }
        updaterPoint := .button }
  | .button => pure { state with updaterPoint := if state.pressed then .locking else .top }
  | .locking =>
      pure { state with
        memory := { state.memory with semaphore := 1 }
        updaterPoint := .opening }
  | .opening =>
      match state.memory.inputTxt with
      | none => .error .nullStream
      | some _ => pure { state with updaterPoint := .loading 0 ⟨0, false⟩ }
  | .loading i file => do
      let (viewBuff, next) ← fgetsStep (state.memory.inputTxt.getD []) file i state.viewBuff
      pure { state with
        viewBuff := viewBuff
        updaterPoint := if next.eof then .unlocking i else .loading (i + 1) next }
  | .unlocking n =>
      pure { state with
        memory := { state.memory with semaphore := 0 }
        updaterPoint := .closing n }
  | .closing n =>
      pure { state with
        n := n
        views := state.views ++ [⟨state.viewBuff, n⟩]
        updaterPoint := .splitting }
  | .splitting =>
      pure ({ state.split input with updaterPoint := .viewing }.drawRow (state.n - 1) input)
  | .viewing =>
      if thirdSwitch input.pushSwBuff = 1 then pure { state with updaterPoint := .top }
      else
        match rowToShow state.n state.num input.pushSwBuff with
        | some num => pure (state.drawRow num input)
        | none => pure state

/-- The process that takes the next step, with what it reads from outside. -/
inductive ServerAction
  | receiver (frame : Frame)
  | updater (input : UpdaterInput)

/-- The server over a file that earlier runs left with the given records. -/
def serverProcesses (history : List Frame) : TransitionSystem ServerState ServerAction where
  Initial state := ∃ data, state = .initial history data
  step state
    | .receiver frame => (state.receiverStep frame).toOption
    | .updater input => (state.updaterStep input).toOption

theorem serverProcesses_initial (history : List Frame) (data : Fin 10 → Fin 70 → Int) :
    (serverProcesses history).Initial (.initial history data) :=
  ⟨data, rfl⟩

end GamZ.Server
