import GamZ.Client.Repaint
import GamZ.Foundation.Transition

/-! # The processes of a connected client

`radar_process` hands alarms to `client_send_process` through shared memory;
`fpga_process` moves the warn line and ends the session on the same socket. Every
store, flag access and `write` is one step, and the steps of the three processes
interleave in any order. -/

namespace GamZ.Client

open CString Transition

/-- One `write` on the socket. -/
inductive Message
  | dataIn
  | frame (content : Frame)
  | logout

def Message.bytes : Message → List Byte
  | .dataIn => dataInMessage
  | .frame content => content.bytes
  | .logout => logoutMessage

/-- What a half-sweep that set `send_flag` asks to be sent. -/
structure Alarm where
  slots : Fin 61 → Byte
  warnVal : Byte

def alarmOf (frame : Frame) : Alarm where
  slots i := frame (sweepSlot i)
  warnVal := frame 67

/-! ## Program points -/

inductive RadarPoint
  /-- `warn_val = *warn_line;` -/
  | cycleStart
  /-- `*warn_data = warn_val;` and the repaint -/
  | storeWarn
  | halfSweep (direction : Direction)
  /-- `*(data_buf + i) = (r[i] / 2) + 1;` -/
  | deposit (direction : Direction) (i : Fin 61)
  /-- `*buz_flag = 0;` -/
  | alarmOff (direction : Direction)
  /-- `*send_flag = 1;` -/
  | raise (direction : Direction)
deriving DecidableEq, Repr

inductive SenderPoint
  /-- `memset(data_buf,1,sizeof(*data_buf)*70);` -/
  | clearing (k : Fin 70)
  /-- `if(*send_flag)` -/
  | polling
  /-- `*data_semaphore = 1;` -/
  | locking (time : Fin 6 → Byte)
  /-- `write(client_socket, "data_in",strlen("data_in")+1);` -/
  | announcing (time : Fin 6 → Byte)
  /-- The stores to bytes 61 to 68. -/
  | filling (time : Fin 6 → Byte) (k : Fin 8)
  /-- `write(client_socket, data_buf, 70);` -/
  | writing
  /-- `*send_flag = 0;` -/
  | lowering
  /-- `*data_semaphore = 0;` -/
  | unlocking

inductive FpgaPoint
  | serving
  /-- `*data_semaphore = 1;` -/
  | locking
  /-- `write(client_socket, "logout", strlen("logout") + 1);` -/
  | writing
  /-- `*data_semaphore = 0;` -/
  | unlocking
  | closed
deriving DecidableEq, Repr

/-- The buttons of `fpga_process` that matter here. -/
inductive Button
  | none
  | warnUp
  | warnDown
  | exit
deriving DecidableEq, Repr

/-- The shared memory, the socket and what the processes hold themselves. The
alarms raised so far are kept as history. -/
structure State where
  radarPoint : RadarPoint
  radar : RadarState
  warnVal : Byte
  senderPoint : SenderPoint
  fpgaPoint : FpgaPoint
  warnLine : Nat
  dataBuf : Frame
  sendFlag : Int
  warnData : Byte
  dataSemaphore : Int
  socket : List Message
  raised : List Alarm

/-- `main` has connected and set the shared variables. -/
def State.initial : State where
  radarPoint := .cycleStart
  radar := .initial
  warnVal := 0
  senderPoint := .clearing 0
  fpgaPoint := .serving
  warnLine := 20
  dataBuf := fun _ => 0
  sendFlag := 0
  warnData := 0
  dataSemaphore := 0
  socket := []
  raised := []

/-! ## Steps -/

/-- After a half-sweep comes the one back, then the next cycle. -/
def Direction.next : Direction → RadarPoint
  | .forward => .halfSweep .back
  | .back => .cycleStart

def State.alarm (state : State) : Alarm where
  slots i := depositByte state.radar.r i
  warnVal := state.warnVal

def State.store (state : State) (slot : Fin 70) (value : Byte) : State :=
  { state with dataBuf := Function.update state.dataBuf slot value }

def State.radarStep (xres : Nat) (state : State) (readings : Fin 61 → Reading) : State :=
  match state.radarPoint with
  | .cycleStart => { state with warnVal := UInt8.ofNat state.warnLine, radarPoint := .storeWarn }
  | .storeWarn =>
      { state with
        warnData := state.warnVal
        radar := state.radar.startCycle state.warnVal xres
        radarPoint := .halfSweep .forward }
  | .halfSweep direction =>
      let radar := state.radar.halfSweep direction state.warnVal xres readings
      { state with
        radar := radar
        radarPoint := if radar.buzFlag ≠ 0 then .deposit direction 0 else direction.next }
  | .deposit direction i =>
      { state.store (sweepSlot i) (depositByte state.radar.r i) with
        radarPoint :=
          if inside : i.val + 1 < 61 then .deposit direction ⟨i.val + 1, inside⟩
          else .alarmOff direction }
  | .alarmOff direction =>
      { state with
        radar := { state.radar with buzFlag := 0 }
        radarPoint := .raise direction }
  | .raise direction =>
      { state with
        sendFlag := 1
        raised := state.raised ++ [state.alarm]
        radarPoint := direction.next }

/-- What the sender stores in byte `61 + k`. -/
def State.fillByte (state : State) (time : Fin 6 → Byte) (k : Fin 8) : Byte :=
  if isTime : k.val < 6 then time ⟨k.val, isTime⟩
  else if k.val = 6 then state.warnData
  else 0

/-- `time` is the time of day at this step. -/
def State.senderStep (state : State) (time : Fin 6 → Byte) : State :=
  match state.senderPoint with
  | .clearing k =>
      { state.store k 1 with
        senderPoint :=
          if inside : k.val + 1 < 70 then .clearing ⟨k.val + 1, inside⟩ else .polling }
  | .polling =>
      { state with senderPoint := if state.sendFlag ≠ 0 then .locking time else .polling }
  | .locking time => { state with dataSemaphore := 1, senderPoint := .announcing time }
  | .announcing time =>
      { state with socket := state.socket ++ [.dataIn], senderPoint := .filling time 0 }
  | .filling time k =>
      { state.store ⟨61 + k.val, by omega⟩ (state.fillByte time k) with
        senderPoint :=
          if inside : k.val + 1 < 8 then .filling time ⟨k.val + 1, inside⟩ else .writing }
  | .writing =>
      { state with socket := state.socket ++ [.frame state.dataBuf], senderPoint := .lowering }
  | .lowering => { state with sendFlag := 0, senderPoint := .unlocking }
  | .unlocking => { state with dataSemaphore := 0, senderPoint := .polling }

def State.fpgaStep (state : State) (button : Button) : State :=
  match state.fpgaPoint with
  | .serving =>
      match button with
      | .none => state
      | .warnUp =>
          { state with
            warnLine := if state.warnLine < 250 then state.warnLine + 10 else state.warnLine }
      | .warnDown =>
          { state with
            warnLine := if state.warnLine ≥ 20 then state.warnLine - 10 else state.warnLine }
      | .exit => { state with fpgaPoint := .locking }
  | .locking => { state with dataSemaphore := 1, fpgaPoint := .writing }
  | .writing => { state with socket := state.socket ++ [.logout], fpgaPoint := .unlocking }
  | .unlocking => { state with dataSemaphore := 0, fpgaPoint := .closed }
  | .closed => state

/-- The process that takes the next step, with what it reads from outside. -/
inductive Action
  | radar (readings : Fin 61 → Reading)
  | sender (time : Fin 6 → Byte)
  | fpga (button : Button)

/-- The client. A process that `SIGINT` has stopped is one that takes no more
steps. -/
def processes (xres : Nat) : TransitionSystem State Action where
  Initial state := state = .initial
  step state
    | .radar readings => some (state.radarStep xres readings)
    | .sender time => some (state.senderStep time)
    | .fpga button => some (state.fpgaStep button)

/-! ## Stretches of runs -/

/-- The sender clears the buffer. -/
def clearing : List Action := List.replicate 70 (.sender fun _ => 0)

/-- A cycle up to the end of its forward half-sweep, with all readings 0. -/
def nearHalfSweep : List Action := List.replicate 66 (.radar fun _ => 0)

/-- The sender's pass through its loop with `send_flag` set. -/
def transmission : List Action := List.replicate 14 (.sender fun _ => 0)

end GamZ.Client
