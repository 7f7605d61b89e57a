import GamZ.Client.Mailbox
import GamZ.Foundation.Channel
import GamZ.Foundation.Simulation
import GamZ.Server.LiveUpdate
import GamZ.System.OneSocket

/-! # Both boards together

The processes of the client write on the socket, and `client_receive_process` reads from
it whatever has arrived. TCP keeps the bytes and their order; how many of them a `read`
returns is up to it. -/

namespace GamZ.System

open CString Client Server Transition TransitionSystem

/-- The two boards and what the reads of the server have returned so far. -/
structure Boards where
  client : Client.State
  server : ServerState
  reads : List (List Byte)
  /-- The next read is the one behind a `data_in`. -/
  expectsFrame : Bool
  /-- `*logout = 1; break;` -/
  left : Bool

/-- The client starts over the records that earlier runs of the server have left. -/
def Boards.initial (history : List Frame) (data : Fin 10 → Fin 70 → Int) : Boards where
  client := .initial
  server := .initial history data
  reads := []
  expectsFrame := false
  left := false

/-- The bytes on their way to the server. -/
def Boards.inFlight (boards : Boards) : List Byte :=
  (boards.client.socket.flatMap Message.bytes).drop boards.reads.flatten.length

/-- What the receive loop does with the bytes of one `read`. -/
def Boards.takeRead (boards : Boards) (bytes : List Byte) : Option Boards :=
  let boards := { boards with reads := boards.reads ++ [bytes] }
  if boards.expectsFrame then
    (boards.server.receiverStep (recordOf (readBuffer bytes))).toOption.map fun server =>
      { boards with server := server, expectsFrame := false }
  else if strcmp (readBuffer bytes) logoutMessage = 0 then some { boards with left := true }
  else if strcmp (readBuffer bytes) dataInMessage = 0 then
    some { boards with expectsFrame := true }
  else some boards

/-- A step of `client_receive_process`. If it is a `read`, it blocks until there are bytes,
and returns `size` of them. -/
def Boards.receiverStep (boards : Boards) (size : Nat) : Option Boards :=
  if boards.left then none
  else if boards.server.receiverPoint = .reading then
    if 0 < size ∧ size ≤ 512 ∧ size ≤ boards.inFlight.length then
      boards.takeRead (boards.inFlight.take size)
    else none
  else
    (boards.server.receiverStep fun _ => 0).toOption.map fun server =>
      { boards with server := server }

inductive BoardsAction
  | client (action : Client.Action)
  | receiver (size : Nat)
  | updater (input : UpdaterInput)

def boardProcesses (xres : Nat) (history : List Frame) :
    TransitionSystem Boards BoardsAction where
  Initial boards := ∃ data, boards = .initial history data
  step boards
    | .client action => ((processes xres).step boards.client action).map fun client =>
        { boards with client := client }
    | .receiver size => boards.receiverStep size
    | .updater input => (boards.server.updaterStep input).toOption.map fun server =>
        { boards with server := server }

theorem boardProcesses_initial (xres : Nat) (history : List Frame)
    (data : Fin 10 → Fin 70 → Int) :
    (boardProcesses xres history).Initial (.initial history data) :=
  ⟨data, rfl⟩

/-! ## Reads that return a message -/

section Reads

variable {boards : Boards}

theorem takeRead_dataIn (between : boards.expectsFrame = false) :
    boards.takeRead dataInMessage =
      some { boards with
        reads := boards.reads ++ [dataInMessage]
        expectsFrame := true } := by
  have notLogout : ¬ strcmp (readBuffer dataInMessage) logoutMessage = 0 := by
    rw [strcmp_logout_iff, contents_dataInMessage]
    exact dataInText_ne_logoutText
  have isDataIn : strcmp (readBuffer dataInMessage) dataInMessage = 0 := by
    rw [strcmp_dataIn_iff, contents_dataInMessage]
  rw [Boards.takeRead]
  simp only [between, Bool.false_eq_true, if_false, if_neg notLogout, if_pos isDataIn]

theorem takeRead_logout (between : boards.expectsFrame = false) :
    boards.takeRead logoutMessage =
      some { boards with
        reads := boards.reads ++ [logoutMessage]
        left := true } := by
  have isLogout : strcmp (readBuffer logoutMessage) logoutMessage = 0 := by
    rw [strcmp_logout_iff, contents_logoutMessage]
  rw [Boards.takeRead]
  simp only [between, Bool.false_eq_true, if_false, if_pos isLogout]

theorem takeRead_frame (inRecord : boards.expectsFrame = true)
    (reading : boards.server.receiverPoint = .reading) (content : Frame) :
    boards.takeRead content.bytes =
      some { boards with
        reads := boards.reads ++ [content.bytes]
        server := { boards.server with
          buff := content
          strBuff := .cleared
          received := boards.server.received ++ [content]
          receiverPoint := .locking }
        expectsFrame := false } := by
  rw [Boards.takeRead]
  simp only [inRecord, if_true, recordOf_readBuffer_bytes, ServerState.receiverStep, reading]
  rfl

theorem takeRead_reads {bytes : List Byte} {after : Boards}
    (taken : boards.takeRead bytes = some after) : after.reads = boards.reads ++ [bytes] := by
  rw [Boards.takeRead] at taken
  split_ifs at taken
  · rcases Option.map_eq_some_iff.mp taken with ⟨server, -, isAfter⟩
    subst isAfter
    rfl
  all_goals
    cases taken
    rfl

end Reads

/-! ## Orderly runs -/

/-- Every read so far, this one included, returns one message. -/
def ReadsMessage (boards : Boards) (size : Nat) : Prop :=
  boards.server.receiverPoint = .reading →
    boards.reads ++ [boards.inFlight.take size] <+: boards.client.socket.map Message.bytes

instance (boards : Boards) (size : Nat) : Decidable (ReadsMessage boards size) :=
  inferInstanceAs (Decidable (boards.server.receiverPoint = .reading →
    boards.reads ++ [boards.inFlight.take size] <+: boards.client.socket.map Message.bytes))

/-- The sender keeps up with the sweep, the two writers take turns on the socket, and the
server reads message by message. -/
def Orderly (boards : Boards) : BoardsAction → Prop
  | .client action => Undisturbed boards.client action ∧ TakesTurns boards.client action
  | .receiver size => ReadsMessage boards size
  | .updater _ => True

instance (boards : Boards) (action : BoardsAction) : Decidable (Orderly boards action) :=
  match action with
  | .client action =>
      inferInstanceAs
        (Decidable (Undisturbed boards.client action ∧ TakesTurns boards.client action))
  | .receiver size => inferInstanceAs (Decidable (ReadsMessage boards size))
  | .updater _ => inferInstanceAs (Decidable True)

end GamZ.System
