import GamZ.Client.Processes
import GamZ.Server.RecordFile

/-! # Two writers on one socket

The sender writes a header and then a frame, the exit button a logout. Nothing
keeps the logout from falling between the two, or a header from following it. -/

namespace GamZ.System

open CString Client Server Transition TransitionSystem

/-! ## The session -/

/-- What a session consists of, message by message. -/
inductive Session
  | between (frames : List Frame)
  | inRecord (frames : List Frame)
  | closed (frames : List Frame)

def Session.advance : Session → Message → Option Session
  | .between frames, .dataIn => some (.inRecord frames)
  | .inRecord frames, .frame content => some (.between (frames ++ [content]))
  | .between frames, .logout => some (.closed frames)
  | _, _ => none

def Session.frames : Session → List Frame
  | .between frames | .inRecord frames | .closed frames => frames

def Session.isOver : Session → Bool
  | .between _ | .inRecord _ => false
  | .closed _ => true

def Session.isInRecord : Session → Bool
  | .between _ | .closed _ => false
  | .inRecord _ => true

/-- Sessions as the server expects them. -/
def sessions : TransitionSystem Session Message where
  Initial session := session = .between []
  step := Session.advance

def records (frames : List Frame) : List Message :=
  frames.flatMap fun content => [.dataIn, .frame content]

def Session.messages : Session → List Message
  | .between frames => records frames
  | .inRecord frames => records frames ++ [.dataIn]
  | .closed frames => records frames ++ [.logout]

theorem Session.between_of_dataIn {session after : Session}
    (advanced : session.advance .dataIn = some after) :
    session = .between session.frames ∧ after = .inRecord session.frames := by
  cases session <;> cases advanced
  exact ⟨rfl, rfl⟩

theorem Session.between_of_logout {session after : Session}
    (advanced : session.advance .logout = some after) :
    session = .between session.frames ∧ after = .closed session.frames := by
  cases session <;> cases advanced
  exact ⟨rfl, rfl⟩

theorem Session.advance_messages {session after : Session} {message : Message}
    (advanced : session.advance message = some after) :
    after.messages = session.messages ++ [message] := by
  cases session <;> cases message <;> cases advanced <;> simp [messages, records]

theorem messages_of_execute {messages : List Message} :
    ∀ {session : Session}, sessions.execute (.between []) messages = some session →
      messages = session.messages := by
  induction messages using List.reverseRecOn with
  | nil =>
      intro session executed
      cases executed
      rfl
  | append_singleton messages message induction =>
      intro session executed
      rw [execute_concat] at executed
      cases before : sessions.execute (.between []) messages with
      | none =>
          rw [before] at executed
          cases executed
      | some earlier =>
          rw [before] at executed
          rw [Session.advance_messages executed, ← induction before]

theorem execute_records (frames : List Frame) :
    sessions.execute (.between []) (records frames) = some (.between frames) := by
  induction frames using List.reverseRecOn with
  | nil => rfl
  | append_singleton frames content induction =>
      have split : records (frames ++ [content]) =
          (records frames ++ [.dataIn]) ++ [.frame content] := by
        simp [records]
      rw [split, execute_concat, execute_concat, induction]
      rfl

theorem execute_messages (session : Session) :
    sessions.execute (.between []) session.messages = some session := by
  cases session with
  | between frames => exact execute_records frames
  | inRecord frames =>
      rw [Session.messages, execute_concat, execute_records]
      rfl
  | closed frames =>
      rw [Session.messages, execute_concat, execute_records]
      rfl

/-! ## What the server makes of a session -/

theorem map_bytes_records (frames : List Frame) :
    (records frames).map Message.bytes = messageReads frames false := by
  simp [records, messageReads, List.map_flatMap, Message.bytes]

/-- With a read for every message the server stores the frames of the session and
leaves its loop exactly if the session is over. -/
theorem received_session (session : Session) :
    received (session.messages.map Message.bytes) =
      { stored := session.frames, left := session.isOver, unread := [] } := by
  cases session with
  | between frames =>
      rw [Session.messages, map_bytes_records, received_messageReads]
      rfl
  | inRecord frames =>
      rw [Session.messages, List.map_append, map_bytes_records, received_messageReads_append]
      simp [Message.bytes, received_dataIn_last contents_dataInMessage, Session.frames,
        Session.isOver]
  | closed frames =>
      rw [Session.messages, List.map_append, map_bytes_records, received_messageReads_append]
      simp [Message.bytes, received_logout contents_logoutMessage [], Session.frames,
        Session.isOver]

/-! ## Steps on the socket -/

/-- The sender has written a header and not yet the frame. -/
def midRecord (state : State) : Bool :=
  match state.senderPoint with
  | .filling _ _ | .writing => true
  | .clearing _ | .polling | .locking _ | .announcing _ | .lowering | .unlocking => false

def loggedOut (state : State) : Bool :=
  match state.fpgaPoint with
  | .unlocking | .closed => true
  | .serving | .locking | .writing => false

/-- The next step of the sender writes a header. -/
def announces (state : State) : Bool :=
  match state.senderPoint with
  | .announcing _ => true
  | .clearing _ | .polling | .locking _ | .filling _ _ | .writing | .lowering | .unlocking => false

/-- No header follows the logout, and no logout falls between a header and its
frame. -/
def TakesTurns (state : State) : Action → Prop
  | .radar _ => True
  | .sender _ => announces state = true → loggedOut state = false
  | .fpga _ => state.fpgaPoint = .writing → midRecord state = false

instance (state : State) (action : Action) : Decidable (TakesTurns state action) :=
  match action with
  | .radar _ => inferInstanceAs (Decidable True)
  | .sender _ => inferInstanceAs (Decidable (announces state = true → loggedOut state = false))
  | .fpga _ => inferInstanceAs (Decidable (state.fpgaPoint = .writing → midRecord state = false))

/-- A step writes nothing, a header, a frame or the logout. -/
inductive SocketStep (state after : State) : Action → Prop
  | silent {action : Action} : after.socket = state.socket → midRecord after = midRecord state →
      loggedOut after = loggedOut state → TakesTurns state action → SocketStep state after action
  | header {time : Fin 6 → Byte} : after.socket = state.socket ++ [.dataIn] →
      announces state = true → midRecord state = false → midRecord after = true →
      loggedOut after = loggedOut state → SocketStep state after (.sender time)
  | frame {time : Fin 6 → Byte} : after.socket = state.socket ++ [.frame state.dataBuf] →
      announces state = false → midRecord state = true → midRecord after = false →
      loggedOut after = loggedOut state → SocketStep state after (.sender time)
  | logout {button : Button} : after.socket = state.socket ++ [.logout] →
      state.fpgaPoint = .writing → midRecord after = midRecord state →
      loggedOut state = false → loggedOut after = true → SocketStep state after (.fpga button)

theorem socketStep {xres : Nat} {state after : State} {action : Action}
    (stepped : (processes xres).step state action = some after) :
    SocketStep state after action := by
  cases action with
  | radar readings =>
      cases stepped
      have same : (state.radarStep xres readings).socket = state.socket ∧
          (state.radarStep xres readings).senderPoint = state.senderPoint ∧
          (state.radarStep xres readings).fpgaPoint = state.fpgaPoint := by
        unfold State.radarStep
        cases state.radarPoint <;> exact ⟨rfl, rfl, rfl⟩
      apply SocketStep.silent same.1
      · rw [midRecord, midRecord, same.2.1]
      · rw [loggedOut, loggedOut, same.2.2]
      · trivial
  | sender time =>
      cases stepped
      cases point : state.senderPoint with
      | announcing time =>
          apply SocketStep.header <;>
            simp [State.senderStep, point, announces, midRecord, loggedOut]
      | writing =>
          apply SocketStep.frame <;>
            simp [State.senderStep, point, announces, midRecord, loggedOut]
      | filling time k =>
          apply SocketStep.silent <;> by_cases inside : k.val + 1 < 8 <;>
            simp [State.senderStep, point, announces, midRecord, loggedOut, TakesTurns,
              State.store, inside]
      | clearing k =>
          apply SocketStep.silent <;> by_cases inside : k.val + 1 < 70 <;>
            simp [State.senderStep, point, announces, midRecord, loggedOut, TakesTurns,
              State.store, inside]
      | polling =>
          apply SocketStep.silent <;> by_cases idle : state.sendFlag = 0 <;>
            simp [State.senderStep, point, announces, midRecord, loggedOut, TakesTurns, idle]
      | locking | lowering | unlocking =>
          apply SocketStep.silent <;>
            simp [State.senderStep, point, announces, midRecord, loggedOut, TakesTurns]
  | fpga button =>
      cases stepped
      cases point : state.fpgaPoint with
      | writing =>
          apply SocketStep.logout <;> simp [State.fpgaStep, point, midRecord, loggedOut]
      | serving =>
          apply SocketStep.silent <;> cases button <;>
            simp [State.fpgaStep, point, midRecord, loggedOut, TakesTurns]
      | locking | unlocking | closed =>
          apply SocketStep.silent <;>
            simp [State.fpgaStep, point, midRecord, loggedOut, TakesTurns]

/-! ## The client in a session -/

/-- The socket has seen a session that fits the program points. -/
structure Follows (state : State) (session : Session) : Prop where
  socket : sessions.execute (.between []) state.socket = some session
  inRecord : session.isInRecord = midRecord state
  closed : session.isOver = loggedOut state

theorem session_between {session : Session} (notInRecord : session.isInRecord = false)
    (notOver : session.isOver = false) : session = .between session.frames := by
  cases session with
  | between frames => rfl
  | inRecord frames => cases notInRecord
  | closed frames => cases notOver

theorem Follows.step {state after : State} {session : Session} {action : Action}
    (follows : Follows state session) (turns : TakesTurns state action)
    (stepped : SocketStep state after action) : ∃ next, Follows after next := by
  rcases follows with ⟨socket, inRecord, closed⟩
  cases stepped with
  | silent same record logout _ =>
      exact ⟨session, by rw [same, socket], by rw [inRecord, record], by rw [closed, logout]⟩
  | header written announced noRecord record logout =>
      have running := turns announced
      have between := session_between (inRecord.trans noRecord) (closed.trans running)
      refine ⟨.inRecord session.frames, ?_, record.symm, ?_⟩
      · rw [written, execute_concat, socket, between]
        rfl
      · rw [logout, running]
        rfl
  | frame written _ record noRecord logout =>
      cases session with
      | between frames | closed frames =>
          rw [record] at inRecord
          cases inRecord
      | inRecord frames =>
          refine ⟨.between (frames ++ [state.dataBuf]), ?_, noRecord.symm, ?_⟩
          · rw [written, execute_concat, socket]
            rfl
          · rw [logout, ← closed]
            rfl
  | logout written atLogout record running ended =>
      have noRecord := turns atLogout
      have between := session_between (inRecord.trans noRecord) (closed.trans running)
      refine ⟨.closed session.frames, ?_, ?_, ended.symm⟩
      · rw [written, execute_concat, socket, between]
        rfl
      · rw [record, noRecord]
        rfl

/-- A step that does not take turns leaves the session for good. -/
theorem Follows.takesTurns {state after : State} {session next : Session} {action : Action}
    (follows : Follows state session) (stepped : SocketStep state after action)
    (executed : sessions.execute (.between []) after.socket = some next) :
    TakesTurns state action := by
  rcases follows with ⟨socket, inRecord, closed⟩
  cases stepped with
  | silent _ _ _ turns => exact turns
  | header written announced noRecord record logout =>
      rw [written, execute_concat, socket] at executed
      have between := (Session.between_of_dataIn executed).1
      intro _
      rw [← closed, between]
      rfl
  | frame _ silent _ _ _ =>
      intro announced
      rw [silent] at announced
      cases announced
  | logout written atLogout record running ended =>
      rw [written, execute_concat, socket] at executed
      have between := (Session.between_of_logout executed).1
      intro _
      rw [← inRecord, between]
      rfl

section Runs

variable {xres : Nat} {actions : List Action} {state : State}

theorem follows_of_takesTurns (run : (processes xres).RunWhere TakesTurns actions state) :
    ∃ session, Follows state session := by
  apply run.invariant fun _ state => ∃ session, Follows state session
  · intro state initial
    cases initial
    exact ⟨.between [], rfl, rfl, rfl⟩
  · intro actions state action after follows turns stepped
    rcases follows with ⟨session, follows⟩
    exact follows.step turns (socketStep stepped)

/-- Once the socket has left a session it never returns to one. -/
theorem execute_before {after : State} {action : Action} {session : Session}
    (stepped : SocketStep state after action)
    (executed : sessions.execute (.between []) after.socket = some session) :
    ∃ earlier, sessions.execute (.between []) state.socket = some earlier := by
  have written : after.socket = state.socket ∨
      ∃ message, after.socket = state.socket ++ [message] := by
    cases stepped with
    | silent same _ _ _ => exact .inl same
    | header written _ _ _ _ => exact .inr ⟨_, written⟩
    | frame written _ _ _ _ => exact .inr ⟨_, written⟩
    | logout written _ _ _ _ => exact .inr ⟨_, written⟩
  rcases written with same | ⟨message, appended⟩
  · rw [same] at executed
    exact ⟨session, executed⟩
  · rw [appended, execute_concat] at executed
    cases before : sessions.execute (.between []) state.socket with
    | none =>
        rw [before] at executed
        cases executed
    | some earlier => exact ⟨earlier, rfl⟩

theorem takesTurns_of_execute (run : (processes xres).Run actions state) :
    ∀ {session : Session}, sessions.execute (.between []) state.socket = some session →
      (processes xres).RunWhere TakesTurns actions state := by
  induction run with
  | start initial => exact fun _ => .start initial
  | next action run _ stepped induction =>
      intro session executed
      have written := socketStep stepped
      rcases execute_before written executed with ⟨earlier, executedBefore⟩
      have turns := induction executedBefore
      rcases follows_of_takesTurns turns with ⟨before, follows⟩
      exact turns.next action (follows.takesTurns written executed) stepped

end Runs

/-! ## Whole records and one logout -/

def sessionMessages (frames : List Frame) (logout : Bool) : List Message :=
  records frames ++ if logout then [.logout] else []

/-- The socket carries whole records, at most one logout behind them, and nothing
more but the header of the record under way. A server that reads message by
message stores exactly the frames and leaves its loop exactly at the logout. -/
structure IsSession (state : State) (frames : List Frame) (logout : Bool) : Prop where
  messages : state.socket =
    sessionMessages frames logout ++ if midRecord state then [.dataIn] else []
  bytes : state.socket.flatMap Message.bytes =
    wire frames logout ++ if midRecord state then dataInMessage else []
  last : logout = true → midRecord state = false
  server : received (state.socket.map Message.bytes) =
    { stored := frames, left := logout, unread := [] }

theorem flatMap_bytes_records (frames : List Frame) :
    (records frames).flatMap Message.bytes = wire frames false := by
  simp [records, wire, List.flatMap_assoc, Message.bytes]

theorem Follows.isSession {state : State} {session : Session} (follows : Follows state session) :
    IsSession state session.frames session.isOver := by
  rcases follows with ⟨socket, inRecord, closed⟩
  have messages := messages_of_execute socket
  refine ⟨?_, ?_, ?_, ?_⟩
  · rw [messages, ← inRecord]
    cases session <;> simp [Session.messages, sessionMessages, Session.frames, Session.isOver,
      Session.isInRecord]
  · rw [messages, ← inRecord]
    cases session <;> simp [Session.messages, flatMap_bytes_records, Session.frames,
      Session.isOver, Session.isInRecord, wire, Message.bytes]
  · intro isOver
    rw [← inRecord]
    cases session <;> first | rfl | cases isOver
  · rw [messages, received_session]

theorem IsSession.execute {state : State} {frames : List Frame} {logout : Bool}
    (isSession : IsSession state frames logout) :
    ∃ session, sessions.execute (.between []) state.socket = some session := by
  rcases isSession with ⟨messages, -, last, -⟩
  cases logout with
  | true =>
      refine ⟨.closed frames, ?_⟩
      rw [messages, last rfl]
      simpa [sessionMessages, Session.messages] using execute_messages (.closed frames)
  | false =>
      cases record : midRecord state with
      | true =>
          refine ⟨.inRecord frames, ?_⟩
          rw [messages, record]
          simpa [sessionMessages, Session.messages] using execute_messages (.inRecord frames)
      | false =>
          refine ⟨.between frames, ?_⟩
          rw [messages, record]
          simpa [sessionMessages, Session.messages] using execute_messages (.between frames)

/-- In exactly those runs in which the two writers take turns the socket carries a
session. -/
theorem socket_is_session_iff {xres : Nat} {actions : List Action} {state : State}
    (run : (processes xres).Run actions state) :
    (∃ frames logout, IsSession state frames logout) ↔
      (processes xres).RunWhere TakesTurns actions state := by
  constructor
  · intro isSession
    rcases isSession with ⟨frames, logout, isSession⟩
    rcases isSession.execute with ⟨session, executed⟩
    exact takesTurns_of_execute run executed
  · intro turns
    rcases follows_of_takesTurns turns with ⟨session, follows⟩
    exact ⟨_, _, follows.isSession⟩

/-- A forward half-sweep close to an object, its alarm sent, and the exit button. -/
def alarmThenExit : List Action :=
  clearing ++ nearHalfSweep ++ transmission ++ [.fpga .exit, .fpga .none, .fpga .none]

theorem alarm_then_exit :
    ∃ state, (processes 1024).Run alarmThenExit state ∧
      ((∃ frames logout, IsSession state frames logout) ↔
        (processes 1024).RunWhere TakesTurns alarmThenExit state) := by
  have executed : ((processes 1024).execute .initial alarmThenExit).any
      (fun state => loggedOut state) = true := by
    decide +kernel
  rcases exists_run _ rfl executed with ⟨state, run, -⟩
  exact ⟨state, run, socket_is_session_iff run⟩

/-- The exit button between a header and its frame. -/
def exitInRecord : List Action :=
  clearing ++ nearHalfSweep ++ transmission.take 3 ++ [.fpga .exit, .fpga .none, .fpga .none]

theorem exit_in_record_leaves_session :
    ¬ ∀ (xres : Nat) (actions : List Action) (state : State),
      (processes xres).Run actions state → ∃ frames logout, IsSession state frames logout := by
  intro alwaysSession
  have executed : ((processes 1024).execute .initial exitInRecord).any
      (fun state => (sessions.execute (.between []) state.socket).isNone) = true := by
    decide +kernel
  rcases exists_run _ rfl executed with ⟨state, run, noSession⟩
  rcases alwaysSession 1024 _ state run with ⟨frames, logout, isSession⟩
  rcases isSession.execute with ⟨session, executed⟩
  rw [executed] at noSession
  cases noSession

end GamZ.System
