import GamZ.System.Boards

/-! # Alarms from board to board

In an orderly run the two boards are a channel for alarms. What the server has received
is what the client has raised, up to what is still on its way. -/

namespace GamZ.System

open BoundedFifo CString Client Server Transition TransitionSystem

/-! ## What the server has read -/

/-- No message is empty, and each fits into the buffer of a read. -/
theorem message_length (message : Message) :
    0 < message.bytes.length ∧ message.bytes.length ≤ 512 := by
  cases message with
  | dataIn => exact ⟨by decide, by decide⟩
  | frame content => simp [Message.bytes]
  | logout => exact ⟨by decide, by decide⟩

theorem frames_of_execute {messages : List Message} {session : Session}
    (executed : sessions.execute (.between []) messages = some session) :
    session.frames = messages.filterMap Message.frame? := by
  have ofRecords : ∀ frames : List Frame, (records frames).filterMap Message.frame? = frames := by
    intro frames
    induction frames with
    | nil => rfl
    | cons content frames induction =>
        rw [records, List.flatMap_cons, List.filterMap_append, ← records, induction]
        rfl
  rw [messages_of_execute executed]
  cases session <;> simp [Session.messages, Session.frames, ofRecords, Message.frame?]

/-- The server has read the first messages on the socket and is where they lead to. -/
structure HasRead (boards : Boards) (count : Nat) (session : Session) : Prop where
  within : count ≤ boards.client.socket.length
  reads : boards.reads = (boards.client.socket.take count).map Message.bytes
  executed : sessions.execute (.between []) (boards.client.socket.take count) = some session
  received : boards.server.received = session.frames
  left : boards.left = session.isOver
  expectsFrame : boards.expectsFrame = session.isInRecord

namespace HasRead

variable {boards : Boards} {count : Nat} {session : Session}

theorem inFlight (hasRead : HasRead boards count session) :
    boards.inFlight = (boards.client.socket.drop count).flatMap Message.bytes := by
  have split : boards.client.socket.flatMap Message.bytes =
      boards.reads.flatten ++ (boards.client.socket.drop count).flatMap Message.bytes := by
    rw [hasRead.reads, ← List.flatMap_def, ← List.flatMap_append, List.take_append_drop]
  rw [Boards.inFlight, split, List.drop_left]

/-- The client may write, and the server may do what it does between two reads. -/
theorem frame {after : Boards} (hasRead : HasRead boards count session)
    (written : boards.client.socket <+: after.client.socket) (reads : after.reads = boards.reads)
    (received : after.server.received = boards.server.received) (left : after.left = boards.left)
    (expectsFrame : after.expectsFrame = boards.expectsFrame) : HasRead after count session := by
  rcases written with ⟨more, whole⟩
  have same : after.client.socket.take count = boards.client.socket.take count := by
    rw [← whole, List.take_append_of_le_length hasRead.within]
  constructor
  · rw [← whole, List.length_append]
    exact Nat.le_add_right_of_le hasRead.within
  · rw [reads, same, hasRead.reads]
  · rw [same, hasRead.executed]
  · rw [received, hasRead.received]
  · rw [left, hasRead.left]
  · rw [expectsFrame, hasRead.expectsFrame]

/-- A read that returns one message returns the next one. -/
theorem next_message (hasRead : HasRead boards count session) {bytes : List Byte}
    (isNext : boards.reads ++ [bytes] <+: boards.client.socket.map Message.bytes) :
    ∃ inside : count < boards.client.socket.length,
      bytes = (boards.client.socket[count]).bytes := by
  have long := isNext.length_le
  rw [hasRead.reads, List.length_append, List.length_map, List.length_map, List.length_take,
    Nat.min_eq_left hasRead.within, List.length_singleton] at long
  refine ⟨long, ?_⟩
  have size : (boards.reads ++ [bytes]).length = count + 1 := by
    simp [hasRead.reads, hasRead.within]
  have whole := List.prefix_iff_eq_take.mp isNext
  rw [size, List.take_succ_eq_append_getElem (by rwa [List.length_map]), ← List.map_take,
    hasRead.reads, List.getElem_map] at whole
  exact List.singleton_inj.mp (List.append_cancel_left whole)

/-- The frame behind a header is taken over, every other message only moves the session on. -/
theorem takeRead (hasRead : HasRead boards count session)
    (reading : boards.server.receiverPoint = .reading)
    {inside : count < boards.client.socket.length} {next : Session}
    (advanced : session.advance (boards.client.socket[count]) = some next) :
    ∃ after, boards.takeRead (boards.client.socket[count]).bytes = some after ∧
      after.client = boards.client ∧ HasRead after (count + 1) next := by
  have executed : sessions.execute (.between []) (boards.client.socket.take (count + 1)) =
      some next := by
    rw [List.take_succ_eq_append_getElem inside, execute_concat, hasRead.executed]
    exact advanced
  have reads : boards.reads ++ [(boards.client.socket[count]).bytes] =
      (boards.client.socket.take (count + 1)).map Message.bytes := by
    rw [List.take_succ_eq_append_getElem inside, List.map_append, hasRead.reads]
    rfl
  have inRecord := hasRead.expectsFrame
  have received := hasRead.received
  have left := hasRead.left
  generalize boards.client.socket[count] = message at advanced reads ⊢
  cases session with
  | closed frames => cases advanced
  | between frames =>
      cases message with
      | frame content => cases advanced
      | dataIn =>
          cases advanced
          refine ⟨_, takeRead_dataIn inRecord, rfl, ?_⟩
          exact ⟨inside, reads, executed, received, left, rfl⟩
      | logout =>
          cases advanced
          refine ⟨_, takeRead_logout inRecord, rfl, ?_⟩
          exact ⟨inside, reads, executed, received, rfl, inRecord⟩
  | inRecord frames =>
      cases message with
      | dataIn | logout => cases advanced
      | frame content =>
          cases advanced
          refine ⟨_, takeRead_frame inRecord reading content, rfl, ?_⟩
          exact ⟨inside, reads, executed, congrArg (· ++ [content]) received, left, rfl⟩

end HasRead

/-! ## Both boards along orderly runs -/

/-- The mailbox and the socket of the client are in order, and so are the server's reads. -/
structure Connected (boards : Boards) : Prop where
  mailbox : ∃ alarm, Mailbox boards.client alarm
  follows : ∃ session, Follows boards.client session
  hasRead : ∃ count session, HasRead boards count session

theorem connected_initial (history : List Frame) (data : Fin 10 → Fin 70 → Int) :
    Connected (.initial history data) where
  mailbox := ⟨none, mailbox_initial⟩
  follows := ⟨.between [], rfl, rfl, rfl⟩
  hasRead := ⟨0, .between [], Nat.le_refl 0, rfl, rfl, rfl, rfl, rfl⟩

section Steps

variable {boards after : Boards}

theorem Connected.client {xres : Nat} {client : Client.State} (connected : Connected boards)
    {action : Client.Action} (undisturbed : Undisturbed boards.client action)
    (turns : TakesTurns boards.client action)
    (stepped : (processes xres).step boards.client action = some client) :
    Connected { boards with client := client } := by
  rcases connected with ⟨⟨alarm, mailbox⟩, ⟨session, follows⟩, ⟨count, seen, hasRead⟩⟩
  have onSocket := socketStep stepped
  have written : boards.client.socket <+: client.socket := by
    cases onSocket with
    | silent same _ _ _ => exact same ▸ List.prefix_rfl
    | header written _ _ _ _ | frame written _ _ _ _ | logout written _ _ _ _ =>
        exact written ▸ List.prefix_append _ _
  refine ⟨?_, follows.step turns onSocket, count, seen, hasRead.frame written rfl rfl rfl rfl⟩
  cases action with
  | radar readings =>
      cases stepped
      exact mailbox.radarStep xres readings undisturbed
  | sender time =>
      cases stepped
      exact mailbox.senderStep time
  | fpga button =>
      cases stepped
      exact ⟨alarm, mailbox.fpgaStep button⟩

/-- What the server does between two reads. -/
theorem Connected.server {server : ServerState} (connected : Connected boards)
    (received : server.received = boards.server.received) :
    Connected { boards with server := server } := by
  rcases connected with ⟨mailbox, follows, count, session, hasRead⟩
  refine ⟨mailbox, follows, count, session, ?_⟩
  exact hasRead.frame List.prefix_rfl rfl received rfl rfl

theorem Connected.read (connected : Connected boards)
    (reading : boards.server.receiverPoint = .reading) {bytes : List Byte}
    (isNext : boards.reads ++ [bytes] <+: boards.client.socket.map Message.bytes) :
    ∃ after, boards.takeRead bytes = some after ∧ after.client = boards.client ∧
      Connected after := by
  rcases connected with ⟨mailbox, ⟨whole, follows⟩, count, session, hasRead⟩
  rcases hasRead.next_message isNext with ⟨inside, isMessage⟩
  have earlier : boards.client.socket.take (count + 1) <+: boards.client.socket :=
    List.take_prefix _ _
  rcases exists_execute_of_isPrefix earlier follows.socket with ⟨next, executed⟩
  rw [List.take_succ_eq_append_getElem inside, execute_concat, hasRead.executed] at executed
  rcases hasRead.takeRead reading executed with ⟨after, taken, sameClient, hasReadNext⟩
  subst isMessage
  refine ⟨after, taken, sameClient, ?_, ?_, count + 1, next, hasReadNext⟩
  · rw [sameClient]
    exact mailbox
  · rw [sameClient]
    exact ⟨whole, follows⟩

/-- The receiver reads, or works on what it has read. -/
theorem receiverStep_cases {size : Nat} (stepped : boards.receiverStep size = some after) :
    (boards.server.receiverPoint = .reading ∧
        boards.takeRead (boards.inFlight.take size) = some after) ∨
      boards.server.receiverPoint ≠ .reading ∧
        ∃ server, boards.server.receiverStep (fun _ => 0) = .ok server ∧
          after = { boards with server := server } := by
  rw [Boards.receiverStep] at stepped
  split_ifs at stepped with left reading fits
  · exact .inl ⟨reading, stepped⟩
  · rcases Option.map_eq_some_iff.mp stepped with ⟨server, serverStep, isAfter⟩
    refine .inr ⟨reading, server, ?_, isAfter.symm⟩
    have asProcess : (serverProcesses []).step boards.server (.receiver fun _ => 0) =
        some server := serverStep
    exact receiverStep_of_step asProcess

theorem Connected.receiver {size : Nat} (connected : Connected boards)
    (readsMessage : ReadsMessage boards size)
    (stepped : boards.receiverStep size = some after) :
    after.client = boards.client ∧ Connected after := by
  rcases receiverStep_cases stepped with ⟨reading, taken⟩ | ⟨busy, server, serverStep, isAfter⟩
  · rcases connected.read reading (readsMessage reading) with ⟨found, foundTaken, read⟩
    rw [taken] at foundTaken
    cases foundTaken
    exact read
  · subst isAfter
    have received := (receiverStep_received serverStep).1
    rw [if_neg busy, List.append_nil] at received
    exact ⟨rfl, connected.server received⟩

end Steps

/-! ## A channel for alarms -/

/-- The alarms raised on the one board and taken over on the other. -/
def Boards.alarms (boards : Boards) : Channel Alarm where
  put := boards.client.raised
  taken := boards.server.received.map alarmOf

theorem HasRead.taken {boards : Boards} {count : Nat} {session : Session}
    (hasRead : HasRead boards count session) :
    boards.alarms.taken =
      ((boards.client.socket.take count).filterMap Message.frame?).map alarmOf := by
  rw [Boards.alarms, hasRead.received, frames_of_execute hasRead.executed]

theorem HasRead.taken_all {boards : Boards} {count : Nat} {session : Session}
    (hasRead : HasRead boards count session) (all : boards.client.socket.length ≤ count) :
    boards.alarms.taken = boards.client.sent := by
  rw [hasRead.taken, List.take_of_length_le all, State.sent]

theorem Connected.conserves {boards : Boards} (connected : Connected boards) :
    boards.alarms.Conserves := by
  rcases connected with ⟨⟨alarm, mailbox⟩, -, count, session, hasRead⟩
  have sent : boards.alarms.taken <+: boards.client.sent := by
    rw [hasRead.taken]
    exact ((List.take_prefix _ _).filterMap _).map _
  have raised : boards.client.sent <+: boards.alarms.put := by
    rw [Boards.alarms, mailbox.history]
    exact List.prefix_append _ _
  exact Channel.conserves_iff.mpr (sent.trans raised)

/-- When nothing is on its way, nothing is pending. -/
theorem Connected.complete {boards : Boards} (connected : Connected boards)
    (lowered : boards.client.sendFlag = 0) (arrived : boards.inFlight = []) :
    boards.alarms.pending = [] := by
  rcases connected with ⟨⟨alarm, mailbox⟩, -, count, session, hasRead⟩
  have noAlarm : alarm = none := by
    cases alarm with
    | none => rfl
    | some held => exact absurd lowered (mailbox.requested.mp rfl).1
  have allRead : boards.client.socket.drop count = [] := by
    rw [hasRead.inFlight] at arrived
    apply List.eq_nil_iff_forall_not_mem.mpr
    intro message member
    have empty := List.flatMap_eq_nil_iff.mp arrived message member
    exact absurd (message_length message).1 (by simp [empty])
  have taken := hasRead.taken_all (List.drop_eq_nil_iff.mp allRead)
  have put : boards.alarms.put = boards.client.sent := by
    rw [Boards.alarms, mailbox.history, noAlarm]
    exact List.append_nil _
  rw [Channel.pending, put, taken, List.drop_length]

theorem raised_of_step {xres : Nat} {state after : Client.State} {action : Client.Action}
    (stepped : (processes xres).step state action = some after) :
    after.raised = state.raised ∨ ∃ alarm, after.raised = state.raised ++ [alarm] := by
  cases action with
  | radar readings =>
      cases stepped
      unfold State.radarStep
      cases state.radarPoint with
      | raise direction => exact .inr ⟨_, rfl⟩
      | cycleStart | storeWarn | halfSweep | deposit | alarmOff => exact .inl rfl
  | sender time =>
      cases stepped
      exact .inl (senderStep_radar state time).2.2.2.2
  | fpga button =>
      cases stepped
      unfold State.fpgaStep
      cases state.fpgaPoint with
      | serving => cases button <;> exact .inl rfl
      | locking | writing | unlocking | closed => exact .inl rfl

/-- A frame is taken over only at a read, and then it is one frame. -/
theorem received_of_step {boards after : Boards} {size : Nat}
    (stepped : boards.receiverStep size = some after) :
    after.server.received = boards.server.received ∨
      ∃ frame, after.server.received = boards.server.received ++ [frame] := by
  rcases receiverStep_cases stepped with ⟨reading, taken⟩ | ⟨busy, server, serverStep, isAfter⟩
  · rw [Boards.takeRead] at taken
    split_ifs at taken
    · rcases Option.map_eq_some_iff.mp taken with ⟨server, serverStep, isAfter⟩
      have asProcess : (serverProcesses []).step boards.server (.receiver _) = some server :=
        serverStep
      have received := (receiverStep_received (receiverStep_of_step asProcess)).1
      rw [if_pos reading] at received
      subst isAfter
      exact .inr ⟨_, received⟩
    all_goals
      cases taken
      exact .inl rfl
  · subst isAfter
    have received := (receiverStep_received serverStep).1
    rw [if_neg busy, List.append_nil] at received
    exact .inl received

/-- The two boards simulate into a channel that loses nothing. -/
theorem boards_simulate_channel (xres : Nat) (history : List Frame) :
    Simulation (boardProcesses xres history) Orderly (channels Alarm) (fun _ _ => True)
      fun boards channel => Connected boards ∧ channel = boards.alarms := by
  constructor
  · intro boards initial
    rcases initial with ⟨data, initial⟩
    subst initial
    exact ⟨.empty, rfl, connected_initial history data, rfl⟩
  · intro boards action after channel related orderly stepped
    rcases related with ⟨connected, isChannel⟩
    subst isChannel
    cases action with
    | client action =>
        rcases Option.map_eq_some_iff.mp stepped with ⟨client, clientStep, isAfter⟩
        subst isAfter
        have connectedNext := connected.client orderly.1 orderly.2 clientStep
        rcases raised_of_step clientStep with same | ⟨alarm, raised⟩
        · left
          refine ⟨connectedNext, ?_⟩
          rw [Boards.alarms, Boards.alarms, same]
        · right
          refine ⟨.put alarm, _, trivial, rfl, connectedNext, ?_⟩
          rw [Boards.alarms, Boards.alarms, raised]
    | receiver size =>
        rcases connected.receiver orderly stepped with ⟨sameClient, connectedNext⟩
        rcases received_of_step stepped with same | ⟨frame, received⟩
        · left
          refine ⟨connectedNext, ?_⟩
          rw [Boards.alarms, Boards.alarms, same, sameClient]
        · right
          have conserves := Channel.conserves_iff.mp connectedNext.conserves
          have log : after.alarms =
              { boards.alarms with taken := boards.alarms.taken ++ [alarmOf frame] } := by
            rw [Boards.alarms, Boards.alarms, received, sameClient, List.map_append]
            rfl
          rw [log] at conserves
          exact ⟨.take, _, trivial, Channel.advance_take conserves, connectedNext, log.symm⟩
    | updater input =>
        left
        rcases Option.map_eq_some_iff.mp stepped with ⟨server, serverStep, isAfter⟩
        subst isAfter
        have asProcess : (serverProcesses []).step boards.server (.updater input) =
            some server := serverStep
        have received := (updaterStep_frame (updaterStep_of_step asProcess)).2.2.2.1
        refine ⟨connected.server received, ?_⟩
        rw [Boards.alarms, Boards.alarms, received]

/-! ## The server's part of a run -/

/-- What an action of the boards is to the server. -/
inductive Serves : BoardsAction → ServerAction → Prop
  | receiver {size : Nat} {frame : Frame} : Serves (.receiver size) (.receiver frame)
  | updater {input : UpdaterInput} : Serves (.updater input) (.updater input)

section Server

variable {xres : Nat} {history : List Frame} {boards after : Boards}

theorem serverStep_of_step {action : BoardsAction}
    (stepped : (boardProcesses xres history).step boards action = some after) :
    after.server = boards.server ∨ ∃ event, Serves action event ∧
      (serverProcesses history).step boards.server event = some after.server := by
  cases action with
  | client action =>
      rcases Option.map_eq_some_iff.mp stepped with ⟨client, -, isAfter⟩
      subst isAfter
      exact .inl rfl
  | updater input =>
      rcases Option.map_eq_some_iff.mp stepped with ⟨server, serverStep, isAfter⟩
      subst isAfter
      exact .inr ⟨_, .updater, serverStep⟩
  | receiver size =>
      rcases receiverStep_cases stepped with ⟨-, taken⟩ | ⟨-, server, serverStep, isAfter⟩
      · rw [Boards.takeRead] at taken
        split_ifs at taken
        · rcases Option.map_eq_some_iff.mp taken with ⟨server, serverStep, isAfter⟩
          subst isAfter
          exact .inr ⟨_, .receiver, serverStep⟩
        all_goals
          cases taken
          exact .inl rfl
      · subst isAfter
        exact .inr ⟨.receiver _, .receiver, congrArg Except.toOption serverStep⟩

/-- The server makes a run of its own, over whatever it reads. -/
theorem server_runWhere {condition : Boards → BoardsAction → Prop}
    {allowed : ServerState → ServerAction → Prop}
    (allows : ∀ boards action event, condition boards action → Serves action event →
      allowed boards.server event)
    {actions : List BoardsAction}
    (run : (boardProcesses xres history).RunWhere condition actions boards) :
    ∃ serverActions, (serverProcesses history).RunWhere allowed serverActions boards.server := by
  apply run.project Boards.server
  · intro boards initial
    rcases initial with ⟨data, initial⟩
    subst initial
    exact serverProcesses_initial history data
  · intro boards action after meets stepped
    rcases serverStep_of_step stepped with same | ⟨event, serves, serverStep⟩
    · exact .inl same
    · exact .inr ⟨event, allows boards action event meets serves, serverStep⟩

theorem server_run {condition : Boards → BoardsAction → Prop} {actions : List BoardsAction}
    (run : (boardProcesses xres history).RunWhere condition actions boards) :
    ∃ serverActions, (serverProcesses history).Run serverActions boards.server :=
  server_runWhere (fun _ _ _ _ _ => trivial) run

end Server

/-! ## The history file -/

theorem map_rtake {α β : Type} (f : α → β) (count : Nat) (items : List α) :
    (items.rtake count).map f = (items.map f).rtake count := by
  rw [List.rtake, List.rtake, List.map_drop, List.length_map]

/-- The alarms whose records the file holds. -/
def FileHolds (boards : Boards) (alarms : List Alarm) : Prop :=
  ∃ records, boards.server.memory.inputTxt = some (storeText records) ∧
    records.map alarmOf = alarms

section Runs

variable {xres : Nat} {history : List Frame} {actions : List BoardsAction} {boards : Boards}

/-- Between two stores the file holds the last eight alarms taken over. -/
theorem file_of_run {condition : Boards → BoardsAction → Prop}
    (run : (boardProcesses xres history).RunWhere condition actions boards)
    (reading : boards.server.receiverPoint = .reading) :
    FileHolds boards ((history.map alarmOf ++ boards.alarms.taken).rtake 8) := by
  rcases server_run run with ⟨serverActions, serverRun⟩
  rcases stores_of_run serverRun with ⟨stored, stores⟩
  have all := stores.received
  rw [if_pos reading, List.append_nil] at all
  have stage := stores.stage
  simp only [AtStage, reading] at stage
  refine ⟨queueAfter history stored, stage, ?_⟩
  rw [queueAfter, map_rtake, List.map_append, ← all, Boards.alarms]

theorem connected_of_run (run : (boardProcesses xres history).RunWhere Orderly actions boards) :
    Connected boards := by
  rcases (boards_simulate_channel xres history).run run with ⟨-, -, -, connected, -⟩
  exact connected

/-- What the boards have done so far is a run of a channel. Between two stores the file
holds the last eight alarms that came out of it, and when nothing is on its way, all of
them have. -/
structure DeliversAlarms (history : List Frame) (boards : Boards) : Prop where
  channel : ∃ events, (channels Alarm).Run events boards.alarms
  file : boards.server.receiverPoint = .reading →
    FileHolds boards ((history.map alarmOf ++ boards.alarms.taken).rtake 8)
  complete : boards.client.sendFlag = 0 → boards.inFlight = [] →
    boards.alarms.taken = boards.alarms.put

theorem boards_deliver_alarms
    (run : (boardProcesses xres history).RunWhere Orderly actions boards) :
    DeliversAlarms history boards := by
  rcases (boards_simulate_channel xres history).run run with
    ⟨events, channel, channelRun, connected, isChannel⟩
  subst isChannel
  refine ⟨⟨events, channelRun⟩, file_of_run run, ?_⟩
  intro lowered arrived
  have conserves := conserves_of_run channelRun
  rw [Channel.Conserves, connected.complete lowered arrived, List.append_nil] at conserves
  exact conserves.symm

end Runs

/-- A near object is swept, sent and taken over. -/
def nearAlarm : List BoardsAction :=
  (clearing ++ nearHalfSweep ++ transmission).map .client ++ [.receiver 8, .receiver 70]

theorem near_alarm_delivered :
    ∃ boards, (boardProcesses 1024 []).RunWhere Orderly nearAlarm boards ∧
      boards.alarms.taken.length = 1 ∧ DeliversAlarms [] boards := by
  have executed : ((boardProcesses 1024 []).executeWhere Orderly
      (.initial [] fun _ _ => 0) nearAlarm).any
      (fun boards => boards.alarms.taken.length == 1) = true := by
    decide +kernel
  rcases exists_runWhere _ (boardProcesses_initial _ _ _) executed with ⟨boards, run, one⟩
  exact ⟨boards, run, by simpa using one, boards_deliver_alarms run⟩

end GamZ.System
