import GamZ.Foundation.LeadsTo
import GamZ.System.Delivery

/-! # Every alarm can arrive

As long as the client has not logged out, the sender and the receiver need nobody else to
bring all raised alarms into the history file. -/

namespace GamZ.System

open CString Client Server Transition TransitionSystem

variable {xres : Nat} {history : List Frame} {raised : List Alarm} {boards : Boards}

/-- The actions that bring an alarm from the mailbox to the file. -/
inductive Delivers : BoardsAction → Prop
  | sender (time : Fin 6 → Byte) : Delivers (.client (.sender time))
  | receiver (size : Nat) : Delivers (.receiver size)

/-- The session goes on, with these alarms raised. -/
structure Underway (history : List Frame) (raised : List Alarm) (boards : Boards) : Prop where
  connected : Connected boards
  running : loggedOut boards.client = false
  raised : boards.client.raised = raised
  stores : ∃ stored, Stores history stored boards.server

/-! ## The sender empties the mailbox -/

theorem Underway.sender (underway : Underway history raised boards) (time : Fin 6 → Byte) :
    Underway history raised { boards with client := boards.client.senderStep time } := by
  have samePoint : (boards.client.senderStep time).fpgaPoint = boards.client.fpgaPoint := by
    unfold State.senderStep
    cases boards.client.senderPoint <;> rfl
  have undisturbed : Undisturbed boards.client (.sender time) := trivial
  have turns : TakesTurns boards.client (.sender time) := fun _ => underway.running
  have stepped : (processes 0).step boards.client (.sender time) =
      some (boards.client.senderStep time) := rfl
  constructor
  · exact underway.connected.client undisturbed turns stepped
  · rw [← underway.running, loggedOut, loggedOut, samePoint]
  · rw [← underway.raised]
    exact (senderStep_radar boards.client time).2.2.2.2
  · exact underway.stores

/-- All alarms are on the socket. -/
def Sent (boards : Boards) : Prop := boards.client.sent = boards.client.raised

theorem Underway.leadsTo_sent (underway : Underway history raised boards) (time : Fin 6 → Byte) :
    (boardProcesses xres history).LeadsTo Orderly Delivers
      (fun boards => Underway history raised boards ∧ Sent boards) boards := by
  apply LeadsTo.of_measure (Underway history raised) (fun boards => boards.client.stepsLeft) _
    underway
  intro boards underway
  rcases underway.connected.mailbox with ⟨alarm, mailbox⟩
  cases alarm with
  | none =>
      left
      refine ⟨underway, ?_⟩
      rw [Sent, mailbox.history]
      exact (List.append_nil _).symm
  | some held =>
      right
      rcases mailbox.requested.mp rfl with ⟨set, unwritten⟩
      have fewer := senderStep_stepsLeft time set unwritten
      refine ⟨.client (.sender time), _, .sender time, ?_, rfl, underway.sender time, ?_⟩
      · exact ⟨trivial, fun _ => underway.running⟩
      · dsimp only
        omega

/-! ## The receiver reads and stores -/

theorem Stores.ofStep {after : Boards} {action : BoardsAction}
    (stores : ∃ stored, Stores history stored boards.server)
    (stepped : (boardProcesses xres history).step boards action = some after) :
    ∃ stored, Stores history stored after.server := by
  rcases serverStep_of_step stepped with same | ⟨event, -, serverStep⟩
  · rw [same]
    exact stores
  · rcases stores with ⟨stored, stores⟩
    cases event with
    | receiver frame => exact ⟨_, stores.receiverStep (receiverStep_of_step serverStep)⟩
    | updater pushSwBuff => exact ⟨stored, stores.updaterStep (updaterStep_of_step serverStep)⟩

theorem Underway.receiver {after : Boards} (underway : Underway history raised boards)
    {size : Nat} (readsMessage : ReadsMessage boards size)
    (stepped : boards.receiverStep size = some after) :
    Underway history raised after ∧ after.client = boards.client := by
  rcases underway.connected.receiver readsMessage stepped with ⟨sameClient, connected⟩
  refine ⟨⟨connected, ?_, ?_, ?_⟩, sameClient⟩
  · rw [sameClient, underway.running]
  · rw [sameClient, underway.raised]
  · have asStep : (boardProcesses 0 history).step boards (.receiver size) = some after := stepped
    exact Stores.ofStep underway.stores asStep

/-- Nothing follows a logout. -/
theorem closed_of_isPrefix {first messages : List Message} {frames : List Frame}
    {session : Session} (isPrefix : first <+: messages)
    (executedFirst : sessions.execute (.between []) first = some (.closed frames))
    (executed : sessions.execute (.between []) messages = some session) :
    session = .closed frames := by
  rcases isPrefix with ⟨rest, whole⟩
  rw [execute] at executedFirst executed
  rw [← whole, List.foldlM_append, executedFirst] at executed
  cases rest with
  | nil =>
      cases executed
      rfl
  | cons message rest =>
      cases message <;> cases executed

/-- While the client has not logged out, the server has not left its loop. -/
theorem Underway.stays (underway : Underway history raised boards) : boards.left = false := by
  rcases underway.connected with ⟨-, ⟨whole, follows⟩, count, session, hasRead⟩
  rw [hasRead.left]
  cases session with
  | between frames | inRecord frames => rfl
  | closed frames =>
      have closed := closed_of_isPrefix (List.take_prefix _ _) hasRead.executed follows.socket
      have running := follows.closed.trans underway.running
      rw [closed] at running
      cases running

/-- The read that returns exactly the next message. -/
theorem Connected.exists_read (connected : Connected boards)
    (reading : boards.server.receiverPoint = .reading) (running : boards.left = false)
    (unread : boards.reads.length < boards.client.socket.length) :
    ∃ size after, ReadsMessage boards size ∧ boards.receiverStep size = some after ∧
      after.reads.length = boards.reads.length + 1 := by
  rcases connected.hasRead with ⟨count, session, hasRead⟩
  have atCount : boards.reads.length = count := by simp [hasRead.reads, hasRead.within]
  have inside : count < boards.client.socket.length := atCount ▸ unread
  rcases message_length boards.client.socket[count] with ⟨positive, fits⟩
  have inFlight : boards.inFlight = (boards.client.socket[count]).bytes ++
      (boards.client.socket.drop (count + 1)).flatMap Message.bytes := by
    rw [hasRead.inFlight, List.drop_eq_getElem_cons inside, List.flatMap_cons]
  have next : boards.inFlight.take (boards.client.socket[count]).bytes.length =
      (boards.client.socket[count]).bytes := by
    rw [inFlight, List.take_left]
  have isNext : boards.reads ++ [(boards.client.socket[count]).bytes] <+:
      boards.client.socket.map Message.bytes := by
    have reads : boards.reads ++ [(boards.client.socket[count]).bytes] =
        (boards.client.socket.take (count + 1)).map Message.bytes := by
      rw [List.take_succ_eq_append_getElem inside, List.map_append, hasRead.reads]
      rfl
    rw [reads]
    exact (List.take_prefix _ _).map _
  rcases connected.read reading isNext with ⟨after, taken, -, -⟩
  refine ⟨(boards.client.socket[count]).bytes.length, after, ?_, ?_, ?_⟩
  · intro _
    rwa [next]
  · have arrived : (boards.client.socket[count]).bytes.length ≤ boards.inFlight.length := by
      rw [inFlight, List.length_append]
      exact Nat.le_add_right _ _
    rw [Boards.receiverStep, running, if_neg Bool.false_ne_true, if_pos reading,
      if_pos ⟨positive, fits, arrived⟩, next]
    exact taken
  · rw [takeRead_reads taken, List.length_append, List.length_singleton]

/-- How far the receiver is from the end of the socket. -/
def Boards.workLeft (boards : Boards) : Nat :=
  200 * (boards.client.socket.length - boards.reads.length) +
    boards.server.receiverPoint.stepsLeft

/-- The receiver has taken over and stored all there is on the socket. -/
def Stored (boards : Boards) : Prop :=
  boards.server.receiverPoint = .reading ∧ boards.alarms.taken = boards.client.raised

theorem Underway.leadsTo_stored (underway : Underway history raised boards) (sent : Sent boards) :
    (boardProcesses xres history).LeadsTo Orderly Delivers
      (fun boards => Underway history raised boards ∧ Stored boards) boards := by
  apply LeadsTo.of_measure (fun boards => Underway history raised boards ∧ Sent boards)
    Boards.workLeft _ ⟨underway, sent⟩
  intro boards invariant
  rcases invariant with ⟨underway, sent⟩
  by_cases reading : boards.server.receiverPoint = .reading
  · by_cases unread : boards.reads.length < boards.client.socket.length
    · right
      rcases underway.connected.exists_read reading underway.stays unread with
        ⟨size, after, readsMessage, stepped, longer⟩
      rcases underway.receiver readsMessage stepped with ⟨underwayNext, sameClient⟩
      refine ⟨.receiver size, after, .receiver size, readsMessage, stepped, ⟨underwayNext, ?_⟩, ?_⟩
      · rw [Sent, sameClient]
        exact sent
      · have short := after.server.receiverPoint.stepsLeft_le
        dsimp only [Boards.workLeft]
        rw [sameClient, longer]
        omega
    · left
      rcases underway.connected.hasRead with ⟨count, session, hasRead⟩
      have atCount : boards.reads.length = count := by simp [hasRead.reads, hasRead.within]
      refine ⟨underway, reading, ?_⟩
      rw [hasRead.taken_all (by omega), sent]
  · right
    rcases underway.stores with ⟨stored, stores⟩
    rcases stores.next fun _ => 0 with ⟨server, serverStep, nearer⟩
    have readsMessage : ReadsMessage boards 0 := fun isReading => absurd isReading reading
    have stepped : boards.receiverStep 0 = some { boards with server := server } := by
      rw [Boards.receiverStep, underway.stays, if_neg Bool.false_ne_true, if_neg reading,
        serverStep]
      rfl
    rcases underway.receiver readsMessage stepped with ⟨underwayNext, -⟩
    refine ⟨.receiver 0, _, .receiver 0, readsMessage, stepped, ⟨underwayNext, sent⟩, ?_⟩
    have less := nearer reading
    dsimp only [Boards.workLeft]
    omega

/-! ## Whole runs -/

/-- Every orderly run in which nobody has logged out can be continued by the sender and the
receiver alone until the file holds the last eight of all alarms raised. -/
theorem alarms_can_arrive {actions : List BoardsAction}
    (run : (boardProcesses xres history).RunWhere Orderly actions boards)
    (running : loggedOut boards.client = false) :
    ∃ more final, (∀ action ∈ more, Delivers action) ∧
      (boardProcesses xres history).RunWhere Orderly (actions ++ more) final ∧
      final.client.raised = boards.client.raised ∧
      FileHolds final ((history.map alarmOf ++ boards.client.raised).rtake 8) := by
  have underway : Underway history boards.client.raised boards := by
    rcases server_run run with ⟨serverActions, serverRun⟩
    exact ⟨connected_of_run run, running, rfl, stores_of_run serverRun⟩
  have leads : (boardProcesses xres history).LeadsTo Orderly Delivers
      (fun after => Underway history boards.client.raised after ∧ Stored after) boards := by
    apply (underway.leadsTo_sent fun _ => 0).trans
    intro after reached
    exact reached.1.leadsTo_stored reached.2
  rcases leads.exists_run run with ⟨more, final, allDeliver, longer, reached, reading, taken⟩
  refine ⟨more, final, allDeliver, longer, reached.raised, ?_⟩
  have file := file_of_run longer reading
  rwa [taken, reached.raised] at file

/-- An alarm is raised and nobody has looked at the mailbox yet. -/
theorem near_alarm_can_arrive :
    ∃ boards, (boardProcesses 1024 []).RunWhere Orderly
        ((clearing ++ nearHalfSweep).map .client) boards ∧ boards.client.raised.length = 1 ∧
      ∃ more final, (∀ action ∈ more, Delivers action) ∧
        (boardProcesses 1024 []).RunWhere Orderly
          ((clearing ++ nearHalfSweep).map .client ++ more) final ∧
        final.client.raised = boards.client.raised ∧
        FileHolds final (([] ++ boards.client.raised).rtake 8) := by
  have executed : ((boardProcesses 1024 []).executeWhere Orderly
      (.initial [] fun _ _ => 0)
      ((clearing ++ nearHalfSweep).map .client)).any
        (fun boards => decide (boards.client.raised.length = 1) && !loggedOut boards.client) =
      true := by
    decide +kernel
  rcases exists_runWhere _ (boardProcesses_initial _ _ _) executed with ⟨boards, run, test⟩
  simp only [Bool.and_eq_true, decide_eq_true_eq, Bool.not_eq_true'] at test
  exact ⟨boards, run, test.1, alarms_can_arrive run test.2⟩

end GamZ.System
