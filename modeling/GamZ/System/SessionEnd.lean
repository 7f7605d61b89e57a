import GamZ.System.Arrival

/-! # The end of a session

When the client has logged out, what it has sent and the logout are on their way. The
receiver needs nobody else to store the one and to leave its loop at the other. -/

namespace GamZ.System

open CString Client Server Transition TransitionSystem

variable {xres : Nat} {history : List Frame} {boards after : Boards}

def Receives : BoardsAction → Prop
  | .receiver _ => True
  | .client _ | .updater _ => False

/-! ## Leaving the loop -/

theorem left_of_takeRead {bytes : List Byte} (reading : boards.server.receiverPoint = .reading)
    (running : boards.left = false) (taken : boards.takeRead bytes = some after)
    (left : after.left = true) : after.server.receiverPoint = .reading := by
  rw [Boards.takeRead] at taken
  split_ifs at taken
  · rcases Option.map_eq_some_iff.mp taken with ⟨server, -, isAfter⟩
    subst isAfter
    rw [running] at left
    cases left
  · cases taken
    exact reading
  all_goals
    cases taken
    rw [running] at left
    cases left

/-- The receiver leaves its loop at a read. -/
theorem reading_of_left {condition : Boards → BoardsAction → Prop} {actions : List BoardsAction}
    (run : (boardProcesses xres history).RunWhere condition actions boards)
    (left : boards.left = true) : boards.server.receiverPoint = .reading := by
  revert left
  apply run.invariant fun _ boards =>
    boards.left = true → boards.server.receiverPoint = .reading
  · intro boards initial left
    rcases initial with ⟨data, initial⟩
    subst initial
    cases left
  · intro _ boards action after reading _ stepped left
    cases action with
    | client action =>
        rcases Option.map_eq_some_iff.mp stepped with ⟨client, -, isAfter⟩
        subst isAfter
        exact reading left
    | updater input =>
        rcases Option.map_eq_some_iff.mp stepped with ⟨server, serverStep, isAfter⟩
        subst isAfter
        have asProcess : (serverProcesses []).step boards.server (.updater input) =
            some server := serverStep
        exact (updaterStep_frame (updaterStep_of_step asProcess)).1.trans (reading left)
    | receiver size =>
        have running : boards.left = false := by
          by_contra wasLeft
          have stuck : boards.receiverStep size = some after := stepped
          rw [Boards.receiverStep, if_pos (Bool.eq_true_of_not_eq_false wasLeft)] at stuck
          cases stuck
        rcases receiverStep_cases stepped with ⟨atRead, taken⟩ | ⟨-, server, -, isAfter⟩
        · exact left_of_takeRead atRead running taken left
        · subst isAfter
          rw [running] at left
          cases left

/-- The logout is the last message, so all that was sent has been taken over. -/
theorem Connected.taken_of_left (connected : Connected boards) (left : boards.left = true) :
    boards.alarms.taken = boards.client.sent := by
  rcases connected with ⟨-, ⟨whole, follows⟩, count, session, hasRead⟩
  rw [hasRead.left] at left
  cases session with
  | between | inRecord => cases left
  | closed frames =>
      have closed := closed_of_isPrefix (List.take_prefix _ _) hasRead.executed follows.socket
      have sent := frames_of_execute follows.socket
      rw [closed] at sent
      rw [Boards.alarms, hasRead.received, State.sent, ← sent]

/-! ## The receiver goes on -/

/-- The client has logged out. -/
structure Closing (history : List Frame) (client : Client.State) (boards : Boards) : Prop where
  connected : Connected boards
  loggedOut : loggedOut boards.client = true
  client : boards.client = client
  stores : ∃ stored, Stores history stored boards.server

theorem Closing.receiver {client : Client.State} (closing : Closing history client boards)
    {size : Nat} (readsMessage : ReadsMessage boards size)
    (stepped : boards.receiverStep size = some after) : Closing history client after := by
  rcases closing.connected.receiver readsMessage stepped with ⟨sameClient, connected⟩
  refine ⟨connected, ?_, sameClient.trans closing.client, ?_⟩
  · rw [sameClient, closing.loggedOut]
  · have asStep : (boardProcesses 0 history).step boards (.receiver size) = some after := stepped
    exact Stores.ofStep closing.stores asStep

/-- As long as the receiver has not left its loop, there is something to read. -/
theorem Closing.unread {client : Client.State} (closing : Closing history client boards)
    (running : boards.left = false) : boards.reads.length < boards.client.socket.length := by
  rcases closing.connected with ⟨-, ⟨whole, follows⟩, count, session, hasRead⟩
  have atCount : boards.reads.length = count := by simp [hasRead.reads, hasRead.within]
  rw [atCount]
  by_contra all
  have executed := hasRead.executed
  rw [List.take_of_length_le (Nat.le_of_not_lt all), follows.socket] at executed
  cases executed
  rw [hasRead.left, follows.closed, closing.loggedOut] at running
  cases running

theorem Closing.leadsTo_left {client : Client.State} (closing : Closing history client boards) :
    (boardProcesses xres history).LeadsTo Orderly Receives
      (fun after => after.left = true ∧ after.client = client) boards := by
  apply LeadsTo.of_measure (Closing history client) Boards.workLeft _ closing
  intro boards closing
  cases running : boards.left with
  | true => exact .inl ⟨rfl, closing.client⟩
  | false =>
      right
      by_cases reading : boards.server.receiverPoint = .reading
      · have unread := closing.unread running
        rcases closing.connected.exists_read reading running unread with
          ⟨size, after, readsMessage, stepped, longer⟩
        have closingNext := closing.receiver readsMessage stepped
        refine ⟨.receiver size, after, trivial, readsMessage, stepped, closingNext, ?_⟩
        have short := after.server.receiverPoint.stepsLeft_le
        have sameClient := closingNext.client.trans closing.client.symm
        dsimp only [Boards.workLeft]
        rw [sameClient, longer]
        omega
      · rcases closing.stores with ⟨stored, stores⟩
        rcases stores.next fun _ => 0 with ⟨server, serverStep, nearer⟩
        have readsMessage : ReadsMessage boards 0 := fun isReading => absurd isReading reading
        have stepped : boards.receiverStep 0 = some { boards with server := server } := by
          rw [Boards.receiverStep, running, if_neg Bool.false_ne_true, if_neg reading, serverStep]
          rfl
        refine ⟨.receiver 0, _, trivial, readsMessage, stepped,
          closing.receiver readsMessage stepped, ?_⟩
        have less := nearer reading
        dsimp only [Boards.workLeft]
        omega

/-! ## Whole runs -/

/-- Every orderly run that ends with a logout can be continued by the receiver alone until
it has left its loop, with the last eight of all alarms sent in the file. One raised alarm
at most has not been sent. -/
theorem session_can_end {actions : List BoardsAction}
    (run : (boardProcesses xres history).RunWhere Orderly actions boards)
    (out : loggedOut boards.client = true) :
    (∃ alarm : Option Alarm, boards.client.raised = boards.client.sent ++ alarm.toList) ∧
      ∃ more final, (∀ action ∈ more, Receives action) ∧
        (boardProcesses xres history).RunWhere Orderly (actions ++ more) final ∧
        final.left = true ∧ final.client = boards.client ∧
        FileHolds final ((history.map alarmOf ++ boards.client.sent).rtake 8) := by
  have connected := connected_of_run run
  constructor
  · rcases connected.mailbox with ⟨alarm, mailbox⟩
    exact ⟨alarm, mailbox.history⟩
  · have closing : Closing history boards.client boards := by
      rcases server_run run with ⟨serverActions, serverRun⟩
      exact ⟨connected, out, rfl, stores_of_run serverRun⟩
    rcases closing.leadsTo_left.exists_run run with
      ⟨more, final, allReceive, longer, left, sameClient⟩
    refine ⟨more, final, allReceive, longer, left, sameClient, ?_⟩
    have file := file_of_run longer (reading_of_left longer left)
    rwa [(connected_of_run longer).taken_of_left left, sameClient] at file

/-- The exit switch right behind an alarm: nothing has arrived yet. -/
theorem alarm_then_exit_can_end :
    ∃ boards, (boardProcesses 1024 []).RunWhere Orderly (alarmThenExit.map .client) boards ∧
      boards.client.sent.length = 1 ∧ boards.left = false ∧
      (∃ alarm : Option Alarm, boards.client.raised = boards.client.sent ++ alarm.toList) ∧
      ∃ more final, (∀ action ∈ more, Receives action) ∧
        (boardProcesses 1024 []).RunWhere Orderly (alarmThenExit.map .client ++ more) final ∧
        final.left = true ∧ final.client = boards.client ∧
        FileHolds final (([].map alarmOf ++ boards.client.sent).rtake 8) := by
  have executed : ((boardProcesses 1024 []).executeWhere Orderly
      (.initial [] fun _ _ => 0)
      (alarmThenExit.map .client)).any (fun boards =>
        decide (boards.client.sent.length = 1) && !boards.left && loggedOut boards.client) =
      true := by
    decide +kernel
  rcases exists_runWhere _ (boardProcesses_initial _ _ _) executed with ⟨boards, run, test⟩
  simp only [Bool.and_eq_true, decide_eq_true_eq, Bool.not_eq_true'] at test
  exact ⟨boards, run, test.1.1, test.1.2, session_can_end run test.2⟩

end GamZ.System
