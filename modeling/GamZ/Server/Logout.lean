import GamZ.Foundation.Simulation
import GamZ.Foundation.Stretch
import GamZ.Server.HistoryView
import GamZ.Server.HistoryBrowsing

/-! # Ending the server

The logout ends the loop of `client_receive_process`, and `main` sends `SIGINT` to
`update_process`. That looks at `quit` when its loop comes round. The loop of the history
view does not: it ends with its switch. Behind an overrun of `temp`, and with `data[-1]`,
the history view goes on with any values; a time byte of three digits, on which the text
composer fails, is assumed not to arrive. -/

namespace GamZ.Server

open CString BoundedFifo Stdio Transition TransitionSystem

/-! ## The two processes and the signal -/

/-- `main` of the server from `client_receive_process` on. -/
inductive MainPoint
  | receiving
  /-- `kill(pid,SIGINT);` -/
  | killing
  | returned
deriving DecidableEq, Repr

structure Serving where
  server : ServerState
  mainPoint : MainPoint
  quit : Bool
  /-- `update_process` has returned. -/
  ended : Bool

def Serving.initial (history : List Frame) (data : Fin 10 → Fin 70 → Int) : Serving where
  server := .initial history data
  mainPoint := .receiving
  quit := false
  ended := false

section Steps

variable (state : Serving)

def Serving.receiverStep (frame : Frame) : Option Serving :=
  match state.mainPoint with
  | .receiving => (state.server.receiverStep frame).toOption.map fun server =>
      { state with server := server }
  | .killing | .returned => none

/-- The read that returns the logout is not the one behind a `data_in`. -/
def Serving.logoutStep : Option Serving :=
  match state.mainPoint, state.server.receiverPoint with
  | .receiving, .reading => some { state with mainPoint := .killing }
  | _, _ => none

def Serving.killStep : Option Serving :=
  match state.mainPoint with
  | .killing => some { state with mainPoint := .returned, quit := true }
  | .receiving | .returned => none

/-- A step of the loops of `update_process` besides their tests. -/
def Serving.loopStep (input : UpdaterInput) : Option Serving :=
  (state.server.updaterStep input).toOption.map fun server =>
    { state with server := server }

/-- `while(!quit)` stands in front of the top of the loop. The loop of the history view has
no such test. -/
def Serving.updaterStep (input : UpdaterInput) : Option Serving :=
  if state.ended then some state
  else
    match state.server.updaterPoint with
    | .top => if state.quit then some { state with ended := true } else state.loopStep input
    | _ => state.loopStep input

end Steps

inductive ServingAction
  | receiver (frame : Frame)
  | logout
  | kill
  | updater (input : UpdaterInput)

def servings (history : List Frame) : TransitionSystem Serving ServingAction where
  Initial state := ∃ data, state = .initial history data
  step state
    | .receiver frame => state.receiverStep frame
    | .logout => state.logoutStep
    | .kill => state.killStep
    | .updater input => state.updaterStep input

/-! ## What a step is -/

/-- The steps of the whole server, by what they change. -/
inductive ServingMove (state : Serving) : Serving → ServingAction → Prop
  | store {server : ServerState} (frame : Frame) : state.mainPoint = .receiving →
      state.server.receiverStep frame = .ok server →
      ServingMove state { state with server := server } (.receiver frame)
  | leave : state.mainPoint = .receiving → state.server.receiverPoint = .reading →
      ServingMove state { state with mainPoint := .killing } .logout
  | signal : state.mainPoint = .killing →
      ServingMove state { state with mainPoint := .returned, quit := true } .kill
  | stay (input : UpdaterInput) : state.ended = true →
      ServingMove state state (.updater input)
  | finish (input : UpdaterInput) : state.server.updaterPoint = .top → state.quit = true →
      state.ended = false → ServingMove state { state with ended := true } (.updater input)
  | update {server : ServerState} (input : UpdaterInput) : state.ended = false →
      (state.server.updaterPoint = .top → state.quit = false) →
      state.server.updaterStep input = .ok server →
      ServingMove state { state with server := server } (.updater input)

section Moves

variable {history : List Frame} {state after : Serving} {action : ServingAction}

theorem updated_of_some {server : ServerState} {input : UpdaterInput}
    (updated : (state.server.updaterStep input).toOption = some server) :
    state.server.updaterStep input = .ok server :=
  updaterStep_of_step
    (show (serverProcesses []).step state.server (.updater input) = some server from updated)

theorem received_of_some {server : ServerState} {frame : Frame}
    (received : (state.server.receiverStep frame).toOption = some server) :
    state.server.receiverStep frame = .ok server :=
  receiverStep_of_step
    (show (serverProcesses []).step state.server (.receiver frame) = some server from received)

theorem exists_loopStep {input : UpdaterInput} (stepped : state.loopStep input = some after) :
    ∃ server, state.server.updaterStep input = .ok server ∧
      after = { state with server := server } := by
  rcases Option.map_eq_some_iff.mp stepped with ⟨server, updated, isAfter⟩
  exact ⟨server, updated_of_some updated, isAfter.symm⟩

theorem servingMove_of_step (stepped : (servings history).step state action = some after) :
    ServingMove state after action := by
  cases action with
  | receiver frame =>
      rw [servings] at stepped
      dsimp only [Serving.receiverStep] at stepped
      split at stepped <;> rename_i point
      · rcases Option.map_eq_some_iff.mp stepped with ⟨server, received, isAfter⟩
        subst isAfter
        exact .store frame point (received_of_some received)
      all_goals cases stepped
  | logout =>
      rw [servings] at stepped
      dsimp only [Serving.logoutStep] at stepped
      split at stepped <;> cases stepped
      rename_i point reading
      exact .leave point reading
  | kill =>
      rw [servings] at stepped
      dsimp only [Serving.killStep] at stepped
      split at stepped <;> cases stepped
      rename_i point
      exact .signal point
  | updater input =>
      rw [servings] at stepped
      dsimp only [Serving.updaterStep] at stepped
      cases ended : state.ended with
      | true =>
          rw [ended, if_pos rfl] at stepped
          cases stepped
          exact .stay input ended
      | false =>
          rw [ended, if_neg Bool.false_ne_true] at stepped
          split at stepped <;> rename_i point
          · split_ifs at stepped with quits
            · cases stepped
              exact .finish input point quits ended
            · rcases exists_loopStep stepped with ⟨server, updated, isAfter⟩
              subst isAfter
              exact .update input ended (fun _ => Bool.eq_false_iff.mpr quits) updated
          · rcases exists_loopStep stepped with ⟨server, updated, isAfter⟩
            subst isAfter
            exact .update input ended (fun atTop => absurd atTop point) updated

end Moves

/-! ## In service -/

/-- Who holds the semaphore, and in which order the processes end. -/
structure InService (state : Serving) : Prop where
  reading : state.mainPoint ≠ .receiving → state.server.receiverPoint = .reading
  quit : state.quit = true → state.mainPoint = .returned
  ended : state.ended = true → state.quit = true ∧ state.server.updaterPoint = .top
  held : state.server.memory.semaphore ≠ 0 →
    receiverInside state.server = true ∨ updaterInside state.server = true

theorem inService_initial (history : List Frame) (data : Fin 10 → Fin 70 → Int) :
    InService (.initial history data) where
  reading := fun left => absurd rfl left
  quit := fun quits => by cases quits
  ended := fun ended => by cases ended
  held := fun set => absurd rfl set

section Service

variable {history : List Frame} {state after : Serving} {action : ServingAction}

theorem InService.held_receiver (service : InService state) {server : ServerState} {frame : Frame}
    (received : state.server.receiverStep frame = .ok server)
    (set : server.memory.semaphore ≠ 0) :
    receiverInside server = true ∨ updaterInside server = true := by
  have sameUpdater : updaterInside server = updaterInside state.server := by
    rw [updaterInside, updaterInside, (receiverStep_frame received).1]
  rcases receiverStep_semaphore received with ⟨-, -, inside⟩ | ⟨-, lowered, -⟩ |
    ⟨-, -, same, sameReceiver⟩
  · exact .inl inside
  · exact absurd lowered set
  · rw [sameReceiver, sameUpdater]
    exact service.held (same ▸ set)

theorem InService.held_updater (service : InService state) {server : ServerState}
    {input : UpdaterInput} (updated : state.server.updaterStep input = .ok server)
    (set : server.memory.semaphore ≠ 0) :
    receiverInside server = true ∨ updaterInside server = true := by
  have sameReceiver : receiverInside server = receiverInside state.server := by
    rw [receiverInside, receiverInside, (updaterStep_frame updated).1]
  rcases updaterStep_semaphore updated with ⟨-, -, inside⟩ | ⟨-, lowered, -⟩ |
    ⟨same, sameUpdater⟩
  · exact .inr inside
  · exact absurd lowered set
  · rw [sameReceiver, sameUpdater]
    exact service.held (same ▸ set)

theorem InService.step (service : InService state)
    (stepped : (servings history).step state action = some after) : InService after := by
  cases servingMove_of_step stepped with
  | store frame receiving received =>
      refine ⟨fun left => absurd receiving left, service.quit, ?_, service.held_receiver received⟩
      intro ended
      have wasEnded := service.ended ended
      exact ⟨wasEnded.1, (receiverStep_frame received).1.trans wasEnded.2⟩
  | leave receiving reading =>
      refine ⟨fun _ => reading, fun quits => ?_, service.ended, service.held⟩
      have returned := service.quit quits
      rw [receiving] at returned
      cases returned
  | signal killing =>
      refine ⟨fun _ => service.reading (by rw [killing]; decide), fun _ => rfl, ?_, service.held⟩
      exact fun ended => ⟨rfl, (service.ended ended).2⟩
  | stay => exact service
  | finish _ atTop quits =>
      exact ⟨service.reading, service.quit, fun _ => ⟨quits, atTop⟩, service.held⟩
  | update _ running _ updated =>
      refine ⟨?_, service.quit, ?_, service.held_updater updated⟩
      · intro left
        exact (updaterStep_frame updated).1.trans (service.reading left)
      · intro ended
        rw [running] at ended
        cases ended

theorem inService_of_run {actions : List ServingAction}
    (run : (servings history).Run actions state) : InService state := by
  apply run.invariant fun _ state => InService state
  · intro state initial
    rcases initial with ⟨data, initial⟩
    rw [initial]
    exact inService_initial history data
  · exact fun _ _ _ _ service _ stepped => service.step stepped

/-- The processes go through steps of the server that runs on. -/
theorem server_of_run {actions : List ServingAction}
    (run : (servings history).Run actions state) :
    ∃ events, (serverProcesses history).Run events state.server := by
  apply run.project Serving.server
  · intro state initial
    rcases initial with ⟨data, initial⟩
    rw [initial]
    exact ⟨data, rfl⟩
  · intro state action after _ stepped
    cases servingMove_of_step stepped with
    | store frame _ received =>
        refine .inr ⟨.receiver frame, trivial, ?_⟩
        exact congrArg Except.toOption received
    | update input _ _ updated =>
        refine .inr ⟨.updater input, trivial, ?_⟩
        exact congrArg Except.toOption updated
    | leave | signal | stay | finish => exact .inl rfl

end Service

/-! ## The way out -/

/-- From the history button to the end of the history view. -/
def UpdaterPoint.inHistory : UpdaterPoint → Bool
  | .locking | .opening | .loading _ _ | .unlocking _ | .closing _ | .splitting | .viewing => true
  | .top | .testing | .waiting | .drawing _ | .lowering | .button => false

/-- `update_process` comes to the test of `quit` without the history. -/
def HeadsOut (server : ServerState) : Prop :=
  server.updaterPoint.inHistory = false ∧ (server.updaterPoint = .top ∨ server.pressed = false)

/-- The steps to the test of `quit`. -/
def UpdaterPoint.stepsToTop : UpdaterPoint → Nat
  | .top => 0
  | .button => 1
  | .lowering => 2
  | .drawing k => 70 - k.val
  | .waiting => 71
  | .testing => 72
  | .locking | .opening | .loading _ _ | .unlocking _ | .closing _ | .splitting | .viewing => 0

def Serving.stepsLeft (state : Serving) : Nat :=
  if state.ended then 0 else state.server.updaterPoint.stepsToTop + 1

theorem headsOut_updated {server after : ServerState} {input : UpdaterInput}
    (heads : HeadsOut server)
    (below : server.updaterPoint ≠ .top)
    (free : server.updaterPoint = .waiting → server.memory.semaphore = 0)
    (updated : server.updaterStep input = .ok after) :
    HeadsOut after ∧ after.updaterPoint.stepsToTop + 1 ≤ server.updaterPoint.stepsToTop := by
  rcases heads with ⟨outside, atTop | notPressed⟩
  · exact absurd atTop below
  · cases point : server.updaterPoint with
    | top => exact absurd point below
    | locking | opening | loading | unlocking | closing | splitting | viewing =>
        rw [point] at outside
        cases outside
    | testing =>
        rw [ServerState.updaterStep, point] at updated
        cases updated
        dsimp only
        split_ifs
        · exact ⟨⟨rfl, .inr notPressed⟩, Nat.le_refl _⟩
        · exact ⟨⟨rfl, .inr notPressed⟩, by decide⟩
    | waiting =>
        rw [ServerState.updaterStep, point] at updated
        dsimp only at updated
        rw [if_neg (not_not_intro (free point))] at updated
        cases updated
        exact ⟨⟨rfl, .inr notPressed⟩, Nat.le_refl _⟩
    | drawing k =>
        rw [ServerState.updaterStep, point] at updated
        dsimp only at updated
        split_ifs at updated with inside
        · cases updated
          refine ⟨⟨rfl, .inr notPressed⟩, ?_⟩
          dsimp only [UpdaterPoint.stepsToTop]
          omega
        · cases updated
          refine ⟨⟨rfl, .inr notPressed⟩, ?_⟩
          dsimp only [UpdaterPoint.stepsToTop]
          omega
    | lowering =>
        rw [ServerState.updaterStep, point] at updated
        cases updated
        exact ⟨⟨rfl, .inr notPressed⟩, Nat.le_refl _⟩
    | button =>
        rw [ServerState.updaterStep, point] at updated
        cases updated
        dsimp only
        rw [notPressed]
        exact ⟨⟨rfl, .inl rfl⟩, Nat.le_refl _⟩

section Way

variable {history : List Frame} {state after : Serving} {action : ServingAction}

/-- Once the loop of the receiver is left, nobody keeps `update_process` waiting. -/
theorem InService.free (service : InService state) (left : state.mainPoint ≠ .receiving)
    (waiting : state.server.updaterPoint = .waiting) : state.server.memory.semaphore = 0 := by
  by_contra set
  rcases service.held set with receiver | updater
  · rw [receiverInside, service.reading left] at receiver
    cases receiver
  · rw [updaterInside, waiting] at updater
    cases updater

def ServingAction.isUpdater : ServingAction → Bool
  | .updater _ => true
  | .receiver _ | .logout | .kill => false

/-- `update_process` is on its way to its end, and only it still steps. -/
structure OnWayOut (state : Serving) : Prop where
  service : InService state
  quit : state.quit = true
  heads : state.ended = true ∨ HeadsOut state.server

theorem OnWayOut.step (way : OnWayOut state)
    (stepped : (servings history).step state action = some after) :
    OnWayOut after ∧ action.isUpdater = true ∧ after.stepsLeft ≤ state.stepsLeft - 1 := by
  have returned := way.service.quit way.quit
  have service := way.service.step stepped
  cases servingMove_of_step stepped with
  | store _ receiving =>
      rw [returned] at receiving
      cases receiving
  | leave receiving =>
      rw [returned] at receiving
      cases receiving
  | signal killing =>
      rw [returned] at killing
      cases killing
  | stay _ ended =>
      refine ⟨way, rfl, ?_⟩
      rw [Serving.stepsLeft, if_pos ended]
  | finish _ _ _ _ => exact ⟨⟨service, way.quit, .inl rfl⟩, rfl, Nat.zero_le _⟩
  | update _ running below updated =>
      rcases way.heads with ended | heads
      · rw [running] at ended
        cases ended
      · have notTop : state.server.updaterPoint ≠ .top := by
          intro atTop
          have quit := below atTop
          rw [way.quit] at quit
          cases quit
        have left : state.mainPoint ≠ .receiving := by
          rw [returned]
          decide
        rcases headsOut_updated heads notTop (way.service.free left) updated with
          ⟨headsOn, nearer⟩
        refine ⟨⟨service, way.quit, .inr headsOn⟩, rfl, ?_⟩
        simp only [Serving.stepsLeft, running, Bool.false_eq_true, if_false]
        omega

/-- After `SIGINT` it ends by its own steps. -/
theorem OnWayOut.ends (way : OnWayOut state) {actions : List ServingAction} {final : Serving}
    (executed : (servings history).execute state actions = some final)
    (enough : state.stepsLeft ≤ actions.countP ServingAction.isUpdater) : final.ended = true := by
  have left : final.stepsLeft ≤ state.stepsLeft - actions.countP ServingAction.isUpdater := by
    apply measure_le_of_execute ServingAction.isUpdater OnWayOut Serving.stepsLeft _ _ _ executed
      way
    · exact fun _ _ _ way stepped => (way.step stepped).1
    · exact fun _ _ _ way _ stepped => (way.step stepped).2.2
    · exact fun _ _ _ way _ stepped => (way.step stepped).2.2.trans (Nat.sub_le _ _)
  have none : final.stepsLeft = 0 := by omega
  rw [Serving.stepsLeft] at none
  split_ifs at none with ended
  exact ended

/-- The switch that ends the history view. -/
def ServingAction.pressesExit : ServingAction → Bool
  | .updater input => decide (thirdSwitch input.pushSwBuff = 1)
  | .receiver _ | .logout | .kill => false

theorem InService.running (service : InService state)
    (viewing : state.server.updaterPoint = .viewing) : state.ended = false := by
  by_contra ended
  have atTop := (service.ended (Bool.eq_true_of_not_eq_false ended)).2
  rw [viewing] at atTop
  cases atTop

/-- The history view outlasts the logout and the signal. -/
theorem viewing_stays (service : InService state)
    (viewing : state.server.updaterPoint = .viewing) {actions : List ServingAction}
    {final : Serving} (executed : (servings history).execute state actions = some final)
    (noExit : ∀ action ∈ actions, action.pressesExit = false) :
    final.server.updaterPoint = .viewing ∧ final.ended = false := by
  have notEnded := service.running viewing
  apply execute_invariant (fun action => action.pressesExit = false)
    (fun state => state.server.updaterPoint = .viewing ∧ state.ended = false) _ noExit executed
    ⟨viewing, notEnded⟩
  rintro state action after ⟨viewing, notEnded⟩ quiet stepped
  cases servingMove_of_step stepped with
  | store _ _ received => exact ⟨(receiverStep_frame received).1.trans viewing, notEnded⟩
  | leave | signal | stay => exact ⟨viewing, notEnded⟩
  | finish _ atTop =>
      rw [viewing] at atTop
      cases atTop
  | update _ _ _ updated =>
      refine ⟨?_, notEnded⟩
      by_contra left
      exact absurd (updaterStep_leaves updated viewing left) (of_decide_eq_false quiet)

/-- Behind the loop of the receiver the records stay as they are. -/
theorem file_kept (left : state.mainPoint ≠ .receiving) {actions : List ServingAction}
    {final : Serving} (executed : (servings history).execute state actions = some final) :
    final.server.memory.inputTxt = state.server.memory.inputTxt := by
  have kept : final.mainPoint ≠ .receiving ∧
      final.server.memory.inputTxt = state.server.memory.inputTxt := by
    apply execute_invariant (fun _ => True)
      (fun after => after.mainPoint ≠ .receiving ∧
        after.server.memory.inputTxt = state.server.memory.inputTxt) _
      (fun _ _ => trivial) executed ⟨left, rfl⟩
    rintro before action after ⟨left, same⟩ - stepped
    cases servingMove_of_step stepped with
    | store _ receiving => exact absurd receiving left
    | leave receiving => exact absurd receiving left
    | signal => exact ⟨MainPoint.noConfusion, same⟩
    | stay | finish => exact ⟨left, same⟩
    | update _ _ _ updated =>
        rcases updaterStep_frame updated with ⟨-, -, -, -, sameFile, -⟩
        exact ⟨left, sameFile.trans same⟩
  exact kept.2

theorem file_of_run {actions : List ServingAction} (run : (servings history).Run actions state)
    (left : state.mainPoint ≠ .receiving) :
    state.server.memory.inputTxt =
      some (storeText (queueAfter history state.server.received)) := by
  have reading := (inService_of_run run).reading left
  rcases server_of_run run with ⟨events, serverRun⟩
  rcases stores_of_run serverRun with ⟨stored, stores⟩
  have received := stores.received
  rw [if_pos reading, List.append_nil] at received
  have stage := stores.stage
  simp only [AtStage, reading] at stage
  rw [received]
  exact stage

/-- The exit switch leads back to the test of `quit`. -/
theorem exit_step (viewing : state.server.updaterPoint = .viewing) (running : state.ended = false)
    {input : UpdaterInput} (exits : thirdSwitch input.pushSwBuff = 1) :
    (servings history).step state (.updater input) =
      some { state with server := { state.server with updaterPoint := .top } } := by
  rw [servings]
  dsimp only [Serving.updaterStep]
  rw [if_neg (Bool.not_eq_true _ ▸ running), viewing]
  dsimp only
  rw [Serving.loopStep, ServerState.updaterStep, viewing]
  dsimp only
  rw [if_pos exits]
  rfl

end Way

theorem stepsToTop_le (point : UpdaterPoint) : point.stepsToTop ≤ 72 := by
  cases point with
  | drawing k => exact (Nat.sub_le 70 k.val).trans (by decide)
  | top | testing | waiting | lowering | button | locking | opening | loading | unlocking | closing
  | splitting | viewing => exact Nat.le_of_ble_eq_true rfl

/-! ## The end of the server -/

/-- The end of the server. No time byte has three digits, so that the text display does
not end `update_process`; behind an overrun of `temp`, or a `data[-1]`, it goes on with
any values. -/
structure ServerEnds (history : List Frame) (state : Serving) : Prop where
  inOrder : state.ended = true → state.quit = true
  /-- The loop of the receiver is left with the last eight records in the file. -/
  file : state.mainPoint ≠ .receiving → ∀ actions final,
    (servings history).execute state actions = some final →
      final.server.memory.inputTxt =
        some (storeText (queueAfter history state.server.received))
  unblocked : state.mainPoint ≠ .receiving → state.server.updaterPoint = .waiting →
    state.server.memory.semaphore = 0
  /-- Outside of the history `update_process` ends by its own steps. -/
  ends : state.quit = true → HeadsOut state.server → ∀ actions final,
    (servings history).execute state actions = some final →
      73 ≤ actions.countP ServingAction.isUpdater → final.ended = true
  /-- The history view goes on until its exit switch. -/
  stays : state.server.updaterPoint = .viewing → ∀ actions final,
    (servings history).execute state actions = some final →
      (∀ action ∈ actions, action.pressesExit = false) → final.ended = false
  exits : state.quit = true → state.server.updaterPoint = .viewing →
    ∀ input actions final, thirdSwitch input.pushSwBuff = 1 →
      (servings history).execute state (.updater input :: actions) = some final →
        1 ≤ actions.countP ServingAction.isUpdater → final.ended = true

theorem server_ends {history : List Frame} {actions : List ServingAction} {state : Serving}
    (run : (servings history).Run actions state) : ServerEnds history state := by
  have service := inService_of_run run
  refine ⟨fun ended => (service.ended ended).1, ?_, service.free, ?_, ?_, ?_⟩
  · intro left actions final executed
    rw [file_kept left executed]
    exact file_of_run run left
  · intro quit heads actions final executed enough
    have way : OnWayOut state := ⟨service, quit, .inr heads⟩
    apply way.ends executed
    have short := stepsToTop_le state.server.updaterPoint
    rw [Serving.stepsLeft]
    split_ifs <;> omega
  · exact fun viewing actions final executed noExit =>
      (viewing_stays service viewing executed noExit).2
  · intro quit viewing input actions final exits executed enough
    rcases execute_cons executed with ⟨after, stepped, rest⟩
    have serviceAfter := service.step stepped
    rw [exit_step viewing (service.running viewing) exits] at stepped
    cases stepped
    have way : OnWayOut { state with server := { state.server with updaterPoint := .top } } :=
      ⟨serviceAfter, quit, .inr ⟨rfl, .inl rfl⟩⟩
    apply way.ends rest
    rw [Serving.stepsLeft, if_neg (Bool.not_eq_true _ ▸ service.running viewing)]
    exact enough

/-- A record arrives, and the client logs out. -/
def recordAndLogout : List ServingAction :=
  .receiver (constantFrame 7) :: List.replicate 149 (.receiver (constantFrame 0)) ++
    [.updater (.of nonePressed), .logout, .kill]

theorem record_and_logout_ends :
    ∃ state, (servings []).Run recordAndLogout state ∧ state.quit = true ∧
      state.server.received.length = 1 ∧ ServerEnds [] state := by
  have executed : ((servings []).execute (.initial [] fun _ _ => 0) recordAndLogout).any
      (fun state => state.quit && state.server.received.length == 1) = true := by
    decide +kernel
  have initial : (servings []).Initial (.initial [] fun _ _ => 0) := ⟨_, rfl⟩
  rcases exists_run _ initial executed with ⟨state, run, test⟩
  rcases Bool.and_eq_true_iff.mp test with ⟨quit, one⟩
  exact ⟨state, run, quit, beq_iff_eq.mp one, server_ends run⟩

end GamZ.Server
