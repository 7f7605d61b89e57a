import GamZ.Client.Mailbox

/-! # Connecting and connecting again

`main` connects once. When that fails, the sending process tries again in `retry`
while the other processes are already at work. -/

namespace GamZ.Client

open Transition TransitionSystem

structure ServerAddr where
  sinAddr : String
  sinPort : Nat
deriving DecidableEq

def mainServerAddr : ServerAddr where
  sinAddr := "192.168.43.110"
  sinPort := 4000

def retryServerAddr : ServerAddr where
  sinAddr := "127.0.0.1"
  sinPort := 4002

/-- Where the sending process is; up to the forks that is where `main` is. -/
inductive SendingPoint
  /-- `connect` in `main`. -/
  | connecting
  /-- `if(*connected_flag)` -/
  | entering
  /-- `client_send_process();` -/
  | sending
  /-- `while(!*connected_flag && !quit)` -/
  | testing
  /-- `sleep(10);` and the stores to `server_addr` -/
  | sleeping
  /-- `connect` in `retry`. -/
  | retrying
  /-- `*connected_flag = 1; break;` -/
  | connected
  | terminated
deriving DecidableEq

/-- The client with its connection. The servers connected to and the servers that
`retry` has called are kept as history. -/
structure LinkState where
  point : SendingPoint
  connectedFlag : Int
  quit : Bool
  connections : List ServerAddr
  retries : List ServerAddr
  client : State

/-- `*connected_flag = 1;`, in front of the first `connect`. -/
def LinkState.initial : LinkState where
  point := .connecting
  connectedFlag := 1
  quit := false
  connections := []
  retries := []
  client := .initial

inductive LinkAction
  /-- A call of `connect`, in `main` or in `retry`. -/
  | connect (succeeds : Bool)
  /-- Any other step of the sending process. -/
  | sender (time : Fin 6 → CString.Byte)
  | radar (readings : Fin 61 → Reading)
  | fpga (button : Button)
  /-- `SIGINT`. The sending process has no handler for it. -/
  | interrupt

def LinkState.connect (state : LinkState) (succeeds : Bool) : Option LinkState :=
  match state.point with
  | .connecting =>
      if succeeds then
        some { state with
          point := .entering
          connections := state.connections ++ [mainServerAddr] }
      else some { state with point := .entering, connectedFlag := 0 }
  | .retrying =>
      if succeeds then
        some { state with
          point := .connected
          connections := state.connections ++ [retryServerAddr]
          retries := state.retries ++ [retryServerAddr] }
      else some { state with point := .testing, retries := state.retries ++ [retryServerAddr] }
  | .entering | .sending | .testing | .sleeping | .connected | .terminated => none

/-- Nothing sets `quit` in the sending process: `SIGINT` ends it. -/
def LinkState.senderStep (state : LinkState) (time : Fin 6 → CString.Byte) : Option LinkState :=
  match state.point with
  | .entering =>
      some { state with point := if state.connectedFlag ≠ 0 then .sending else .testing }
  | .sending => some { state with client := state.client.senderStep time }
  | .testing =>
      some { state with point := if state.connectedFlag = 0 then .sleeping else .terminated }
  | .sleeping => some { state with point := .retrying }
  | .connected => some { state with connectedFlag := 1, point := .terminated }
  | .connecting | .retrying | .terminated => none

/-- Without a connection the exit button sends no logout. -/
def LinkState.fpgaStep (state : LinkState) (button : Button) : LinkState :=
  if state.client.fpgaPoint = .serving ∧ button = .exit ∧ state.connectedFlag = 0 then
    { state with client := { state.client with fpgaPoint := .closed } }
  else { state with client := state.client.fpgaStep button }

/-- All processes but the one that connects first exist from the forks on. -/
def LinkState.next (xres : Nat) (state : LinkState) : LinkAction → Option LinkState
  | .connect succeeds => state.connect succeeds
  | .sender time => state.senderStep time
  | .radar readings =>
      if state.point = .connecting then none
      else some { state with client := state.client.radarStep xres readings }
  | .fpga button => if state.point = .connecting then none else some (state.fpgaStep button)
  | .interrupt =>
      if state.point = .connecting then none
      else some { state with quit := true, point := .terminated }

def link (xres : Nat) : TransitionSystem LinkState LinkAction where
  Initial state := state = .initial
  step := LinkState.next xres

/-! ## Delivery -/

/-- From the first connection to the server on, the sending process is in the loop
of `client_send_process` or enters it next, and every alarm raised is sent. -/
structure DeliversOnceConnected (xres : Nat) (state : LinkState) : Prop where
  inLoop : mainServerAddr ∈ state.connections → state.quit = false →
    state.point = .entering ∧ state.connectedFlag = 1 ∨ state.point = .sending
  alive : state.connectedFlag = 1 → state.quit = false → state.point ≠ .terminated
  sameServer : ∀ server ∈ state.retries, server = mainServerAddr
  delivers : mainServerAddr ∈ state.connections → state.quit = false →
    SendsEveryAlarm xres state.client

/-- `retry` does not come to its `connect`, and with a connection no alarm is
disturbed on its way. -/
def KeepsLink (state : LinkState) : LinkAction → Prop
  | .connect _ => state.point = .connecting
  | .radar readings =>
      mainServerAddr ∈ state.connections → Undisturbed state.client (.radar readings)
  | .sender _ | .fpga _ | .interrupt => True

instance (state : LinkState) : (action : LinkAction) → Decidable (KeepsLink state action)
  | .connect _ => inferInstanceAs (Decidable (state.point = .connecting))
  | .radar readings =>
      inferInstanceAs (Decidable (mainServerAddr ∈ state.connections →
        Undisturbed state.client (.radar readings)))
  | .sender _ => inferInstanceAs (Decidable True)
  | .fpga _ => inferInstanceAs (Decidable True)
  | .interrupt => inferInstanceAs (Decidable True)

/-- In front of the forks, with a connection, or without one. -/
inductive LinkPhase (xres : Nat) (state : LinkState) : Prop
  | starting : state = .initial → LinkPhase xres state
  | online (actions : List Action) :
      (processes xres).RunWhere Undisturbed actions state.client →
      mainServerAddr ∈ state.connections → state.connectedFlag = 1 → state.retries = [] →
      (state.quit = true ∧ state.point = .terminated ∨
        state.quit = false ∧ (state.point = .entering ∨ state.point = .sending)) →
      LinkPhase xres state
  | offline : state.connections = [] → state.connectedFlag = 0 → state.retries = [] →
      state.point ≠ .connecting → state.point ≠ .sending → state.point ≠ .connected →
      LinkPhase xres state

section Phase

variable {xres : Nat} {state after : LinkState}

theorem LinkPhase.connect (phase : LinkPhase xres state) {succeeds : Bool}
    (first : state.point = .connecting) (stepped : state.connect succeeds = some after) :
    LinkPhase xres after := by
  cases phase with
  | starting isInitial =>
      subst isInitial
      cases succeeds with
      | true =>
          cases stepped
          exact .online [] (.start rfl) (by decide) rfl rfl (.inr ⟨rfl, .inl rfl⟩)
      | false =>
          cases stepped
          exact .offline rfl rfl rfl (by decide) (by decide) (by decide)
  | online actions run reached flag noRetry place =>
      rw [first] at place
      simp at place
  | offline _ _ _ notFirst => exact absurd first notFirst

theorem LinkPhase.sender (phase : LinkPhase xres state) {time : Fin 6 → CString.Byte}
    (stepped : state.senderStep time = some after) : LinkPhase xres after := by
  cases phase with
  | starting isInitial =>
      subst isInitial
      cases stepped
  | online actions run reached flag noRetry place =>
      rcases place with ⟨-, ended⟩ | ⟨running, atEntry | inLoop⟩
      · rw [LinkState.senderStep, ended] at stepped
        cases stepped
      · rw [LinkState.senderStep, atEntry] at stepped
        cases stepped
        refine .online actions run reached flag noRetry (.inr ⟨running, .inr ?_⟩)
        simp [flag]
      · rw [LinkState.senderStep, inLoop] at stepped
        cases stepped
        have undisturbed : Undisturbed state.client (.sender time) := trivial
        exact .online _ (run.next (.sender time) undisturbed rfl) reached flag noRetry
          (.inr ⟨running, .inr rfl⟩)
  | offline none flag noRetry notFirst notLoop notConnected =>
      cases place : state.point with
      | connecting => exact absurd place notFirst
      | sending => exact absurd place notLoop
      | connected => exact absurd place notConnected
      | entering | testing =>
          rw [LinkState.senderStep, place] at stepped
          cases stepped
          exact .offline none flag noRetry (by simp [flag]) (by simp [flag]) (by simp [flag])
      | sleeping =>
          rw [LinkState.senderStep, place] at stepped
          cases stepped
          exact .offline none flag noRetry (by simp) (by simp) (by simp)
      | retrying | terminated =>
          rw [LinkState.senderStep, place] at stepped
          cases stepped

/-- A step of another process, which with a connection is one of the connected
client. -/
theorem LinkPhase.other (phase : LinkPhase xres state) {client : State}
    (forked : state.point ≠ .connecting)
    (follows : mainServerAddr ∈ state.connections → state.connectedFlag = 1 →
      ∃ action, Undisturbed state.client action ∧
        (processes xres).step state.client action = some client) :
    LinkPhase xres { state with client := client } := by
  cases phase with
  | starting isInitial =>
      subst isInitial
      exact absurd rfl forked
  | online actions run reached flag noRetry place =>
      rcases follows reached flag with ⟨action, undisturbed, stepped⟩
      exact .online _ (run.next action undisturbed stepped) reached flag noRetry place
  | offline none flag noRetry notFirst notLoop notConnected =>
      exact .offline none flag noRetry notFirst notLoop notConnected

theorem LinkPhase.interrupt (phase : LinkPhase xres state) (forked : state.point ≠ .connecting) :
    LinkPhase xres { state with quit := true, point := .terminated } := by
  cases phase with
  | starting isInitial =>
      subst isInitial
      exact absurd rfl forked
  | online actions run reached flag noRetry place =>
      exact .online actions run reached flag noRetry (.inl ⟨rfl, rfl⟩)
  | offline none flag noRetry notFirst notLoop notConnected =>
      exact .offline none flag noRetry (by simp) (by simp) (by simp)

theorem LinkPhase.next (phase : LinkPhase xres state) {action : LinkAction}
    (keeps : KeepsLink state action) (stepped : state.next xres action = some after) :
    LinkPhase xres after := by
  cases action with
  | connect succeeds => exact phase.connect keeps stepped
  | sender time => exact phase.sender stepped
  | radar readings =>
      rw [LinkState.next, Option.ite_none_left_eq_some] at stepped
      rcases stepped with ⟨forked, next⟩
      cases next
      exact phase.other forked fun reached _ => ⟨.radar readings, keeps reached, rfl⟩
  | fpga button =>
      rw [LinkState.next, Option.ite_none_left_eq_some] at stepped
      rcases stepped with ⟨forked, next⟩
      cases next
      by_cases silent : state.client.fpgaPoint = .serving ∧ button = .exit ∧
          state.connectedFlag = 0
      · rw [LinkState.fpgaStep, if_pos silent]
        apply phase.other forked
        intro _ flag
        exact absurd (flag.symm.trans silent.2.2) (by decide)
      · rw [LinkState.fpgaStep, if_neg silent]
        exact phase.other forked fun _ _ => ⟨.fpga button, trivial, rfl⟩
  | interrupt =>
      rw [LinkState.next, Option.ite_none_left_eq_some] at stepped
      rcases stepped with ⟨forked, next⟩
      cases next
      exact phase.interrupt forked

theorem LinkPhase.deliversOnceConnected (phase : LinkPhase xres state) :
    DeliversOnceConnected xres state := by
  cases phase with
  | starting isInitial =>
      subst isInitial
      exact ⟨fun reached => absurd reached (by decide), fun _ _ => by decide, by decide,
        fun reached => absurd reached (by decide)⟩
  | online actions run reached flag noRetry place =>
      rcases mailbox_of_undisturbed run with ⟨alarm, mailbox⟩
      refine ⟨?_, ?_, by simp [noRetry], fun _ _ => mailbox.sendsEveryAlarm xres⟩
      · intro _ running
        rcases place with ⟨ended, -⟩ | ⟨-, atEntry | inLoop⟩
        · rw [running] at ended
          cases ended
        · exact .inl ⟨atEntry, flag⟩
        · exact .inr inLoop
      · intro _ running
        rcases place with ⟨ended, -⟩ | ⟨-, atEntry | inLoop⟩
        · rw [running] at ended
          cases ended
        · rw [atEntry]
          decide
        · rw [inLoop]
          decide
  | offline none flag noRetry notFirst notLoop notConnected =>
      refine ⟨?_, ?_, by simp [noRetry], ?_⟩
      · intro reached
        rw [none] at reached
        cases reached
      · intro up
        exact absurd (up.symm.trans flag) (by decide)
      · intro reached
        rw [none] at reached
        cases reached

end Phase

/-- Every call of `connect` in `retry` goes to another server. -/
theorem retry_calls_other_server {xres : Nat} {state after : LinkState} {succeeds : Bool}
    (again : state.point ≠ .connecting) (stepped : state.connect succeeds = some after) :
    ¬ DeliversOnceConnected xres after := by
  intro delivers
  have other : retryServerAddr ≠ mainServerAddr := by decide
  cases place : state.point with
  | connecting => exact again place
  | retrying =>
      rw [LinkState.connect, place] at stepped
      cases succeeds <;> cases stepped <;> exact other (delivers.sameServer _ (by simp))
  | entering | sending | testing | sleeping | connected | terminated =>
      rw [LinkState.connect, place] at stepped
      cases stepped

/-- As long as no connection is tried again and no alarm is disturbed, a connected
client delivers. -/
theorem delivers_once_connected {xres : Nat} {actions : List LinkAction} {state : LinkState}
    (run : (link xres).RunWhere KeepsLink actions state) : DeliversOnceConnected xres state := by
  have phase := run.invariant (fun _ state => LinkPhase xres state)
    (fun _ initial => .starting initial)
    (fun _ _ _ _ phase keeps stepped => phase.next keeps stepped)
  exact phase.deliversOnceConnected

def Action.onLink : Action → LinkAction
  | .radar readings => .radar readings
  | .sender time => .sender time
  | .fpga button => .fpga button

/-- A first connection and one alarm that is sent over it. -/
theorem connected_client_sends :
    ∃ state, (link 1024).RunWhere KeepsLink
        (.connect true :: (.sender fun _ => 0) ::
          (clearing ++ nearHalfSweep ++ transmission).map Action.onLink) state ∧
      state.client.sent.length = 1 ∧ DeliversOnceConnected 1024 state := by
  have executed : ((link 1024).executeWhere KeepsLink .initial
      (.connect true :: (.sender fun _ => 0) ::
        (clearing ++ nearHalfSweep ++ transmission).map Action.onLink)).any
        (fun state => state.client.sent.length == 1) = true := by
    decide +kernel
  rcases exists_runWhere _ rfl executed with ⟨state, run, one⟩
  exact ⟨state, run, by simpa using one, delivers_once_connected run⟩

/-- The second connection is to another server, and ends the sending process. -/
theorem retry_ends_sending_process :
    ¬ ∀ (xres : Nat) (actions : List LinkAction) (state : LinkState),
      (link xres).Run actions state → DeliversOnceConnected xres state := by
  intro always
  have executed : ((link 1024).execute .initial
      [.connect false, .sender fun _ => 0, .sender fun _ => 0, .sender fun _ => 0, .connect true,
        .sender fun _ => 0]).any
        (fun state => state.connectedFlag == 1 && !state.quit &&
          decide (state.point = .terminated)) = true := by
    decide +kernel
  rcases exists_run _ rfl executed with ⟨state, run, ended⟩
  simp only [Bool.and_eq_true, beq_iff_eq, Bool.not_eq_true', decide_eq_true_iff] at ended
  exact (always 1024 _ state run).alive ended.1.1 ended.1.2 ended.2

end GamZ.Client
