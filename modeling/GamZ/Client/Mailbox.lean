import GamZ.Client.Processes

/-! # The mailbox between sweep and sender

`data_buf`, `send_flag` and `warn_data` together hold one alarm for the sender.
Nothing tells `radar_process` whether it is still there, so the alarms arrive as
they were raised only if the sender is quick enough. -/

namespace GamZ.Client

open CString Transition TransitionSystem

/-! ## Raised and sent alarms -/

def Message.frame? : Message → Option Frame
  | .frame content => some content
  | .dataIn | .logout => none

namespace State

def sent (state : State) : List Alarm := (state.socket.filterMap Message.frame?).map alarmOf

def unsent (state : State) : List Alarm := state.raised.drop state.sent.length

/-- `memset` has not reached slot `i` yet. -/
def clears (state : State) (i : Fin 61) : Bool :=
  match state.senderPoint with
  | .clearing k => k.val ≤ i.val
  | .polling | .locking _ | .announcing _ | .filling _ _ | .writing | .lowering | .unlocking => false

/-- Byte 67 of the frame under way is stored already. -/
def warnStored (state : State) : Bool :=
  match state.senderPoint with
  | .filling _ k => 6 < k.val
  | .writing => true
  | .clearing _ | .polling | .locking _ | .announcing _ | .lowering | .unlocking => false

/-- The sender has seen `send_flag` and not cleared it. -/
def transmits (state : State) : Bool :=
  match state.senderPoint with
  | .locking _ | .announcing _ | .filling _ _ | .writing | .lowering => true
  | .clearing _ | .polling | .unlocking => false

/-- The frame is written, `send_flag` not yet cleared. -/
def frameWritten (state : State) : Bool :=
  match state.senderPoint with
  | .lowering => true
  | .clearing _ | .polling | .locking _ | .announcing _ | .filling _ _ | .writing | .unlocking =>
      false

/-- The half-sweep's slots below this one are deposited. -/
def deposited (state : State) : Nat :=
  match state.radarPoint with
  | .cycleStart | .storeWarn | .halfSweep _ => 0
  | .deposit _ i => i.val
  | .alarmOff _ | .raise _ => 61

/-- A half-sweep has been started with the current `warn_data`. -/
def sweeping (state : State) : Bool :=
  match state.radarPoint with
  | .cycleStart | .storeWarn => false
  | .halfSweep _ | .deposit _ _ | .alarmOff _ | .raise _ => true

end State

/-- The steps that do not disturb an alarm on its way: a deposit while an alarm is
unsent stores the bytes of that alarm, one in front of `memset` its ones; the warn
value changes only after it went into the frame; and `send_flag` is set only when
it is clear. -/
def Undisturbed (state : State) : Action → Prop
  | .radar _ =>
      match state.radarPoint with
      | .storeWarn =>
          ∀ alarm ∈ state.unsent, state.warnStored = false → state.warnVal = alarm.warnVal
      | .deposit _ i =>
          (∀ alarm ∈ state.unsent, depositByte state.radar.r i = alarm.slots i) ∧
            (state.clears i = true → depositByte state.radar.r i = 1)
      | .raise _ => state.sendFlag = 0
      | .cycleStart | .halfSweep _ | .alarmOff _ => True
  | .sender _ | .fpga _ => True

instance (state : State) (action : Action) : Decidable (Undisturbed state action) := by
  cases action with
  | radar readings =>
      unfold Undisturbed
      cases state.radarPoint <;> infer_instance
  | sender time => exact instDecidableTrue
  | fpga button => exact instDecidableTrue

/-! ## The alarm in the mailbox -/

namespace State

/-- What slot `i` will hold once `memset` is done. -/
def settledSlot (state : State) (i : Fin 61) : Byte :=
  if state.clears i then 1 else state.dataBuf (sweepSlot i)

/-- What byte 67 of the next frame will be. -/
def settledWarn (state : State) : Byte :=
  if state.warnStored then state.dataBuf 67 else state.warnData

end State

/-- The mailbox holds the one alarm not yet sent, if any. -/
structure Mailbox (state : State) (alarm : Option Alarm) : Prop where
  history : state.raised = state.sent ++ alarm.toList
  requested : alarm.isSome = true ↔ state.sendFlag ≠ 0 ∧ state.frameWritten = false
  busy : state.transmits = true → state.sendFlag ≠ 0
  slots : ∀ held ∈ alarm, ∀ i, held.slots i = state.settledSlot i
  warnVal : ∀ held ∈ alarm, held.warnVal = state.settledWarn
  deposits : ∀ i : Fin 61, i.val < state.deposited →
    state.settledSlot i = depositByte state.radar.r i
  judged : state.sweeping = true → state.warnData = state.warnVal

theorem Mailbox.unsent {state : State} {alarm : Option Alarm} (mailbox : Mailbox state alarm) :
    state.unsent = alarm.toList := by
  rw [State.unsent, mailbox.history, List.drop_left]

/-! ## Steps of the sender -/

section Sender

variable (state : State) (time : Fin 6 → Byte)

theorem senderStep_radar :
    (state.senderStep time).radarPoint = state.radarPoint ∧
      (state.senderStep time).radar = state.radar ∧
      (state.senderStep time).warnVal = state.warnVal ∧
      (state.senderStep time).warnData = state.warnData ∧
      (state.senderStep time).raised = state.raised := by
  unfold State.senderStep
  cases state.senderPoint <;> exact ⟨rfl, rfl, rfl, rfl, rfl⟩

/-- The bytes behind the slots, and those that `memset` still has to overwrite,
do not matter. -/
theorem senderStep_settledSlot (i : Fin 61) :
    (state.senderStep time).settledSlot i = state.settledSlot i := by
  cases point : state.senderPoint with
  | clearing k =>
      by_cases here : k.val = i.val
      · have slot : sweepSlot i = k := Fin.ext here.symm
        simp [State.senderStep, State.settledSlot, State.clears, State.store, point, slot, here]
      · have other : sweepSlot i ≠ k := fun equal => here (congrArg Fin.val equal).symm
        by_cases inside : k.val + 1 < 70
        · have later : k.val + 1 ≤ i.val ↔ k.val ≤ i.val := by omega
          simp [State.senderStep, State.settledSlot, State.clears, State.store, point, inside,
            other, later]
        · have behind : ¬ k.val ≤ i.val := by omega
          simp [State.senderStep, State.settledSlot, State.clears, State.store, point, inside,
            other, behind]
  | filling time k =>
      have other : sweepSlot i ≠ ⟨61 + k.val, by omega⟩ := by
        intro equal
        have := congrArg Fin.val equal
        simp only [Fin.val_castLE] at this
        omega
      by_cases inside : k.val + 1 < 8 <;>
        simp [State.senderStep, State.settledSlot, State.clears, State.store, point, inside, other]
  | polling =>
      by_cases idle : state.sendFlag = 0 <;>
        simp [State.senderStep, State.settledSlot, State.clears, point, idle]
  | locking | announcing | writing | lowering | unlocking =>
      simp [State.senderStep, State.settledSlot, State.clears, point]

variable {state} {alarm : Option Alarm}

private theorem Mailbox.afterSender (mailbox : Mailbox state alarm) {kept : Option Alarm}
    (within : ∀ held ∈ kept, held ∈ alarm)
    (history : state.raised = (state.senderStep time).sent ++ kept.toList)
    (requested : kept.isSome = true ↔
      (state.senderStep time).sendFlag ≠ 0 ∧ (state.senderStep time).frameWritten = false)
    (busy : (state.senderStep time).transmits = true → (state.senderStep time).sendFlag ≠ 0)
    (warnVal : kept.isSome = true → (state.senderStep time).settledWarn = state.settledWarn) :
    Mailbox (state.senderStep time) kept := by
  rcases senderStep_radar state time with ⟨point, radar, judgedWith, warnData, raised⟩
  constructor
  · rw [raised, history]
  · exact requested
  · exact busy
  · intro held member i
    rw [senderStep_settledSlot, mailbox.slots held (within held member) i]
  · intro held member
    rw [warnVal (Option.isSome_of_mem member), mailbox.warnVal held (within held member)]
  · intro i
    rw [senderStep_settledSlot, radar, State.deposited, point]
    exact mailbox.deposits i
  · rw [warnData, judgedWith, State.sweeping, point]
    exact mailbox.judged

variable (state)

theorem senderStep_sent (notWriting : state.senderPoint ≠ .writing) :
    (state.senderStep time).sent = state.sent := by
  cases point : state.senderPoint with
  | writing => exact absurd point notWriting
  | clearing | polling | locking | announcing | filling | lowering | unlocking =>
      simp [State.senderStep, State.sent, State.store, Message.frame?, point]

theorem senderStep_sendFlag (notLowering : state.senderPoint ≠ .lowering) :
    (state.senderStep time).sendFlag = state.sendFlag := by
  cases point : state.senderPoint with
  | lowering => exact absurd point notLowering
  | clearing | polling | locking | announcing | filling | writing | unlocking =>
      simp [State.senderStep, State.store, point]

theorem senderStep_frameWritten (notWriting : state.senderPoint ≠ .writing) :
    (state.senderStep time).frameWritten = false := by
  cases point : state.senderPoint with
  | writing => exact absurd point notWriting
  | clearing k =>
      by_cases inside : k.val + 1 < 70 <;>
        simp [State.senderStep, State.frameWritten, State.store, point, inside]
  | filling filled k =>
      by_cases inside : k.val + 1 < 8 <;>
        simp [State.senderStep, State.frameWritten, State.store, point, inside]
  | polling =>
      by_cases idle : state.sendFlag = 0 <;>
        simp [State.senderStep, State.frameWritten, point, idle]
  | locking | announcing | lowering | unlocking =>
      simp [State.senderStep, State.frameWritten, point]

theorem senderStep_transmits (busy : state.transmits = true → state.sendFlag ≠ 0) :
    (state.senderStep time).transmits = true → (state.senderStep time).sendFlag ≠ 0 := by
  cases point : state.senderPoint with
  | clearing k =>
      by_cases inside : k.val + 1 < 70 <;>
        simp [State.senderStep, State.transmits, State.store, point, inside]
  | polling =>
      by_cases idle : state.sendFlag = 0 <;>
        simp [State.senderStep, State.transmits, point, idle]
  | lowering | unlocking => simp [State.senderStep, State.transmits, point]
  | locking | announcing | filling | writing =>
      have set := busy (by simp [State.transmits, point])
      simp [State.senderStep, State.store, point, set]

/-- Byte 67 takes over the warn value that counted so far. -/
theorem senderStep_settledWarn (notWriting : state.senderPoint ≠ .writing) :
    (state.senderStep time).settledWarn = state.settledWarn := by
  cases point : state.senderPoint with
  | writing => exact absurd point notWriting
  | filling filled k =>
      rcases Nat.lt_trichotomy k.val 6 with early | atWarn | late
      · have inside : k.val + 1 < 8 := by omega
        have notStored : ¬ 6 < k.val := by omega
        have notYet : ¬ 6 < k.val + 1 := by omega
        simp [State.senderStep, State.settledWarn, State.warnStored, State.store, point, inside,
          notStored, notYet]
      · have isWarn : k = 6 := Fin.ext atWarn
        subst isWarn
        have slot : (67 : Fin 70) = ⟨61 + (6 : Fin 8).val, by decide⟩ := by decide
        simp [State.senderStep, State.settledWarn, State.warnStored, State.store,
          State.fillByte, point, slot]
      · have isLast : k = 7 := by
          apply Fin.ext
          show k.val = 7
          omega
        subst isLast
        simp [State.senderStep, State.settledWarn, State.warnStored, State.store, point]
  | clearing k =>
      by_cases inside : k.val + 1 < 70 <;>
        simp [State.senderStep, State.settledWarn, State.warnStored, State.store, point, inside]
  | polling =>
      by_cases idle : state.sendFlag = 0 <;>
        simp [State.senderStep, State.settledWarn, State.warnStored, point, idle]
  | locking | announcing | lowering | unlocking =>
      simp [State.senderStep, State.settledWarn, State.warnStored, point]

variable {state}

/-- The frame carries the alarm of the mailbox, and clearing `send_flag` finds the
mailbox empty. -/
theorem Mailbox.senderStep (mailbox : Mailbox state alarm) :
    ∃ kept, Mailbox (state.senderStep time) kept := by
  have busy := senderStep_transmits state time mailbox.busy
  by_cases writing : state.senderPoint = .writing
  · have set : state.sendFlag ≠ 0 := mailbox.busy (by simp [State.transmits, writing])
    have holds : alarm.isSome = true :=
      mailbox.requested.mpr ⟨set, by simp [State.frameWritten, writing]⟩
    rcases Option.isSome_iff_exists.mp holds with ⟨held, alarmIs⟩
    have member : held ∈ alarm := alarmIs
    have carried : alarmOf state.dataBuf = held := by
      have slots := mailbox.slots held member
      have warnVal := mailbox.warnVal held member
      simp only [State.settledSlot, State.clears, State.settledWarn, State.warnStored,
        writing] at slots warnVal
      cases held
      simp only [alarmOf, Alarm.mk.injEq]
      exact ⟨funext fun i => (slots i).symm, warnVal.symm⟩
    refine ⟨none, mailbox.afterSender time (fun _ member => by cases member) ?_ ?_ busy ?_⟩
    · rw [mailbox.history, alarmIs]
      simp [State.senderStep, State.sent, Message.frame?, writing, carried]
    · simp [State.senderStep, State.frameWritten, writing]
    · intro isSome
      cases isSome
  · have written := senderStep_frameWritten state time writing
    have sent := senderStep_sent state time writing
    by_cases lowering : state.senderPoint = .lowering
    · have empty : alarm = none := by
        cases alarm with
        | none => rfl
        | some held =>
            have unwritten := (mailbox.requested.mp rfl).2
            simp [State.frameWritten, lowering] at unwritten
      refine ⟨none, mailbox.afterSender time (fun _ member => by cases member) ?_ ?_ busy ?_⟩
      · rw [sent, mailbox.history, empty]
      · simp [State.senderStep, lowering]
      · intro isSome
        cases isSome
    · have unwritten : state.frameWritten = false := by
        cases point : state.senderPoint with
        | lowering => exact absurd point lowering
        | clearing | polling | locking | announcing | filling | writing | unlocking =>
            simp [State.frameWritten, point]
      refine ⟨alarm, mailbox.afterSender time (fun _ member => member) ?_ ?_ busy ?_⟩
      · rw [sent, mailbox.history]
      · rw [senderStep_sendFlag state time lowering, written, mailbox.requested, unwritten]
      · exact fun _ => senderStep_settledWarn state time writing

end Sender

/-! ## Steps of the radar -/

section Radar

variable {state : State} {alarm : Option Alarm}

/-- A store in front of `memset` counts only if `memset` will store the same. -/
theorem settledSlot_store {i j : Fin 61} {value : Byte} {point : RadarPoint}
    (undisturbed : state.clears i = true → value = 1) :
    { state.store (sweepSlot i) value with radarPoint := point }.settledSlot j =
      if j = i then value else state.settledSlot j := by
  by_cases here : j = i
  · subst here
    by_cases clears : state.clears j = true
    · have value := undisturbed clears
      simp only [State.clears] at clears
      simp [State.settledSlot, State.clears, State.store, clears, value]
    · simp only [State.clears, Bool.not_eq_true] at clears
      simp [State.settledSlot, State.clears, State.store, clears]
  · have other : sweepSlot j ≠ sweepSlot i := fun equal =>
      here (Fin.castLE_injective _ equal)
    simp only [State.settledSlot, State.clears, State.store, if_neg here,
      Function.update_of_ne other]
    rfl

theorem settledWarn_store {i : Fin 61} {value : Byte} {point : RadarPoint} :
    { state.store (sweepSlot i) value with radarPoint := point }.settledWarn =
      state.settledWarn := by
  have other : (67 : Fin 70) ≠ sweepSlot i := by
    intro equal
    have := congrArg Fin.val equal
    simp only [Fin.val_castLE] at this
    omega
  simp only [State.settledWarn, State.warnStored, State.store, Function.update_of_ne other]
  rfl

theorem Mailbox.deposit (mailbox : Mailbox state alarm) {direction : Direction} {i : Fin 61}
    (point : state.radarPoint = .deposit direction i)
    (same : ∀ held ∈ alarm, depositByte state.radar.r i = held.slots i)
    (cleared : state.clears i = true → depositByte state.radar.r i = 1) (xres : Nat)
    (readings : Fin 61 → Reading) : Mailbox (state.radarStep xres readings) alarm := by
  have sweeping : state.sweeping = true := by simp [State.sweeping, point]
  simp only [State.radarStep, point]
  refine ⟨mailbox.history, mailbox.requested, mailbox.busy, ?_, ?_, ?_, ?_⟩
  · intro held member j
    rw [settledSlot_store cleared]
    by_cases here : j = i
    · rw [if_pos here, here, same held member]
    · rw [if_neg here, mailbox.slots held member]
  · intro held member
    rw [settledWarn_store, mailbox.warnVal held member]
  · intro j early
    rw [settledSlot_store cleared]
    by_cases here : j = i
    · rw [if_pos here, here]
      rfl
    · rw [if_neg here]
      apply mailbox.deposits
      have different : j.val ≠ i.val := fun equal => here (Fin.ext equal)
      by_cases inside : i.val + 1 < 61 <;> simp [State.deposited, inside] at early <;>
        simp only [State.deposited, point] <;> omega
  · intro _
    exact mailbox.judged sweeping

/-- The new warn value counts for the alarm in the mailbox only if it is the old one. -/
theorem Mailbox.storeWarn (mailbox : Mailbox state alarm) (point : state.radarPoint = .storeWarn)
    (same : ∀ held ∈ alarm, state.warnStored = false → state.warnVal = held.warnVal) (xres : Nat)
    (readings : Fin 61 → Reading) : Mailbox (state.radarStep xres readings) alarm := by
  simp only [State.radarStep, point]
  refine ⟨mailbox.history, mailbox.requested, mailbox.busy, mailbox.slots, ?_, ?_, ?_⟩
  · intro held member
    cases stored : state.warnStored with
    | true =>
        rw [mailbox.warnVal held member]
        simp only [State.settledWarn, State.warnStored] at stored ⊢
        simp [stored]
    | false =>
        rw [← same held member stored]
        simp only [State.settledWarn, State.warnStored] at stored ⊢
        simp [stored]
  · intro i early
    cases early
  · exact fun _ => rfl

/-- An alarm raised while `send_flag` is 0 finds the mailbox empty. -/
theorem Mailbox.raise (mailbox : Mailbox state alarm) {direction : Direction}
    (point : state.radarPoint = .raise direction) (idle : state.sendFlag = 0) (xres : Nat)
    (readings : Fin 61 → Reading) :
    Mailbox (state.radarStep xres readings) (some state.alarm) := by
  have quiet : state.transmits = false := by
    by_contra transmits
    exact mailbox.busy (by simpa using transmits) idle
  have empty : alarm = none := by
    cases alarm with
    | none => rfl
    | some held => exact absurd idle (mailbox.requested.mp rfl).1
  have unwritten : state.frameWritten = false := by
    cases sender : state.senderPoint <;> simp_all [State.transmits, State.frameWritten]
  have notStored : state.warnStored = false := by
    cases sender : state.senderPoint <;> simp_all [State.transmits, State.warnStored]
  have judged := mailbox.judged (by simp [State.sweeping, point])
  simp only [State.radarStep, point]
  refine ⟨?_, ?_, ?_, ?_, ?_, ?_, ?_⟩
  · have history := mailbox.history
    rw [empty] at history
    simp only [history, State.sent]
    simp
  · simp only [State.frameWritten] at unwritten
    simp [State.frameWritten, unwritten]
  · exact fun _ => one_ne_zero
  · intro held member i
    rw [← Option.some.inj member]
    have deposited := mailbox.deposits i (by simp [State.deposited, point])
    exact deposited.symm
  · intro held member
    rw [← Option.some.inj member]
    simp only [State.warnStored] at notStored
    simp [State.settledWarn, State.warnStored, notStored, State.alarm, judged]
  · intro i early
    exfalso
    cases direction <;> cases early
  · exact fun _ => judged

/-- What remains to be shown when the radar touches nothing that the sender reads. -/
private theorem Mailbox.afterRadar (mailbox : Mailbox state alarm) {radar : RadarState}
    {warnVal : Byte} {later : RadarPoint}
    (deposits : ∀ i : Fin 61, i.val < { state with
        radarPoint := later, radar := radar, warnVal := warnVal }.deposited →
      state.settledSlot i = depositByte radar.r i)
    (judged : { state with
        radarPoint := later, radar := radar, warnVal := warnVal }.sweeping = true →
      state.warnData = warnVal) :
    Mailbox { state with radarPoint := later, radar := radar, warnVal := warnVal } alarm :=
  ⟨mailbox.history, mailbox.requested, mailbox.busy, mailbox.slots, mailbox.warnVal, deposits,
    judged⟩

theorem Mailbox.radarStep (mailbox : Mailbox state alarm) (xres : Nat)
    (readings : Fin 61 → Reading) (undisturbed : Undisturbed state (.radar readings)) :
    ∃ kept, Mailbox (state.radarStep xres readings) kept := by
  cases point : state.radarPoint with
  | cycleStart =>
      refine ⟨alarm, ?_⟩
      simp only [State.radarStep, point]
      apply mailbox.afterRadar
      · intro i early
        cases early
      · intro sweeping
        cases sweeping
  | storeWarn =>
      simp only [Undisturbed, point, mailbox.unsent] at undisturbed
      refine ⟨alarm, mailbox.storeWarn point ?_ xres readings⟩
      intro held member notStored
      exact undisturbed held (Option.mem_toList.mpr member) notStored
  | halfSweep direction =>
      refine ⟨alarm, ?_⟩
      simp only [State.radarStep, point]
      apply mailbox.afterRadar
      · intro i early
        exfalso
        split_ifs at early <;> cases direction <;> cases early
      · exact fun _ => mailbox.judged (by simp [State.sweeping, point])
  | deposit direction i =>
      simp only [Undisturbed, point, mailbox.unsent] at undisturbed
      refine ⟨alarm, mailbox.deposit point ?_ undisturbed.2 xres readings⟩
      intro held member
      exact undisturbed.1 held (Option.mem_toList.mpr member)
  | alarmOff direction =>
      refine ⟨alarm, ?_⟩
      simp only [State.radarStep, point]
      apply mailbox.afterRadar
      · intro i _
        apply mailbox.deposits
        simp [State.deposited, point]
      · exact fun _ => mailbox.judged (by simp [State.sweeping, point])
  | raise direction =>
      simp only [Undisturbed, point] at undisturbed
      exact ⟨some state.alarm, mailbox.raise point undisturbed xres readings⟩

end Radar

/-! ## Whole runs -/

theorem Mailbox.fpgaStep {state : State} {alarm : Option Alarm} (mailbox : Mailbox state alarm)
    (button : Button) : Mailbox (state.fpgaStep button) alarm := by
  cases point : state.fpgaPoint with
  | serving =>
      cases button <;> simp only [State.fpgaStep, point] <;>
        exact ⟨mailbox.history, mailbox.requested, mailbox.busy, mailbox.slots, mailbox.warnVal,
          mailbox.deposits, mailbox.judged⟩
  | writing =>
      simp only [State.fpgaStep, point]
      refine ⟨?_, mailbox.requested, mailbox.busy, mailbox.slots, mailbox.warnVal,
        mailbox.deposits, mailbox.judged⟩
      have history := mailbox.history
      simp only [State.sent] at history ⊢
      rw [history, List.filterMap_append]
      simp [Message.frame?]
  | locking | unlocking | closed =>
      simp only [State.fpgaStep, point]
      exact ⟨mailbox.history, mailbox.requested, mailbox.busy, mailbox.slots, mailbox.warnVal,
        mailbox.deposits, mailbox.judged⟩

theorem mailbox_initial : Mailbox .initial none := by
  refine ⟨rfl, ?_, ?_, ?_, ?_, ?_, ?_⟩
  · simp [State.initial]
  · intro transmits
    cases transmits
  · intro held member
    cases member
  · intro held member
    cases member
  · intro i early
    cases early
  · intro sweeping
    cases sweeping

theorem mailbox_of_undisturbed {xres : Nat} {actions : List Action} {state : State}
    (run : (processes xres).RunWhere Undisturbed actions state) :
    ∃ alarm, Mailbox state alarm := by
  apply run.invariant fun _ state => ∃ alarm, Mailbox state alarm
  · intro state initial
    cases initial
    exact ⟨none, mailbox_initial⟩
  · intro actions state action after mailbox undisturbed stepped
    rcases mailbox with ⟨alarm, mailbox⟩
    cases action with
    | radar readings =>
        cases stepped
        exact mailbox.radarStep xres readings undisturbed
    | sender time =>
        cases stepped
        exact mailbox.senderStep time
    | fpga button =>
        cases stepped
        exact ⟨alarm, mailbox.fpgaStep button⟩

/-! ## The sender delivers -/

/-- The sender's steps up to its next frame, with `send_flag` set. -/
def State.stepsLeft (state : State) : Nat :=
  match state.senderPoint with
  | .clearing k => 83 - k.val
  | .unlocking => 14
  | .polling => 13
  | .locking _ => 12
  | .announcing _ => 11
  | .filling _ k => 10 - k.val
  | .writing => 2
  | .lowering => 1

theorem senderStep_stepsLeft {state : State} (time : Fin 6 → Byte) (set : state.sendFlag ≠ 0)
    (unwritten : state.frameWritten = false) :
    (state.senderStep time).stepsLeft + 1 = state.stepsLeft := by
  cases point : state.senderPoint with
  | clearing k =>
      by_cases inside : k.val + 1 < 70 <;>
        simp [State.senderStep, State.stepsLeft, State.store, point, inside] <;> omega
  | filling filled k =>
      by_cases inside : k.val + 1 < 8 <;>
        simp [State.senderStep, State.stepsLeft, State.store, point, inside] <;> omega
  | polling => simp [State.senderStep, State.stepsLeft, point, set]
  | lowering => simp [State.frameWritten, point] at unwritten
  | locking | announcing | writing | unlocking => simp [State.senderStep, State.stepsLeft, point]

/-- Left to itself the sender delivers the alarm in the mailbox. -/
theorem Mailbox.delivered (xres : Nat) (time : Fin 6 → Byte) :
    ∀ (steps : Nat) {state : State} {alarm : Option Alarm}, Mailbox state alarm →
      state.stepsLeft = steps →
      ∃ sends after,
        (processes xres).execute state (List.replicate sends (.sender time)) = some after ∧
          after.raised = state.raised ∧ after.sent = state.raised := by
  intro steps
  induction steps with
  | zero =>
      intro state alarm mailbox left
      exfalso
      cases point : state.senderPoint <;> simp [State.stepsLeft, point] at left <;> omega
  | succ steps induction =>
      intro state alarm mailbox left
      cases alarm with
      | none => exact ⟨0, state, rfl, rfl, by rw [mailbox.history]; simp⟩
      | some held =>
          rcases mailbox.requested.mp rfl with ⟨set, unwritten⟩
          rcases mailbox.senderStep time with ⟨kept, next⟩
          have fewer := senderStep_stepsLeft time set unwritten
          rcases induction next (by omega) with ⟨sends, after, executed, raised, sent⟩
          have same := (senderStep_radar state time).2.2.2.2
          refine ⟨sends + 1, after, ?_, by rw [raised, same], by rw [sent, same]⟩
          rw [List.replicate_succ]
          exact executed

/-- The frames carry the raised alarms, each once and in order, at most the last is
still waiting, with `send_flag` set, and the sender alone delivers what waits. -/
structure SendsEveryAlarm (xres : Nat) (state : State) : Prop where
  inOrder : state.sent = state.raised ∨
    ∃ waiting, state.raised = state.sent ++ [waiting] ∧ state.sendFlag ≠ 0
  delivers : ∀ time, ∃ sends after,
    (processes xres).execute state (List.replicate sends (.sender time)) = some after ∧
      after.raised = state.raised ∧ after.sent = state.raised

theorem Mailbox.sendsEveryAlarm {state : State} {alarm : Option Alarm}
    (mailbox : Mailbox state alarm) (xres : Nat) : SendsEveryAlarm xres state := by
  constructor
  · cases alarm with
    | none =>
        left
        rw [mailbox.history]
        simp
    | some held =>
        right
        exact ⟨held, mailbox.history, (mailbox.requested.mp rfl).1⟩
  · intro time
    exact mailbox.delivered xres time _ rfl

/-- In every run without disturbance every raised alarm is sent once. -/
theorem every_alarm_sent_once {xres : Nat} {actions : List Action} {state : State}
    (run : (processes xres).RunWhere Undisturbed actions state) : SendsEveryAlarm xres state := by
  rcases mailbox_of_undisturbed run with ⟨alarm, mailbox⟩
  exact mailbox.sendsEveryAlarm xres

/-- The half-sweep back, as near. -/
def nearWayBack : List Action := List.replicate 64 (.radar fun _ => 0)

def twoAlarms : List Action :=
  clearing ++ nearHalfSweep ++ transmission ++ nearWayBack ++ transmission

/-- Two alarms on their way to the server. -/
theorem two_near_half_sweeps_sent :
    ∃ state, (processes 1024).RunWhere Undisturbed twoAlarms state ∧ state.raised.length = 2 ∧
      state.sent.length = 2 ∧ SendsEveryAlarm 1024 state := by
  have executed : ((processes 1024).executeWhere Undisturbed .initial twoAlarms).any
      (fun state => state.raised.length == 2 && state.sent.length == 2) = true := by
    decide +kernel
  rcases exists_runWhere _ rfl executed with ⟨state, run, counts⟩
  rw [Bool.and_eq_true, beq_iff_eq, beq_iff_eq] at counts
  exact ⟨state, run, counts.1, counts.2, every_alarm_sent_once run⟩

/-- The half-sweep back raises its alarm before the sender has looked for the first. -/
theorem second_half_sweep_overtakes :
    ¬ ∀ (xres : Nat) (actions : List Action) (state : State),
      (processes xres).Run actions state → SendsEveryAlarm xres state := by
  intro alwaysSent
  have executed : ((processes 1024).execute .initial
      (clearing ++ nearHalfSweep ++ nearWayBack)).any
        (fun state => state.raised.length == 2 && state.sent.length == 0) = true := by
    decide +kernel
  rcases exists_run _ rfl executed with ⟨state, run, counts⟩
  simp only [Bool.and_eq_true, beq_iff_eq] at counts
  rcases (alwaysSent 1024 _ state run).inOrder with same | ⟨waiting, raised, -⟩
  · rw [same] at counts
    omega
  · rw [raised, List.length_append, List.length_singleton] at counts
    omega

end GamZ.Client
