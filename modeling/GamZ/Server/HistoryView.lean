import GamZ.Server.StoreSteps

/-! # Two processes at one file

Both processes enclose their work on `input.txt` in `*semaphore = 1` and
`*semaphore = 0`, and neither looks at it first. The sections exclude each other,
and the history view is complete, exactly as long as the semaphore is always found
free. -/

namespace GamZ.Server

open CString Stdio BoundedFifo Transition TransitionSystem

/-- Between `*semaphore = 1` and `*semaphore = 0` of the receiver. -/
def receiverInside (state : ServerState) : Bool :=
  match state.receiverPoint with
  | .reading | .locking => false
  | .opening | .loading _ _ | .closing _ | .reopening _ | .rewriting _ _ | .storing _
  | .printing _ | .endLine | .announcing | .closingStore | .unlocking => true

/-- Between `*semaphore = 1` and `*semaphore = 0` of the history view. -/
def updaterInside (state : ServerState) : Bool :=
  match state.updaterPoint with
  | .opening | .loading _ _ | .unlocking _ => true
  | .top | .testing | .waiting | .drawing _ | .lowering | .button | .locking | .closing _
  | .splitting | .viewing => false

/-- The rows of a view are the lines of the records. -/
structure IsComplete (queue : List Frame) (view : Loaded) : Prop where
  count : view.n = queue.length
  rows : RowTexts view.strBuff (lines queue) view.n

/-- The sections exclude each other, and every view loaded so far shows the file as
it was after some number of the received frames. -/
structure FileGuarded (history : List Frame) (state : ServerState) : Prop where
  exclusive : ¬ (receiverInside state = true ∧ updaterInside state = true)
  complete : ∀ view ∈ state.views, ∃ count ≤ state.received.length,
    IsComplete (queueAfter history (state.received.take count)) view

/-- `*semaphore = 1` finds the semaphore at 0. -/
def FindsFree (state : ServerState) : ServerAction → Prop
  | .receiver _ => state.receiverPoint = .locking → state.memory.semaphore = 0
  | .updater _ => state.updaterPoint = .locking → state.memory.semaphore = 0

instance (state : ServerState) (action : ServerAction) : Decidable (FindsFree state action) :=
  match action with
  | .receiver _ =>
      inferInstanceAs (Decidable (state.receiverPoint = .locking → state.memory.semaphore = 0))
  | .updater _ =>
      inferInstanceAs (Decidable (state.updaterPoint = .locking → state.memory.semaphore = 0))

/-! ## One section at a time -/

/-- What the history view has loaded, over the queue in the file. -/
def ViewStage (queue : List Frame) (state : ServerState) : Prop :=
  match state.updaterPoint with
  | .loading i file => LoadedUpTo queue i file state.viewBuff
  | .unlocking n => IsComplete queue ⟨state.viewBuff, n⟩
  | .top | .testing | .waiting | .drawing _ | .lowering | .button | .locking | .opening
  | .closing _ | .splitting | .viewing => True

/-- The view is loaded and about to be shown. -/
def ViewLoaded (history : List Frame) (state : ServerState) : Prop :=
  ∀ n, state.updaterPoint = .closing n → ∃ count ≤ state.received.length,
    IsComplete (queueAfter history (state.received.take count)) ⟨state.viewBuff, n⟩

structure Guarded (history stored : List Frame) (state : ServerState) : Prop where
  stores : Stores history stored state
  semaphore : state.memory.semaphore = 0 ↔
    receiverInside state = false ∧ updaterInside state = false
  exclusive : ¬ (receiverInside state = true ∧ updaterInside state = true)
  stage : ViewStage (queueAfter history stored) state
  loaded : ViewLoaded history state
  complete : ∀ view ∈ state.views, ∃ count ≤ state.received.length,
    IsComplete (queueAfter history (state.received.take count)) view

theorem guarded_initial (history : List Frame) (data : Fin 10 → Fin 70 → Int) :
    Guarded history [] (.initial history data) where
  stores := stores_initial history data
  semaphore := ⟨fun _ => ⟨rfl, rfl⟩, fun _ => rfl⟩
  exclusive inside := by cases inside.1
  stage := trivial
  loaded n atClosing := by cases atClosing
  complete view member := by cases member

theorem complete_append {history frames arrived : List Frame} {view : Loaded}
    (complete : ∃ count ≤ frames.length,
      IsComplete (queueAfter history (frames.take count)) view) :
    ∃ count ≤ (frames ++ arrived).length,
      IsComplete (queueAfter history ((frames ++ arrived).take count)) view := by
  rcases complete with ⟨count, within, complete⟩
  refine ⟨count, by rw [List.length_append]; omega, ?_⟩
  rw [List.take_append_of_le_length within]
  exact complete

/-! ### Steps of the receiver -/

section Receiver

variable {history stored : List Frame} {state after : ServerState} {frame : Frame}

theorem receiverStep_frame (stepped : state.receiverStep frame = .ok after) :
    after.updaterPoint = state.updaterPoint ∧ after.viewBuff = state.viewBuff ∧
      after.views = state.views ∧ after.seen = state.seen ∧ after.images = state.images ∧
      after.drawn = state.drawn := by
  cases receiverMove_of_step stepped <;> exact ⟨rfl, rfl, rfl, rfl, rfl, rfl⟩

/-- The receiver's section begins and ends with its accesses to the semaphore. -/
theorem receiverStep_semaphore (stepped : state.receiverStep frame = .ok after) :
    state.receiverPoint = .locking ∧ after.memory.semaphore = 1 ∧ receiverInside after = true ∨
      state.receiverPoint = .unlocking ∧ after.memory.semaphore = 0 ∧
        receiverInside after = false ∨
      state.receiverPoint ≠ .locking ∧ state.receiverPoint ≠ .unlocking ∧
        after.memory.semaphore = state.memory.semaphore ∧
        receiverInside after = receiverInside state := by
  cases receiverMove_of_step stepped with
  | work strBuff inputTxt started work => cases work <;> simp [receiverInside, started]
  | arrive point | lock point | store _ point | announce point | unlock point =>
      simp [receiverInside, point]

/-- Outside its section the history view has loaded nothing yet. -/
theorem viewStage_of_outside (queue : List Frame) (outside : updaterInside state = false) :
    ViewStage queue state := by
  cases point : state.updaterPoint with
  | loading | unlocking => simp [updaterInside, point] at outside
  | top | testing | waiting | drawing | lowering | button | locking | opening | closing
  | splitting | viewing => simp [ViewStage, point]

theorem Guarded.receiverStep (guarded : Guarded history stored state)
    (free : FindsFree state (.receiver frame)) (stepped : state.receiverStep frame = .ok after) :
    ∃ later, Guarded history later after := by
  rcases receiverStep_frame stepped with ⟨point, viewBuff, views, -, -⟩
  rcases receiverStep_received stepped with ⟨received, -, -⟩
  have sameUpdater : updaterInside after = updaterInside state := by
    rw [updaterInside, updaterInside, point]
  have semaphore : (after.memory.semaphore = 0 ↔
        receiverInside after = false ∧ updaterInside state = false) ∧
      ¬ (receiverInside after = true ∧ updaterInside state = true) := by
    have exclusive := guarded.exclusive
    rcases receiverStep_semaphore stepped with ⟨locking, value, inside⟩ |
      ⟨unlocking, value, outside⟩ | ⟨-, -, value, inside⟩
    · have outside := (guarded.semaphore.mp (free locking)).2
      simp [value, inside, outside]
    · have wasInside : receiverInside state = true := by simp [receiverInside, unlocking]
      have apart : updaterInside state = false := by
        simpa [wasInside] using exclusive
      simp [value, outside, apart]
    · rw [value, inside]
      exact ⟨guarded.semaphore, exclusive⟩
  refine ⟨_, guarded.stores.receiverStep stepped, ?_, ?_, ?_, ?_, ?_⟩
  · rw [sameUpdater]
    exact semaphore.1
  · rw [sameUpdater]
    exact semaphore.2
  · cases inside : updaterInside state with
    | false => exact viewStage_of_outside _ (sameUpdater.trans inside)
    | true =>
        have notLast : state.receiverPoint ≠ .unlocking := by
          intro last
          exact guarded.exclusive ⟨by simp [receiverInside, last], inside⟩
        rw [if_neg notLast]
        simp only [ViewStage, point, viewBuff]
        exact guarded.stage
  · intro n atClosing
    rw [point] at atClosing
    rw [received, viewBuff]
    exact complete_append (guarded.loaded n atClosing)
  · intro view member
    rw [views] at member
    rw [received]
    exact complete_append (guarded.complete view member)

end Receiver

/-! ### Steps of the history view -/

section Updater

variable {history stored : List Frame} {state after : ServerState} {input : UpdaterInput}

theorem updaterStep_semaphore (stepped : state.updaterStep input = .ok after) :
    state.updaterPoint = .locking ∧ after.memory.semaphore = 1 ∧ updaterInside after = true ∨
      (∃ n, state.updaterPoint = .unlocking n) ∧ after.memory.semaphore = 0 ∧
        updaterInside after = false ∨
      after.memory.semaphore = state.memory.semaphore ∧
        updaterInside after = updaterInside state := by
  cases updaterMove_of_step stepped with
  | pass pressed viewBuff started passage => cases passage <;> simp [updaterInside, started]
  | begin point | draw _ _ point | finish _ _ point | lower point | lock point | unlock _ point
  | view _ point | enter _ _ _ point | browse _ _ point => simp [updaterInside, point]

/-- The rows are shown outside of the section. -/
theorem updaterStep_showing (stepped : state.updaterStep input = .ok after)
    (showing : state.updaterPoint = .splitting ∨ state.updaterPoint = .viewing) :
    updaterInside after = false := by
  cases updaterMove_of_step stepped with
  | pass pressed viewBuff started passage =>
      cases passage <;> simp [updaterInside, started] at showing ⊢
  | begin point | draw _ _ point | finish _ _ point | lower point | lock point | unlock _ point
  | view _ point | enter _ _ _ point | browse _ _ point => simp [updaterInside, point] at showing ⊢

/-- Inside its section the history view finds the file of the whole queue. -/
theorem Guarded.inputTxt (guarded : Guarded history stored state)
    (inside : updaterInside state = true) :
    state.memory.inputTxt = some (storeText (queueAfter history stored)) := by
  have outside : receiverInside state ≠ true := fun receiver =>
    guarded.exclusive ⟨receiver, inside⟩
  have stage := guarded.stores.stage
  cases point : state.receiverPoint with
  | reading | locking => simpa [AtStage, point] using stage
  | opening | loading | closing | reopening | rewriting | storing | printing | endLine
  | announcing | closingStore | unlocking => simp [receiverInside, point] at outside

theorem Guarded.viewStage (guarded : Guarded history stored state)
    (stepped : state.updaterStep input = .ok after) :
    ViewStage (queueAfter history stored) after := by
  have stage := guarded.stage
  cases point : state.updaterPoint with
  | opening =>
      simp only [ServerState.updaterStep, point, pure, Except.pure] at stepped
      split at stepped <;> cases stepped
      exact loadedUpTo_zero _ _
  | loading i file =>
      have text := guarded.inputTxt (by simp [updaterInside, point])
      have short := length_queueAfter_le history stored
      simp only [ViewStage, point] at stage
      simp only [ServerState.updaterStep, point, text, Option.getD_some] at stepped
      rcases Nat.lt_or_ge i (queueAfter history stored).length with occurs | atEnd
      · rcases stage.next occurs (by omega) with ⟨rows, next, read, noEof, loadedNext⟩
        simp only [read, bind, Except.bind, pure, Except.pure, noEof] at stepped
        cases stepped
        exact loadedNext
      · have last : i = (queueAfter history stored).length :=
          Nat.le_antisymm stage.inQueue atEnd
        subst last
        rcases stage.stop with ⟨next, read, eof⟩
        simp only [read, bind, Except.bind, pure, Except.pure, eof] at stepped
        cases stepped
        exact ⟨rfl, stage.rows⟩
  | waiting | drawing =>
      simp only [ServerState.updaterStep, point, pure, Except.pure] at stepped
      split_ifs at stepped <;> cases stepped <;> simp [ViewStage, point]
  | testing =>
      simp only [ServerState.updaterStep, point, pure, Except.pure] at stepped
      cases stepped
      by_cases idle : state.memory.updateFlag = 0 <;> simp [ViewStage, idle]
  | button =>
      simp only [ServerState.updaterStep, point, pure, Except.pure] at stepped
      cases stepped
      cases state.pressed <;> simp [ViewStage]
  | top | lowering | locking | unlocking | closing =>
      simp only [ServerState.updaterStep, point, pure, Except.pure] at stepped
      cases stepped
      trivial
  | splitting | viewing => exact viewStage_of_outside _ (updaterStep_showing stepped (by simp [point]))

/-- A view is shown after it is loaded, and shown as it was loaded. -/
theorem updaterStep_views (stepped : state.updaterStep input = .ok after) :
    (∀ n, after.updaterPoint = .closing n →
        state.updaterPoint = .unlocking n ∧ after.viewBuff = state.viewBuff) ∧
      (after.views = state.views ∨
        ∃ n, state.updaterPoint = .closing n ∧
          after.views = state.views ++ [⟨state.viewBuff, n⟩]) := by
  cases updaterMove_of_step stepped with
  | pass pressed viewBuff started passage => cases passage <;> simp [started]
  | begin point | draw _ _ point | finish _ _ point | lower point | lock point | unlock _ point
  | view _ point | enter _ _ _ point | browse _ _ point => simp [point]

/-- The history view ends with its switch. -/
theorem updaterStep_leaves (stepped : state.updaterStep input = .ok after)
    (viewing : state.updaterPoint = .viewing) (left : after.updaterPoint ≠ .viewing) :
    thirdSwitch input.pushSwBuff = 1 := by
  by_contra stays
  apply left
  simp only [ServerState.updaterStep, viewing, if_neg stays, pure, Except.pure] at stepped
  split at stepped <;> cases stepped <;> exact viewing

/-- The whole queue in the file is the one after the frames stored so far. -/
theorem Stores.take_received (stores : Stores history stored state) :
    stored.length ≤ state.received.length ∧ state.received.take stored.length = stored := by
  rw [stores.received]
  simp

theorem Guarded.updaterStep (guarded : Guarded history stored state)
    (free : FindsFree state (.updater input)) (stepped : state.updaterStep input = .ok after) :
    Guarded history stored after := by
  rcases updaterStep_frame stepped with ⟨point, -, -, received, -, -⟩
  rcases updaterStep_views stepped with ⟨closing, views⟩
  have sameReceiver : receiverInside after = receiverInside state := by
    rw [receiverInside, receiverInside, point]
  have semaphore : (after.memory.semaphore = 0 ↔
        receiverInside state = false ∧ updaterInside after = false) ∧
      ¬ (receiverInside state = true ∧ updaterInside after = true) := by
    have exclusive := guarded.exclusive
    rcases updaterStep_semaphore stepped with ⟨locking, value, inside⟩ |
      ⟨⟨n, unlocking⟩, value, outside⟩ | ⟨value, inside⟩
    · have outside := (guarded.semaphore.mp (free locking)).1
      simp [value, inside, outside]
    · have wasInside : updaterInside state = true := by simp [updaterInside, unlocking]
      have apart : receiverInside state = false := by
        simpa [wasInside] using exclusive
      simp [value, outside, apart]
    · rw [value, inside]
      exact ⟨guarded.semaphore, exclusive⟩
  refine ⟨guarded.stores.updaterStep stepped, ?_, ?_, guarded.viewStage stepped, ?_, ?_⟩
  · rw [sameReceiver]
    exact semaphore.1
  · rw [sameReceiver]
    exact semaphore.2
  · intro n atClosing
    rcases closing n atClosing with ⟨unlocking, viewBuff⟩
    rcases guarded.stores.take_received with ⟨within, taken⟩
    have stage := guarded.stage
    simp only [ViewStage, unlocking] at stage
    refine ⟨stored.length, by rw [received]; exact within, ?_⟩
    rw [received, taken, viewBuff]
    exact stage
  · intro view member
    rw [received]
    rcases views with same | ⟨n, atClosing, appended⟩
    · rw [same] at member
      exact guarded.complete view member
    · rw [appended, List.mem_append, List.mem_singleton] at member
      rcases member with earlier | shown
      · exact guarded.complete view earlier
      · subst shown
        exact guarded.loaded n atClosing

end Updater

/-! ## Whole runs -/

theorem guarded_of_findsFree {history : List Frame} {actions : List ServerAction}
    {state : ServerState} (run : (serverProcesses history).RunWhere FindsFree actions state) :
    ∃ stored, Guarded history stored state := by
  apply run.invariant fun _ state => ∃ stored, Guarded history stored state
  · intro state initial
    rcases initial with ⟨data, initial⟩
    subst initial
    exact ⟨[], guarded_initial history data⟩
  · intro actions state action after guarded free stepped
    rcases guarded with ⟨stored, guarded⟩
    cases action with
    | receiver frame => exact guarded.receiverStep free (receiverStep_of_step stepped)
    | updater input => exact ⟨stored, guarded.updaterStep free (updaterStep_of_step stepped)⟩

/-- With the semaphore taken, the process that takes it again joins the other one. -/
theorem findsFree_of_exclusive {history stored : List Frame} {state after : ServerState}
    {action : ServerAction} (guarded : Guarded history stored state)
    (stepped : (serverProcesses history).step state action = some after)
    (exclusive : ¬ (receiverInside after = true ∧ updaterInside after = true)) :
    FindsFree state action := by
  have semaphore := guarded.semaphore
  cases action with
  | receiver frame =>
      intro locking
      have receiver := receiverStep_of_step stepped
      have sameUpdater : updaterInside after = updaterInside state := by
        rw [updaterInside, updaterInside, (receiverStep_frame receiver).1]
      have outside : receiverInside state = false := by simp [receiverInside, locking]
      rcases receiverStep_semaphore receiver with ⟨-, -, inside⟩ | ⟨unlocking, -, -⟩ |
        ⟨notLocking, -⟩
      · rw [semaphore, ← sameUpdater]
        exact ⟨outside, by simpa [inside] using exclusive⟩
      · rw [locking] at unlocking
        cases unlocking
      · exact absurd locking notLocking
  | updater input =>
      intro locking
      have updater := updaterStep_of_step stepped
      have sameReceiver : receiverInside after = receiverInside state := by
        rw [receiverInside, receiverInside, (updaterStep_frame updater).1]
      have outside : updaterInside state = false := by simp [updaterInside, locking]
      have inside : updaterInside after = true := by
        simp only [ServerState.updaterStep, locking, pure, Except.pure] at updater
        cases updater
        rfl
      rw [semaphore, ← sameReceiver]
      exact ⟨by simpa [inside] using exclusive, outside⟩

/-- Sections and views are in order in all states of exactly those runs in which
every `*semaphore = 1` finds the semaphore free. -/
theorem file_guarded_iff (history : List Frame) (actions : List ServerAction)
    (state : ServerState) :
    (serverProcesses history).RunThrough (FileGuarded history) actions state ↔
      (serverProcesses history).RunWhere FindsFree actions state := by
  constructor
  · intro through
    apply through.runWhere
    intro actions state action after run stepped guardedAfter
    rcases guarded_of_findsFree run with ⟨stored, guarded⟩
    exact findsFree_of_exclusive guarded stepped guardedAfter.exclusive
  · intro run
    apply run.through
    intro actions state run
    rcases guarded_of_findsFree run with ⟨stored, guarded⟩
    exact ⟨guarded.exclusive, guarded.complete⟩

/-- Eight records in the file, the ninth arrives, and the history button is pressed
when `fopen` has just truncated the file. -/
def loadWhileTruncated : List ServerAction :=
  List.replicate 14 (.receiver (constantFrame 1)) ++ List.replicate 8 (.updater (.of firstPressed))

theorem empty_view_of_full_store :
    ¬ ∀ (history : List Frame) (actions : List ServerAction) (state : ServerState),
      (serverProcesses history).Run actions state → FileGuarded history state := by
  intro alwaysGuarded
  have executed : ((serverProcesses (List.replicate 8 (constantFrame 0))).execute
      (.initial (List.replicate 8 (constantFrame 0)) fun _ _ => 0) loadWhileTruncated).any
        (fun state => state.views.any fun view => view.n == 0) = true := by
    decide +kernel
  rcases exists_run _ (serverProcesses_initial _ _) executed with ⟨state, run, shown⟩
  rcases List.any_eq_true.mp shown with ⟨view, member, empty⟩
  rcases (alwaysGuarded _ _ state run).complete view member with ⟨count, -, complete⟩
  have full := complete.count
  rw [beq_iff_eq.mp empty, queueAfter, length_rtake, List.length_append,
    List.length_replicate] at full
  omega

end GamZ.Server
