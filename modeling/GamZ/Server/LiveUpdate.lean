import GamZ.Server.HistoryView
import GamZ.Server.MakeRadar

/-! # Live pictures

`update_process` draws `up_data` when it finds `update_flag` set and clears the
flag afterwards. A frame that arrives in between may show up in half a picture or
in none. The history view draws older records over the picture, and nothing is drawn
when it is left. -/

namespace GamZ.Server

open CString Transition TransitionSystem

/-! ## Pictures and what they show -/

/-- A picture is made of the values that the draw reads. -/
theorem makeRadar_of_image {upData other : Fin 70 → Int} (same : imageOf upData = imageOf other)
    (xres : Nat) (pfbdata : Raster.FrameBuffer Color) :
    (makeRadar xres upData pfbdata).pfbdata = (makeRadar xres other pfbdata).pfbdata := by
  have reads : ∀ slot ∈ drawReads, upData slot = other slot := List.map_inj_left.mp same
  have warnVal : warnValOf upData = warnValOf other := reads 67 (by decide)
  have slots : copySlots upData = copySlots other := by
    funext slot
    rw [copySlots, copySlots]
    split_ifs with inside
    · apply reads
      rw [drawReads, List.mem_append]
      exact .inl (List.mem_map.mpr ⟨⟨slot, inside⟩, List.mem_finRange _, rfl⟩)
    · rfl
  rw [(makeRadar_eq xres upData pfbdata).2, (makeRadar_eq xres other pfbdata).2, radarPasses,
    radarPasses, warnVal, slots]

/-! ## Frames between store and picture -/

/-- The frames whose `update_flag` has been set. -/
def announced (state : ServerState) : List Frame :=
  match state.receiverPoint with
  | .reading | .closingStore | .unlocking => state.received
  | .locking | .opening | .loading _ _ | .closing _ | .reopening _ | .rewriting _ _
  | .storing _ | .printing _ | .endLine | .announcing => state.received.dropLast

/-- A frame has been taken over and is not announced yet. -/
def underWay (state : ServerState) : Bool :=
  match state.receiverPoint with
  | .reading | .closingStore | .unlocking => false
  | .locking | .opening | .loading _ _ | .closing _ | .reopening _ | .rewriting _ _
  | .storing _ | .printing _ | .endLine | .announcing => true

/-- A frame is partly or wholly in `up_data` and not announced yet. -/
def midStore (state : ServerState) : Bool :=
  match state.receiverPoint with
  | .storing k => 0 < k.val
  | .printing _ | .endLine | .announcing => true
  | .reading | .locking | .opening | .loading _ _ | .closing _ | .reopening _ | .rewriting _ _
  | .closingStore | .unlocking => false

/-- The slots of the frame that are in `up_data`. -/
def storedSlots (state : ServerState) : Nat :=
  match state.receiverPoint with
  | .storing k => k.val
  | .printing k => k.val + 1
  | .endLine | .announcing => 70
  | .reading | .locking | .opening | .loading _ _ | .closing _ | .reopening _ | .rewriting _ _
  | .closingStore | .unlocking => 0

/-- The reads that the draw under way has made. -/
def readsDone (state : ServerState) : Nat :=
  match state.updaterPoint with
  | .drawing k => k.val
  | .lowering => 68
  | .top | .testing | .waiting | .button | .locking | .opening | .loading _ _ | .unlocking _
  | .closing _ | .splitting | .viewing => 0

/-- The steps that leave a draw intact: it starts on a whole frame, no store changes
what it still has to read, and when `update_flag` is set, it has read nothing that
`up_data` no longer holds. Once a frame has arrived, the history view is left while a
draw is still to come, or at a row that agrees with `up_data`. -/
def LeavesDrawIntact (state : ServerState) : ServerAction → Prop
  | .receiver _ =>
      match state.receiverPoint with
      | .storing k => 0 < readsDone state → k ∈ drawReads.drop (readsDone state) →
          upDataOf state.buff k = state.memory.upData k
      | .announcing => 0 < readsDone state →
          state.seen = (drawReads.take (readsDone state)).map state.memory.upData
      | .reading | .locking | .opening | .loading _ _ | .closing _ | .reopening _
      | .rewriting _ _ | .printing _ | .endLine | .closingStore | .unlocking => True
  | .updater input =>
      match state.updaterPoint with
      | .drawing k => k.val = 0 →
          ∃ frame ∈ state.received, imageOf state.memory.upData = imageOf (upDataOf frame)
      | .viewing => thirdSwitch input.pushSwBuff = 1 → state.received ≠ [] →
          state.memory.updateFlag ≠ 0 ∨ underWay state = true ∨
            imageOf state.row = imageOf state.memory.upData
      | .top | .testing | .waiting | .lowering | .button | .locking | .opening | .loading _ _
      | .unlocking _ | .closing _ | .splitting => True

instance (state : ServerState) (action : ServerAction) :
    Decidable (LeavesDrawIntact state action) := by
  cases action with
  | receiver frame =>
      unfold LeavesDrawIntact
      cases state.receiverPoint <;> infer_instance
  | updater input =>
      unfold LeavesDrawIntact
      cases state.updaterPoint <;> infer_instance

/-- The image drawn last is that of the newest frame, if there is one. -/
def ShowsNewest (state : ServerState) : Prop :=
  ∀ newest ∈ state.received.getLast?,
    state.drawn.getLast? = some (imageOf (upDataOf newest))

/-- What the pictures owe to the frames. -/
structure Live (state : ServerState) : Prop where
  buff : state.receiverPoint ≠ .reading → state.received.getLast? = some state.buff
  stored : ∀ k : Fin 70, k.val < storedSlots state →
    state.memory.upData k = upDataOf state.buff k
  settled : midStore state = false → ∀ newest ∈ (announced state).getLast?,
    state.memory.upData = upDataOf newest
  start : state.updaterPoint = .drawing 0 → state.seen = []
  whole : 0 < readsDone state → ∃ frame ∈ state.received,
    state.seen = (drawReads.take (readsDone state)).map (upDataOf frame) ∧
      (drawReads.drop (readsDone state)).map state.memory.upData =
        (drawReads.drop (readsDone state)).map (upDataOf frame)
  current : 0 < readsDone state → midStore state = false →
    state.seen = (drawReads.take (readsDone state)).map state.memory.upData
  last : state.updaterPoint = .lowering → state.drawn.getLast? = some state.seen
  images : ∀ image ∈ state.images, ∃ frame ∈ state.received, image = imageOf (upDataOf frame)
  viewed : state.updaterPoint = .viewing →
    state.drawn.getLast? = some (imageOf state.row)
  shown : underWay state = false → state.memory.updateFlag = 0 →
    state.updaterPoint ≠ .viewing → ShowsNewest state

/-- Between two frames the newest one is announced and whole in `up_data`. -/
theorem settled_of_underWay {state : ServerState} (between : underWay state = false) :
    midStore state = false ∧ announced state = state.received := by
  cases point : state.receiverPoint with
  | reading | closingStore | unlocking => simp [midStore, announced, point]
  | locking | opening | loading | closing | reopening | rewriting | storing | printing | endLine
  | announcing => simp [underWay, point] at between

theorem live_initial (history : List Frame) (data : Fin 10 → Fin 70 → Int) :
    Live (.initial history data) := by
  refine ⟨?_, ?_, ?_, ?_, ?_, ?_, ?_, ?_, ?_, ?_⟩
  · exact fun busy => absurd rfl busy
  · intro k early
    cases early
  · intro _ newest member
    cases member
  · exact fun _ => rfl
  · intro started
    cases started
  · intro started
    cases started
  · intro atLowering
    cases atLowering
  · intro image member
    cases member
  · intro viewing
    cases viewing
  · intro _ _ _ newest member
    cases member

/-! ### Steps of the receiver -/

section Receiver

variable {state after : ServerState} {frame : Frame}

/-- Outside the stores and the announcement the receiver changes nothing a draw
depends on. -/
theorem receiverStep_quiet (stepped : state.receiverStep frame = .ok after)
    (notStoring : ∀ k, state.receiverPoint ≠ .storing k)
    (notAnnouncing : state.receiverPoint ≠ .announcing) :
    after.memory.upData = state.memory.upData ∧
      after.memory.updateFlag = state.memory.updateFlag ∧ announced after = announced state ∧
      midStore after = midStore state ∧ storedSlots after = storedSlots state ∧
      (underWay after = false → underWay state = false ∧ after.received = state.received) := by
  cases receiverMove_of_step stepped with
  | work strBuff inputTxt started work =>
      cases work with
      | allPrinted last => simp [announced, midStore, storedSlots, underWay, started, last]
      | opened | lineRead | endRead | closed | appending | truncated | rewritten | allRewritten
      | printed | lineEnded | storeClosed =>
          simp [announced, midStore, storedSlots, underWay, started]
  | store k point => exact absurd point (notStoring k)
  | announce point => exact absurd point notAnnouncing
  | arrive point | lock point | unlock point =>
      simp [announced, midStore, storedSlots, underWay, point]

theorem receiverStep_row (stepped : state.receiverStep frame = .ok after) :
    after.row = state.row := by
  cases receiverMove_of_step stepped <;> rfl

/-- The frame being stored is the newest one received. -/
theorem Live.buff_receiverStep (live : Live state)
    (stepped : state.receiverStep frame = .ok after) :
    after.receiverPoint ≠ .reading → after.received.getLast? = some after.buff := by
  rcases receiverStep_received stepped with ⟨received, buff, reading⟩
  intro busy
  rw [received, buff]
  by_cases arriving : state.receiverPoint = .reading
  · simp [arriving]
  · simp [arriving, live.buff arriving]

theorem received_subset (stepped : state.receiverStep frame = .ok after) :
    state.received ⊆ after.received := by
  rw [(receiverStep_received stepped).1]
  exact List.subset_append_left ..

/-- The part of `Live` that a step of the receiver does not touch. -/
private theorem Live.ofReceiver (live : Live state)
    (stepped : state.receiverStep frame = .ok after)
    (stored : ∀ k : Fin 70, k.val < storedSlots after →
      after.memory.upData k = upDataOf after.buff k)
    (settled : midStore after = false → ∀ newest ∈ (announced after).getLast?,
      after.memory.upData = upDataOf newest)
    (unread : 0 < readsDone state →
      (drawReads.drop (readsDone state)).map after.memory.upData =
        (drawReads.drop (readsDone state)).map state.memory.upData)
    (current : 0 < readsDone state → midStore after = false →
      state.seen = (drawReads.take (readsDone state)).map after.memory.upData)
    (shown : underWay after = false → after.memory.updateFlag = 0 →
      state.updaterPoint ≠ .viewing → ShowsNewest after) : Live after := by
  rcases receiverStep_frame stepped with ⟨point, -, -, seen, images, drawn⟩
  have reads : readsDone after = readsDone state := by
    rw [readsDone, readsDone, point]
  have subset := received_subset stepped
  refine ⟨live.buff_receiverStep stepped, stored, settled, ?_, ?_, ?_, ?_, ?_, ?_, ?_⟩
  · rw [point, seen]
    exact live.start
  · rw [reads, seen]
    intro started
    rcases live.whole started with ⟨found, member, read, rest⟩
    exact ⟨found, subset member, read, (unread started).trans rest⟩
  · rw [reads, seen]
    exact current
  · rw [point, drawn, seen]
    exact live.last
  · intro image member
    rw [images] at member
    rcases live.images image member with ⟨found, inReceived, isImage⟩
    exact ⟨found, subset inReceived, isImage⟩
  · rw [point, drawn, receiverStep_row stepped]
    exact live.viewed
  · rw [point]
    exact shown

/-- A store fills the slot behind those stored so far. -/
theorem Live.ofStoring (live : Live state) (intact : LeavesDrawIntact state (.receiver frame))
    (stepped : state.receiverStep frame = .ok after) {k : Fin 70}
    (point : state.receiverPoint = .storing k) : Live after := by
  simp only [LeavesDrawIntact, point] at intact
  have wholeStep := stepped
  simp only [ServerState.receiverStep, point, pure, Except.pure] at stepped
  cases stepped
  apply live.ofReceiver wholeStep
  · intro j early
    by_cases here : j = k
    · subst here
      simp [upDataOf]
    · have before : j.val < storedSlots state := by
        have different : j.val ≠ k.val := fun equal => here (Fin.ext equal)
        simp only [storedSlots, point] at early ⊢
        omega
      simp only [Function.update_of_ne here]
      exact live.stored j before
  · intro settled
    cases settled
  · intro started
    apply List.map_congr_left
    intro slot member
    by_cases here : slot = k
    · subst here
      rw [← intact started member]
      simp [upDataOf]
    · exact Function.update_of_ne here ..
  · intro _ settled
    cases settled
  · intro between
    cases between

/-- The frame is announced when all its slots are stored. -/
theorem Live.ofAnnouncing (live : Live state) (intact : LeavesDrawIntact state (.receiver frame))
    (stepped : state.receiverStep frame = .ok after)
    (point : state.receiverPoint = .announcing) : Live after := by
  simp only [LeavesDrawIntact, point] at intact
  have newest := live.buff (by simp [point])
  have whole : state.memory.upData = upDataOf state.buff := by
    funext k
    exact live.stored k (by simp [storedSlots, point])
  have wholeStep := stepped
  simp only [ServerState.receiverStep, point, pure, Except.pure] at stepped
  cases stepped
  apply live.ofReceiver wholeStep
  · intro k early
    cases early
  · intro _ found member
    have same : state.received.getLast? = some found := member
    rw [newest] at same
    rw [← Option.some.inj same]
    exact whole
  · exact fun _ => rfl
  · exact fun started _ => intact started
  · intro _ clear
    cases clear

theorem Live.ofReceiverElsewhere (live : Live state)
    (stepped : state.receiverStep frame = .ok after)
    (notStoring : ∀ k, state.receiverPoint ≠ .storing k)
    (notAnnouncing : state.receiverPoint ≠ .announcing) : Live after := by
  rcases receiverStep_received stepped with ⟨-, buff, -⟩
  rcases receiverStep_quiet stepped notStoring notAnnouncing with
    ⟨upData, flag, sameAnnounced, mid, slots, way⟩
  apply live.ofReceiver stepped
  · intro k early
    rw [slots] at early
    have arrived : state.receiverPoint ≠ .reading := by
      intro reading
      simp [storedSlots, reading] at early
    rw [upData, buff, if_neg arrived]
    exact live.stored k early
  · rw [mid, sameAnnounced, upData]
    exact live.settled
  · intro _
    rw [upData]
  · rw [mid, upData]
    exact live.current
  · intro between clear notViewing
    rcases way between with ⟨wasBetween, received⟩
    have shown := live.shown wasBetween (flag ▸ clear) notViewing
    unfold ShowsNewest at shown ⊢
    rw [received, (receiverStep_frame stepped).2.2.2.2.2]
    exact shown

theorem Live.receiverStep (live : Live state) (intact : LeavesDrawIntact state (.receiver frame))
    (stepped : state.receiverStep frame = .ok after) : Live after := by
  cases point : state.receiverPoint with
  | storing k => exact live.ofStoring intact stepped point
  | announcing => exact live.ofAnnouncing intact stepped point
  | reading | locking | opening | loading | closing | reopening | rewriting | printing | endLine
  | closingStore | unlocking =>
      apply live.ofReceiverElsewhere stepped <;> simp [point]

end Receiver

/-! ### Steps of the updater -/

section Updater

variable {state after : ServerState} {input : UpdaterInput}

/-- Outside the draw and the flag's clearing no draw is under way, and only the history
view draws. -/
theorem updaterStep_quiet (stepped : state.updaterStep input = .ok after)
    (notDrawing : ∀ k, state.updaterPoint ≠ .drawing k)
    (notLowering : state.updaterPoint ≠ .lowering) :
    after.images = state.images ∧ after.memory.updateFlag = state.memory.updateFlag ∧
      readsDone after = 0 ∧ (after.updaterPoint = .drawing 0 → after.seen = []) ∧
      after.updaterPoint ≠ .lowering ∧
      (after.updaterPoint ≠ .viewing → after.drawn = state.drawn) := by
  cases updaterMove_of_step stepped with
  | pass pressed viewBuff started passage => cases passage <;> simp [readsDone]
  | draw k _ point | finish k _ point => exact absurd point (notDrawing k)
  | lower point => exact absurd point notLowering
  | browse _ _ point => simp [readsDone, point]
  | begin | lock | unlock | view | enter => simp [readsDone]

/-- The history view draws the row that it goes to. -/
theorem updaterStep_viewed (stepped : state.updaterStep input = .ok after)
    (viewed : state.updaterPoint = .viewing →
      state.drawn.getLast? = some (imageOf state.row)) :
    after.updaterPoint = .viewing → after.drawn.getLast? = some (imageOf after.row) := by
  cases updaterMove_of_step stepped with
  | enter | browse => exact fun _ => List.getLast?_concat
  | pass pressed viewBuff started passage =>
      intro viewing
      cases passage with
      | looking => exact viewed started
      | buttonRead | flagSet | flagClear | spinning | pressed | notPressed | opened | lineRead
      | endRead | left => cases viewing
  | begin | draw | finish | lower | lock | unlock | view =>
      intro viewing
      cases viewing

/-- The part of `Live` that a step of the updater does not touch. -/
private theorem Live.ofUpdater (live : Live state)
    (stepped : state.updaterStep input = .ok after)
    (start : after.updaterPoint = .drawing 0 → after.seen = [])
    (whole : 0 < readsDone after → ∃ frame ∈ state.received,
      after.seen = (drawReads.take (readsDone after)).map (upDataOf frame) ∧
        (drawReads.drop (readsDone after)).map state.memory.upData =
          (drawReads.drop (readsDone after)).map (upDataOf frame))
    (current : 0 < readsDone after → midStore state = false →
      after.seen = (drawReads.take (readsDone after)).map state.memory.upData)
    (last : after.updaterPoint = .lowering → after.drawn.getLast? = some after.seen)
    (images : ∀ image ∈ after.images, ∃ frame ∈ state.received, image = imageOf (upDataOf frame))
    (shown : underWay state = false → after.memory.updateFlag = 0 →
      after.updaterPoint ≠ .viewing → ∀ newest ∈ state.received.getLast?,
        after.drawn.getLast? = some (imageOf (upDataOf newest))) : Live after := by
  rcases updaterStep_frame stepped with ⟨point, buff, -, received, -, upData⟩
  have sameAnnounced : announced after = announced state := by
    rw [announced, announced, point, received]
  have mid : midStore after = midStore state := by
    rw [midStore, midStore, point]
  have slots : storedSlots after = storedSlots state := by
    rw [storedSlots, storedSlots, point]
  have way : underWay after = underWay state := by
    rw [underWay, underWay, point]
  refine ⟨?_, ?_, ?_, start, ?_, ?_, last, ?_, updaterStep_viewed stepped live.viewed, ?_⟩
  · rw [point, received, buff]
    exact live.buff
  · rw [slots, upData, buff]
    exact live.stored
  · rw [mid, sameAnnounced, upData]
    exact live.settled
  · rw [received, upData]
    exact whole
  · rw [mid, upData]
    exact current
  · rw [received]
    exact images
  · rw [way, ShowsNewest, received]
    exact shown

theorem map_take_next (upData : Fin 70 → Int) (k : Fin 68) :
    (drawReads.take (k.val + 1)).map upData =
      (drawReads.take k.val).map upData ++ [upData (drawReads.get k)] := by
  rw [List.take_succ_eq_append_getElem k.isLt, List.map_append]
  rfl

/-- A draw that has begun goes on with the frame it began with. -/
theorem Live.drawn_whole (live : Live state) (intact : LeavesDrawIntact state (.updater input))
    {k : Fin 68} (point : state.updaterPoint = .drawing k) :
    ∃ frame ∈ state.received, state.seen = (drawReads.take k.val).map (upDataOf frame) ∧
      (drawReads.drop k.val).map state.memory.upData =
        (drawReads.drop k.val).map (upDataOf frame) := by
  have done : readsDone state = k.val := by
    rw [readsDone, point]
  rcases Nat.eq_zero_or_pos k.val with first | later
  · have isFirst : k = 0 := Fin.ext first
    subst isFirst
    simp only [LeavesDrawIntact, point] at intact
    rcases intact rfl with ⟨frame, member, image⟩
    exact ⟨frame, member, live.start point, image⟩
  · have whole := live.whole (done ▸ later)
    rwa [done] at whole

/-- Between two stores a draw has read what `up_data` holds. -/
theorem Live.drawn_current (live : Live state) {k : Fin 68}
    (point : state.updaterPoint = .drawing k) (settled : midStore state = false) :
    state.seen = (drawReads.take k.val).map state.memory.upData := by
  have done : readsDone state = k.val := by
    rw [readsDone, point]
  rcases Nat.eq_zero_or_pos k.val with first | later
  · have isFirst : k = 0 := Fin.ext first
    subst isFirst
    exact live.start point
  · have current := live.current (done ▸ later) settled
    rwa [done] at current

/-- One more value is read, of the frame that the draw shows. -/
theorem Live.drawn_next (live : Live state) (intact : LeavesDrawIntact state (.updater input))
    {k : Fin 68} (point : state.updaterPoint = .drawing k) :
    (∃ frame ∈ state.received,
      state.seen ++ [state.memory.upData (drawReads.get k)] =
          (drawReads.take (k.val + 1)).map (upDataOf frame) ∧
        (drawReads.drop (k.val + 1)).map state.memory.upData =
          (drawReads.drop (k.val + 1)).map (upDataOf frame)) ∧
      (midStore state = false → state.seen ++ [state.memory.upData (drawReads.get k)] =
        (drawReads.take (k.val + 1)).map state.memory.upData) := by
  constructor
  · rcases live.drawn_whole intact point with ⟨frame, member, read, rest⟩
    have next : drawReads.drop k.val = drawReads.get k :: drawReads.drop (k.val + 1) :=
      List.drop_eq_getElem_cons k.isLt
    rw [next, List.map_cons, List.map_cons, List.cons.injEq] at rest
    rcases rest with ⟨value, rest⟩
    refine ⟨frame, member, ?_, rest⟩
    rw [map_take_next, read, value]
  · intro settled
    rw [map_take_next, live.drawn_current point settled]

theorem Live.ofDrawing (live : Live state) (intact : LeavesDrawIntact state (.updater input))
    (stepped : state.updaterStep input = .ok after) {k : Fin 68}
    (point : state.updaterPoint = .drawing k) : Live after := by
  rcases live.drawn_next intact point with ⟨⟨frame, member, seenWhole, rest⟩, seenCurrent⟩
  have wholeStep := stepped
  by_cases inside : k.val + 1 < 68
  · simp only [ServerState.updaterStep, point, dif_pos inside, pure, Except.pure] at stepped
    cases stepped
    apply live.ofUpdater wholeStep
    · intro started
      cases started
    · exact fun _ => ⟨frame, member, seenWhole, rest⟩
    · exact fun _ => seenCurrent
    · intro atLowering
      cases atLowering
    · exact live.images
    · exact fun between clear _ => live.shown between clear (by simp [point])
  · simp only [ServerState.updaterStep, point, dif_neg inside, pure, Except.pure] at stepped
    cases stepped
    have full : k.val + 1 = 68 := by omega
    have all : drawReads.take 68 = drawReads := rfl
    rw [full] at seenWhole seenCurrent rest
    apply live.ofUpdater wholeStep
    · intro started
      cases started
    · exact fun _ => ⟨frame, member, seenWhole, rest⟩
    · exact fun _ => seenCurrent
    · intro _
      exact List.getLast?_concat
    · intro image found
      rcases List.mem_append.mp found with earlier | isNew
      · exact live.images image earlier
      · refine ⟨frame, member, ?_⟩
        rw [List.mem_singleton.mp isNew, seenWhole, all, imageOf]
    · intro between _ _ newest isNewest
      rcases settled_of_underWay between with ⟨settled, whole⟩
      rw [List.getLast?_concat, seenCurrent settled, all,
        live.settled settled newest (whole ▸ isNewest), imageOf]

/-- The flag is cleared when the image drawn is still what `up_data` holds. -/
theorem Live.ofLowering (live : Live state) (stepped : state.updaterStep input = .ok after)
    (point : state.updaterPoint = .lowering) : Live after := by
  have done : readsDone state = 68 := by
    rw [readsDone, point]
  have wholeStep := stepped
  simp only [ServerState.updaterStep, point, pure, Except.pure] at stepped
  cases stepped
  apply live.ofUpdater wholeStep
  · intro started
    cases started
  · intro started
    cases started
  · intro started
    cases started
  · intro atLowering
    cases atLowering
  · exact live.images
  · intro between _ _ newest isNewest
    rcases settled_of_underWay between with ⟨settled, whole⟩
    have current := live.current (by omega) settled
    rw [done, live.settled settled newest (whole ▸ isNewest)] at current
    have last := live.last point
    rw [current] at last
    exact last

/-- A row that agrees with `up_data` is drawn as the newest frame. -/
theorem Live.showsNewest (live : Live state) (viewing : state.updaterPoint = .viewing)
    (between : underWay state = false)
    (atUpData : imageOf state.row = imageOf state.memory.upData) : ShowsNewest state := by
  intro newest isNewest
  rcases settled_of_underWay between with ⟨settled, whole⟩
  rw [live.viewed viewing, atUpData, live.settled settled newest (whole ▸ isNewest)]

theorem Live.ofUpdaterElsewhere (live : Live state)
    (intact : LeavesDrawIntact state (.updater input))
    (stepped : state.updaterStep input = .ok after)
    (notDrawing : ∀ k, state.updaterPoint ≠ .drawing k)
    (notLowering : state.updaterPoint ≠ .lowering) : Live after := by
  rcases updaterStep_quiet stepped notDrawing notLowering with
    ⟨images, flag, reads, start, isNotLowering, drawn⟩
  apply live.ofUpdater stepped
  · exact start
  · rw [reads]
    exact fun started => absurd started (Nat.lt_irrefl 0)
  · rw [reads]
    exact fun started => absurd started (Nat.lt_irrefl 0)
  · exact fun atLowering => absurd atLowering isNotLowering
  · rw [images]
    exact live.images
  · intro between clear notViewing
    rw [drawn notViewing]
    rw [flag] at clear
    by_cases viewing : state.updaterPoint = .viewing
    · simp only [LeavesDrawIntact, viewing] at intact
      intro newest isNewest
      have arrived : state.received ≠ [] := List.ne_nil_of_mem (List.mem_of_getLast? isNewest)
      rcases intact (updaterStep_leaves stepped viewing notViewing) arrived with
        set | stores | atUpData
      · exact absurd clear set
      · rw [between] at stores
        cases stores
      · exact live.showsNewest viewing between atUpData newest isNewest
    · exact live.shown between clear viewing

theorem Live.updaterStep (live : Live state) (intact : LeavesDrawIntact state (.updater input))
    (stepped : state.updaterStep input = .ok after) : Live after := by
  cases point : state.updaterPoint with
  | drawing k => exact live.ofDrawing intact stepped point
  | lowering => exact live.ofLowering stepped point
  | top | testing | waiting | button | locking | opening | loading | unlocking | closing
  | splitting | viewing =>
      apply live.ofUpdaterElsewhere intact stepped <;> simp [point]

end Updater

/-! ## Whole runs -/

theorem live_of_intact {history : List Frame} {actions : List ServerAction} {state : ServerState}
    (run : (serverProcesses history).RunWhere LeavesDrawIntact actions state) : Live state := by
  apply run.invariant fun _ state => Live state
  · intro state initial
    rcases initial with ⟨data, initial⟩
    subst initial
    exact live_initial history data
  · intro actions state action after live intact stepped
    cases action with
    | receiver frame => exact live.receiverStep intact (receiverStep_of_step stepped)
    | updater input => exact live.updaterStep intact (updaterStep_of_step stepped)

/-- All arrived frames are processed, and nothing is left to draw. -/
def Settled (state : ServerState) : Prop :=
  state.receiverPoint = .reading ∧ state.updaterPoint = .top ∧ state.memory.updateFlag = 0

instance (state : ServerState) : Decidable (Settled state) := by
  unfold Settled
  infer_instance

/-- Every image drawn from `up_data` is that of one frame, and the last image of all is
that of the newest frame when all is settled. -/
structure LiveUpdated (state : ServerState) : Prop where
  newest : Settled state → ∀ frame ∈ state.received.getLast?,
    state.drawn.getLast? = some (imageOf (upDataOf frame))
  unmixed : ∀ image ∈ state.images, ∃ frame ∈ state.received, image = imageOf (upDataOf frame)

theorem Live.liveUpdated {state : ServerState} (live : Live state) : LiveUpdated state where
  newest := by
    intro settled
    rcases settled with ⟨reading, atTop, clear⟩
    apply live.shown _ clear
    · rw [atTop]
      exact UpdaterPoint.noConfusion
    · rw [underWay, reading]
  unmixed := live.images

/-- No update is lost and no picture is torn in the runs that leave every draw intact. -/
theorem live_updates_of_intact (history : List Frame) (actions : List ServerAction)
    (state : ServerState)
    (run : (serverProcesses history).RunWhere LeavesDrawIntact actions state) :
    LiveUpdated state :=
  (live_of_intact run).liveUpdated

/-- An old record is looked at while a frame is stored, and the frame is drawn when the
history is left. -/
def storeDuringLook : List ServerAction :=
  List.replicate 10 (.updater (.of firstPressed)) ++
    List.replicate 151 (.receiver (constantFrame 1)) ++ [.updater (.of thirdPressed)] ++
    List.replicate 73 (.updater (.of nonePressed))

theorem live_update_after_look :
    ∃ state, (serverProcesses [constantFrame 0]).RunWhere LeavesDrawIntact storeDuringLook state ∧
      Settled state ∧ state.images.length = 1 ∧ state.drawn.length = 2 ∧ LiveUpdated state := by
  have executed : ((serverProcesses [constantFrame 0]).executeWhere LeavesDrawIntact
      (.initial [constantFrame 0] fun _ _ => 0) storeDuringLook).any (fun state =>
        Settled state ∧ state.images.length = 1 ∧ state.drawn.length = 2) = true := by
    decide +kernel
  rcases exists_runWhere _ (serverProcesses_initial _ _) executed with ⟨state, run, reached⟩
  rcases of_decide_eq_true reached with ⟨settled, live, all⟩
  exact ⟨state, run, settled, live, all,
    live_updates_of_intact [constantFrame 0] storeDuringLook state run⟩

/-- The second frame is stored when the first one is drawn and the flag not yet
cleared. -/
def storeBeforeLowering : List ServerAction :=
  List.replicate 150 (.receiver (constantFrame 1)) ++
    List.replicate 71 (.updater (.of nonePressed)) ++
    List.replicate 151 (.receiver (constantFrame 2)) ++ List.replicate 2 (.updater (.of nonePressed))

theorem second_frame_not_shown :
    ¬ ∀ (history : List Frame) (actions : List ServerAction) (state : ServerState),
      (serverProcesses history).Run actions state → LiveUpdated state := by
  intro alwaysUpdated
  have executed : ((serverProcesses []).execute (.initial [] fun _ _ => 0)
      storeBeforeLowering).any (fun state => Settled state ∧
        ∃ frame ∈ state.received.getLast?,
          state.drawn.getLast? ≠ some (imageOf (upDataOf frame))) = true := by
    decide +kernel
  rcases exists_run _ (serverProcesses_initial _ _) executed with ⟨state, run, reached⟩
  rcases of_decide_eq_true reached with ⟨settled, frame, isNewest, differs⟩
  exact differs ((alwaysUpdated [] _ state run).newest settled frame isNewest)

end GamZ.Server
