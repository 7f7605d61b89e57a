import GamZ.System.Delivery

/-! # From a half-sweep to the picture on the other board

Where no draw of `update_process` is disturbed, the live pictures of the server are
pictures of alarms that the client has raised. Where the history is left at a row that
agrees with `up_data`, or with a draw to come, the last picture of all is of the newest
alarm. -/

namespace GamZ.System

open Client Server Transition TransitionSystem

/-- A step of the server that leaves its draw intact. -/
def DrawsIntact (boards : Boards) : BoardsAction → Prop
  | .client _ => True
  | .receiver _ => LeavesDrawIntact boards.server (.receiver fun _ => 0)
  | .updater input => LeavesDrawIntact boards.server (.updater input)

instance (boards : Boards) (action : BoardsAction) : Decidable (DrawsIntact boards action) :=
  match action with
  | .client _ => inferInstanceAs (Decidable True)
  | .receiver _ =>
      inferInstanceAs (Decidable (LeavesDrawIntact boards.server (.receiver fun _ => 0)))
  | .updater input =>
      inferInstanceAs (Decidable (LeavesDrawIntact boards.server (.updater input)))

/-- The alarms arrive and the pictures are drawn undisturbed. -/
def Watched (boards : Boards) (action : BoardsAction) : Prop :=
  Orderly boards action ∧ DrawsIntact boards action

instance (boards : Boards) (action : BoardsAction) : Decidable (Watched boards action) :=
  inferInstanceAs (Decidable (Orderly boards action ∧ DrawsIntact boards action))

/-! ## What a picture shows -/

/-- The picture is of the record of the alarm. -/
def Shows (image : List Int) (alarm : Alarm) : Prop :=
  ∃ frame, alarmOf frame = alarm ∧ image = imageOf (upDataOf frame)

/-- The time of sending leaves no trace in what `make_radar` paints. -/
theorem makeRadar_of_alarm {frame other : Frame} (same : alarmOf frame = alarmOf other)
    (xres : Nat) (pfbdata : Raster.FrameBuffer Color) :
    (makeRadar xres (upDataOf frame) pfbdata).pfbdata =
      (makeRadar xres (upDataOf other) pfbdata).pfbdata := by
  have slots : ∀ i, frame (sweepSlot i) = other (sweepSlot i) :=
    congrFun (congrArg Alarm.slots same)
  have byte : frame 67 = other 67 := congrArg Alarm.warnVal same
  have warnVal : warnValOf (upDataOf frame) = warnValOf (upDataOf other) := by
    rw [warnValOf, warnValOf, upDataOf, upDataOf, byte]
  have copied : copySlots (upDataOf frame) = copySlots (upDataOf other) := by
    funext slot
    rw [copySlots, copySlots]
    split_ifs with inside
    · exact congrArg (fun value : CString.Byte => (value.toNat : Int)) (slots ⟨slot, inside⟩)
    · rfl
  rw [(makeRadar_eq xres (upDataOf frame) pfbdata).2,
    (makeRadar_eq xres (upDataOf other) pfbdata).2, radarPasses, radarPasses, warnVal, copied]

/-- `make_radar` paints the picture from every record of the alarm. -/
def Paints (image : List Int) (alarm : Alarm) : Prop :=
  ∀ upData frame, imageOf upData = image → alarmOf frame = alarm → ∀ xres pfbdata,
    (makeRadar xres upData pfbdata).pfbdata = (makeRadar xres (upDataOf frame) pfbdata).pfbdata

theorem Shows.paints {image : List Int} {alarm : Alarm} (isShown : Shows image alarm) :
    Paints image alarm := by
  intro upData frame isImage ofAlarm xres pfbdata
  rcases isShown with ⟨record, isRecord, image⟩
  rw [makeRadar_of_image (isImage.trans image), makeRadar_of_alarm (isRecord.trans ofAlarm.symm)]

/-- The live pictures are of alarms that were raised. When everything has arrived and is
drawn, the last picture that was drawn, live or from the history, is that of the newest
alarm. -/
structure ShowsAlarms (boards : Boards) : Prop where
  raised : ∀ image ∈ boards.server.images, ∃ alarm ∈ boards.client.raised,
    Shows image alarm ∧ Paints image alarm
  newest : boards.client.sendFlag = 0 → boards.inFlight = [] → Settled boards.server →
    ∀ alarm ∈ boards.client.raised.getLast?, ∃ image ∈ boards.server.drawn.getLast?,
      Shows image alarm ∧ Paints image alarm

theorem pictures_show_alarms {xres : Nat} {history : List Frame} {actions : List BoardsAction}
    {boards : Boards} (run : (boardProcesses xres history).RunWhere Watched actions boards) :
    ShowsAlarms boards := by
  have connected := connected_of_run (run.weaken fun _ _ watched => watched.1)
  have drawn : ∃ serverActions,
      (serverProcesses history).RunWhere LeavesDrawIntact serverActions boards.server := by
    apply server_runWhere _ run
    intro boards action event watched serves
    cases serves with
    | receiver => exact watched.2
    | updater => exact watched.2
  rcases drawn with ⟨serverActions, serverRun⟩
  have live := live_of_intact serverRun
  constructor
  · intro image member
    rcases live.images image member with ⟨frame, received, isImage⟩
    have isShown : Shows image (alarmOf frame) := ⟨frame, rfl, isImage⟩
    refine ⟨alarmOf frame, ?_, isShown, isShown.paints⟩
    have conserves := Channel.conserves_iff.mp connected.conserves
    exact conserves.subset (List.mem_map_of_mem received)
  · intro lowered arrived settled alarm newest
    have conserves := connected.conserves
    rw [Channel.Conserves, connected.complete lowered arrived, List.append_nil] at conserves
    have all : boards.client.raised = boards.server.received.map alarmOf := conserves
    rw [all, List.getLast?_map] at newest
    rcases Option.map_eq_some_iff.mp newest with ⟨frame, isNewest, isAlarm⟩
    have isShown : Shows (imageOf (upDataOf frame)) alarm := ⟨frame, isAlarm, rfl⟩
    exact ⟨_, live.liveUpdated.newest settled frame isNewest, isShown, isShown.paints⟩

/-- A near object is swept and its alarm is sent; an old record is looked at while the
alarm is stored, and the alarm is drawn when the history is left. -/
def nearPicture : List BoardsAction :=
  nearAlarm ++ List.replicate 10 (.updater (.of firstPressed)) ++
    List.replicate 150 (.receiver 0) ++ [.updater (.of thirdPressed)] ++
    List.replicate 73 (.updater (.of nonePressed))

theorem near_picture_shows_alarm :
    ∃ boards, (boardProcesses 1024 [constantFrame 0]).RunWhere Watched nearPicture boards ∧
      (boards.server.images.length = 1 ∧ boards.server.drawn.length = 2) ∧
      ShowsAlarms boards := by
  have executed : ((boardProcesses 1024 [constantFrame 0]).executeWhere Watched
      (.initial [constantFrame 0] fun _ _ => 0) nearPicture).any (fun boards =>
        boards.server.images.length = 1 ∧ boards.server.drawn.length = 2) = true := by
    decide +kernel
  rcases exists_runWhere _ (boardProcesses_initial _ _ _) executed with ⟨boards, run, test⟩
  exact ⟨boards, run, of_decide_eq_true test, pictures_show_alarms run⟩

end GamZ.System
