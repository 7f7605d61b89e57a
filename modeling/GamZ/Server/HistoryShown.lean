import GamZ.Server.HistoryBrowsing
import GamZ.Server.HistoryView

/-! # What the history shows of the records

From the records that arrive to the picture, the LEDs and the text of the history: the
rows are loaded under the semaphore, split into numbers, and browsed with the switches.
A reader sees a cursor that moves over the records in the store. -/

namespace GamZ.Server

open CString CharBuffer BoundedFifo Raster Transition TransitionSystem

/-! ## A cursor over the records -/

/-- Where a reader of the history is. -/
structure Cursor where
  position : Nat
  left : Bool
deriving DecidableEq, Repr

/-- One switch goes to older records, the next one to newer ones, the third one leaves. -/
def Cursor.move (count : Nat) (cursor : Cursor) (pushSwBuff : Switches) : Cursor :=
  if cursor.left then cursor
  else if thirdSwitch pushSwBuff = 1 then { cursor with left := true }
  else if firstSwitch pushSwBuff = 1 then { cursor with position := cursor.position - 1 }
  else if secondSwitch pushSwBuff = 1 then
    { cursor with position := min (cursor.position + 1) (count - 1) }
  else cursor

/-- The picture, the LEDs and the text of a record, until the history is left. -/
structure ShowsRecord (xres : Nat) (record : Frame) (cursor : Cursor) (shown : Browsing) :
    Prop where
  num : shown.num = cursor.position
  left : shown.left = cursor.left
  picture : ∃ before,
    shown.pfbdata = (makeRadar xres (loadedRow cursor.position record) before).pfbdata
  led : ∀ bit < 8, shown.ledNum.toNat.testBit bit =
    decide (cursor.left = false ∧ bit = cursor.position)
  lines : shown.lines =
    if cursor.left then paddedLine serverName ++ paddedLine idleMenu
    else paddedLine (dateText (upDataOf record)) ++ paddedLine historyMenu

/-- What is shown is the record at the cursor. -/
def ShowsCursor (xres : Nat) (queue : List Frame) (cursor : Cursor) (shown : Browsing) : Prop :=
  ∃ record, queue[cursor.position]? = some record ∧ ShowsRecord xres record cursor shown

/-! ## Browsing moves the cursor -/

theorem loadedRow_kept (i : Nat) (record : Frame) {k : Fin 70} (other : k ≠ 0) :
    loadedRow i record k = upDataOf record k :=
  if_neg fun lost => other lost.2

/-- The time of a record is not lost. -/
theorem dateText_loadedRow (i : Nat) (record : Frame) :
    dateText (loadedRow i record) = dateText (upDataOf record) := by
  have kept : ∀ k : Fin 70, k ≠ 0 → loadedRow i record k = upDataOf record k :=
    fun _ => loadedRow_kept i record
  rw [dateText, dateText, kept 61 (by decide), kept 62 (by decide), kept 63 (by decide),
    kept 64 (by decide), kept 65 (by decide)]

/-- Month, day, hour and minute have no more than two digits. -/
def TwoDigitTime (record : Frame) : Prop :=
  ((record 62).toNat < 100 ∧ (record 63).toNat < 100) ∧
    (record 64).toNat < 100 ∧ (record 65).toNat < 100

/-- The year of a record always has four digits. -/
theorem dateFits_loadedRow_iff (i : Nat) (record : Frame) :
    DateFits (loadedRow i record) ↔ TwoDigitTime record := by
  have kept : ∀ k : Fin 70, k ≠ 0 → loadedRow i record k = upDataOf record k :=
    fun _ => loadedRow_kept i record
  have year := (record 61).toNat_lt
  rw [DateFits, TwoDigitTime, kept 61 (by decide), kept 62 (by decide), kept 63 (by decide),
    kept 64 (by decide), kept 65 (by decide)]
  simp only [FitsWidth, upDataOf]
  omega

section Browse

variable {xres : Nat} {queue : List Frame} {history : History}

/-- The records stand in `data`. -/
structure IsLoaded (queue : List Frame) (history : History) : Prop where
  short : queue.length ≤ 8
  count : history.n = queue.length
  rows : ∀ (i : Nat) (occurs : i < queue.length) (inside : i < 10),
    history.data ⟨i, inside⟩ = loadedRow i queue[i]
  times : ∀ record ∈ queue, TwoDigitTime record

theorem IsLoaded.showRow (loaded : IsLoaded queue history) {position : Nat}
    (inside : position < queue.length) {state : Browsing} (stays : state.left = false) {num : Int}
    (isPosition : num = position) :
    ∃ shown, state.showRow xres history num = some shown ∧
      ShowsCursor xres queue ⟨position, false⟩ shown := by
  have short := loaded.short
  have atRow : rowAt history.data num = some (loadedRow position queue[position]) := by
    subst isPosition
    rw [rowAt, dif_pos (by omega)]
    exact congrArg some (loaded.rows position inside (by omega))
  have fits : DateFits (loadedRow position queue[position]) :=
    (dateFits_loadedRow_iff _ _).mpr (loaded.times _ (List.getElem_mem inside))
  refine ⟨_, showRow_eq_some_iff.mpr ⟨_, atRow, fits, rfl⟩, queue[position],
    List.getElem?_eq_getElem inside, isPosition, stays, ⟨state.pfbdata, ?_⟩, ?_, ?_⟩
  · dsimp only
  · intro bit small
    refine (ledOf_testBit (by omega) (by omega) bit).trans (decide_eq_decide.mpr ?_)
    simp only [true_and]
    omega
  · rw [if_neg Bool.false_ne_true, dateText_loadedRow]

/-- Each pass of the history loop moves the cursor. -/
theorem ShowsCursor.sample (loaded : IsLoaded queue history) {cursor : Cursor}
    {state : Browsing} (shows : ShowsCursor xres queue cursor state) (pushSwBuff : Switches) :
    ∃ after, state.sample xres history pushSwBuff = some after ∧
      ShowsCursor xres queue (cursor.move queue.length pushSwBuff) after := by
  rcases shows with ⟨record, atCursor, shows⟩
  have inside : cursor.position < queue.length := (List.getElem?_eq_some_iff.mp atCursor).1
  have num := shows.num
  have left := shows.left
  unfold Browsing.sample rowToShow Cursor.move firstSwitch secondSwitch thirdSwitch
  rw [left, num, loaded.count]
  split_ifs with leftAlready leaves older first newer last
  · exact ⟨state, rfl, record, atCursor, shows⟩
  · refine ⟨_, leave_eq state, record, atCursor, num, rfl, shows.picture, ?_, rfl⟩
    intro bit _
    exact Nat.zero_testBit bit
  all_goals rw [Bool.not_eq_true] at leftAlready
  · rw [leftAlready]
    exact loaded.showRow (by omega) (left.trans leftAlready) (by omega)
  · rw [leftAlready]
    exact loaded.showRow (by omega) (left.trans leftAlready) (by omega)
  · rw [leftAlready]
    exact loaded.showRow (by omega) (left.trans leftAlready) (by omega)
  · rw [leftAlready]
    exact loaded.showRow (by omega) (left.trans leftAlready) (by omega)
  · exact ⟨state, rfl, record, atCursor, shows⟩

theorem ShowsCursor.samples (loaded : IsLoaded queue history) (samples : List Switches) :
    ∀ {cursor : Cursor} {state : Browsing}, ShowsCursor xres queue cursor state →
      ∃ after, samples.foldlM (Browsing.sample xres history) state = some after ∧
        ShowsCursor xres queue (samples.foldl (Cursor.move queue.length) cursor) after := by
  induction samples with
  | nil => exact fun shows => ⟨_, rfl, shows⟩
  | cons pushSwBuff samples induction =>
      intro cursor state shows
      rcases shows.sample loaded pushSwBuff with ⟨next, stepped, nextShows⟩
      rcases induction nextShows with ⟨after, run, afterShows⟩
      exact ⟨after, by simp only [List.foldlM_cons, stepped, bind, Option.bind_some, run],
        afterShows⟩

end Browse

/-! ## From the file to the screen -/

end GamZ.Server
