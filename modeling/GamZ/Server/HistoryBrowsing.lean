import GamZ.Server.HistoryLoader
import GamZ.Server.MakeRadar
import GamZ.TextLcd

/-! # Browsing the history

After the history is loaded, `update_process` shows its newest row. Two switches
step through the rows, a third one ends the loop. -/

namespace GamZ.Server

open CString Raster

/-- `push_sw_buff`, one byte for each switch. -/
abbrev Switches := Fin 9 → Byte

def firstSwitch (pushSwBuff : Switches) : Byte := pushSwBuff 0

def secondSwitch (pushSwBuff : Switches) : Byte := pushSwBuff 1

def thirdSwitch (pushSwBuff : Switches) : Byte := pushSwBuff 2

def nonePressed : Switches := fun _ => 0

/-- The first switch enters the history, and there it goes to older records. -/
def firstPressed : Switches := fun i => if i = 0 then 1 else 0

/-- The third switch leaves the history. -/
def thirdPressed : Switches := fun i => if i = 2 then 1 else 0

/-- What the history loop holds and shows. The values of `num` with which `data` was
used are kept as history. -/
structure Browsing where
  num : Int
  ledNum : Byte
  pfbdata : FrameBuffer Color
  /-- The 32 bytes on the text LCD. -/
  lines : List Byte
  uses : List Int
  left : Bool

/-- `(char) pow(2.0, num)` -/
def ledOf (num : Int) : Byte :=
  if 0 ≤ num then UInt8.ofNat (2 ^ num.toNat) else 0

/-- `data[num]` -/
def rowAt (data : Fin 10 → Fin 70 → Int) (num : Int) : Option (Fin 70 → Int) :=
  if inside : 0 ≤ num ∧ num < 10 then some (data ⟨num.toNat, by omega⟩) else none

/-- The row that a pass of the history loop shows again, or another one. -/
def rowToShow (n : Nat) (num : Int) (pushSwBuff : Switches) : Option Int :=
  if pushSwBuff 0 = 1 then some (if num > 0 then num - 1 else num)
  else if pushSwBuff 1 = 1 then some (if num < (n : Int) - 1 then num + 1 else num)
  else none

/-- The LEDs, the image and the text of a row. -/
def Browsing.withRow (xres : Nat) (state : Browsing) (num : Int) (row : Fin 70 → Int) :
    Option Browsing :=
  (shownLines (dateText row) historyMenu).map fun lines =>
    { state with
      num
      ledNum := ledOf num
      pfbdata := (makeRadar xres row state.pfbdata).pfbdata
      lines
      uses := state.uses ++ [num] }

def Browsing.showRow (xres : Nat) (history : History) (state : Browsing) (num : Int) :
    Option Browsing :=
  (rowAt history.data num).bind (state.withRow xres num)

/-- The branch of the exit switch. -/
def Browsing.leave (state : Browsing) : Option Browsing :=
  (shownLines serverName idleMenu).map fun lines =>
    { state with lines, ledNum := 0, left := true }

def Browsing.loaded (history : History) (pfbdata : FrameBuffer Color) : Browsing where
  num := (history.n : Int) - 1
  ledNum := 0
  pfbdata := pfbdata
  lines := []
  uses := []
  left := false

/-- `num = n-1;` and the first row shown. -/
def enterHistory (xres : Nat) (history : History) (pfbdata : FrameBuffer Color) :
    Option Browsing :=
  (Browsing.loaded history pfbdata).showRow xres history ((history.n : Int) - 1)

/-- One pass of the history loop; after the `break` there are none. -/
def Browsing.sample (xres : Nat) (history : History) (state : Browsing)
    (pushSwBuff : Switches) : Option Browsing :=
  if state.left then some state
  else if pushSwBuff 2 = 1 then state.leave
  else
    match rowToShow history.n state.num pushSwBuff with
    | some num => state.showRow xres history num
    | none => some state

def browse (xres : Nat) (history : History) (pfbdata : FrameBuffer Color)
    (samples : List Switches) : Option Browsing := do
  let entered ← enterHistory xres history pfbdata
  samples.foldlM (Browsing.sample xres history) entered

/-! ## On the rows -/

/-- The LED, the image and the text are those of row `num`, and `data` was used with
loaded rows only. -/
structure ShowsRow (xres : Nat) (history : History) (state : Browsing) : Prop where
  inside : 0 ≤ state.num ∧ state.num < history.n
  uses : ∀ num ∈ state.uses, 0 ≤ num ∧ num < history.n
  led : state.left = false → ∀ bit < 8,
    state.ledNum.toNat.testBit bit = decide ((bit : Int) = state.num)
  image : ∃ row before, rowAt history.data state.num = some row ∧
    state.pfbdata = (makeRadar xres row before).pfbdata ∧
    (state.left = false → state.lines = paddedLine (dateText row) ++ paddedLine historyMenu)

/-- From entering the history on, whatever the switches are. -/
def StaysOnRows (xres : Nat) (history : History) (pfbdata : FrameBuffer Color)
    (samples : List Switches) : Prop :=
  ∃ state, browse xres history pfbdata samples = some state ∧ ShowsRow xres history state

/-- The times of the loaded records have no more digits than their formats. -/
def DatesFit (history : History) : Prop :=
  ∀ row : Fin 10, row.val < history.n → DateFits (history.data row)

instance (history : History) : Decidable (DatesFit history) := by
  unfold DatesFit
  infer_instance

theorem ledOf_testBit {num : Int} (low : 0 ≤ num) (high : num < 8) (bit : Nat) :
    (ledOf num).toNat.testBit bit = decide ((bit : Int) = num) := by
  have small : 2 ^ num.toNat < 2 ^ 8 := Nat.pow_lt_pow_right (by decide) (by omega)
  rw [ledOf, if_pos low, UInt8.toNat_ofNat', Nat.mod_eq_of_lt small, Nat.testBit_two_pow]
  apply decide_eq_decide.mpr
  omega

/-- The guards keep `num` on the rows. -/
theorem rowToShow_inside {n : Nat} {num next : Int} {pushSwBuff : Switches}
    (inside : 0 ≤ num ∧ num < n) (isNext : rowToShow n num pushSwBuff = some next) :
    0 ≤ next ∧ next < n := by
  unfold rowToShow at isNext
  split_ifs at isNext <;> cases isNext
  · omega
  · exact inside
  · omega
  · exact inside

/-- The date of a row is shown if it fits its line. -/
theorem shownLines_date (row : Fin 70 → Int) :
    shownLines (dateText row) historyMenu =
      if DateFits row then some (paddedLine (dateText row) ++ paddedLine historyMenu)
      else none := by
  have menu : historyMenu.length ≤ 16 := by decide
  rw [shownLines_eq (zero_not_mem_dateText row) zero_not_mem_menus.2]
  simp only [length_dateText_le_iff, menu, and_true]

theorem leave_eq (state : Browsing) :
    state.leave = some { state with
      lines := paddedLine serverName ++ paddedLine idleMenu, ledNum := 0, left := true } := by
  rw [Browsing.leave, shownLines_eq (by decide) zero_not_mem_menus.1, if_pos (by decide),
    Option.map_some]

section Rows

variable {xres : Nat} {history : History} {state : Browsing}

theorem rowAt_inside (data : Fin 10 → Fin 70 → Int) {num : Int} (low : 0 ≤ num) (high : num < 10) :
    rowAt data num = some (data ⟨num.toNat, by omega⟩) :=
  dif_pos ⟨low, high⟩

/-- A row is shown exactly if it is there and its date fits. -/
theorem showRow_eq_some_iff {num : Int} {after : Browsing} :
    state.showRow xres history num = some after ↔
      ∃ row, rowAt history.data num = some row ∧ DateFits row ∧
        after = { state with
          num := num
          ledNum := ledOf num
          pfbdata := (makeRadar xres row state.pfbdata).pfbdata
          lines := paddedLine (dateText row) ++ paddedLine historyMenu
          uses := state.uses ++ [num] } := by
  rw [Browsing.showRow, Option.bind_eq_some_iff]
  apply exists_congr
  intro row
  apply and_congr_right
  intro _
  rw [Browsing.withRow, shownLines_date]
  split_ifs with fits
  · rw [Option.map_some, Option.some.injEq]
    exact ⟨fun same => ⟨fits, same.symm⟩, fun same => same.2.symm⟩
  · exact iff_of_false (fun shown => by cases shown) fun shown => fits shown.1

theorem showRow_loaded (short : history.n ≤ 8) (dates : DatesFit history)
    (uses : ∀ num ∈ state.uses, 0 ≤ num ∧ num < (history.n : Int)) {num : Int}
    (inside : 0 ≤ num ∧ num < history.n) :
    ∃ after, state.showRow xres history num = some after ∧ ShowsRow xres history after := by
  have atRow := rowAt_inside history.data inside.1 (by omega)
  refine ⟨_, showRow_eq_some_iff.mpr ⟨_, atRow, dates _ ?_, rfl⟩, inside, ?_, ?_, ?_⟩
  · dsimp only
    omega
  · intro used member
    rcases List.mem_append.mp member with earlier | last
    · exact uses used earlier
    · rw [List.mem_singleton.mp last]
      exact inside
  · exact fun _ bit _ => ledOf_testBit inside.1 (by omega) bit
  · exact ⟨_, state.pfbdata, atRow, by dsimp only, fun _ => by dsimp only⟩

theorem ShowsRow.sample (short : history.n ≤ 8) (dates : DatesFit history)
    (shows : ShowsRow xres history state) (pushSwBuff : Switches) :
    ∃ after, state.sample xres history pushSwBuff = some after ∧ ShowsRow xres history after := by
  unfold Browsing.sample
  split_ifs with left leaves
  · exact ⟨state, rfl, shows⟩
  · refine ⟨_, leave_eq state, shows.inside, shows.uses, ?_, ?_⟩
    · intro stays
      cases stays
    · rcases shows.image with ⟨row, before, atRow, image, -⟩
      exact ⟨row, before, atRow, image, fun stays => by cases stays⟩
  · cases isNext : rowToShow history.n state.num pushSwBuff with
    | none => exact ⟨state, rfl, shows⟩
    | some next => exact showRow_loaded short dates shows.uses (rowToShow_inside shows.inside isNext)

theorem ShowsRow.samples (short : history.n ≤ 8) (dates : DatesFit history)
    (samples : List Switches) :
    ∀ {state : Browsing}, ShowsRow xres history state →
      ∃ after, samples.foldlM (Browsing.sample xres history) state = some after ∧
        ShowsRow xres history after := by
  induction samples with
  | nil => exact fun shows => ⟨_, rfl, shows⟩
  | cons pushSwBuff samples induction =>
      intro state shows
      rcases shows.sample short dates pushSwBuff with ⟨next, stepped, nextShows⟩
      rcases induction nextShows with ⟨after, run, afterShows⟩
      exact ⟨after, by simp only [List.foldlM_cons, stepped, bind, Option.bind_some, run],
        afterShows⟩

end Rows

theorem enterHistory_empty (xres : Nat) {history : History} (empty : history.n = 0)
    (pfbdata : FrameBuffer Color) : enterHistory xres history pfbdata = none := by
  have outside : rowAt history.data ((history.n : Int) - 1) = none := dif_neg (by omega)
  rw [enterHistory, Browsing.showRow, outside, Option.bind_none]

/-! ## Back to the oldest row -/

section Older

variable {xres : Nat} {history : History} {pfbdata : FrameBuffer Color}

theorem sample_older {state : Browsing} (stays : state.left = false) (later : 0 < state.num) :
    state.sample xres history firstPressed = state.showRow xres history (state.num - 1) := by
  have next : rowToShow history.n state.num firstPressed = some (state.num - 1) := by
    rw [rowToShow, if_pos (by decide), if_pos later]
  rw [Browsing.sample, stays, if_neg Bool.false_ne_true, if_neg (by decide), next]

theorem browse_concat (samples : List Switches) (last : Switches) :
    browse xres history pfbdata (samples ++ [last]) =
      (browse xres history pfbdata samples).bind
        fun state => state.sample xres history last := by
  simp only [browse, List.foldlM_append, List.foldlM_cons, List.foldlM_nil, bind,
    Option.bind_assoc, pure, Option.bind_fun_some]

/-- Pressed again and again, it shows every row in turn. -/
theorem shown_older (stays : ∀ samples, StaysOnRows xres history pfbdata samples) (count : Nat)
    (occurs : count < history.n) :
    ∃ state row, browse xres history pfbdata (List.replicate count firstPressed) = some state ∧
      state.left = false ∧ state.num = (history.n : Int) - 1 - count ∧
      rowAt history.data state.num = some row ∧ DateFits row := by
  induction count with
  | zero =>
      rcases stays [] with ⟨state, run, -⟩
      have entered : enterHistory xres history pfbdata = some state := by
        simpa only [browse, List.foldlM_nil, bind, pure, Option.bind_fun_some] using run
      rcases showRow_eq_some_iff.mp entered with ⟨row, atRow, fits, isState⟩
      subst isState
      exact ⟨_, row, run, rfl, (Int.sub_zero _).symm, atRow, fits⟩
  | succ count induction =>
      rcases induction (by omega) with ⟨state, -, run, left, num, -, -⟩
      rcases stays (List.replicate (count + 1) firstPressed) with ⟨after, runAfter, -⟩
      rw [List.replicate_succ', browse_concat, run, Option.bind_some,
        sample_older left (by omega)] at runAfter
      have wholeRun := runAfter
      rcases showRow_eq_some_iff.mp runAfter with ⟨row, atRow, fits, isAfter⟩
      refine ⟨after, row, ?_, ?_, ?_, ?_, fits⟩
      · rw [List.replicate_succ', browse_concat, run, Option.bind_some,
          sample_older left (by omega), wholeRun]
      · rw [isAfter]
        exact left
      · rw [isAfter]
        dsimp only
        omega
      · rw [isAfter]
        exact atRow

end Older

/-- Browsing stays on the loaded rows exactly when there is one and all dates fit. -/
theorem history_browsing_iff (xres : Nat) (history : History) (short : history.n ≤ 8)
    (pfbdata : FrameBuffer Color) :
    (∀ samples, StaysOnRows xres history pfbdata samples) ↔
      0 < history.n ∧ DatesFit history := by
  constructor
  · intro stays
    constructor
    · by_contra noRow
      rcases stays [] with ⟨state, run, -⟩
      simp only [browse, enterHistory_empty xres (Nat.eq_zero_of_not_pos noRow) pfbdata, bind,
        Option.bind_none] at run
      cases run
    · intro row occurs
      rcases shown_older stays (history.n - 1 - row.val) (by omega) with
        ⟨state, found, -, -, num, atRow, fits⟩
      have isRow : state.num = row.val := by omega
      rw [isRow, rowAt_inside _ (by omega) (by omega)] at atRow
      cases atRow
      exact fits
  · intro fine samples
    rcases fine with ⟨hasRow, dates⟩
    have noUses : ∀ num ∈ (Browsing.loaded history pfbdata).uses,
        0 ≤ num ∧ num < (history.n : Int) := by
      intro num member
      cases member
    have newest : (0 : Int) ≤ (history.n : Int) - 1 ∧ (history.n : Int) - 1 < history.n := by
      omega
    rcases showRow_loaded short dates noUses newest with ⟨entered, run, shows⟩
    rcases shows.samples short dates samples with ⟨state, runs, stateShows⟩
    exact ⟨state, by simp only [browse, enterHistory, run, bind, Option.bind_some, runs],
      stateShows⟩

/-- Two rows of the end of November 2020. -/
def twoRows : History where
  n := 2
  data := fun _ k =>
    if k = 61 then 120 else if k = 62 then 11 else if k = 63 then 30 else if k = 64 then 23
    else if k = 65 then 59 else 50

theorem two_rows_browsed :
    StaysOnRows 1024 twoRows (fun _ => black) [firstPressed, nonePressed, firstPressed] :=
  (history_browsing_iff 1024 twoRows (by decide) fun _ => black).mpr (by decide) _

/-- An empty `input.txt`: the history shows `data[-1]`. -/
theorem empty_history_leaves_rows :
    ¬ ∀ (xres : Nat) (history : History) (pfbdata : FrameBuffer Color) (samples : List Switches),
      history.n ≤ 8 → StaysOnRows xres history pfbdata samples := by
  intro always
  have empty : History.n { n := 0, data := fun _ _ => 0 } = 0 := rfl
  rcases always 1024 _ (fun _ => black) [] (Nat.le_trans (Nat.le_of_eq empty) (by decide)) with
    ⟨state, run, -⟩
  simp only [browse, enterHistory_empty 1024 empty (fun _ => black), bind,
    Option.bind_none] at run
  cases run

end GamZ.Server
