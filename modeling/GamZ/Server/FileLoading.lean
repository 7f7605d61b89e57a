import GamZ.Foundation.TextRows
import GamZ.Server.StrBuff

/-! # When loading `input.txt` is safe

Both loaders store one piece of the file into each row and never look at the
number of the row. They stay inside `str_buff` for the files of at most ten
pieces. -/

namespace GamZ.Server

open CString Stdio

/-- Every file state of `input.txt` is loaded without a fault, by the receiver into
cleared rows and by the history view over whatever the rows held before. -/
def LoadsSafely (inputTxt : Option (List Byte)) : Prop :=
  (∃ loaded, loadRows inputTxt StrBuff.cleared = .ok loaded) ∧
    ∀ viewBuff : StrBuff, ∃ loaded, loadRows inputTxt viewBuff = .ok loaded

private theorem fgetsRow_piece {text : List Byte} (more : text ≠ []) :
    ∃ row next, fgetsRow ⟨text, false⟩ = (some row, next) ∧
      piecesNeeded 511 text = piecesNeeded 511 next.rest + 1 ∧
      (next.eof = true → next.rest = []) := by
  rcases fgets_piece (show 1 < 512 by decide) more with ⟨piece, next, read, count, atEnd⟩
  exact ⟨_, next, fgetsRow_of_line read, count, atEnd⟩

/-- What is left of the file is loaded from row `i` on, if its pieces fit the rows
that are left, and otherwise runs over the end of the array. -/
theorem loadLoop_pieces (rowsLeft : Nat) :
    ∀ (i : Nat) (strBuff : StrBuff) (text : List Byte), i + rowsLeft = 10 →
      if piecesNeeded 511 text ≤ rowsLeft then
        ∃ loaded, loadLoop rowsLeft i strBuff ⟨text, false⟩ = .ok loaded
      else loadLoop rowsLeft i strBuff ⟨text, false⟩ = .error .strBuffRow := by
  induction rowsLeft with
  | zero =>
      intro i strBuff text _
      by_cases empty : text = []
      · subst empty
        simp [loadLoop, fgetsRow_end]
      · rcases fgetsRow_piece empty with ⟨row, next, read, count, -⟩
        rw [if_neg (by omega), loadLoop, read]
  | succ rowsLeft induction =>
      intro i strBuff text atRow
      have inside : i < 10 := by omega
      by_cases empty : text = []
      · subst empty
        simp [loadLoop, fgetsRow_end, bind, Except.bind]
      · rcases fgetsRow_piece empty with ⟨row, ⟨rest, eof⟩, read, count, atEnd⟩
        have step : loadLoop (rowsLeft + 1) i strBuff ⟨text, false⟩ =
            if eof then .ok ⟨strBuff.set i row inside, i⟩
            else loadLoop rowsLeft (i + 1) (strBuff.set i row inside) ⟨rest, eof⟩ := by
          simp only [loadLoop, read, StrBuff.store_inside strBuff inside, bind, Except.bind]
        cases eof with
        | true =>
            have nothing : rest = [] := atEnd rfl
            subst nothing
            rw [if_pos (by simp [count]), step]
            exact ⟨_, rfl⟩
        | false =>
            have further := induction (i + 1) (strBuff.set i row inside) rest (by omega)
            simpa [step, count] using further

/-- A file is loaded up to its end or stops at the eleventh piece, whatever the rows
held before. -/
theorem loadRows_some_iff (text : List Byte) (strBuff : StrBuff) :
    (∃ loaded, loadRows (some text) strBuff = .ok loaded) ↔ piecesNeeded 511 text ≤ 10 := by
  have pieces := loadLoop_pieces 10 0 strBuff text rfl
  split_ifs at pieces with fits
  · exact ⟨fun _ => fits, fun _ => pieces⟩
  · constructor
    · intro loads
      rcases loads with ⟨loaded, run⟩
      rw [loadRows, fopenRead, pieces] at run
      cases run
    · exact fun fitting => absurd fitting fits

/-- Loading is safe for exactly the files that exist and have at most ten lines, a
line counted once for each 511 characters begun. -/
theorem loadsSafely_iff (inputTxt : Option (List Byte)) :
    LoadsSafely inputTxt ↔
      ∃ text, inputTxt = some text ∧ piecesNeeded 511 text ≤ 10 := by
  cases inputTxt with
  | none =>
      constructor
      · intro safe
        rcases safe with ⟨⟨loaded, run⟩, -⟩
        cases run
      · intro found
        rcases found with ⟨text, present, -⟩
        cases present
  | some text =>
      constructor
      · intro safe
        exact ⟨text, rfl, (loadRows_some_iff text _).mp safe.1⟩
      · intro found
        rcases found with ⟨_, present, fits⟩
        cases present
        exact ⟨(loadRows_some_iff text _).mpr fits, fun viewBuff =>
          (loadRows_some_iff text viewBuff).mpr fits⟩

/-- Before the first frame was ever stored there is no file, and `fgets` is called
on the null stream. -/
theorem absent_file_not_safe : ¬ ∀ inputTxt, LoadsSafely inputTxt := by
  intro safe
  rcases safe none with ⟨⟨loaded, run⟩, -⟩
  cases run

end GamZ.Server
