import GamZ.Foundation.Stdio

/-! # Lines cut into rows

`fgets` reads a line that does not fit its buffer in several pieces. The number of
pieces of a text follows from the lengths of its lines. -/

namespace GamZ.Stdio

open CString

/-- The lines of a text, each with the newline that ends it. -/
def textLines : List Byte → List (List Byte)
  | [] => []
  | character :: rest =>
      if character = newline then [character] :: textLines rest
      else
        match textLines rest with
        | [] => [[character]]
        | line :: lines => (character :: line) :: lines

/-- The pieces of at most `room` characters that a line is cut into. -/
def piecesOf (room : Nat) (line : List Byte) : Nat :=
  (line.length + room - 1) / room

def piecesNeeded (room : Nat) (text : List Byte) : Nat :=
  ((textLines text).map (piecesOf room)).sum

theorem textLines_newline (rest : List Byte) :
    textLines (newline :: rest) = [newline] :: textLines rest := by
  rw [textLines, if_pos rfl]

theorem textLines_other {character : Byte} (other : character ≠ newline) (rest : List Byte) :
    textLines (character :: rest) =
      match textLines rest with
      | [] => [[character]]
      | line :: lines => (character :: line) :: lines := by
  rw [textLines, if_neg other]

theorem textLines_eq_nil_iff (text : List Byte) : textLines text = [] ↔ text = [] := by
  cases text with
  | nil => simp [textLines]
  | cons character rest =>
      rw [textLines]
      split_ifs
      · simp
      · split <;> simp

theorem textLines_head_ne_nil {text line : List Byte} {lines : List (List Byte)}
    (split : textLines text = line :: lines) : line ≠ [] := by
  cases text with
  | nil => cases split
  | cons character rest =>
      by_cases isNewline : character = newline
      · subst isNewline
        rw [textLines_newline, List.cons.injEq] at split
        simp [← split.1]
      · rw [textLines_other isNewline] at split
        cases tail : textLines rest <;> rw [tail] at split <;> cases split <;> simp

/-- `takeLine` takes as much of the first line as there is room for. -/
theorem takeLine_textLines (text : List Byte) :
    ∀ (room : Nat) (line : List Byte) (lines : List (List Byte)), textLines text = line :: lines →
      ∃ eof rest, takeLine room text = (line.take room, rest, eof) ∧
        textLines rest = (if room < line.length then [line.drop room] else []) ++ lines ∧
        (eof = true → rest = []) := by
  induction text with
  | nil =>
      intro room line lines split
      cases split
  | cons character text induction =>
      intro room line lines split
      have nonempty := List.length_pos_iff.mpr (textLines_head_ne_nil split)
      cases room with
      | zero =>
          exact ⟨false, character :: text, by simp [takeLine], by simp [nonempty, split], by simp⟩
      | succ room =>
          by_cases isNewline : character = newline
          · subst isNewline
            rw [textLines_newline, List.cons.injEq] at split
            rcases split with ⟨isLine, rest⟩
            subst isLine
            exact ⟨false, text, by simp [takeLine], by simp [rest], by simp⟩
          · rw [textLines_other isNewline] at split
            cases tail : textLines text with
            | nil =>
                rw [tail] at split
                cases split
                have isNil := (textLines_eq_nil_iff text).mp tail
                subst isNil
                cases room with
                | zero =>
                    exact ⟨false, [], by simp [takeLine, isNewline], by simp [textLines], by simp⟩
                | succ room =>
                    exact ⟨true, [], by simp [takeLine, isNewline], by simp [textLines], by simp⟩
            | cons next others =>
                rw [tail] at split
                cases split
                rcases induction room next _ tail with ⟨eof, rest, taken, restLines, atEnd⟩
                refine ⟨eof, rest, ?_, ?_, atEnd⟩
                · simp [takeLine, isNewline, taken]
                · simpa using restLines

/-- A line that does not fit leaves its remainder, which needs one piece less. -/
theorem piecesOf_drop {room : Nat} (positive : 0 < room) {line : List Byte}
    (nonempty : line ≠ []) :
    piecesOf room line =
      (if room < line.length then piecesOf room (line.drop room) else 0) + 1 := by
  have long := List.length_pos_iff.mpr nonempty
  rw [piecesOf]
  split_ifs with cut
  · have shift : line.length + room - 1 = (line.drop room).length + room - 1 + room := by
      rw [List.length_drop]
      omega
    rw [piecesOf, shift, Nat.add_div_right _ positive]
  · have split : line.length + room - 1 = line.length - 1 + room := by omega
    have small : line.length - 1 < room := by omega
    rw [split, Nat.add_div_right _ positive, Nat.div_eq_of_lt small]

@[simp] theorem piecesNeeded_nil (room : Nat) : piecesNeeded room [] = 0 := rfl

/-- Before the end of the text `fgets` reads one of its pieces. -/
theorem fgets_piece {size : Nat} (large : 1 < size) {text : List Byte} (more : text ≠ []) :
    ∃ piece next, fgets size ⟨text, false⟩ = (some piece, next) ∧
      piecesNeeded (size - 1) text = piecesNeeded (size - 1) next.rest + 1 ∧
      (next.eof = true → next.rest = []) := by
  have room : 0 < size - 1 := by omega
  cases split : textLines text with
  | nil => exact absurd ((textLines_eq_nil_iff text).mp split) more
  | cons line lines =>
      rcases takeLine_textLines text (size - 1) line lines split with
        ⟨eof, rest, taken, restLines, atEnd⟩
      have nonempty := textLines_head_ne_nil split
      have read : line.take (size - 1) ≠ [] := by
        rw [Ne, List.take_eq_nil_iff]
        exact not_or.mpr ⟨by omega, nonempty⟩
      refine ⟨line.take (size - 1), ⟨rest, eof⟩, ?_, ?_, atEnd⟩
      · simp [fgets, taken, read]
      · rw [piecesNeeded, piecesNeeded, split, restLines, List.map_cons, List.sum_cons,
          piecesOf_drop room nonempty]
        split_ifs <;> simp <;> omega

end GamZ.Stdio
