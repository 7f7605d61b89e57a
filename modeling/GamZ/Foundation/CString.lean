import Mathlib.Data.List.Lex

/-! # C strings

Character arrays of a C program are byte lists. The string held by an array is
what precedes its first NUL; a list that ends stands for memory that reads as
NUL from there on. -/

namespace GamZ.CString

abbrev Byte := UInt8

/-- The byte a C character literal denotes. -/
def byte (character : Char) : Byte :=
  character.toNat.toUInt8

def contents (array : List Byte) : List Byte :=
  array.takeWhile (· ≠ 0)

@[simp] theorem contents_nil : contents [] = [] := rfl

@[simp] theorem contents_zero (rest : List Byte) : contents (0 :: rest) = [] := by
  simp [contents]

theorem contents_cons {head : Byte} (nonzero : head ≠ 0) (rest : List Byte) :
    contents (head :: rest) = head :: contents rest := by
  simp [contents, nonzero]

/-- Bytes without a NUL in front of a terminator are the whole string. -/
theorem contents_append_zero (text rest : List Byte) (noNul : (0 : Byte) ∉ text) :
    contents (text ++ 0 :: rest) = text := by
  induction text with
  | nil => simp
  | cons head tail induction =>
      have headNonzero : head ≠ 0 := fun equal => noNul (by simp [equal])
      have tailNoNul : (0 : Byte) ∉ tail := fun member => noNul (by simp [member])
      rw [List.cons_append, contents_cons headNonzero, induction tailNoNul]

theorem contents_of_noNul (text : List Byte) (noNul : (0 : Byte) ∉ text) :
    contents text = text := by
  induction text with
  | nil => rfl
  | cons head tail induction =>
      have headNonzero : head ≠ 0 := fun equal => noNul (by simp [equal])
      have tailNoNul : (0 : Byte) ∉ tail := fun member => noNul (by simp [member])
      rw [contents_cons headNonzero, induction tailNoNul]

@[simp] theorem contents_append_replicate (array : List Byte) (count : Nat) :
    contents (array ++ List.replicate count 0) = contents array := by
  induction array with
  | nil => cases count <;> simp [List.replicate_succ]
  | cons head tail induction =>
      by_cases zero : head = 0
      · simp [zero]
      · rw [List.cons_append, contents_cons zero, contents_cons zero, induction]

theorem zero_not_mem_contents (array : List Byte) : (0 : Byte) ∉ contents array := by
  induction array with
  | nil => simp
  | cons head tail induction =>
      by_cases zero : head = 0
      · simp [zero]
      · simp [contents_cons zero, induction, Ne.symm zero]

/-- A string is compared with a text up to the terminator of the text. -/
theorem contents_eq_iff {text : List Byte} (noNul : (0 : Byte) ∉ text) :
    ∀ array : List Byte, contents array = text ↔
      ∀ i ≤ text.length, array.getD i 0 = text.getD i 0 := by
  induction text with
  | nil =>
      intro array
      cases array with
      | nil => simp
      | cons head tail =>
          by_cases zero : head = 0
          · simp [zero]
          · simp [contents_cons zero, zero]
  | cons character text induction =>
      have nonzero : character ≠ 0 := fun equal => noNul (by simp [equal])
      have rest := induction fun member => noNul (List.mem_cons_of_mem _ member)
      intro array
      cases array with
      | nil =>
          refine iff_of_false (fun equal => by cases equal) fun same => nonzero ?_
          exact (same 0 (Nat.zero_le _)).symm
      | cons head tail =>
          constructor
          · intro equal i within
            have headNonzero : head ≠ 0 := by
              intro zero
              rw [zero, contents_zero] at equal
              cases equal
            rw [contents_cons headNonzero, List.cons.injEq] at equal
            cases i with
            | zero => exact equal.1
            | succ i => exact (rest tail).mp equal.2 i (Nat.le_of_succ_le_succ within)
          · intro same
            have isHead : head = character := same 0 (Nat.zero_le _)
            rw [isHead, contents_cons nonzero]
            refine congrArg (character :: ·) ((rest tail).mpr fun i within => ?_)
            exact same (i + 1) (Nat.succ_le_succ within)

/-- `strcmp`: the difference of the first pair of characters that differ. -/
def strcmp : List Byte → List Byte → Int
  | [], [] => 0
  | [], right :: _ => -(right.toNat : Int)
  | left :: _, [] => left.toNat
  | left :: leftRest, right :: rightRest =>
      if left = right then
        if left = 0 then 0 else strcmp leftRest rightRest
      else (left.toNat : Int) - right.toNat

/-- Strings are ordered by their unsigned character codes. -/
def sortKey (array : List Byte) : List Nat :=
  (contents array).map UInt8.toNat

@[simp] theorem sortKey_nil : sortKey [] = [] := rfl

@[simp] theorem sortKey_zero (rest : List Byte) : sortKey (0 :: rest) = [] := by
  simp [sortKey]

theorem sortKey_cons {head : Byte} (nonzero : head ≠ 0) (rest : List Byte) :
    sortKey (head :: rest) = head.toNat :: sortKey rest := by
  simp [sortKey, contents_cons nonzero]

theorem sortKey_eq_iff (left right : List Byte) :
    sortKey left = sortKey right ↔ contents left = contents right := by
  have injective : Function.Injective UInt8.toNat := fun _ _ => UInt8.toNat_inj.mp
  exact (List.map_injective_iff.mpr injective).eq_iff

private theorem toNat_pos {value : Byte} (nonzero : value ≠ 0) : 0 < value.toNat := by
  have toNatNonzero : value.toNat ≠ (0 : Byte).toNat := fun equal =>
    nonzero (UInt8.toNat_inj.mp equal)
  exact Nat.pos_of_ne_zero toNatNonzero

/-- The sign of `strcmp` is the order of the two strings. -/
theorem strcmp_sign (left right : List Byte) :
    (strcmp left right < 0 ↔ sortKey left < sortKey right) ∧
      (0 < strcmp left right ↔ sortKey right < sortKey left) := by
  induction left, right using strcmp.induct with
  | case1 => simp [strcmp]
  | case2 right rest =>
      by_cases zero : right = 0
      · simp [strcmp, zero]
      · have positive := toNat_pos zero
        simp [strcmp, sortKey_cons zero]
        omega
  | case3 left rest =>
      by_cases zero : left = 0
      · simp [strcmp, zero]
      · have positive := toNat_pos zero
        simp [strcmp, sortKey_cons zero]
        omega
  | case4 leftRest rightRest => simp [strcmp]
  | case5 head leftRest rightRest nonzero induction =>
      simpa [strcmp, nonzero, sortKey_cons nonzero] using induction
  | case6 left leftRest right rightRest different =>
      have toNatDifferent : left.toNat ≠ right.toNat := fun equal =>
        different (UInt8.toNat_inj.mp equal)
      simp only [strcmp, if_neg different]
      by_cases leftZero : left = 0
      · have rightNonzero : right ≠ 0 := fun equal => different (leftZero.trans equal.symm)
        have positive := toNat_pos rightNonzero
        simp [leftZero, sortKey_cons rightNonzero]
        omega
      · by_cases rightZero : right = 0
        · have positive := toNat_pos leftZero
          simp [rightZero, sortKey_cons leftZero]
          omega
        · simp only [sortKey_cons leftZero, sortKey_cons rightZero,
            List.cons_lt_cons_iff]
          constructor <;> omega

theorem strcmp_neg_iff (left right : List Byte) :
    strcmp left right < 0 ↔ sortKey left < sortKey right :=
  (strcmp_sign left right).1

theorem strcmp_pos_iff (left right : List Byte) :
    0 < strcmp left right ↔ sortKey right < sortKey left :=
  (strcmp_sign left right).2

theorem strcmp_eq_zero_iff (left right : List Byte) :
    strcmp left right = 0 ↔ contents left = contents right := by
  rw [← sortKey_eq_iff]
  have negative := strcmp_neg_iff left right
  have positive := strcmp_pos_iff left right
  constructor
  · intro equal
    rcases lt_trichotomy (sortKey left) (sortKey right) with less | same | greater
    · have := negative.mpr less
      omega
    · exact same
    · have := positive.mpr greater
      omega
  · intro same
    have notLess : ¬ strcmp left right < 0 := fun less =>
      absurd (negative.mp less) (by simp [same])
    have notGreater : ¬ 0 < strcmp left right := fun greater =>
      absurd (positive.mp greater) (by simp [same])
    omega

end GamZ.CString
