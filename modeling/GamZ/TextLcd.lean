import GamZ.Foundation.CharBuffer
import GamZ.Frame

/-! # The two lines of the text LCD

Client and server put both lines together in the same way: each line is formatted
in `str`, appended to `string`, and filled up with spaces. -/

namespace GamZ

open CString Stdio CharBuffer

/-- `LINE_BUFF`, also the size of `str`. -/
def lineBuff : Nat := 16

/-- `MAX_BUFF`, also the size of `string`. -/
def maxBuff : Nat := 32

/-- `sprintf` or `strcpy` to `str`, then `strncat` and `memset` for the line that
starts at `offset`. -/
def appendLine (str string : List Byte) (offset : Nat) (text : List Byte) :
    Option (List Byte × List Byte) := do
  let str ← strcpy str text
  let strSize := strlen str
  let string ← strncat string str strSize
  let string ← memset string (offset + strSize) space ((lineBuff : Int) - strSize)
  pure (str, string)

/-- Both lines, over a `string` that has been cleared. -/
def composeInto (str string first second : List Byte) : Option (List Byte × List Byte) := do
  let (str, string) ← appendLine str string 0 first
  appendLine str string lineBuff second

/-- `str` and the bytes that are written to the text LCD. -/
def composeLines (str first second : List Byte) : Option (List Byte × List Byte) :=
  composeInto str (List.replicate maxBuff 0) first second

/-- The bytes on the text LCD where the byte behind each array takes a terminator. -/
def shownLines (first second : List Byte) : Option (List Byte) :=
  (composeInto (List.replicate (lineBuff + 1) 0) (List.replicate (maxBuff + 1) 0) first
    second).map fun composed => composed.2.take maxBuff

def paddedLine (text : List Byte) : List Byte :=
  text ++ List.replicate (lineBuff - text.length) space

theorem length_paddedLine {text : List Byte} (short : text.length ≤ 16) :
    (paddedLine text).length = 16 := by
  simp only [paddedLine, lineBuff, List.length_append, List.length_replicate]
  omega

theorem zero_not_mem_paddedLine {text : List Byte} (noNul : (0 : Byte) ∉ text) :
    (0 : Byte) ∉ paddedLine text := by
  intro member
  rcases List.mem_append.mp member with inText | inSpaces
  · exact noNul inText
  · exact absurd (List.eq_of_mem_replicate inSpaces) (by decide)

/-! ## Inside the arrays -/

/-- The text goes to the first NUL of `string`. -/
private theorem strncat_behind {before stored text : List Byte} {room : Nat}
    (beforeNoNul : (0 : Byte) ∉ before) (holds : contents stored = text)
    (short : text.length + 1 ≤ room) :
    strncat (before ++ List.replicate room 0) stored text.length =
      some (before ++ (text ++ List.replicate (room - text.length) 0)) := by
  have split : List.replicate room (0 : Byte) =
      List.replicate (text.length + 1) 0 ++ List.replicate (room - text.length - 1) 0 := by
    rw [List.replicate_append_replicate]
    congr 1
    omega
  have terminated : text ++ [0] ++ List.replicate (room - text.length - 1) (0 : Byte) =
      text ++ List.replicate (room - text.length) 0 := by
    rw [List.append_assoc, List.singleton_append, ← List.replicate_succ]
    congr 2
    omega
  rw [strncat, strlen, contents_append_replicate, contents_of_noNul before beforeNoNul, holds,
    List.take_length, split, storeAt_append _ _ _ _ (by simp), terminated]

/-- The spaces go behind the text. -/
private theorem memset_behind {before text : List Byte} {room : Nat}
    (short : text.length ≤ 16) (enough : 16 ≤ room) :
    memset (before ++ (text ++ List.replicate (room - text.length) 0))
        (before.length + text.length) space ((lineBuff : Int) - text.length) =
      some (before ++ (paddedLine text ++ List.replicate (room - 16) 0)) := by
  have count : (((lineBuff : Int) - text.length) % 2 ^ 32).toNat = 16 - text.length := by
    simp only [lineBuff]
    omega
  have split : List.replicate (room - text.length) (0 : Byte) =
      List.replicate (16 - text.length) 0 ++ List.replicate (room - 16) 0 := by
    rw [List.replicate_append_replicate]
    congr 1
    omega
  have stored := storeAt_append (before ++ text) (List.replicate (16 - text.length) 0)
    (List.replicate (room - 16) 0) (List.replicate (16 - text.length) space) (by simp)
  rw [List.length_append] at stored
  rw [memset, count, split, ← List.append_assoc, stored, paddedLine, lineBuff]
  simp only [List.append_assoc]

/-- A line that fits `str` with its terminator goes behind the text that is there. -/
theorem appendLine_inside {str before text : List Byte} {room : Nat}
    (inside : text.length < str.length) (noNul : (0 : Byte) ∉ text)
    (beforeNoNul : (0 : Byte) ∉ before) (short : text.length ≤ 16) (enough : 16 ≤ room)
    (terminated : text.length + 1 ≤ room) :
    ∃ stored, stored.length = str.length ∧
      appendLine str (before ++ List.replicate room 0) before.length text =
        some (stored, before ++ (paddedLine text ++ List.replicate (room - 16) 0)) := by
  have copied : strcpy str text = some (text ++ 0 :: str.drop (text.length + 1)) :=
    strcpy_eq_some_iff.mpr ⟨inside, rfl⟩
  have holds := contents_strcpy noNul copied
  have sizeOfText : strlen (text ++ 0 :: str.drop (text.length + 1)) = text.length := by
    rw [strlen, holds]
  refine ⟨_, length_strcpy copied, ?_⟩
  simp only [appendLine, copied, sizeOfText, bind, Option.bind_some,
    strncat_behind beforeNoNul holds terminated, memset_behind short enough, pure]

/-- A line without room for its terminator overruns `str`. -/
theorem appendLine_long {str string text : List Byte} {offset : Nat}
    (long : str.length ≤ text.length) : appendLine str string offset text = none := by
  have overrun : strcpy str text = none := by
    apply storeAt_eq_none
    rw [List.length_append, List.length_singleton]
    omega
  simp only [appendLine, overrun, bind, Option.bind_none]

/-- The lines leave the size of `str` alone. -/
theorem length_appendLine {str string text stored line : List Byte} {offset : Nat}
    (appended : appendLine str string offset text = some (stored, line)) :
    stored.length = str.length := by
  unfold appendLine at appended
  rcases Option.bind_eq_some_iff.mp appended with ⟨copied, isCopied, rest⟩
  rcases Option.bind_eq_some_iff.mp rest with ⟨joined, -, filled⟩
  rcases Option.bind_eq_some_iff.mp filled with ⟨whole, -, isPair⟩
  cases isPair
  exact length_strcpy isCopied

theorem length_composeLines {str first second stored string : List Byte}
    (composed : composeLines str first second = some (stored, string)) :
    stored.length = str.length := by
  unfold composeLines composeInto at composed
  rcases Option.bind_eq_some_iff.mp composed with ⟨⟨middle, line⟩, isFirst, isSecond⟩
  exact (length_appendLine isSecond).trans (length_appendLine isFirst)

/-- The composer over arrays that hold lines of up to `limit` characters with their
terminators. -/
theorem composeInto_iff {limit : Nat} (low : 15 ≤ limit) (high : limit ≤ 16)
    {str first second string : List Byte} (size : str.length = limit + 1)
    (firstNoNul : (0 : Byte) ∉ first) (secondNoNul : (0 : Byte) ∉ second) :
    (∃ stored, composeInto str (List.replicate (17 + limit) 0) first second =
        some (stored, string)) ↔
      (first.length ≤ limit ∧ second.length ≤ limit) ∧
        string = paddedLine first ++ (paddedLine second ++ List.replicate (limit - 15) 0) := by
  by_cases firstShort : first.length ≤ limit
  · have empty : (0 : Byte) ∉ ([] : List Byte) := List.not_mem_nil
    rcases appendLine_inside (show first.length < str.length by omega) firstNoNul empty
        (by omega) (show 16 ≤ 17 + limit by omega) (by omega) with ⟨stored, storedSize, appended⟩
    rw [List.nil_append, List.nil_append, List.length_nil] at appended
    have composed : composeInto str (List.replicate (17 + limit) 0) first second =
        appendLine stored (paddedLine first ++ List.replicate (17 + limit - 16) 0) lineBuff
          second := by
      simp only [composeInto, appended, bind, Option.bind_some]
    rw [composed]
    by_cases secondShort : second.length ≤ limit
    · rcases appendLine_inside (show second.length < stored.length by omega) secondNoNul
          (zero_not_mem_paddedLine firstNoNul) (by omega) (show 16 ≤ 17 + limit - 16 by omega)
          (by omega) with ⟨last, -, both⟩
      rw [length_paddedLine (by omega), show 17 + limit - 16 - 16 = limit - 15 by omega] at both
      rw [lineBuff, both]
      constructor
      · intro composed
        rcases composed with ⟨_, same⟩
        cases same
        exact ⟨⟨firstShort, secondShort⟩, rfl⟩
      · intro right
        exact ⟨last, by rw [right.2]⟩
    · rw [appendLine_long (by omega)]
      constructor
      · intro composed
        rcases composed with ⟨_, impossible⟩
        cases impossible
      · exact fun right => absurd right.1.2 secondShort
  · have overrun : appendLine str (List.replicate (17 + limit) 0) 0 first = none :=
      appendLine_long (by omega)
    simp only [composeInto, overrun, bind, Option.bind_none]
    constructor
    · intro composed
      rcases composed with ⟨_, impossible⟩
      cases impossible
    · exact fun right => absurd right.1.1 firstShort

/-- Both lines stay inside the arrays exactly when neither has more than 15
characters, and then they are what the text LCD is given. -/
theorem composeLines_iff {str first second string : List Byte} (size : str.length = 16)
    (firstNoNul : (0 : Byte) ∉ first) (secondNoNul : (0 : Byte) ∉ second) :
    (∃ stored, composeLines str first second = some (stored, string)) ↔
      (first.length ≤ 15 ∧ second.length ≤ 15) ∧
        string = paddedLine first ++ paddedLine second := by
  have lines : _ ↔ _ ∧ string = _ :=
    composeInto_iff (Nat.le_refl 15) (by decide) size firstNoNul secondNoNul
  rw [List.replicate_zero, List.append_nil] at lines
  exact lines

/-- A line of 17 characters leaves a negative number of spaces to fill up with. -/
theorem shownLines_eq {first second : List Byte} (firstNoNul : (0 : Byte) ∉ first)
    (secondNoNul : (0 : Byte) ∉ second) :
    shownLines first second =
      if first.length ≤ 16 ∧ second.length ≤ 16 then
        some (paddedLine first ++ paddedLine second)
      else none := by
  have lines : ∀ string, (∃ stored, composeInto (List.replicate (lineBuff + 1) 0)
        (List.replicate (maxBuff + 1) 0) first second = some (stored, string)) ↔
      (first.length ≤ 16 ∧ second.length ≤ 16) ∧
        string = paddedLine first ++ (paddedLine second ++ [0]) :=
    fun _ => composeInto_iff (by decide) (Nat.le_refl 16) List.length_replicate firstNoNul
      secondNoNul
  split_ifs with short
  · rcases (lines _).mpr ⟨short, rfl⟩ with ⟨stored, composed⟩
    have whole : (paddedLine first ++ paddedLine second).length = maxBuff := by
      rw [List.length_append, length_paddedLine short.1, length_paddedLine short.2]
      rfl
    rw [shownLines, composed, Option.map_some, ← List.append_assoc, ← whole, List.take_left]
  · cases composed : composeInto (List.replicate (lineBuff + 1) 0)
        (List.replicate (maxBuff + 1) 0) first second with
    | none => rw [shownLines, composed, Option.map_none]
    | some pair => exact absurd ((lines pair.2).mp ⟨pair.1, composed⟩).1 short

/-! ## The lines of client and server -/

private abbrev text (line : String) : List Byte :=
  line.toList.map byte

/-- `"warn line: %dcm"` -/
def warnLineText (warnLine : Nat) : List Byte :=
  text "warn line: " ++ (decimal warnLine ++ text "cm")

def muteText (mute : Bool) : List Byte :=
  if mute then text "mute mode: on" else text "mute mode: off"

def serverName : List Byte := text "rada_server"

def idleMenu : List Byte := text "1. hist/9. exit"

def historyMenu : List Byte := text "1:<-/2:->/3.exit"

/-- `"%4d-%02d-%02d %02d:%02d"` of the time in a record. -/
def dateText (record : Fin 70 → Int) : List Byte :=
  spacePadded 4 (record 61 + 1900) ++ (text "-" ++ (zeroPadded 2 (record 62) ++
    (text "-" ++ (zeroPadded 2 (record 63) ++ (text " " ++ (zeroPadded 2 (record 64) ++
      (text ":" ++ zeroPadded 2 (record 65))))))))

/-- What is shown on the text LCD. -/
inductive LcdText
  /-- `fpga_process`, at its start and after every event. -/
  | settings (warnLine : Nat) (mute : Bool)
  /-- `update_process`, at its start and when the history is left. -/
  | idle
  | live (upData : Fin 70 → Int)
  | history (row : Fin 70 → Int)

def LcdText.first : LcdText → List Byte
  | .settings warnLine _ => warnLineText warnLine
  | .idle => serverName
  | .live upData => dateText upData
  | .history row => dateText row

def LcdText.second : LcdText → List Byte
  | .settings _ mute => muteText mute
  | .idle => idleMenu
  | .live _ => idleMenu
  | .history _ => historyMenu

def LcdText.StaysInside (shown : LcdText) (str : Vector Byte 16) : Prop :=
  ∃ stored, composeLines str.toList shown.first shown.second =
    some (stored, paddedLine shown.first ++ paddedLine shown.second)

def LcdText.Fits : LcdText → Prop
  | .settings warnLine _ => warnLine < 100
  | .idle => True
  | .live _ => False
  | .history _ => False

theorem zero_not_mem_append {first second : List Byte} (inFirst : (0 : Byte) ∉ first)
    (inSecond : (0 : Byte) ∉ second) : (0 : Byte) ∉ first ++ second := by
  intro member
  rcases List.mem_append.mp member with left | right
  · exact inFirst left
  · exact inSecond right

theorem zero_not_mem_dateText (record : Fin 70 → Int) : (0 : Byte) ∉ dateText record := by
  have zeros := zero_not_mem_zeroPadded 2
  have dash : (0 : Byte) ∉ text "-" := by decide
  exact zero_not_mem_append (zero_not_mem_spacePadded _ _) (zero_not_mem_append dash
    (zero_not_mem_append (zeros _) (zero_not_mem_append dash (zero_not_mem_append (zeros _)
      (zero_not_mem_append (by decide) (zero_not_mem_append (zeros _)
        (zero_not_mem_append (by decide) (zeros _))))))))

theorem zero_not_mem_muteText (mute : Bool) : (0 : Byte) ∉ muteText mute := by
  cases mute <;> decide

theorem zero_not_mem_menus : (0 : Byte) ∉ idleMenu ∧ (0 : Byte) ∉ historyMenu := by
  decide

theorem LcdText.zero_not_mem_first (shown : LcdText) : (0 : Byte) ∉ shown.first := by
  cases shown with
  | settings warnLine mute =>
      exact zero_not_mem_append (by decide)
        (zero_not_mem_append (zero_not_mem_decimal _) (by decide))
  | idle => decide
  | live upData => exact zero_not_mem_dateText upData
  | history row => exact zero_not_mem_dateText row

theorem LcdText.zero_not_mem_second (shown : LcdText) : (0 : Byte) ∉ shown.second := by
  cases shown with
  | settings warnLine mute => exact zero_not_mem_muteText mute
  | idle => exact zero_not_mem_menus.1
  | live upData => exact zero_not_mem_menus.1
  | history row => exact zero_not_mem_menus.2

private theorem length_warnLine_labels :
    (text "warn line: ").length = 11 ∧ (text "cm").length = 2 :=
  ⟨rfl, rfl⟩

theorem length_warnLineText (warnLine : Nat) :
    (warnLineText warnLine).length = 13 + (decimal warnLine).length := by
  unfold warnLineText
  simp only [List.length_append, length_warnLine_labels]
  omega

/-- The five numbers of a date are at least as wide as their formats. -/
theorem le_length_dateText (record : Fin 70 → Int) : 16 ≤ (dateText record).length := by
  have year := le_length_spacePadded 4 (record 61 + 1900)
  have month := le_length_zeroPadded 2 (record 62)
  have day := le_length_zeroPadded 2 (record 63)
  have hour := le_length_zeroPadded 2 (record 64)
  have minute := le_length_zeroPadded 2 (record 65)
  have dash : (text "-").length = 1 := rfl
  have blank : (text " ").length = 1 := rfl
  have colon : (text ":").length = 1 := rfl
  simp only [dateText, List.length_append, dash, blank, colon]
  omega

/-- The numbers of a date are no wider than their formats. -/
def DateFits (record : Fin 70 → Int) : Prop :=
  FitsWidth 4 (record 61 + 1900) ∧
    (FitsWidth 2 (record 62) ∧ FitsWidth 2 (record 63)) ∧
      FitsWidth 2 (record 64) ∧ FitsWidth 2 (record 65)

instance (record : Fin 70 → Int) : Decidable (DateFits record) := by
  unfold DateFits
  infer_instance

theorem length_dateText_le_iff (record : Fin 70 → Int) :
    (dateText record).length ≤ 16 ↔ DateFits record := by
  have two := fun value => length_zeroPadded_le_iff (show 1 < 2 by decide) value
  have year := length_spacePadded_le_iff (show 1 < 4 by decide) (record 61 + 1900)
  have yearWide := le_length_spacePadded 4 (record 61 + 1900)
  have wide := fun value => le_length_zeroPadded 2 value
  have month := wide (record 62)
  have day := wide (record 63)
  have hour := wide (record 64)
  have minute := wide (record 65)
  have dash : (text "-").length = 1 := rfl
  have blank : (text " ").length = 1 := rfl
  have colon : (text ":").length = 1 := rfl
  rw [DateFits, ← year, ← two, ← two, ← two, ← two]
  simp only [dateText, List.length_append, dash, blank, colon]
  omega

theorem LcdText.short_iff_fits (shown : LcdText) :
    (shown.first.length ≤ 15 ∧ shown.second.length ≤ 15) ↔ shown.Fits := by
  cases shown with
  | settings warnLine mute =>
      have muteShort : (muteText mute).length ≤ 15 := by cases mute <;> decide
      have digits := length_decimal_le_iff (show 0 < 2 by decide) warnLine
      simp only [first, second, Fits, length_warnLineText, muteShort, and_true]
      omega
  | idle => exact iff_of_true (by decide) trivial
  | live upData =>
      have long := le_length_dateText upData
      exact iff_of_false (fun short => absurd short.1 (by simp only [first]; omega)) id
  | history row =>
      have long := le_length_dateText row
      exact iff_of_false (fun short => absurd short.1 (by simp only [first]; omega)) id

/-- The composer stays inside its arrays for the settings with a warn line of less
than three digits and for the server's fixed lines, and for no date. -/
theorem text_composer_stays_inside_iff (shown : LcdText) (str : Vector Byte 16) :
    shown.StaysInside str ↔ shown.Fits := by
  rw [LcdText.StaysInside, composeLines_iff Vector.length_toList shown.zero_not_mem_first
    shown.zero_not_mem_second, shown.short_iff_fits]
  simp only [and_true]

/-- A warn line of 100 cm needs 17 bytes of `str`. -/
theorem warn_line_of_one_metre_overruns :
    ¬ ∀ (shown : LcdText) (str : Vector Byte 16), shown.StaysInside str := by
  intro always
  have inside := always (.settings 100 false) (Vector.replicate 16 0)
  rw [LcdText.StaysInside, composeLines_iff Vector.length_toList
    (LcdText.zero_not_mem_first _) (LcdText.zero_not_mem_second _)] at inside
  exact absurd inside.1.1 (by decide)

end GamZ
