import GamZ.Driver.CharDevice
import Mathlib.Order.Basic
import Mathlib.Data.Nat.Find
import Mathlib.Tactic.SplitIfs

/-! # The display write handlers

The handlers of the two dot-matrix drivers and of the text LCD copy the user's
bytes to an array on the kernel stack and write registers from there. -/

namespace GamZ.Driver

open CString CountedLoop

/-- The number of bytes copied to the array `value`, the indices at which it is
read, the registers that are written, and the result. -/
structure WriteEffect where
  copied : Nat
  reads : List Nat
  writes : List (Nat × UInt16)
  returned : Int
deriving DecidableEq

/-- The memory from `value` on after `copy_from_user`. -/
def copiedOver (stack user : Nat → Byte) (length : Nat) (i : Nat) : Byte :=
  if i < length then user i else stack i

/-- `copy_from_user` has left some bytes out and has put zeros in their place. -/
def copyFailed (length : Nat) : WriteEffect where
  copied := length
  reads := []
  writes := []
  returned := -efault

/-- `value[i] & 0x7F` -/
def dotRow (value : Byte) : UInt16 :=
  (value &&& 0x7F).toUInt16

/-- The statements that the two dot-matrix handlers share. -/
def dotWrite (stack user : Nat → Byte) (length notCopied fuel : Nat) : Option WriteEffect :=
  if notCopied ≠ 0 then some (copyFailed length)
  else
    (counts (fun i => decide (i < length)) 1 fuel 0).map fun turns =>
      { copied := length
        reads := turns
        writes := turns.map fun i => (registerOffset i, dotRow (copiedOver stack user length i))
        returned := ssizeT length }

/-- The handler of the radar project, with `unsigned char value[10]`. -/
def iomFpgaDotWrite (stack user : Nat → Byte) (length : SizeT) (notCopied fuel : Nat) :
    Option WriteEffect :=
  dotWrite stack user length.toNat notCopied fuel

/-- `IOM_DOT_MAX_ROW` -/
def iomDotMaxRow : Nat := 10

/-- The handler of `dotmatrix/`, with `unsigned char value[IOM_DOT_MAX_ROW]`. -/
def iomDotWrite (stack user : Nat → Byte) (count : SizeT) (notCopied fuel : Nat) :
    Option WriteEffect :=
  let count := if count.toNat ≥ iomDotMaxRow then iomDotMaxRow else count.toNat
  dotWrite stack user count notCopied fuel

/-- `(value[i] & 0xFF) << 8 | value[i + 1] & 0xFF` -/
def lcdPair (first second : Byte) : UInt16 :=
  (first.toUInt16 &&& 0xFF) <<< 8 ||| (second.toUInt16 &&& 0xFF)

/-- The bytes that `printk` reads for `%s`: up to the first NUL. -/
def printedString (value : Nat → Byte) (fuel : Nat) : Option (List Nat) :=
  (counts (fun i => decide (value i ≠ 0)) 1 fuel 0).map fun text => text ++ [text.length]

/-- The handler of the text LCD, with `unsigned char value[32]`. Its loop counts
up twice in each turn. -/
def iomFpgaTextLcdWrite (stack user : Nat → Byte) (length : SizeT) (notCopied fuel : Nat) :
    Option WriteEffect :=
  if notCopied ≠ 0 then some (copyFailed length.toNat)
  else do
    let value := copiedOver stack user length.toNat
    let printed ← printedString value fuel
    let turns ← counts (fun i => decide (i < length.toNat)) 2 fuel 0
    pure
      { copied := length.toNat
        reads := printed ++ turns.flatMap fun i => [i, i + 1]
        writes := turns.map fun i => (i, lcdPair (value i) (value (i + 1)))
        returned := ssizeT length.toNat }

/-! ## What is required of them -/

/-- Nothing is copied past the array, and only what was copied is read. -/
structure StaysInside (size : Nat) (effect : WriteEffect) : Prop where
  copied : effect.copied ≤ size
  reads : ∀ i ∈ effect.reads, i < effect.copied

structure DrawsRows (user : Nat → Byte) (length : SizeT) (effect : WriteEffect) : Prop where
  inside : StaysInside 10 effect
  writes : effect.writes =
    (List.range (min length.toNat 10)).map fun i => (registerOffset i, dotRow (user i))
  returned : effect.returned = (min length.toNat 10 : Nat)

/-- The first byte is the high one. -/
def bigEndian (first second : Byte) : UInt16 :=
  UInt16.ofNat (first.toNat * 256 + second.toNat)

structure PrintsPairs (user : Nat → Byte) (length : SizeT) (effect : WriteEffect) : Prop where
  inside : StaysInside 32 effect
  writes : effect.writes = (List.range ((min length.toNat 32 + 1) / 2)).map fun j =>
    (2 * j, bigEndian (user (2 * j)) (user (2 * j + 1)))

structure DisplayWriteLaw (stack user : Nat → Byte) (length : SizeT) : Prop where
  radar : ReturnsWith (iomFpgaDotWrite stack user length 0) (DrawsRows user length)
  dotmatrix : ReturnsWith (iomDotWrite stack user length 0) (DrawsRows user length)
  same : ∃ fuel more effect, iomFpgaDotWrite stack user length 0 fuel = some effect ∧
    iomDotWrite stack user length 0 more = some effect
  textLcd : ReturnsWith (iomFpgaTextLcdWrite stack user length 0) (PrintsPairs user length)

/-! ## The dot matrix -/

/-- The effect of the shared statements when all bytes are copied. -/
def dotEffect (stack user : Nat → Byte) (length : Nat) : WriteEffect where
  copied := length
  reads := List.range length
  writes := (List.range length).map fun i =>
    (registerOffset i, dotRow (copiedOver stack user length i))
  returned := ssizeT length

section DotMatrix

variable {stack user : Nat → Byte} {length : Nat}

theorem dotWrite_returns (small : length < 4294967296) :
    dotWrite stack user length 0 (length + 1) = some (dotEffect stack user length) := by
  simp only [dotWrite, ne_eq, not_true, if_false, counts_lt small, Option.map_some, dotEffect]

theorem dotWrite_eq (small : length < 4294967296) {fuel : Nat} {effect : WriteEffect}
    (run : dotWrite stack user length 0 fuel = some effect) :
    effect = dotEffect stack user length := by
  simp only [dotWrite, ne_eq, not_true, if_false, Option.map_eq_some_iff] at run
  rcases run with ⟨turns, counted, rfl⟩
  rw [counts_lt_unique small counted, dotEffect]

theorem dotWrite_returnsWith_iff (small : length < 4294967296) {Required : WriteEffect → Prop} :
    ReturnsWith (dotWrite stack user length 0) Required ↔
      Required (dotEffect stack user length) :=
  returnsWith_iff (fun _ _ => dotWrite_eq small) ⟨_, dotWrite_returns small⟩

theorem dotEffect_drawsRows {asked : SizeT} (isLength : length = min asked.toNat 10) :
    DrawsRows user asked (dotEffect stack user length) := by
  refine ⟨⟨?_, ?_⟩, ?_, ?_⟩
  · simp only [dotEffect]
    omega
  · intro i member
    exact List.mem_range.mp member
  · simp only [dotEffect, ← isLength]
    apply List.map_congr_left
    intro i member
    rw [copiedOver, if_pos (List.mem_range.mp member)]
  · simp only [dotEffect, ← isLength]
    exact ssizeT_small (by omega)

theorem dotEffect_drawsRows_iff {asked : SizeT} :
    DrawsRows user asked (dotEffect stack user asked.toNat) ↔ asked.toNat ≤ 10 := by
  constructor
  · exact fun draws => draws.inside.copied
  · intro fits
    exact dotEffect_drawsRows (by omega)

end DotMatrix

private theorem clampedRows (count : SizeT) :
    (if count.toNat ≥ iomDotMaxRow then iomDotMaxRow else count.toNat) = min count.toNat 10 := by
  unfold iomDotMaxRow
  split_ifs <;> omega

theorem iomDotWrite_eq_dotWrite (stack user : Nat → Byte) (count : SizeT) :
    iomDotWrite stack user count 0 = dotWrite stack user (min count.toNat 10) 0 := by
  funext fuel
  rw [iomDotWrite, clampedRows]

theorem radar_draws_iff (stack user : Nat → Byte) (length : SizeT) :
    ReturnsWith (iomFpgaDotWrite stack user length 0) (DrawsRows user length) ↔
      length.toNat ≤ 10 := by
  rw [← dotEffect_drawsRows_iff]
  exact dotWrite_returnsWith_iff length.toNat_lt

theorem dotmatrix_draws (stack user : Nat → Byte) (length : SizeT) :
    ReturnsWith (iomDotWrite stack user length 0) (DrawsRows user length) := by
  rw [iomDotWrite_eq_dotWrite, dotWrite_returnsWith_iff (by omega)]
  exact dotEffect_drawsRows rfl

theorem same_effect_iff (stack user : Nat → Byte) (length : SizeT) :
    (∃ fuel more effect, iomFpgaDotWrite stack user length 0 fuel = some effect ∧
      iomDotWrite stack user length 0 more = some effect) ↔ length.toNat ≤ 10 := by
  rw [iomDotWrite_eq_dotWrite]
  constructor
  · intro same
    rcases same with ⟨fuel, more, effect, radar, dotmatrix⟩
    rw [dotWrite_eq length.toNat_lt radar] at dotmatrix
    have copied := congrArg WriteEffect.copied (dotWrite_eq (by omega) dotmatrix)
    simp only [dotEffect] at copied
    omega
  · intro fits
    rw [Nat.min_eq_left fits]
    exact ⟨_, _, _, dotWrite_returns length.toNat_lt, dotWrite_returns length.toNat_lt⟩

/-! ## The text LCD -/

private theorem lowBits (value : Byte) : (value.toUInt16 &&& 0xFF).toNat = value.toNat := by
  have masked : value.toNat &&& 2 ^ 8 - 1 = value.toNat % 2 ^ 8 :=
    Nat.and_two_pow_sub_one_eq_mod value.toNat 8
  have small : value.toNat < 2 ^ 8 := value.toNat_lt
  rw [UInt16.toNat_and, UInt8.toNat_toUInt16]
  exact masked.trans (Nat.mod_eq_of_lt small)

theorem lcdPair_eq (first second : Byte) : lcdPair first second = bigEndian first second := by
  have firstSmall : first.toNat < 2 ^ 8 := first.toNat_lt
  have secondSmall : second.toNat < 2 ^ 8 := second.toNat_lt
  have joined : first.toNat <<< 8 + second.toNat = first.toNat <<< 8 ||| second.toNat :=
    Nat.shiftLeft_add_eq_or_of_lt secondSmall first.toNat
  apply UInt16.toNat_inj.mp
  have high : ((first.toUInt16 &&& 0xFF) <<< 8).toNat = first.toNat <<< 8 := by
    rw [UInt16.toNat_shiftLeft, lowBits]
    have eight : (8 : UInt16).toNat % 16 = 8 := rfl
    rw [eight, Nat.shiftLeft_eq]
    omega
  rw [lcdPair, UInt16.toNat_or, high, lowBits, ← joined, bigEndian, Nat.shiftLeft_eq,
    UInt16.toNat_ofNat']
  omega

/-- The effect of the text-LCD handler, from the indices its loops go through. -/
def lcdEffect (stack user : Nat → Byte) (length : Nat) (printed turns : List Nat) :
    WriteEffect where
  copied := length
  reads := printed ++ turns.flatMap fun i => [i, i + 1]
  writes := turns.map fun i =>
    (i, lcdPair (copiedOver stack user length i) (copiedOver stack user length (i + 1)))
  returned := ssizeT length

theorem iomFpgaTextLcdWrite_eq_some_iff {stack user : Nat → Byte} {length : SizeT} {fuel : Nat}
    {effect : WriteEffect} :
    iomFpgaTextLcdWrite stack user length 0 fuel = some effect ↔
      ∃ printed turns, printedString (copiedOver stack user length.toNat) fuel = some printed ∧
        counts (fun i => decide (i < length.toNat)) 2 fuel 0 = some turns ∧
        effect = lcdEffect stack user length.toNat printed turns := by
  simp only [iomFpgaTextLcdWrite, ne_eq, not_true, if_false, bind, Option.bind_eq_some_iff,
    pure, Option.some.injEq]
  constructor
  · intro run
    rcases run with ⟨printed, prints, turns, counted, rfl⟩
    exact ⟨printed, turns, prints, counted, rfl⟩
  · intro effects
    rcases effects with ⟨printed, turns, prints, counted, rfl⟩
    exact ⟨printed, prints, turns, counted, rfl⟩

theorem printedString_ends {value : Nat → Byte} {fuel : Nat} {printed : List Nat}
    (prints : printedString value fuel = some printed) {limit : Nat} (small : limit < 4294967296)
    (inside : ∀ i ∈ printed, i < limit) : ∃ i < limit, value i = 0 := by
  rcases Option.map_eq_some_iff.mp prints with ⟨text, counted, rfl⟩
  have last : text.length < limit := inside _ (by simp)
  have ends := counts_ends (by decide) counted
  rw [Nat.zero_add, Nat.one_mul, Nat.mod_eq_of_lt (by omega), decide_eq_false_iff_not,
    not_not] at ends
  exact ⟨text.length, last, ends⟩

/-- With a NUL in front of the limit, `printk` reads up to the first one. -/
theorem printedString_returns {value : Nat → Byte} {limit : Nat} (small : limit < 4294967296)
    (terminated : ∃ i < limit, value i = 0) :
    ∃ fuel printed, printedString value fuel = some printed ∧ ∀ i ∈ printed, i < limit := by
  have exists_nul : ∃ i, value i = 0 := terminated.imp fun _ nul => nul.2
  rcases terminated with ⟨i, before, nul⟩
  have first := Nat.find_min' exists_nul nul
  have counted : counts (fun i => decide (value i ≠ 0)) 1 (Nat.find exists_nul + 1) 0 =
      some ((List.range (Nat.find exists_nul)).map fun turn => 0 + 1 * turn) := by
    apply counts_eq
    · intro turn earlier
      rw [Nat.zero_add, Nat.one_mul, decide_eq_true_iff]
      exact Nat.find_min exists_nul earlier
    · rw [Nat.zero_add, Nat.one_mul, decide_eq_false_iff_not, not_not]
      exact Nat.find_spec exists_nul
    · omega
  refine ⟨Nat.find exists_nul + 1, _, Option.map_eq_some_iff.mpr ⟨_, counted, rfl⟩, ?_⟩
  intro index member
  simp only [List.mem_append, List.mem_map, List.mem_range, List.mem_singleton,
    List.length_map, List.length_range] at member
  rcases member with ⟨turn, earlier, rfl⟩ | rfl
  · omega
  · omega

theorem lcd_turns {length : Nat} (small : length < 4294967296) (even : length % 2 = 0) :
    counts (fun i => decide (i < length)) 2 (length / 2 + 1) 0 =
      some ((List.range (length / 2)).map fun turn => 0 + 2 * turn) := by
  apply counts_eq
  · intro turn before
    rw [decide_eq_true_iff]
    omega
  · rw [decide_eq_false_iff_not]
    omega
  · omega

/-- For an odd length the loop reads one byte too many. -/
theorem lcd_reads_past_odd {length fuel : Nat} {turns : List Nat} (small : length < 4294967296)
    (odd : length % 2 = 1)
    (counted : counts (fun i => decide (i < length)) 2 fuel 0 = some turns) :
    length ∈ turns.flatMap fun i => [i, i + 1] := by
  have reached : 0 + 2 * (length / 2) ∈ turns := by
    apply mem_counts counted
    · intro earlier before
      rw [decide_eq_true_iff]
      omega
    · omega
  exact List.mem_flatMap.mpr ⟨_, reached, by simp; omega⟩

theorem text_lcd_prints_iff (stack user : Nat → Byte) (length : SizeT) :
    ReturnsWith (iomFpgaTextLcdWrite stack user length 0) (PrintsPairs user length) ↔
      length.toNat ≤ 32 ∧ length.toNat % 2 = 0 ∧ ∃ i < length.toNat, user i = 0 := by
  have small := length.toNat_lt
  constructor
  · intro returns
    rcases returns with ⟨fuel, effect, run, law⟩
    rcases iomFpgaTextLcdWrite_eq_some_iff.mp run with ⟨printed, turns, prints, counted, rfl⟩
    have inside : ∀ i ∈ printed ++ turns.flatMap fun i => [i, i + 1], i < length.toNat :=
      law.inside.reads
    have even : length.toNat % 2 = 0 := by
      by_contra odd
      have read := lcd_reads_past_odd small (by omega) counted
      exact absurd (inside _ (List.mem_append_right _ read)) (Nat.lt_irrefl _)
    rcases printedString_ends prints small
        (fun i member => inside i (List.mem_append_left _ member)) with ⟨i, before, nul⟩
    rw [copiedOver, if_pos before] at nul
    exact ⟨law.inside.copied, even, i, before, nul⟩
  · intro fits
    rcases fits with ⟨short, even, i, before, nul⟩
    have terminated : ∃ i < length.toNat, copiedOver stack user length.toNat i = 0 :=
      ⟨i, before, by rw [copiedOver, if_pos before, nul]⟩
    rcases printedString_returns small terminated with ⟨fuel, printed, prints, printsInside⟩
    rcases Option.map_eq_some_iff.mp prints with ⟨text, countedText, textPrinted⟩
    have printsMore : printedString (copiedOver stack user length.toNat)
        (max fuel (length.toNat / 2 + 1)) = some printed :=
      Option.map_eq_some_iff.mpr
        ⟨text, counts_of_le countedText (Nat.le_max_left _ _), textPrinted⟩
    have countsMore := counts_of_le (lcd_turns small even)
      (Nat.le_max_right fuel (length.toNat / 2 + 1))
    refine ⟨_, _, iomFpgaTextLcdWrite_eq_some_iff.mpr ⟨_, _, printsMore, countsMore, rfl⟩,
      ⟨short, ?_⟩, ?_⟩
    · intro index member
      rcases List.mem_append.mp member with inPrinted | inLoop
      · exact printsInside index inPrinted
      · simp only [List.mem_flatMap, List.mem_map, List.mem_range, List.mem_cons,
          List.not_mem_nil, or_false] at inLoop
        rcases inLoop with ⟨_, ⟨turn, inRange, rfl⟩, rfl | rfl⟩
        · simp only [lcdEffect]
          omega
        · simp only [lcdEffect]
          omega
    · have half : (min length.toNat 32 + 1) / 2 = length.toNat / 2 := by omega
      rw [half]
      simp only [lcdEffect, List.map_map]
      apply List.map_congr_left
      intro turn inRange
      rw [List.mem_range] at inRange
      simp only [Function.comp_apply, Nat.zero_add, lcdPair_eq, copiedOver]
      rw [if_pos (by omega), if_pos (by omega)]

/-! ## All three -/

/-- For which lengths and bytes the handlers do what is required, all together and
each for itself. -/
theorem display_write_law_iff (stack user : Nat → Byte) (length : SizeT) :
    (DisplayWriteLaw stack user length ↔
      length.toNat ≤ 10 ∧ length.toNat % 2 = 0 ∧ ∃ i < length.toNat, user i = 0) ∧
    (ReturnsWith (iomFpgaDotWrite stack user length 0) (DrawsRows user length) ↔
      length.toNat ≤ 10) ∧
    ReturnsWith (iomDotWrite stack user length 0) (DrawsRows user length) ∧
    (ReturnsWith (iomFpgaTextLcdWrite stack user length 0) (PrintsPairs user length) ↔
      length.toNat ≤ 32 ∧ length.toNat % 2 = 0 ∧ ∃ i < length.toNat, user i = 0) := by
  refine ⟨?_, radar_draws_iff stack user length, dotmatrix_draws stack user length,
    text_lcd_prints_iff stack user length⟩
  constructor
  · intro law
    have fits := (radar_draws_iff stack user length).mp law.radar
    have prints := (text_lcd_prints_iff stack user length).mp law.textLcd
    exact ⟨fits, prints.2⟩
  · intro fits
    exact
      { radar := (radar_draws_iff stack user length).mpr fits.1
        dotmatrix := dotmatrix_draws stack user length
        same := (same_effect_iff stack user length).mpr fits.1
        textLcd := (text_lcd_prints_iff stack user length).mpr
          ⟨Nat.le_trans fits.1 (by decide), fits.2⟩ }

/-- Eleven bytes overrun the array of the radar project's dot-matrix handler. -/
theorem eleven_rows_overrun :
    ¬ ∀ (stack user : Nat → Byte) (length : SizeT), DisplayWriteLaw stack user length := by
  intro law
  have fits := (radar_draws_iff (fun _ => 0) (fun _ => 0) 11).mp
    (law (fun _ => 0) (fun _ => 0) 11).radar
  exact absurd fits (by decide)

end GamZ.Driver
