import GamZ.Driver.CharDevice
import Mathlib.Tactic.SplitIfs

/-! # The push switches

The read handlers of the two push-switch drivers. -/

namespace GamZ.Driver

open CString CountedLoop

abbrev Registers := Nat → UInt16

/-- The registers that a read handler reads, the bytes it stores behind the user's
pointer, and its result. -/
structure ReadEffect where
  reads : List Nat
  stores : List (Nat × Byte)
  returned : Int
deriving DecidableEq

/-- `_s_value & 0xFF` -/
def lowByte (value : UInt16) : Byte :=
  (value &&& 0xFF).toUInt8

/-- `_s_value && 0xFF` -/
def bothNonzero (value : UInt16) : Byte :=
  if value ≠ 0 then 1 else 0

/-- The handler of the radar project. It stores through the user's pointer. -/
def iomFpgaPushSwitchRead (registers : Registers) (length : SizeT) (fuel : Nat) :
    Option ReadEffect :=
  (counts (fun i => decide (i ≤ length.toNat)) 1 fuel 0).map fun turns =>
    { reads := turns.map registerOffset
      stores := turns.map fun i => (i, lowByte (registers (registerOffset i)))
      returned := ssizeT length.toNat }

/-- `IOM_PUSH_SWITCH_MAX_BUTTON` -/
def iomPushSwitchMaxButton : Nat := 9

/-- The handler of `pushswitch/`; `copy_to_user` leaves `notCopied` bytes out. -/
def iomPushSwitchRead (registers : Registers) (count : SizeT) (notCopied fuel : Nat) :
    Option ReadEffect :=
  let count := if count.toNat > iomPushSwitchMaxButton then iomPushSwitchMaxButton
    else count.toNat
  (counts (fun i => decide (i < count)) 1 fuel 0).map fun turns =>
    { reads := turns.map registerOffset
      stores := (List.range (count - notCopied)).map fun i =>
        (i, bothNonzero (registers (registerOffset i)))
      returned := if notCopied ≠ 0 then -efault else ssizeT count }

/-! ## What was asked for -/

/-- One byte for each switch, as many as asked for, and nothing else. -/
structure DeliversSwitches (registers : Registers) (length : SizeT) (effect : ReadEffect) :
    Prop where
  stores : ∀ i value, (i, value) ∈ effect.stores ↔
    i < min length.toNat 9 ∧ value = lowByte (registers (registerOffset i))
  reads : ∀ offset ∈ effect.reads, ∃ i < 9, offset = registerOffset i
  returned : effect.returned = (min length.toNat 9 : Nat)

def Delivers (registers : Registers) (length : SizeT) (handler : Nat → Option ReadEffect) :
    Prop :=
  ReturnsWith handler (DeliversSwitches registers length)

def SameForUser (first second : Nat → Option ReadEffect) : Prop :=
  ∃ fuel firstEffect more secondEffect, first fuel = some firstEffect ∧
    second more = some secondEffect ∧
    (∀ store, store ∈ firstEffect.stores ↔ store ∈ secondEffect.stores) ∧
    firstEffect.returned = secondEffect.returned

structure PushSwitchLaw (registers : Registers) (length : SizeT) : Prop where
  radar : Delivers registers length (iomFpgaPushSwitchRead registers length)
  pushswitch : Delivers registers length (iomPushSwitchRead registers length 0)
  agree : SameForUser (iomFpgaPushSwitchRead registers length)
    (iomPushSwitchRead registers length 0)

/-! ## What the handlers do -/

theorem radar_stores_past_end {registers : Registers} {length : SizeT} {fuel : Nat}
    {effect : ReadEffect} (run : iomFpgaPushSwitchRead registers length fuel = some effect) :
    ∃ value, (min length.toNat 9, value) ∈ effect.stores := by
  rcases Option.map_eq_some_iff.mp run with ⟨turns, counted, rfl⟩
  have reached : 0 + 1 * min length.toNat 9 ∈ turns := by
    apply mem_counts counted
    · intro earlier before
      rw [decide_eq_true_iff]
      omega
    · omega
  rw [Nat.zero_add, Nat.one_mul] at reached
  exact ⟨_, List.mem_map_of_mem reached⟩

theorem radar_never_delivers (registers : Registers) (length : SizeT) :
    ¬ Delivers registers length (iomFpgaPushSwitchRead registers length) := by
  intro delivers
  rcases delivers with ⟨fuel, effect, run, law⟩
  rcases radar_stores_past_end run with ⟨value, stored⟩
  exact absurd ((law.stores _ value).mp stored).1 (Nat.lt_irrefl _)

/-- The effect of the handler of `pushswitch/` when all bytes are copied. -/
def pushSwitchEffect (registers : Registers) (length : SizeT) : ReadEffect where
  reads := (List.range (min length.toNat 9)).map registerOffset
  stores := (List.range (min length.toNat 9)).map fun i =>
    (i, bothNonzero (registers (registerOffset i)))
  returned := (min length.toNat 9 : Nat)

private theorem clamped (length : SizeT) :
    (if length.toNat > iomPushSwitchMaxButton then iomPushSwitchMaxButton else length.toNat) =
      min length.toNat 9 := by
  unfold iomPushSwitchMaxButton
  split_ifs <;> omega

theorem iomPushSwitchRead_returns (registers : Registers) (length : SizeT) :
    iomPushSwitchRead registers length 0 (min length.toNat 9 + 1) =
      some (pushSwitchEffect registers length) := by
  have smallCount : min length.toNat 9 < 2147483648 := by omega
  have counted : counts (fun i => decide (i < min length.toNat 9)) 1 (min length.toNat 9 + 1) 0 =
      some (List.range (min length.toNat 9)) := counts_lt (by omega)
  simp only [iomPushSwitchRead, clamped, counted, Option.map_some, Nat.sub_zero, ne_eq,
    not_true, if_false, ssizeT_small smallCount, pushSwitchEffect]

theorem iomPushSwitchRead_eq {registers : Registers} {length : SizeT} {fuel : Nat}
    {effect : ReadEffect} (run : iomPushSwitchRead registers length 0 fuel = some effect) :
    effect = pushSwitchEffect registers length := by
  have smallCount : min length.toNat 9 < 2147483648 := by omega
  simp only [iomPushSwitchRead, clamped, Nat.sub_zero, ne_eq, not_true, if_false,
    ssizeT_small smallCount, Option.map_eq_some_iff] at run
  rcases run with ⟨turns, counted, rfl⟩
  rw [counts_lt_unique (by omega) counted, pushSwitchEffect]

theorem mem_pushSwitch_stores (registers : Registers) (length : SizeT) (i : Nat)
    (value : Byte) :
    (i, value) ∈ (pushSwitchEffect registers length).stores ↔
      i < min length.toNat 9 ∧ value = bothNonzero (registers (registerOffset i)) := by
  simp only [pushSwitchEffect, List.mem_map, List.mem_range, Prod.mk.injEq]
  constructor
  · intro stored
    rcases stored with ⟨turn, inRange, rfl, rfl⟩
    exact ⟨inRange, rfl⟩
  · intro asked
    exact ⟨i, asked.1, rfl, asked.2.symm⟩

theorem bothNonzero_eq_lowByte_iff (value : UInt16) :
    bothNonzero value = lowByte value ↔ value = 0 ∨ lowByte value = 1 := by
  by_cases zero : value = 0
  · rw [zero]
    decide
  · rw [bothNonzero, if_pos zero]
    simp only [zero, false_or]
    exact eq_comm

theorem pushSwitchEffect_delivers_iff (registers : Registers) (length : SizeT) :
    DeliversSwitches registers length (pushSwitchEffect registers length) ↔
      ∀ i < min length.toNat 9, registers (registerOffset i) = 0 ∨
        lowByte (registers (registerOffset i)) = 1 := by
  constructor
  · intro delivers i asked
    have stored := (mem_pushSwitch_stores registers length i _).mpr ⟨asked, rfl⟩
    have right := ((delivers.stores i _).mp stored).2
    exact (bothNonzero_eq_lowByte_iff _).mp right
  · intro zeroOrOne
    refine ⟨?_, ?_, rfl⟩
    · intro i value
      rw [mem_pushSwitch_stores]
      refine and_congr_right fun asked => ?_
      rw [(bothNonzero_eq_lowByte_iff _).mpr (zeroOrOne i asked)]
    · intro offset member
      rcases List.mem_map.mp member with ⟨i, inRange, rfl⟩
      exact ⟨i, by
        rw [List.mem_range] at inRange
        omega, rfl⟩

/-- No length and no contents of the registers make the law true. The handler of
the radar project breaks it for all of them; the one of `pushswitch/` meets it on
its own as long as each low byte is what `&&` makes of the register. -/
theorem push_switch_reads_diverge (registers : Registers) (length : SizeT) :
    ¬ PushSwitchLaw registers length ∧
      ¬ Delivers registers length (iomFpgaPushSwitchRead registers length) ∧
      (Delivers registers length (iomPushSwitchRead registers length 0) ↔
        ∀ i < min length.toNat 9, registers (registerOffset i) = 0 ∨
          lowByte (registers (registerOffset i)) = 1) ∧
      ¬ SameForUser (iomFpgaPushSwitchRead registers length)
        (iomPushSwitchRead registers length 0) := by
  refine ⟨fun law => radar_never_delivers registers length law.radar,
    radar_never_delivers registers length, ?_, ?_⟩
  · rw [← pushSwitchEffect_delivers_iff]
    exact returnsWith_iff (fun _ _ => iomPushSwitchRead_eq)
      ⟨_, iomPushSwitchRead_returns registers length⟩
  · intro same
    rcases same with ⟨fuel, radar, more, pushSwitch, radarRun, pushSwitchRun, stores, -⟩
    rcases radar_stores_past_end radarRun with ⟨value, stored⟩
    rw [stores, iomPushSwitchRead_eq pushSwitchRun, mem_pushSwitch_stores] at stored
    exact absurd stored.1 (Nat.lt_irrefl _)

/-- Nine switches at rest: the handler of the radar project stores a tenth byte. -/
theorem nine_idle_switches_overrun :
    ¬ ∀ (registers : Registers) (length : SizeT), PushSwitchLaw registers length := by
  intro law
  exact radar_never_delivers (fun _ => 0) 9 (law (fun _ => 0) 9).radar

end GamZ.Driver
