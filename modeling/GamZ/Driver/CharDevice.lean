import GamZ.Foundation.CString
import GamZ.Foundation.CountedLoop

/-! # Character devices

What the file operations of the drivers share. Registers are named by their
offset from the address that a driver has mapped. -/

namespace GamZ.Driver

/-- `size_t` on the board. -/
abbrev SizeT := UInt32

/-- A length as `ssize_t`. -/
def ssizeT (length : Nat) : Int :=
  (length : Int).bmod 4294967296

theorem ssizeT_small {length : Nat} (small : length < 2147483648) : ssizeT length = length := by
  unfold ssizeT
  rw [Int.bmod_eq_of_le] <;> omega

def efault : Int := 14

def ebusy : Int := 16

/-- `i*2`, added to an address. -/
def registerOffset (i : Nat) : Nat :=
  i * 2 % 4294967296

/-- A handler whose loops take fuel returns with an effect as required. -/
def ReturnsWith {Effect : Type} (handler : Nat → Option Effect) (Required : Effect → Prop) :
    Prop :=
  ∃ fuel effect, handler fuel = some effect ∧ Required effect

/-- When all results of a handler are one effect, and it returns, that effect
decides. -/
theorem returnsWith_iff {Effect : Type} {handler : Nat → Option Effect}
    {Required : Effect → Prop} {effect : Effect}
    (only : ∀ fuel other, handler fuel = some other → other = effect)
    (returns : ∃ fuel, handler fuel = some effect) :
    ReturnsWith handler Required ↔ Required effect := by
  constructor
  · intro required
    rcases required with ⟨fuel, other, run, holds⟩
    rw [← only fuel other run]
    exact holds
  · intro holds
    rcases returns with ⟨fuel, run⟩
    exact ⟨fuel, effect, run, holds⟩

end GamZ.Driver
