import GamZ.Foundation.Transition
import Mathlib.Tactic.SplitIfs

/-! # Sections behind a flag

An owner raises a flag around a section of its own. Visitors act only after they have
found the flag lowered, but the test and the act are two steps, so the flag may go up in
between. At most one act of each visitor falls into a section. -/

namespace GamZ.Transition

variable {Visitor : Type*}

/-- The flag, the visitors that have passed their test, and how often each has acted since
the flag was last raised. -/
structure FlagGuard (Visitor : Type*) where
  raised : Bool
  passed : Visitor → Bool
  acts : Visitor → Nat

inductive FlagEvent (Visitor : Type*)
  | raise
  | lower
  | pass (visitor : Visitor)
  | act (visitor : Visitor)

namespace FlagGuard

/-- Nobody has passed, whether or not the flag is up. -/
def start (raised : Bool) : FlagGuard Visitor where
  raised := raised
  passed := fun _ => false
  acts := fun _ => 0

variable [DecidableEq Visitor]

def advance (guard : FlagGuard Visitor) : FlagEvent Visitor → Option (FlagGuard Visitor)
  | .raise => some { guard with raised := true, acts := fun _ => 0 }
  | .lower => some { guard with raised := false }
  | .pass visitor =>
      if guard.raised then none
      else some { guard with passed := Function.update guard.passed visitor true }
  | .act visitor =>
      if guard.passed visitor then
        some { guard with
          passed := Function.update guard.passed visitor false
          acts := Function.update guard.acts visitor (guard.acts visitor + 1) }
      else none

/-- In a section a visitor either has acted once or is about to. -/
def Bounded (guard : FlagGuard Visitor) : Prop :=
  guard.raised = true → ∀ visitor,
    guard.acts visitor + (if guard.passed visitor then 1 else 0) ≤ 1

theorem Bounded.advance {guard after : FlagGuard Visitor} {event : FlagEvent Visitor}
    (bounded : guard.Bounded) (advanced : guard.advance event = some after) : after.Bounded := by
  cases event with
  | raise =>
      cases advanced
      intro _ visitor
      dsimp only
      split_ifs <;> omega
  | lower =>
      cases advanced
      intro raised
      cases raised
  | pass visitor =>
      rw [FlagGuard.advance] at advanced
      split_ifs at advanced with isRaised
      cases advanced
      intro raised
      exact absurd raised isRaised
  | act visitor =>
      rw [FlagGuard.advance] at advanced
      split_ifs at advanced with hasPassed
      cases advanced
      intro raised other
      have before := bounded raised other
      by_cases same : other = visitor
      · subst same
        rw [if_pos hasPassed] at before
        simp only [Function.update_self, Bool.false_eq_true, if_false]
        exact before
      · simp only [Function.update_of_ne same]
        exact before

end FlagGuard

open TransitionSystem

variable [DecidableEq Visitor]

def flagGuards (Visitor : Type*) [DecidableEq Visitor] :
    TransitionSystem (FlagGuard Visitor) (FlagEvent Visitor) where
  Initial guard := ∃ raised, guard = .start raised
  step := FlagGuard.advance

theorem bounded_of_run {events : List (FlagEvent Visitor)} {guard : FlagGuard Visitor}
    (run : (flagGuards Visitor).Run events guard) : guard.Bounded := by
  apply run.invariant fun _ guard => guard.Bounded
  · intro guard initial
    rcases initial with ⟨raised, isStart⟩
    subst isStart
    intro _ visitor
    exact Nat.zero_le 1
  · intro _ _ _ _ bounded _ advanced
    exact bounded.advance advanced

end GamZ.Transition
