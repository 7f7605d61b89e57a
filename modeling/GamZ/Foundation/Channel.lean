import GamZ.Foundation.Transition

/-! # Channels that lose nothing

What a channel ought to do: items are put in at one end and taken out at the other, each
once and in order. -/

namespace GamZ.Transition

variable {Item : Type*}

/-- All items put in and all items taken out so far. -/
structure Channel (Item : Type*) where
  put : List Item
  taken : List Item

inductive ChannelEvent (Item : Type*)
  | put (item : Item)
  | take

namespace Channel

def empty : Channel Item where
  put := []
  taken := []

/-- What is put in and not taken out. -/
def pending (channel : Channel Item) : List Item := channel.put.drop channel.taken.length

def advance (channel : Channel Item) : ChannelEvent Item → Option (Channel Item)
  | .put item => some { channel with put := channel.put ++ [item] }
  | .take => channel.pending.head?.map fun item =>
      { channel with taken := channel.taken ++ [item] }

/-- Nothing is lost: what was put in is what was taken out, then what is pending. -/
def Conserves (channel : Channel Item) : Prop :=
  channel.put = channel.taken ++ channel.pending

theorem conserves_iff {channel : Channel Item} :
    channel.Conserves ↔ channel.taken <+: channel.put := by
  constructor
  · intro conserves
    exact ⟨channel.pending, conserves.symm⟩
  · intro isPrefix
    rcases isPrefix with ⟨rest, whole⟩
    rw [Conserves, pending, ← whole, List.drop_left]

theorem Conserves.advance {channel after : Channel Item} {event : ChannelEvent Item}
    (conserves : channel.Conserves) (advanced : channel.advance event = some after) :
    after.Conserves := by
  rw [conserves_iff] at conserves ⊢
  cases event with
  | put item =>
      cases advanced
      exact conserves.trans (List.prefix_append _ _)
  | take =>
      rcases Option.map_eq_some_iff.mp advanced with ⟨item, first, isAfter⟩
      subst isAfter
      rcases conserves with ⟨rest, whole⟩
      rw [pending, ← whole, List.drop_left] at first
      rcases List.head?_eq_some_iff.mp first with ⟨later, isRest⟩
      refine ⟨later, ?_⟩
      dsimp only
      rw [← whole, isRest, List.append_assoc]
      rfl

/-- The next item is taken out. -/
theorem advance_take {channel : Channel Item} {item : Item}
    (next : channel.taken ++ [item] <+: channel.put) :
    channel.advance .take = some { channel with taken := channel.taken ++ [item] } := by
  rcases next with ⟨rest, whole⟩
  rw [advance, pending, ← whole, List.append_assoc, List.drop_left]
  rfl

end Channel

open TransitionSystem

def channels (Item : Type*) : TransitionSystem (Channel Item) (ChannelEvent Item) where
  Initial channel := channel = .empty
  step := Channel.advance

theorem conserves_of_run {events : List (ChannelEvent Item)} {channel : Channel Item}
    (run : (channels Item).Run events channel) : channel.Conserves := by
  apply run.invariant fun _ channel => channel.Conserves
  · intro channel initial
    cases initial
    rfl
  · intro _ _ _ _ conserves _ advanced
    exact conserves.advance advanced

end GamZ.Transition
