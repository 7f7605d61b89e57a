import Mathlib.Data.List.DropRight

/-! # Bounded queues

A queue of fixed capacity that discards its oldest element when a new one
arrives at a full queue. After any run it holds the most recent elements. -/

namespace GamZ.BoundedFifo

/-- Append `value`, discarding the oldest element of a full queue. -/
def push (capacity : Nat) (queue : List α) (value : α) : List α :=
  if queue.length < capacity then queue ++ [value] else queue.tail ++ [value]

theorem length_rtake (count : Nat) (history : List α) :
    (history.rtake count).length = min count history.length := by
  simp [List.rtake]
  omega

theorem rtake_eq_self {count : Nat} {history : List α} (short : history.length ≤ count) :
    history.rtake count = history := by
  have nothing : history.length - count = 0 := by omega
  rw [List.rtake, nothing, List.drop_zero]

theorem tail_rtake {count : Nat} {history : List α} (long : count < history.length) :
    (history.rtake (count + 1)).tail = history.rtake count := by
  have next : history.length - (count + 1) + 1 = history.length - count := by omega
  rw [List.rtake, List.tail_drop, next, List.rtake]

/-- Pushing onto the most recent elements of a history keeps the most recent
elements of the longer history. -/
theorem push_rtake {capacity : Nat} (positive : 0 < capacity) (history : List α)
    (value : α) :
    push capacity (history.rtake capacity) value = (history ++ [value]).rtake capacity := by
  cases capacity with
  | zero => omega
  | succ capacity =>
      rw [List.rtake_concat_succ, push, length_rtake]
      by_cases short : history.length ≤ capacity
      · rw [if_pos (by omega), rtake_eq_self (by omega), rtake_eq_self short]
      · rw [if_neg (by omega), tail_rtake (by omega)]

theorem length_push_le {capacity : Nat} (positive : 0 < capacity) {queue : List α}
    (bounded : queue.length ≤ capacity) (value : α) :
    (push capacity queue value).length ≤ capacity := by
  unfold push
  split
  · simp only [List.length_append, List.length_singleton]
    omega
  · simp only [List.length_append, List.length_tail, List.length_singleton]
    omega

end GamZ.BoundedFifo
