import Mathlib.Data.List.Basic
import Mathlib.Logic.Function.Basic

/-! # Sequences of keyed writes

A store after a list of writes holds under each key what its last writer wrote. -/

namespace GamZ.LastWriter

variable {Key Value : Type*} [DecidableEq Key]

/-- The store after the writes, the first one first. -/
def writeAll (store : Key → Value) (writes : List (Key × Value)) : Key → Value :=
  writes.foldl (fun store write => Function.update store write.1 write.2) store

@[simp] theorem writeAll_nil (store : Key → Value) : writeAll store [] = store := rfl

theorem writeAll_cons (store : Key → Value) (write : Key × Value) (writes : List (Key × Value)) :
    writeAll store (write :: writes) =
      writeAll (Function.update store write.1 write.2) writes := rfl

theorem writeAll_append (store : Key → Value) (first second : List (Key × Value)) :
    writeAll store (first ++ second) = writeAll (writeAll store first) second :=
  List.foldl_append

theorem writeAll_of_forall_ne {key : Key} (writes : List (Key × Value)) :
    ∀ store : Key → Value, (∀ write ∈ writes, write.1 ≠ key) →
      writeAll store writes key = store key := by
  induction writes with
  | nil => exact fun _ _ => rfl
  | cons write writes induction =>
      intro store others
      have rest := induction (Function.update store write.1 write.2)
        (fun other member => others other (List.mem_cons_of_mem _ member))
      rw [writeAll, List.foldl_cons]
      rw [writeAll] at rest
      rw [rest, Function.update_of_ne (Ne.symm (others write (by simp)))]

theorem writeAll_getElem (store : Key → Value) (writes : List (Key × Value)) {k : Nat}
    (occurs : k < writes.length)
    (last : ∀ (j : Nat) (inList : j < writes.length), k < j → writes[j].1 ≠ writes[k].1) :
    writeAll store writes writes[k].1 = writes[k].2 := by
  have split : writes = writes.take k ++ writes[k] :: writes.drop (k + 1) := by simp
  have untouched : ∀ write ∈ writes.drop (k + 1), write.1 ≠ writes[k].1 := by
    intro write member
    rcases List.getElem_of_mem member with ⟨j, inDrop, equal⟩
    rw [List.getElem_drop] at equal
    rw [List.length_drop] at inDrop
    rw [← equal]
    exact last (k + 1 + j) (by omega) (by omega)
  have later := writeAll_of_forall_ne (writes.drop (k + 1))
    (Function.update (writeAll store (writes.take k)) writes[k].1 writes[k].2) untouched
  calc
    writeAll store writes writes[k].1 =
        writeAll store (writes.take k ++ writes[k] :: writes.drop (k + 1)) writes[k].1 := by
      rw [← split]
    _ = writes[k].2 := by
      rw [writeAll_append, writeAll, List.foldl_cons]
      rw [writeAll, Function.update_self] at later
      exact later

end GamZ.LastWriter
