import GamZ.Foundation.LastWriter
import Mathlib.Data.Set.Insert

/-! # Interleaved writes

Two writers that share a store. When they write different keys, the order in which their
writes arrive does not matter. -/

namespace GamZ.LastWriter

/-- A merge of two lists that keeps the order of each. -/
inductive Interleaving {Item : Type*} : List Item → List Item → List Item → Prop
  | nil : Interleaving [] [] []
  | first {first second merged : List Item} (item : Item) :
      Interleaving first second merged → Interleaving (item :: first) second (item :: merged)
  | second {first second merged : List Item} (item : Item) :
      Interleaving first second merged → Interleaving first (item :: second) (item :: merged)

variable {Key Value : Type*}

def footprint (writes : List (Key × Value)) : Set Key :=
  {key | ∃ write ∈ writes, write.1 = key}

theorem mem_footprint {writes : List (Key × Value)} {key : Key} :
    key ∈ footprint writes ↔ ∃ write ∈ writes, write.1 = key := Iff.rfl

@[simp] theorem footprint_cons (write : Key × Value) (writes : List (Key × Value)) :
    footprint (write :: writes) = insert write.1 (footprint writes) := by
  apply Set.ext
  intro key
  rw [Set.mem_insert_iff, mem_footprint, mem_footprint, List.exists_mem_cons_iff, eq_comm]

variable [DecidableEq Key]

/-- A write of a key that no other write concerns may come last. -/
theorem writeAll_update {writes : List (Key × Value)} {key : Key}
    (fresh : key ∉ footprint writes) (value : Value) :
    ∀ store : Key → Value,
      writeAll (Function.update store key value) writes =
        Function.update (writeAll store writes) key value := by
  induction writes with
  | nil => exact fun _ => rfl
  | cons write writes induction =>
      intro store
      rw [footprint_cons, Set.mem_insert_iff, not_or] at fresh
      rw [writeAll_cons, writeAll_cons, Function.update_comm fresh.1, induction fresh.2]

/-- Writers of different keys: the one may write everything in front of the other. -/
theorem Interleaving.writeAll_eq {first second merged : List (Key × Value)}
    (interleaving : Interleaving first second merged)
    (disjoint : ∀ key ∈ footprint first, key ∉ footprint second) :
    ∀ store : Key → Value,
      writeAll store merged = writeAll (writeAll store first) second := by
  induction interleaving with
  | nil => exact fun _ => rfl
  | first write _ induction =>
      intro store
      rw [footprint_cons] at disjoint
      exact induction (fun key member => disjoint key (Set.mem_insert_of_mem _ member)) _
  | @second first second merged write _ induction =>
      intro store
      rw [footprint_cons] at disjoint
      have fresh : write.1 ∉ footprint first :=
        fun member => disjoint write.1 member (Set.mem_insert ..)
      have apart : ∀ key ∈ footprint first, key ∉ footprint second :=
        fun key member other => disjoint key member (Set.mem_insert_of_mem _ other)
      calc
        writeAll store (write :: merged) =
            writeAll (writeAll (Function.update store write.1 write.2) first) second :=
          induction apart _
        _ = writeAll (writeAll store first) (write :: second) := by
          rw [writeAll_update fresh, writeAll_cons]

end GamZ.LastWriter
