import GamZ.Foundation.CString

/-! # Rewriting a string in its array

A loop that gives every byte of a string another value may write a NUL of its own. It
goes on behind it, but the string that is left ends there. -/

namespace GamZ.CString

/-- `for (i = i; i < size && str[i] != '\0'; i++) str[i] = f(str[i]);` -/
def rewriteLoop (f : Byte → Byte) (size : Nat) (str : List Byte) (i : Nat) : List Byte :=
  if i < size ∧ str.getD i 0 ≠ 0 then
    rewriteLoop f size (str.set i (f (str.getD i 0))) (i + 1)
  else str
termination_by size - i

/-- The array after the loop. -/
def rewriteString (f : Byte → Byte) : List Byte → List Byte
  | [] => []
  | head :: rest => if head = 0 then head :: rest else f head :: rewriteString f rest

variable {f g : Byte → Byte}

theorem rewriteLoop_stop {size i : Nat} {str : List Byte} (stop : size ≤ i ∨ str.getD i 0 = 0) :
    rewriteLoop f size str i = str := by
  rw [rewriteLoop, if_neg]
  rintro ⟨inside, nonzero⟩
  rcases stop with outside | zero
  · omega
  · exact nonzero zero

theorem rewriteLoop_step {size i : Nat} {str : List Byte} (inside : i < size)
    (nonzero : str.getD i 0 ≠ 0) :
    rewriteLoop f size str i = rewriteLoop f size (str.set i (f (str.getD i 0))) (i + 1) := by
  rw [rewriteLoop, if_pos ⟨inside, nonzero⟩]

/-- The loop in front of the bytes that are left. -/
theorem rewriteLoop_append (size : Nat) (rest : List Byte) :
    ∀ before : List Byte, before.length + rest.length = size →
      rewriteLoop f size (before ++ rest) before.length = before ++ rewriteString f rest := by
  induction rest with
  | nil =>
      intro before whole
      exact rewriteLoop_stop (.inl whole.ge)
  | cons head rest induction =>
      intro before whole
      have here : (before ++ head :: rest).getD before.length 0 = head := by simp
      rw [List.length_cons] at whole
      by_cases zero : head = 0
      · rw [rewriteLoop_stop (.inr (here.trans zero)), rewriteString, if_pos zero]
      · have stored : (before ++ head :: rest).set before.length (f head) =
            (before ++ [f head]) ++ rest := by simp
        have next : before.length + 1 = (before ++ [f head]).length := by simp
        rw [rewriteLoop_step (by omega) (here.trans_ne zero), here, stored, next,
          induction _ (by rw [← next]; omega), rewriteString, if_neg zero, List.append_assoc,
          List.singleton_append]

/-- The loop over a whole array. -/
theorem rewriteLoop_eq (str : List Byte) :
    rewriteLoop f str.length str 0 = rewriteString f str := by
  exact rewriteLoop_append str.length str [] (Nat.zero_add _)

theorem length_rewriteString (str : List Byte) : (rewriteString f str).length = str.length := by
  induction str with
  | nil => rfl
  | cons head rest induction =>
      rw [rewriteString]
      split
      · rfl
      · rw [List.length_cons, List.length_cons, induction]

/-- The string that is left: all of the string with its new bytes, up to the first of them
that is a NUL. -/
theorem contents_rewriteString (str : List Byte) :
    contents (rewriteString f str) = contents ((contents str).map f) := by
  induction str with
  | nil => rfl
  | cons head rest induction =>
      by_cases zero : head = 0
      · rw [rewriteString, if_pos zero, zero, contents_zero, List.map_nil, contents_nil]
      · rw [rewriteString, if_neg zero, contents_cons zero, List.map_cons]
        by_cases cut : f head = 0
        · rw [cut, contents_zero, contents_zero]
        · rw [contents_cons cut, contents_cons cut, induction]

/-! ## There and back -/

theorem contents_length_le (array : List Byte) : (contents array).length ≤ array.length :=
  (List.takeWhile_sublist _).length_le

theorem contents_of_length_le {array : List Byte}
    (whole : array.length ≤ (contents array).length) : contents array = array :=
  (List.takeWhile_sublist _).eq_of_length_le whole

section Inverse

variable (undoes : ∀ c, g (f c) = c)
include undoes

theorem given_back_iff_noNul {text : List Byte} (noNul : (0 : Byte) ∉ text) :
    contents ((contents (text.map f)).map g) = text ↔ (0 : Byte) ∉ text.map f := by
  have undone : (text.map f).map g = text := by
    rw [List.map_map]
    exact List.map_id'' undoes text
  constructor
  · intro again
    -- nothing may be lost on the way
    have enough : (text.map f).length ≤ (contents (text.map f)).length := by
      calc
        (text.map f).length = text.length := List.length_map f
        _ = (contents ((contents (text.map f)).map g)).length := by rw [again]
        _ ≤ ((contents (text.map f)).map g).length := contents_length_le _
        _ = (contents (text.map f)).length := List.length_map g
    rw [← contents_of_length_le enough]
    exact zero_not_mem_contents _
  · intro noneWritten
    rw [contents_of_noNul _ noneWritten, undone, contents_of_noNul _ noNul]

theorem zero_mem_map_iff (undone : ∀ c, f (g c) = c) (text : List Byte) :
    (0 : Byte) ∈ text.map f ↔ g 0 ∈ text := by
  constructor
  · intro written
    rcases List.mem_map.mp written with ⟨c, member, zero⟩
    rwa [← zero, undoes]
  · intro member
    exact List.mem_map.mpr ⟨g 0, member, undone 0⟩

/-- Rewriting with `g` takes a string back from `f` exactly if it has no byte that `f`
turns into the NUL. -/
theorem given_back_iff (undone : ∀ c, f (g c) = c) {text : List Byte}
    (noNul : (0 : Byte) ∉ text) :
    contents ((contents (text.map f)).map g) = text ↔ g 0 ∉ text := by
  rw [given_back_iff_noNul undoes noNul, zero_mem_map_iff undoes undone]

end Inverse

end GamZ.CString
