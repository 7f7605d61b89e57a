import GamZ.Foundation.SearchTree
import Mathlib.Logic.Function.Basic

/-! # Trees of linked nodes

A heap maps the addresses of live blocks to tree nodes. A labelled tree whose
labels are addresses is stored in it when every node lies at its address and
points to its children. -/

namespace GamZ.LinkedTree

open SearchTree

variable {Address Item : Type*}

structure TreeNode (Address Item : Type*) where
  key : Item
  left : Option Address
  right : Option Address

abbrev Heap (Address Item : Type*) := Address → Option (TreeNode Address Item)

def rootOf : BinaryTree (Address × Item) → Option Address
  | .nil => none
  | .node value _ _ => some value.1

@[simp] theorem rootOf_nil : rootOf (.nil : BinaryTree (Address × Item)) = none := rfl

@[simp] theorem rootOf_node (value : Address × Item) (left right : BinaryTree (Address × Item)) :
    rootOf (.node value left right) = some value.1 := rfl

theorem rootOf_mem_labels {tree : BinaryTree (Address × Item)} {address : Address}
    (atRoot : rootOf tree = some address) : address ∈ labels tree := by
  cases tree with
  | nil => cases atRoot
  | node value left right =>
      cases atRoot
      simp

/-- A deletion that finds no root with a child missing keeps the root's address. -/
theorem rootOf_delete {Key : Type*} [LinearOrder Key] {key : Item → Key} {unwanted : Key}
    (tree : BinaryTree (Address × Item))
    (keepsRoot : ∀ value left right, tree = .node value left right → key value.2 = unwanted →
      left ≠ .nil ∧ right ≠ .nil) :
    rootOf (delete key unwanted tree) = rootOf tree := by
  cases tree with
  | nil => rfl
  | node value left right =>
      unfold delete
      split_ifs with before after
      · rfl
      · rfl
      · have here : key value.2 = unwanted :=
          le_antisymm (le_of_not_gt before) (le_of_not_gt after)
        rcases keepsRoot value left right rfl here with ⟨hasLeft, hasRight⟩
        cases left with
        | nil => exact absurd rfl hasLeft
        | node next first second =>
            cases right with
            | nil => exact absurd rfl hasRight
            | node => rfl

theorem rootOf_ne_nil {tree : BinaryTree (Address × Item)} (linked : rootOf tree ≠ none) :
    tree ≠ .nil := by
  intro isNil
  rw [isNil] at linked
  exact linked rfl

def Stored (heap : Heap Address Item) : BinaryTree (Address × Item) → Prop
  | .nil => True
  | .node value left right =>
      heap value.1 = some ⟨value.2, rootOf left, rootOf right⟩ ∧
        Stored heap left ∧ Stored heap right

/-- A tree stays stored when nothing at its addresses changes. -/
theorem Stored.congr {heap changed : Heap Address Item} {tree : BinaryTree (Address × Item)}
    (stored : Stored heap tree) (same : ∀ address ∈ labels tree, changed address = heap address) :
    Stored changed tree := by
  induction tree with
  | nil => trivial
  | node value left right leftInduction rightInduction =>
      rcases stored with ⟨atRoot, leftStored, rightStored⟩
      refine ⟨?_, leftInduction leftStored ?_, rightInduction rightStored ?_⟩
      · rw [same value.1 (by simp), atRoot]
      · exact fun address member => same address (by simp [member])
      · exact fun address member => same address (by simp [member])

theorem Stored.update [DecidableEq Address] {heap : Heap Address Item}
    {tree : BinaryTree (Address × Item)} (stored : Stored heap tree) {address : Address}
    (outside : address ∉ labels tree) (block : Option (TreeNode Address Item)) :
    Stored (Function.update heap address block) tree := by
  apply stored.congr
  intro other member
  have different : other ≠ address := fun equal => outside (equal ▸ member)
  exact Function.update_of_ne different _ _

theorem Stored.live {heap : Heap Address Item} {tree : BinaryTree (Address × Item)}
    (stored : Stored heap tree) {address : Address} (member : address ∈ labels tree) :
    heap address ≠ none := by
  induction tree with
  | nil => simp at member
  | node value left right leftInduction rightInduction =>
      rcases stored with ⟨atRoot, leftStored, rightStored⟩
      rw [labels_node, List.mem_append, List.mem_cons] at member
      rcases member with inLeft | here | inRight
      · exact leftInduction leftStored inLeft
      · rw [here, atRoot]
        exact Option.some_ne_none _
      · exact rightInduction rightStored inRight

theorem Stored.not_mem_of_dead {heap : Heap Address Item} {tree : BinaryTree (Address × Item)}
    (stored : Stored heap tree) {address : Address} (dead : heap address = none) :
    address ∉ labels tree :=
  fun member => stored.live member dead

theorem Stored.read {heap : Heap Address Item} {tree : BinaryTree (Address × Item)}
    (stored : Stored heap tree) {found : Address × Item} (member : found ∈ inorder tree) :
    ∃ node, heap found.1 = some node ∧ node.key = found.2 := by
  induction tree with
  | nil => cases member
  | node value left right leftInduction rightInduction =>
      rcases stored with ⟨atRoot, leftStored, rightStored⟩
      rw [inorder, List.mem_append, List.mem_cons] at member
      rcases member with inLeft | here | inRight
      · exact leftInduction leftStored inLeft
      · rw [here]
        exact ⟨_, atRoot, rfl⟩
      · exact rightInduction rightStored inRight

theorem Stored.subtree {heap : Heap Address Item} {part tree : BinaryTree (Address × Item)}
    (stored : Stored heap tree) (isSubtree : IsSubtree part tree) : Stored heap part := by
  induction isSubtree with
  | whole => exact stored
  | left _ induction => exact induction stored.2.1
  | right _ induction => exact induction stored.2.2

theorem Stored.agree {heap changed : Heap Address Item} {tree : BinaryTree (Address × Item)}
    (stored : Stored heap tree) (alsoStored : Stored changed tree) :
    ∀ address ∈ labels tree, changed address = heap address := by
  induction tree with
  | nil => simp
  | node value left right leftInduction rightInduction =>
      intro address member
      rw [labels_node, List.mem_append, List.mem_cons] at member
      rcases member with inLeft | here | inRight
      · exact leftInduction stored.2.1 alsoStored.2.1 address inLeft
      · rw [here, stored.1, alsoStored.1]
      · exact rightInduction stored.2.2 alsoStored.2.2 address inRight

/-! ## Reachability -/

/-- The addresses reached from a pointer by following the links of live nodes. -/
inductive Reachable (heap : Heap Address Item) : Option Address → Address → Prop
  | here (address : Address) : Reachable heap (some address) address
  | left {address other : Address} {node : TreeNode Address Item} :
      heap address = some node → Reachable heap node.left other →
      Reachable heap (some address) other
  | right {address other : Address} {node : TreeNode Address Item} :
      heap address = some node → Reachable heap node.right other →
      Reachable heap (some address) other

theorem Stored.mem_of_reachable {heap : Heap Address Item}
    {tree : BinaryTree (Address × Item)} (stored : Stored heap tree) :
    ∀ {address : Address}, Reachable heap (rootOf tree) address → address ∈ labels tree := by
  induction tree with
  | nil =>
      intro address reached
      cases reached
  | node value left right leftInduction rightInduction =>
      rcases stored with ⟨atRoot, leftStored, rightStored⟩
      intro address reached
      rw [labels_node, List.mem_append, List.mem_cons]
      cases reached with
      | here => exact .inr (.inl rfl)
      | left read reached =>
          rw [atRoot] at read
          cases read
          exact .inl (leftInduction leftStored reached)
      | right read reached =>
          rw [atRoot] at read
          cases read
          exact .inr (.inr (rightInduction rightStored reached))

theorem Stored.reachable_of_mem {heap : Heap Address Item}
    {tree : BinaryTree (Address × Item)} (stored : Stored heap tree) :
    ∀ address ∈ labels tree, Reachable heap (rootOf tree) address := by
  induction tree with
  | nil => simp
  | node value left right leftInduction rightInduction =>
      rcases stored with ⟨atRoot, leftStored, rightStored⟩
      intro address member
      rw [labels_node, List.mem_append, List.mem_cons] at member
      rcases member with inLeft | here | inRight
      · exact .left atRoot (leftInduction leftStored address inLeft)
      · rw [here]
        exact .here value.1
      · exact .right atRoot (rightInduction rightStored address inRight)

theorem Stored.reachable_iff {heap : Heap Address Item} {tree : BinaryTree (Address × Item)}
    (stored : Stored heap tree) (address : Address) :
    Reachable heap (rootOf tree) address ↔ address ∈ labels tree :=
  ⟨stored.mem_of_reachable, stored.reachable_of_mem address⟩

/-! ## Redirecting a link -/

/-- The node with its link to `old` redirected: the left link if it is that one,
otherwise the right link. -/
def TreeNode.relinked [DecidableEq Address] (node : TreeNode Address Item)
    (old new : Option Address) : TreeNode Address Item :=
  if node.left = old then { node with left := new } else { node with right := new }

def TreeNode.Links (node : TreeNode Address Item) (child : Option Address) : Prop :=
  node.left = child ∨ node.right = child

theorem TreeNode.relinked_self [DecidableEq Address] {node : TreeNode Address Item}
    {child : Option Address} (links : node.Links child) : node.relinked child child = node := by
  rcases node with ⟨key, left, right⟩
  rcases links with atLeft | atRight
  · simp only at atLeft
    simp [relinked, atLeft]
  · simp only at atRight
    by_cases atLeft : left = child <;> simp [relinked, atLeft, atRight]

@[simp] theorem TreeNode.relinked_left [DecidableEq Address] (key : Item)
    (left right new : Option Address) :
    (TreeNode.mk key left right).relinked left new = ⟨key, new, right⟩ := by
  simp [relinked]

theorem TreeNode.relinked_right [DecidableEq Address] {key : Item}
    {left right : Option Address} (different : left ≠ right) (new : Option Address) :
    (TreeNode.mk key left right).relinked right new = ⟨key, left, new⟩ := by
  simp [relinked, different]

end GamZ.LinkedTree
