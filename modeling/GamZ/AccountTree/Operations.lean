import GamZ.Foundation.CString
import GamZ.Foundation.LinkedTree

/-! # The account tree on the heap

The functions of `data_structure_tree.c`. Every access goes through the heap of
live nodes and fails at a freed one; the C loops and recursions take fuel. -/

namespace GamZ.AccountTree

open CString LinkedTree

inductive Fault
  | dangling
  | outOfFuel
deriving DecidableEq, Repr

/-- A character array holding a string of less than `size` characters. -/
abbrev CharArray (size : Nat) := { text : List Byte // text.length < size }

structure Element where
  accountNum : CharArray 200
  userName : CharArray 20
  randNum : Int
  otpNum : Int
deriving DecidableEq

abbrev Address := Nat

abbrev Pointer := Option Address

abbrev AccountHeap := Heap Address Element

def readNode (heap : AccountHeap) (p : Address) : Except Fault (TreeNode Address Element) :=
  match heap p with
  | some node => .ok node
  | none => .error .dangling

def writeNode (heap : AccountHeap) (p : Address) (node : TreeNode Address Element) :
    AccountHeap :=
  Function.update heap p (some node)

/-- `p->left = left` -/
def setLeft (heap : AccountHeap) (p : Address) (left : Pointer) : Except Fault AccountHeap := do
  let node ← readNode heap p
  pure (writeNode heap p { node with left })

/-- `p->right = right` -/
def setRight (heap : AccountHeap) (p : Address) (right : Pointer) : Except Fault AccountHeap := do
  let node ← readNode heap p
  pure (writeNode heap p { node with right })

/-- `p->key = key` -/
def setKey (heap : AccountHeap) (p : Address) (key : Element) : Except Fault AccountHeap := do
  let node ← readNode heap p
  pure (writeNode heap p { node with key })

def free (heap : AccountHeap) (p : Address) : Except Fault AccountHeap := do
  let _ ← readNode heap p
  pure (Function.update heap p none)

/-- `strcmp` on the account numbers of two elements. -/
def compareAccounts (first second : Element) : Int :=
  strcmp first.accountNum.val second.accountNum.val

/-- `newNode` is the block that `malloc` hands out if the key is new. -/
def insertKey : Nat → AccountHeap → Pointer → Element → Address →
    Except Fault (Pointer × AccountHeap)
  | 0, _, _, _, _ => .error .outOfFuel
  | _ + 1, heap, none, key, newNode =>
      .ok (some newNode, writeNode heap newNode ⟨key, none, none⟩)
  | fuel + 1, heap, some p, key, newNode => do
      let node ← readNode heap p
      let compare := compareAccounts key node.key
      if compare < 0 then
        let (left, heap) ← insertKey fuel heap node.left key newNode
        let heap ← setLeft heap p left
        pure (some p, heap)
      else if 0 < compare then
        let (right, heap) ← insertKey fuel heap node.right key newNode
        let heap ← setRight heap p right
        pure (some p, heap)
      else pure (some p, heap)

/-- The first loop of `deleteNode`: the final `parent` and `p`. -/
def locate : Nat → AccountHeap → Pointer → Pointer → Element → Except Fault (Pointer × Pointer)
  | 0, _, _, _, _ => .error .outOfFuel
  | _ + 1, _, parent, none, _ => .ok (parent, none)
  | fuel + 1, heap, parent, some p, key => do
      let node ← readNode heap p
      if compareAccounts node.key key ≠ 0 then
        if compareAccounts key node.key < 0 then locate fuel heap (some p) node.left key
        else locate fuel heap (some p) node.right key
      else pure (parent, some p)

/-- `if (parent->left == p) parent->left = child; else parent->right = child;` -/
def replaceChild (heap : AccountHeap) (parent p : Address) (child : Pointer) :
    Except Fault AccountHeap := do
  let node ← readNode heap parent
  if node.left = some p then setLeft heap parent child else setRight heap parent child

/-- Give the parent of a deleted node another child. Without a parent only the
local variable `root` changes. -/
def detach (heap : AccountHeap) (parent : Pointer) (p : Address) (child : Pointer) :
    Except Fault AccountHeap :=
  match parent with
  | some parent => replaceChild heap parent p child
  | none => .ok heap

/-- The second loop of `deleteNode`: the final `succ_parent` and `succ`. -/
def leftmost : Nat → AccountHeap → Address → Address → Except Fault (Address × Address)
  | 0, _, _, _ => .error .outOfFuel
  | fuel + 1, heap, succParent, succ => do
      let node ← readNode heap succ
      match node.left with
      | some next => leftmost fuel heap succ next
      | none => pure (succParent, succ)

/-- The second loop, and the successor's right child in the successor's place. -/
def detachSuccessor (fuel : Nat) (heap : AccountHeap) (p right : Address) :
    Except Fault (Address × AccountHeap) := do
  let (succParent, succ) ← leftmost fuel heap p right
  let node ← readNode heap succ
  let heap ← replaceChild heap succParent succ node.right
  pure (succ, heap)

/-- The three cases of `deleteNode` for the node `p` found, and `free`. -/
def unlink (fuel : Nat) (heap : AccountHeap) (parent : Pointer) (p : Address) :
    Except Fault AccountHeap := do
  let node ← readNode heap p
  match node.left, node.right with
  | none, none =>
      let heap ← detach heap parent p none
      free heap p
  | some child, none =>
      let heap ← detach heap parent p (some child)
      free heap p
  | none, some child =>
      let heap ← detach heap parent p (some child)
      free heap p
  | some _, some right =>
      let (succ, heap) ← detachSuccessor fuel heap p right
      let succNode ← readNode heap succ
      let heap ← setKey heap p succNode.key
      free heap succ

/-- `deleteNode` from a node `p` on whose parent is known. -/
def deleteFrom (steps fuel : Nat) (heap : AccountHeap) (parent p : Pointer) (key : Element) :
    Except Fault AccountHeap := do
  let (parent, p) ← locate steps heap parent p key
  match p with
  | none => pure heap
  | some p => unlink fuel heap parent p

/-- `root` is passed by value: the caller's pointer is not among the results. -/
def deleteNode (fuel : Nat) (heap : AccountHeap) (root : Pointer) (key : Element) :
    Except Fault AccountHeap :=
  deleteFrom fuel fuel heap none root key

def searchBST : Nat → AccountHeap → Pointer → Element → Except Fault Pointer
  | 0, _, _, _ => .error .outOfFuel
  | _ + 1, _, none, _ => .ok none
  | fuel + 1, heap, some p, key => do
      let node ← readNode heap p
      let compare := compareAccounts key node.key
      if compare < 0 then searchBST fuel heap node.left key
      else if 0 < compare then searchBST fuel heap node.right key
      else pure (some p)

/-- The account numbers in the order of printing. -/
def displayInorder : Nat → AccountHeap → Pointer → Except Fault (List (CharArray 200))
  | 0, _, _ => .error .outOfFuel
  | _ + 1, _, none => .ok []
  | fuel + 1, heap, some p => do
      let node ← readNode heap p
      let left ← displayInorder fuel heap node.left
      let right ← displayInorder fuel heap node.right
      pure (left ++ node.key.accountNum :: right)

end GamZ.AccountTree
