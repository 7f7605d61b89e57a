import GamZ.AccountTree.Operations

/-! # The heap operations refine the operations on search trees

Each operation is run on a heap that stores a tree with distinct addresses. It
returns, given more fuel than the tree is high, and leaves the result of the
operation on trees stored, with every other block unchanged. -/

namespace GamZ.AccountTree

open CString LinkedTree SearchTree

abbrev Tree := BinaryTree (Address × Element)

def accountKey (element : Element) : List Nat :=
  sortKey element.accountNum.val

theorem compareAccounts_neg_iff (first second : Element) :
    compareAccounts first second < 0 ↔ accountKey first < accountKey second :=
  strcmp_neg_iff _ _

theorem compareAccounts_pos_iff (first second : Element) :
    0 < compareAccounts first second ↔ accountKey second < accountKey first :=
  strcmp_pos_iff _ _

theorem compareAccounts_ne_zero_iff (first second : Element) :
    compareAccounts first second ≠ 0 ↔ accountKey first ≠ accountKey second := by
  rw [Ne, Ne, compareAccounts, strcmp_eq_zero_iff, ← sortKey_eq_iff]
  rfl

/-! ## Accesses to live nodes -/

section Access

variable {heap : AccountHeap} {p : Address} {node : TreeNode Address Element}

theorem readNode_live (live : heap p = some node) : readNode heap p = .ok node := by
  simp [readNode, live]

theorem setLeft_live (live : heap p = some node) (left : Pointer) :
    setLeft heap p left = .ok (writeNode heap p { node with left }) := by
  simp [setLeft, readNode_live live, bind, Except.bind, pure, Except.pure]

theorem setRight_live (live : heap p = some node) (right : Pointer) :
    setRight heap p right = .ok (writeNode heap p { node with right }) := by
  simp [setRight, readNode_live live, bind, Except.bind, pure, Except.pure]

theorem setKey_live (live : heap p = some node) (key : Element) :
    setKey heap p key = .ok (writeNode heap p { node with key }) := by
  simp [setKey, readNode_live live, bind, Except.bind, pure, Except.pure]

theorem free_live (live : heap p = some node) :
    free heap p = .ok (Function.update heap p none) := by
  simp [free, readNode_live live, bind, Except.bind, pure, Except.pure]

theorem replaceChild_live (live : heap p = some node) (child : Address) (new : Pointer) :
    replaceChild heap p child new = .ok (writeNode heap p (node.relinked (some child) new)) := by
  by_cases atLeft : node.left = some child
  · simp [replaceChild, readNode_live live, setLeft_live live, TreeNode.relinked, atLeft, bind,
      Except.bind]
  · simp [replaceChild, readNode_live live, setRight_live live, TreeNode.relinked, atLeft, bind,
      Except.bind]

@[simp] theorem writeNode_same (heap : AccountHeap) (p : Address)
    (node : TreeNode Address Element) : writeNode heap p node p = some node :=
  Function.update_self ..

theorem writeNode_other (heap : AccountHeap) {p other : Address}
    (node : TreeNode Address Element) (different : other ≠ p) :
    writeNode heap p node other = heap other :=
  Function.update_of_ne different ..

end Access

/-! ## Reading operations -/

theorem searchBST_refines (key : Element) {heap : AccountHeap} (tree : Tree) :
    ∀ fuel, Stored heap tree → tree.height < fuel →
      searchBST fuel heap (rootOf tree) key =
        .ok ((search accountKey (accountKey key) tree).map Prod.fst) := by
  induction tree with
  | nil =>
      intro fuel _ enough
      cases fuel with
      | zero => simp at enough
      | succ fuel => rfl
  | node value left right leftInduction rightInduction =>
      intro fuel stored enough
      rcases stored with ⟨atRoot, leftStored, rightStored⟩
      rw [BinaryTree.height] at enough
      cases fuel with
      | zero => omega
      | succ fuel =>
          have onLeft := leftInduction fuel leftStored (by omega)
          have onRight := rightInduction fuel rightStored (by omega)
          simp only [searchBST, search, rootOf_node, readNode_live atRoot, bind, Except.bind,
            compareAccounts_neg_iff, compareAccounts_pos_iff, onLeft, onRight]
          split_ifs <;> rfl

theorem displayInorder_refines {heap : AccountHeap} (tree : Tree) :
    ∀ fuel, Stored heap tree → tree.height < fuel →
      displayInorder fuel heap (rootOf tree) = .ok ((items tree).map Element.accountNum) := by
  induction tree with
  | nil =>
      intro fuel _ enough
      cases fuel with
      | zero => simp at enough
      | succ fuel => rfl
  | node value left right leftInduction rightInduction =>
      intro fuel stored enough
      rcases stored with ⟨atRoot, leftStored, rightStored⟩
      rw [BinaryTree.height] at enough
      cases fuel with
      | zero => omega
      | succ fuel =>
          have onLeft := leftInduction fuel leftStored (by omega)
          have onRight := rightInduction fuel rightStored (by omega)
          simp [displayInorder, readNode_live atRoot, onLeft, onRight, bind, Except.bind, pure,
            Except.pure]

/-! ## Insertion -/

/-- What an operation on a subtree leaves behind: the resulting tree is stored
and blocks outside the given addresses are unchanged. -/
structure Replaces (heap changed : AccountHeap) (touched : List Address) (result : Tree) :
    Prop where
  stored : Stored changed result
  unchanged : ∀ address, address ∉ touched → changed address = heap address

section Insertion

variable {heap changed : AccountHeap} {newNode : Address} {value : Address × Element}
  {left right inserted : Tree}

/-- The root takes over the left subtree with the new node. -/
private theorem insert_left (stored : Stored heap (.node value left right))
    (distinct : (labels (.node value left right)).Nodup)
    (fresh : newNode ∉ labels (.node value left right))
    (replaces : Replaces heap changed (newNode :: labels left) inserted)
    (part : ∀ address ∈ labels inserted, address ∈ labels left ∨ address = newNode) :
    ∃ final, setLeft changed value.1 (rootOf inserted) = .ok final ∧
      Replaces heap final (newNode :: labels (.node value left right))
        (.node value inserted right) := by
  rcases stored with ⟨atRoot, -, rightStored⟩
  rcases replaces with ⟨leftInserted, unchanged⟩
  rcases (nodup_labels_node value left right).mp distinct with
    ⟨-, -, rootNotLeft, rootNotRight, apart⟩
  simp only [labels_node, List.mem_append, List.mem_cons, not_or] at fresh
  rcases fresh with ⟨newNotLeft, newNotRoot, newNotRight⟩
  have rootKept := unchanged value.1 (by simp [Ne.symm newNotRoot, rootNotLeft])
  rw [atRoot] at rootKept
  have rightKept : Stored changed right := rightStored.congr fun address member =>
    unchanged address (by
      simp only [List.mem_cons, not_or]
      exact ⟨fun equal => newNotRight (equal ▸ member),
        fun inLeft => apart address inLeft member⟩)
  have rootOutside : value.1 ∉ labels inserted := by
    intro member
    rcases part _ member with old | new
    · exact rootNotLeft old
    · exact newNotRoot new.symm
  refine ⟨_, setLeft_live rootKept _, ⟨writeNode_same .., leftInserted.update rootOutside _,
    rightKept.update rootNotRight _⟩, ?_⟩
  intro address outside
  simp only [labels_node, List.mem_append, List.mem_cons, not_or] at outside
  rw [writeNode_other _ _ outside.2.2.1]
  exact unchanged address (by simp [outside])

private theorem insert_right (stored : Stored heap (.node value left right))
    (distinct : (labels (.node value left right)).Nodup)
    (fresh : newNode ∉ labels (.node value left right))
    (replaces : Replaces heap changed (newNode :: labels right) inserted)
    (part : ∀ address ∈ labels inserted, address ∈ labels right ∨ address = newNode) :
    ∃ final, setRight changed value.1 (rootOf inserted) = .ok final ∧
      Replaces heap final (newNode :: labels (.node value left right))
        (.node value left inserted) := by
  rcases stored with ⟨atRoot, leftStored, -⟩
  rcases replaces with ⟨rightInserted, unchanged⟩
  rcases (nodup_labels_node value left right).mp distinct with
    ⟨-, -, rootNotLeft, rootNotRight, apart⟩
  simp only [labels_node, List.mem_append, List.mem_cons, not_or] at fresh
  rcases fresh with ⟨newNotLeft, newNotRoot, newNotRight⟩
  have rootKept := unchanged value.1 (by simp [Ne.symm newNotRoot, rootNotRight])
  rw [atRoot] at rootKept
  have leftKept : Stored changed left := leftStored.congr fun address member =>
    unchanged address (by
      simp only [List.mem_cons, not_or]
      exact ⟨fun equal => newNotLeft (equal ▸ member), apart address member⟩)
  have rootOutside : value.1 ∉ labels inserted := by
    intro member
    rcases part _ member with old | new
    · exact rootNotRight old
    · exact newNotRoot new.symm
  refine ⟨_, setRight_live rootKept _, ⟨writeNode_same .., leftKept.update rootNotLeft _,
    rightInserted.update rootOutside _⟩, ?_⟩
  intro address outside
  simp only [labels_node, List.mem_append, List.mem_cons, not_or] at outside
  rw [writeNode_other _ _ outside.2.2.1]
  exact unchanged address (by simp [outside])

end Insertion

theorem insertKey_refines (key : Element) (newNode : Address) {heap : AccountHeap}
    (tree : Tree) :
    ∀ fuel, Stored heap tree → (labels tree).Nodup → heap newNode = none →
      tree.height < fuel →
      ∃ changed, insertKey fuel heap (rootOf tree) key newNode =
          .ok (rootOf (insert accountKey newNode key tree), changed) ∧
        Replaces heap changed (newNode :: labels tree) (insert accountKey newNode key tree) := by
  induction tree with
  | nil =>
      intro fuel _ _ _ enough
      cases fuel with
      | zero => simp at enough
      | succ fuel =>
          refine ⟨_, rfl, ⟨writeNode_same .., trivial, trivial⟩, ?_⟩
          intro address outside
          exact writeNode_other heap _ (fun equal => outside (by simp [equal]))
  | node value left right leftInduction rightInduction =>
      intro fuel stored distinct fresh enough
      have newOutside := stored.not_mem_of_dead fresh
      rcases (nodup_labels_node value left right).mp distinct with
        ⟨leftDistinct, rightDistinct, -⟩
      rw [BinaryTree.height] at enough
      cases fuel with
      | zero => omega
      | succ fuel =>
          simp only [insertKey, rootOf_node, readNode_live stored.1, bind, Except.bind,
            compareAccounts_neg_iff, compareAccounts_pos_iff, SearchTree.insert]
          split_ifs with before after
          · rcases leftInduction fuel stored.2.1 leftDistinct fresh (by omega) with
              ⟨changed, run, leftReplaces⟩
            rcases insert_left stored distinct newOutside leftReplaces
                (labels_insert newNode key left) with ⟨final, linked, replaces⟩
            exact ⟨final, by simp only [run, linked, pure, Except.pure, rootOf_node], replaces⟩
          · rcases rightInduction fuel stored.2.2 rightDistinct fresh (by omega) with
              ⟨changed, run, rightReplaces⟩
            rcases insert_right stored distinct newOutside rightReplaces
                (labels_insert newNode key right) with ⟨final, linked, replaces⟩
            exact ⟨final, by simp only [run, linked, pure, Except.pure, rootOf_node], replaces⟩
          · exact ⟨heap, rfl, stored, fun _ _ => rfl⟩

/-! ## Deletion -/

/-- Detaching the leftmost node of a subtree whose parent links to it. -/
theorem detachSuccessor_refines {heap : AccountHeap} (left : Tree) :
    ∀ (fuel : Nat) (parent : Address) (node : TreeNode Address Element)
      (value : Address × Element) (right : Tree),
      Stored heap (.node value left right) → (labels (.node value left right)).Nodup →
      parent ∉ labels (.node value left right) → heap parent = some node →
      node.Links (some value.1) → left.height < fuel →
      ∃ changed,
        detachSuccessor fuel heap parent value.1 = .ok ((popMin value left right).1.1, changed) ∧
        changed parent = some (node.relinked (some value.1) (rootOf (popMin value left right).2)) ∧
        (∃ succ, changed (popMin value left right).1.1 = some succ ∧
          succ.key = (popMin value left right).1.2) ∧
        Replaces heap changed (parent :: labels (.node value left right))
          (popMin value left right).2 := by
  induction left with
  | nil =>
      intro fuel parent node value right stored distinct outside atParent links enough
      rcases stored with ⟨atRoot, -, rightStored⟩
      rcases (nodup_labels_node value .nil right).mp distinct with ⟨-, -, -, rootNotRight, -⟩
      simp only [labels_node, labels_nil, List.nil_append, List.mem_cons, not_or] at outside
      cases fuel with
      | zero => simp at enough
      | succ fuel =>
          refine ⟨writeNode heap parent (node.relinked (some value.1) (rootOf right)), ?_,
            writeNode_same .., ⟨⟨value.2, none, rootOf right⟩, ?_, rfl⟩,
            rightStored.update outside.2 _, ?_⟩
          · simp [detachSuccessor, leftmost, readNode_live atRoot, replaceChild_live atParent,
              popMin, bind, Except.bind, pure, Except.pure]
          · rw [popMin, writeNode_other _ _ (Ne.symm outside.1)]
            exact atRoot
          · intro address elsewhere
            exact writeNode_other heap _ (fun equal => elsewhere (by simp [equal]))
  | node next left middle leftInduction _ =>
      intro fuel parent node value right stored distinct outside atParent links enough
      rcases stored with ⟨atRoot, leftStored, rightStored⟩
      rcases (nodup_labels_node value (.node next left middle) right).mp distinct with
        ⟨leftDistinct, rightDistinct, rootNotLeft, rootNotRight, apart⟩
      rw [BinaryTree.height] at enough
      cases fuel with
      | zero => omega
      | succ fuel =>
          rcases leftInduction fuel value.1 _ next middle leftStored leftDistinct rootNotLeft
              atRoot (.inl rfl) (by omega) with
            ⟨changed, run, rootAfter, successor, restStored, unchanged⟩
          have elsewhere : ∀ address,
              address ∉ parent :: labels (.node value (.node next left middle) right) →
              changed address = heap address := by
            intro address notHere
            rw [List.mem_cons, labels_node, List.mem_append, List.mem_cons] at notHere
            apply unchanged
            rw [List.mem_cons]
            tauto
          have parentKept : changed parent = some node := by
            rw [unchanged parent, atParent]
            rw [labels_node, List.mem_append, List.mem_cons] at outside
            rw [List.mem_cons]
            tauto
          have rightKept : Stored changed right := rightStored.congr fun address member =>
            unchanged address (by
              simp only [List.mem_cons, not_or]
              exact ⟨fun equal => rootNotRight (equal ▸ member),
                fun inLeft => apart address inLeft member⟩)
          refine ⟨changed, ?_, ?_, successor, ⟨?_, restStored, rightKept⟩, elsewhere⟩
          · have descend : detachSuccessor (fuel + 1) heap parent value.1 =
                detachSuccessor fuel heap value.1 next.1 := by
              simp [detachSuccessor, leftmost, readNode_live atRoot, bind, Except.bind]
            rw [descend, run]
            rfl
          · rw [parentKept]
            exact congrArg some (TreeNode.relinked_self links).symm
          · simpa [TreeNode.relinked_left, popMin] using rootAfter

/-- The parent, if there is one, lies outside the subtree and links to it. -/
def Below (heap : AccountHeap) (parent : Pointer) (tree : Tree) : Prop :=
  ∀ p, parent = some p →
    p ∉ labels tree ∧ ∃ node, heap p = some node ∧ node.Links (rootOf tree)

/-- A deletion in a subtree leaves the result stored and the parent linked to it. -/
structure Deletes (heap changed : AccountHeap) (parent : Pointer) (tree result : Tree) :
    Prop where
  stored : Stored changed result
  relinked : ∀ p node, parent = some p → heap p = some node →
    changed p = some (node.relinked (rootOf tree) (rootOf result))
  unchanged : ∀ address, address ∉ labels tree → parent ≠ some address →
    changed address = heap address

/-- A deletion below the root of a subtree leaves the parent as it is. -/
private theorem deletes_below_root {heap changed : AccountHeap} {parent : Pointer}
    {tree result : Tree} (below : Below heap parent tree) (sameRoot : rootOf result = rootOf tree)
    (stored : Stored changed result)
    (unchanged : ∀ address, address ∉ labels tree → changed address = heap address) :
    Deletes heap changed parent tree result where
  stored := stored
  relinked := by
    intro p node isParent atParent
    rcases below p isParent with ⟨outside, found, atFound, links⟩
    rw [atParent] at atFound
    cases atFound
    rw [unchanged p outside, atParent, sameRoot, TreeNode.relinked_self links]
  unchanged := fun address outside _ => unchanged address outside

/-- A node with at most one child is replaced by that child and freed. -/
private theorem detach_free {heap : AccountHeap} {parent : Pointer} {value : Address × Element}
    {left right child : Tree} (stored : Stored heap (.node value left right))
    (below : Below heap parent (.node value left right)) (childStored : Stored heap child)
    (rootOutside : value.1 ∉ labels child)
    (part : ∀ address ∈ labels child, address ∈ labels (.node value left right)) :
    ∃ changed,
      (detach heap parent value.1 (rootOf child) >>= fun heap => free heap value.1) =
        .ok changed ∧
      Deletes heap changed parent (.node value left right) child := by
  cases parent with
  | none =>
      refine ⟨Function.update heap value.1 none, ?_, childStored.update rootOutside none, ?_, ?_⟩
      · simp [detach, free_live stored.1, bind, Except.bind]
      · intro p node impossible
        cases impossible
      · intro address outside _
        exact Function.update_of_ne (fun equal => outside (by simp [equal])) ..
  | some parent =>
      rcases below parent rfl with ⟨outside, node, atParent, -⟩
      have different : value.1 ≠ parent := fun equal => outside (by simp [equal])
      have rootKept : writeNode heap parent (node.relinked (some value.1) (rootOf child))
          value.1 = some ⟨value.2, rootOf left, rootOf right⟩ := by
        rw [writeNode_other _ _ different, stored.1]
      have parentOutside : parent ∉ labels child := fun member => outside (part parent member)
      refine ⟨Function.update
          (writeNode heap parent (node.relinked (some value.1) (rootOf child))) value.1 none, ?_,
        (childStored.update parentOutside _).update rootOutside none, ?_, ?_⟩
      · simp [detach, replaceChild_live atParent, free_live rootKept, bind, Except.bind]
      · intro p other isParent atOther
        cases isParent
        rw [atParent] at atOther
        cases atOther
        rw [Function.update_of_ne different.symm, writeNode_same]
        rfl
      · intro address notHere notParent
        rw [Function.update_of_ne (fun equal => notHere (by simp [equal])),
          writeNode_other _ _ (fun equal => notParent (by rw [equal]))]

/-- A node with two children takes its successor's key, and the successor is
freed. -/
private theorem move_successor {heap changed : AccountHeap} {parent : Pointer}
    {value succ : Address × Element} {left right rest : Tree}
    (stored : Stored heap (.node value left right))
    (distinct : (labels (.node value left right)).Nodup)
    (below : Below heap parent (.node value left right))
    (popped : labels right = succ.1 :: labels rest)
    (rootAfter : changed value.1 = some ⟨value.2, rootOf left, rootOf rest⟩)
    (successor : ∃ node, changed succ.1 = some node ∧ node.key = succ.2)
    (replaces : Replaces heap changed (value.1 :: labels right) rest) :
    ∃ final,
      (do
        let node ← readNode changed succ.1
        let heap ← setKey changed value.1 node.key
        free heap succ.1) = .ok final ∧
      Deletes heap final parent (.node value left right)
        (.node (value.1, succ.2) left rest) := by
  rcases (nodup_labels_node value left right).mp distinct with
    ⟨-, rightDistinct, rootNotLeft, rootNotRight, apart⟩
  rcases successor with ⟨node, atSucc, key⟩
  rcases replaces with ⟨restStored, unchanged⟩
  have succInRight : succ.1 ∈ labels right := by simp [popped]
  have restInRight : ∀ address ∈ labels rest, address ∈ labels right := fun address member => by
    simp [popped, member]
  have succNotRest : succ.1 ∉ labels rest := by
    rw [popped] at rightDistinct
    exact (List.nodup_cons.mp rightDistinct).1
  have succNotRoot : succ.1 ≠ value.1 := fun equal => rootNotRight (equal ▸ succInRight)
  have rootNotRest : value.1 ∉ labels rest := fun member =>
    rootNotRight (restInRight _ member)
  have leftKept : Stored changed left := stored.2.1.congr fun address member =>
    unchanged address (by
      simp only [List.mem_cons, not_or]
      exact ⟨fun equal => rootNotLeft (equal ▸ member), apart address member⟩)
  have succNotLeft : succ.1 ∉ labels left := fun member => apart _ member succInRight
  have succKept : writeNode changed value.1 ⟨succ.2, rootOf left, rootOf rest⟩ succ.1 =
      some node := by
    rw [writeNode_other _ _ succNotRoot, atSucc]
  have others : ∀ address, address ∉ labels (.node value left right) →
      Function.update (writeNode changed value.1 ⟨succ.2, rootOf left, rootOf rest⟩) succ.1 none
        address = heap address := by
    intro address outside
    rw [labels_node, List.mem_append, List.mem_cons] at outside
    rw [Function.update_of_ne (fun equal => outside (by simp [equal, succInRight])),
      writeNode_other _ _ (fun equal => outside (by simp [equal])), unchanged address]
    rw [List.mem_cons]
    tauto
  refine ⟨Function.update (writeNode changed value.1 ⟨succ.2, rootOf left, rootOf rest⟩)
      succ.1 none, ?_, deletes_below_root below rfl ⟨?_, ?_, ?_⟩ others⟩
  · simp only [readNode_live atSucc, key, setKey_live rootAfter, bind, Except.bind,
      free_live succKept]
  · rw [Function.update_of_ne succNotRoot.symm, writeNode_same]
  · exact (leftKept.update rootNotLeft _).update succNotLeft none
  · exact (restStored.update rootNotRest _).update succNotRest none

theorem unlink_refines {heap : AccountHeap} {parent : Pointer} {value : Address × Element}
    {left right : Tree} (fuel : Nat) (stored : Stored heap (.node value left right))
    (distinct : (labels (.node value left right)).Nodup)
    (below : Below heap parent (.node value left right)) (enough : right.height < fuel) :
    ∃ changed, unlink fuel heap parent value.1 = .ok changed ∧
      Deletes heap changed parent (.node value left right) (removeRoot value.1 left right) := by
  have wholeStored := stored
  rcases stored with ⟨atRoot, leftStored, rightStored⟩
  rcases (nodup_labels_node value left right).mp distinct with
    ⟨leftDistinct, rightDistinct, rootNotLeft, rootNotRight, apart⟩
  simp only [unlink, readNode_live atRoot, bind, Except.bind]
  cases left with
  | nil =>
      have detached := detach_free wholeStored below rightStored rootNotRight
        (fun address member => by simp [member])
      cases right with
      | nil => simpa [removeRoot, bind, Except.bind] using detached
      | node => simpa [removeRoot, bind, Except.bind] using detached
  | node next first second =>
      cases right with
      | nil =>
          have detached := detach_free wholeStored below leftStored rootNotLeft
            (fun address member => by
              rw [labels_node]
              exact List.mem_append_left _ member)
          simpa [removeRoot, bind, Except.bind] using detached
      | node succ middle last =>
          rw [BinaryTree.height] at enough
          rcases detachSuccessor_refines middle fuel value.1 _ succ last rightStored rightDistinct
              rootNotRight atRoot (.inr rfl) (by omega) with
            ⟨changed, run, rootAfter, successor, replaces⟩
          have different : rootOf (.node next first second) ≠ some succ.1 := fun equal =>
            apart succ.1 (rootOf_mem_labels equal) (by simp)
          rw [rootOf_node succ, TreeNode.relinked_right different] at rootAfter
          have moved := move_successor wholeStored distinct below
            ((labels_node succ middle last).trans (labels_popMin succ middle last)) rootAfter
            successor replaces
          simpa [removeRoot, run, bind, Except.bind] using moved

section BelowRoot

variable {heap changed : AccountHeap} {parent : Pointer} {value : Address × Element}
  {left right result : Tree}

private theorem ne_root {subtree : Tree} (notIn : value.1 ∉ labels subtree) :
    ∀ address ∈ labels subtree, some value.1 ≠ some address := by
  intro address member equal
  cases equal
  exact notIn member

/-- A deletion in the left subtree is one in the whole tree. -/
private theorem delete_left (stored : Stored heap (.node value left right))
    (distinct : (labels (.node value left right)).Nodup)
    (below : Below heap parent (.node value left right))
    (deletes : Deletes heap changed (some value.1) left result) :
    Deletes heap changed parent (.node value left right) (.node value result right) := by
  rcases stored with ⟨atRoot, -, rightStored⟩
  rcases deletes with ⟨leftAfter, relinked, unchanged⟩
  rcases (nodup_labels_node value left right).mp distinct with ⟨-, -, -, rootNotRight, apart⟩
  have rootAfter := relinked value.1 _ rfl atRoot
  rw [TreeNode.relinked_left] at rootAfter
  have rightKept : Stored changed right := rightStored.congr fun address member =>
    unchanged address (fun inLeft => apart address inLeft member)
      (ne_root rootNotRight address member)
  refine deletes_below_root below rfl ⟨rootAfter, leftAfter, rightKept⟩ ?_
  intro address outside
  simp only [labels_node, List.mem_append, List.mem_cons, not_or] at outside
  exact unchanged address outside.1 fun equal => outside.2.1 (Option.some.inj equal).symm

private theorem delete_right (stored : Stored heap (.node value left right))
    (distinct : (labels (.node value left right)).Nodup)
    (below : Below heap parent (.node value left right))
    (deletes : Deletes heap changed (some value.1) right result)
    (staysNil : right = .nil → result = .nil) :
    Deletes heap changed parent (.node value left right) (.node value left result) := by
  rcases stored with ⟨atRoot, leftStored, -⟩
  rcases deletes with ⟨rightAfter, relinked, unchanged⟩
  rcases (nodup_labels_node value left right).mp distinct with ⟨-, -, rootNotLeft, -, apart⟩
  have rootAfter := relinked value.1 _ rfl atRoot
  have leftKept : Stored changed left := leftStored.congr fun address member =>
    unchanged address (apart address member) (ne_root rootNotLeft address member)
  have rootRelinked : changed value.1 = some ⟨value.2, rootOf left, rootOf result⟩ := by
    cases right with
    | nil =>
        rw [rootAfter, staysNil rfl]
        exact congrArg some (TreeNode.relinked_self (.inr rfl))
    | node next middle last =>
        have different : rootOf left ≠ some next.1 := fun equal =>
          apart next.1 (rootOf_mem_labels equal) (by simp)
        rw [rootAfter, rootOf_node, TreeNode.relinked_right different]
  refine deletes_below_root below rfl ⟨rootRelinked, leftKept, rightAfter⟩ ?_
  intro address outside
  simp only [labels_node, List.mem_append, List.mem_cons, not_or] at outside
  exact unchanged address outside.2.2 fun equal => outside.2.1 (Option.some.inj equal).symm

end BelowRoot

/-- From a subtree on, `deleteNode` deletes in that subtree. -/
theorem deleteFrom_refines (key : Element) (fuel : Nat) {heap : AccountHeap} (tree : Tree) :
    ∀ (steps : Nat) (parent : Pointer), Stored heap tree → (labels tree).Nodup →
      Below heap parent tree → tree.height < steps → tree.height < fuel →
      ∃ changed, deleteFrom steps fuel heap parent (rootOf tree) key = .ok changed ∧
        Deletes heap changed parent tree (delete accountKey (accountKey key) tree) := by
  induction tree with
  | nil =>
      intro steps parent stored _ below enough _
      cases steps with
      | zero => simp at enough
      | succ steps => exact ⟨heap, rfl, deletes_below_root below rfl stored fun _ _ => rfl⟩
  | node value left right leftInduction rightInduction =>
      intro steps parent stored distinct below enough enoughFuel
      rcases (nodup_labels_node value left right).mp distinct with
        ⟨leftDistinct, rightDistinct, rootNotLeft, rootNotRight, -⟩
      rw [BinaryTree.height] at enough enoughFuel
      cases steps with
      | zero => omega
      | succ steps =>
          simp only [deleteFrom, locate, rootOf_node, readNode_live stored.1, bind, Except.bind,
            compareAccounts_neg_iff, compareAccounts_ne_zero_iff, delete]
          rcases lt_trichotomy (accountKey key) (accountKey value.2) with before | same | after
          · have belowRoot : Below heap (some value.1) left := by
              intro p isRoot
              cases isRoot
              exact ⟨rootNotLeft, _, stored.1, .inl rfl⟩
            rcases leftInduction steps (some value.1) stored.2.1 leftDistinct belowRoot (by omega)
                (by omega) with ⟨changed, run, deletes⟩
            rw [if_pos (ne_of_gt before), if_pos before, if_pos before]
            exact ⟨changed, run, delete_left stored distinct below deletes⟩
          · rw [if_neg (by simp [same]), if_neg (by simp [same]), if_neg (by simp [same])]
            exact unlink_refines fuel stored distinct below (by omega)
          · have belowRoot : Below heap (some value.1) right := by
              intro p isRoot
              cases isRoot
              exact ⟨rootNotRight, _, stored.1, .inr rfl⟩
            rcases rightInduction steps (some value.1) stored.2.2 rightDistinct belowRoot
                (by omega) (by omega) with ⟨changed, run, deletes⟩
            rw [if_pos (ne_of_lt after), if_neg (not_lt_of_gt after), if_neg (not_lt_of_gt after),
              if_pos after]
            refine ⟨changed, run, delete_right stored distinct below deletes ?_⟩
            intro isNil
            rw [isNil, SearchTree.delete]

end GamZ.AccountTree
