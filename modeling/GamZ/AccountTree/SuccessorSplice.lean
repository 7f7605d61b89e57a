import GamZ.AccountTree.InsertionLaws

/-! # The deletion of a node with two children

`deleteNode` copies the key of the leftmost node on the right over the deleted
one, and frees that leftmost node instead. -/

namespace GamZ.AccountTree

open LinkedTree SearchTree

/-! ## Live blocks -/

theorem bind_eq_ok {First Second : Type} {x : Except Fault First}
    {f : First → Except Fault Second} {result : Second} (run : (x >>= f) = .ok result) :
    ∃ value, x = .ok value ∧ f value = .ok result := by
  cases x with
  | error fault => cases run
  | ok value => exact ⟨value, rfl, run⟩

theorem readNode_ok {heap : AccountHeap} {p : Address} {node : TreeNode Address Element}
    (read : readNode heap p = .ok node) : heap p = some node := by
  unfold readNode at read
  cases live : heap p with
  | none =>
      rw [live] at read
      cases read
  | some found =>
      rw [live] at read
      cases read
      rfl

def SameBlocks (heap changed : AccountHeap) : Prop :=
  ∀ address, changed address = none ↔ heap address = none

theorem writeNode_sameBlocks {heap : AccountHeap} {p : Address}
    {node : TreeNode Address Element} (live : heap p = some node)
    (written : TreeNode Address Element) : SameBlocks heap (writeNode heap p written) := by
  intro address
  by_cases here : address = p
  · rw [here, writeNode_same, live]
    simp
  · rw [writeNode_other _ _ here]

theorem replaceChild_sameBlocks {heap changed : AccountHeap} {parent p : Address}
    {child : Pointer} (run : replaceChild heap parent p child = .ok changed) :
    SameBlocks heap changed := by
  rcases bind_eq_ok run with ⟨node, read, -⟩
  have live := readNode_ok read
  rw [replaceChild_live live] at run
  cases run
  exact writeNode_sameBlocks live _

theorem detachSuccessor_sameBlocks {fuel : Nat} {heap changed : AccountHeap}
    {p right succ : Address} (run : detachSuccessor fuel heap p right = .ok (succ, changed)) :
    SameBlocks heap changed := by
  rcases bind_eq_ok run with ⟨⟨succParent, found⟩, -, run⟩
  rcases bind_eq_ok run with ⟨node, -, run⟩
  rcases bind_eq_ok run with ⟨detached, replaced, run⟩
  cases run
  exact replaceChild_sameBlocks replaced

/-- Of a node with two children, the successor that was detached is freed, and
nothing else. -/
theorem unlink_frees {fuel : Nat} {heap changed : AccountHeap} {parent : Pointer}
    {p left right : Address} {key : Element} (live : heap p = some ⟨key, some left, some right⟩)
    (run : unlink fuel heap parent p = .ok changed) :
    ∃ succ detached, detachSuccessor fuel heap p right = .ok (succ, detached) ∧
      heap succ ≠ none ∧ ∀ address, changed address = none ↔ heap address = none ∨ address = succ := by
  simp only [unlink, readNode_live live] at run
  change (detachSuccessor fuel heap p right >>= _) = _ at run
  rcases bind_eq_ok run with ⟨⟨succ, detached⟩, detaches, run⟩
  rcases bind_eq_ok run with ⟨succNode, readSucc, run⟩
  rcases bind_eq_ok run with ⟨copied, copies, run⟩
  rcases bind_eq_ok copies with ⟨pNode, readP, -⟩
  rcases bind_eq_ok run with ⟨freedNode, readFreed, freed⟩
  have detachedSame := detachSuccessor_sameBlocks detaches
  rw [setKey_live (readNode_ok readP)] at copies
  cases copies
  cases freed
  have copiedSame := writeNode_sameBlocks (readNode_ok readP)
    ({ (pNode : TreeNode Address Element) with key := succNode.key })
  refine ⟨succ, detached, detaches, ?_, ?_⟩
  · have succLive : detached succ = some succNode := readNode_ok readSucc
    rw [Ne, ← detachedSame succ, succLive]
    exact Option.some_ne_none _
  · intro address
    by_cases here : address = succ
    · rw [here, Function.update_self]
      simp
    · rw [Function.update_of_ne here, copiedSame address, detachedSame address]
      simp [here]

/-! ## The node that is found -/

theorem locate_found (key : Element) {heap : AccountHeap} {found : Address × Element}
    (tree : Tree) :
    ∀ steps parent, Stored heap tree → tree.height < steps →
      search accountKey (accountKey key) tree = some found →
      ∃ above, locate steps heap parent (rootOf tree) key = .ok (above, some found.1) := by
  induction tree with
  | nil =>
      intro steps parent _ _ hit
      cases hit
  | node value left right leftInduction rightInduction =>
      intro steps parent stored enough hit
      rw [BinaryTree.height] at enough
      cases steps with
      | zero => omega
      | succ steps =>
          simp only [locate, rootOf_node, readNode_live stored.1, bind, Except.bind,
            compareAccounts_neg_iff, compareAccounts_ne_zero_iff]
          unfold search at hit
          split_ifs at hit with before after
          · rw [if_pos (ne_of_gt before), if_pos before]
            exact leftInduction steps _ stored.2.1 (by omega) hit
          · rw [if_pos (ne_of_lt after), if_neg before]
            exact rightInduction steps _ stored.2.2 (by omega) hit
          · cases hit
            have same := le_antisymm (le_of_not_gt after) (le_of_not_gt before)
            rw [if_neg (not_not.mpr same.symm)]
            exact ⟨parent, rfl⟩

theorem SearchTreeAt.search_node {heap : AccountHeap} {root : Pointer} {tree : Tree}
    {p : Address} {node : TreeNode Address Element} {key : Element}
    (searchTree : SearchTreeAt heap root tree) (inTree : p ∈ labels tree)
    (live : heap p = some node) (same : compareAccounts node.key key = 0) :
    search accountKey (accountKey key) tree = some (p, node.key) := by
  rcases List.mem_map.mp inTree with ⟨value, member, isLabel⟩
  rcases searchTree.stored.read member with ⟨found, atValue, foundKey⟩
  rw [isLabel, live] at atValue
  cases atValue
  rw [foundKey, ← isLabel]
  refine (search_eq_some_iff tree searchTree.byKey).mpr ⟨member, ?_⟩
  rw [← foundKey]
  exact (compareAccounts_eq_zero_iff node.key key).mp same

/-! ## The splice -/

/-- The heap after the deletion of a node `p` with two children, when `freed` is
the node that was freed. -/
structure SuccessorSpliced (heap changed : AccountHeap) (root : Pointer) (tree result : Tree)
    (p : Address) (node : TreeNode Address Element) (freed : Address) : Prop where
  searchTree : SearchTreeAt changed root result
  freesOne : heap freed ≠ none ∧
    ∀ address, changed address = none ↔ heap address = none ∨ address = freed
  unreachable : ¬ Reachable changed root freed
  keepsOthers : ∀ address, address ≠ freed → Reachable heap root address →
    Reachable changed root address
  removed : ∃ before after, items tree = before ++ node.key :: after ∧
    items result = before ++ after
  successor : ∃ succ, heap freed = some succ ∧ succ.left = none ∧
    (∃ moved, changed p = some moved ∧ moved.key = succ.key ∧ moved.left = node.left) ∧
    ∀ address, Reachable heap succ.right address →
      changed address = heap address ∧ Reachable changed root address

section Splice

variable {heap changed : AccountHeap} {tree left right : Tree} {p freed : Address}
  {node : TreeNode Address Element} {key : Element}

/-- One item fewer and the freed address absent: no other address is lost. -/
private theorem mem_labels_of_ne {result : Tree} (sub : (labels result).Sublist (labels tree))
    (count : (labels tree).length = (labels result).length + 1) (freedIn : freed ∈ labels tree)
    (freedOut : freed ∉ labels result) (distinct : (labels tree).Nodup) :
    ∀ address ∈ labels tree, address ≠ freed → address ∈ labels result := by
  intro address member different
  have erased : (labels result).Sublist ((labels tree).erase freed) := by
    have without := sub.erase freed
    rwa [List.erase_of_not_mem freedOut] at without
  have sameLength : (labels result).length = ((labels tree).erase freed).length := by
    rw [List.length_erase_of_mem freedIn]
    omega
  rw [erased.eq_of_length sameLength, distinct.mem_erase_iff]
  exact ⟨different, member⟩

private theorem length_labels_of_removed {result : Tree} {element : Element}
    {before after : List Element} (split : items tree = before ++ element :: after)
    (removed : items result = before ++ after) :
    (labels tree).length = (labels result).length + 1 := by
  rw [← length_items, ← length_items, split, removed]
  simp only [List.length_append, List.length_cons]
  omega

/-- The leftmost node on the right, read on both heaps. -/
private theorem successor_of_subtree {value succ : Address × Element} {middle last : Tree}
    {result : Tree} (stored : Stored heap tree) (storedAfter : Stored changed result)
    (part : IsSubtree (.node value left (.node succ middle last)) tree)
    (partAfter : IsSubtree (removeRoot value.1 left (.node succ middle last)) result)
    (leftChild : left ≠ .nil) :
    ∃ node, heap (popMin succ middle last).1.1 = some node ∧ node.left = none ∧
      (∃ moved, changed value.1 = some moved ∧ moved.key = node.key ∧
        moved.left = rootOf left) ∧
      ∀ address, Reachable heap node.right address →
        changed address = heap address ∧ Reachable changed (rootOf result) address := by
  rcases popMin_subtree middle succ last with ⟨below, popped, kept⟩
  have whole := stored.subtree part
  have atSucc := (whole.2.2.subtree popped).1
  have belowStored := (whole.2.2.subtree popped).2.2
  cases left with
  | nil => exact absurd rfl leftChild
  | node next first second =>
      have belowInResult : IsSubtree below
          (.node (value.1, (popMin succ middle last).1.2) (.node next first second)
            (popMin succ middle last).2) := kept.right
      have afterStored := storedAfter.subtree partAfter
      have belowAfter : Stored changed below := afterStored.subtree belowInResult
      refine ⟨_, atSucc, rfl, ⟨_, afterStored.1, rfl, rfl⟩, ?_⟩
      intro address reached
      have member := belowStored.mem_of_reachable reached
      refine ⟨belowStored.agree belowAfter address member, ?_⟩
      exact storedAfter.reachable_of_mem address
        (partAfter.labels_sublist.subset (belowInResult.labels_sublist.subset member))

end Splice

section Deletion

variable {fuel : Nat} {heap : AccountHeap} {tree : Tree} {p : Address}
  {node : TreeNode Address Element} {key : Element}

private theorem root_kept (stored : Stored heap tree) (ordered : Ordered accountKey tree)
    (hit : search accountKey (accountKey key) tree = some (p, node.key))
    (live : heap p = some node) (hasLeft : node.left ≠ none) (hasRight : node.right ≠ none) :
    rootOf (delete accountKey (accountKey key) tree) = rootOf tree := by
  apply rootOf_delete
  intro value left right isNode here
  rw [isNode] at stored ordered hit
  have atRoot : search accountKey (accountKey key) (.node value left right) = some value :=
    (search_eq_some_iff _ ordered).mpr ⟨by simp [inorder], here⟩
  cases hit.symm.trans atRoot
  have found := stored.1
  rw [live] at found
  rw [Option.some.inj found] at hasLeft hasRight
  exact ⟨rootOf_ne_nil hasLeft, rootOf_ne_nil hasRight⟩

private theorem element_removed (ordered : Ordered accountKey tree) {element : Element}
    (hit : search accountKey (accountKey key) tree = some (p, element)) :
    ∃ before after, items tree = before ++ element :: after ∧
      items (delete accountKey (accountKey key) tree) = before ++ after := by
  have found := search_eq_some tree hit
  have elementIn : element ∈ items tree := List.mem_map_of_mem found.1
  rcases List.append_of_mem elementIn with ⟨before, after, split⟩
  have removed := items_delete_split tree ordered split
  rw [found.2] at removed
  exact ⟨before, after, split, removed⟩

/-- The heap on which `deleteNode` ends, and the node it frees: the leftmost one
on the right. -/
private theorem deleteNode_frees (stored : Stored heap tree) (distinct : (labels tree).Nodup)
    (enough : tree.height < fuel) {element : Element} {left middle last : Tree}
    {next succ : Address × Element} {first second : Tree}
    (isLeft : left = .node next first second)
    (hit : search accountKey (accountKey key) tree = some (p, element))
    (part : IsSubtree (.node (p, element) left (.node succ middle last)) tree) :
    ∃ changed, deleteNode fuel heap (rootOf tree) key = .ok changed ∧
      Deletes heap changed none tree (delete accountKey (accountKey key) tree) ∧
      heap (popMin succ middle last).1.1 ≠ none ∧
      ∀ address, changed address = none ↔
        heap address = none ∨ address = (popMin succ middle last).1.1 := by
  have noParent : Below heap none tree := by
    intro parent impossible
    cases impossible
  rcases deleteFrom_refines key fuel tree fuel none stored distinct noParent enough enough with
    ⟨changed, run, deletes⟩
  refine ⟨changed, run, deletes, ?_⟩
  rcases locate_found key tree fuel none stored enough hit with ⟨above, located⟩
  simp only [deleteFrom, located, bind, Except.bind] at run
  have whole := stored.subtree part
  have atP := whole.1
  rw [isLeft] at atP
  rcases unlink_frees atP run with ⟨freed, detached, detaches, freedLive, freesOne⟩
  rcases (nodup_labels_node _ _ _).mp (part.labels_sublist.nodup distinct) with
    ⟨-, rightDistinct, -, rootNotRight, -⟩
  have high := part.height_le
  rw [BinaryTree.height, BinaryTree.height] at high
  rcases detachSuccessor_refines middle fuel p _ succ last whole.2.2 rightDistinct rootNotRight
      atP (.inr rfl) (by omega) with ⟨found, runs, -⟩
  cases runs.symm.trans detaches
  exact ⟨freedLive, freesOne⟩

end Deletion

/-- `deleteNode` on a node with two children frees its successor alone, takes the
node's element out of the sequence and keeps every other node. -/
theorem successor_splice (fuel : Nat) (heap : AccountHeap) (root : Pointer) (tree : Tree)
    (p : Address) (node : TreeNode Address Element) (key : Element)
    (searchTree : SearchTreeAt heap root tree) (inTree : Reachable heap root p)
    (live : heap p = some node) (same : compareAccounts node.key key = 0)
    (hasLeft : node.left ≠ none) (hasRight : node.right ≠ none) (enough : tree.height < fuel) :
    ∃ changed result freed, deleteNode fuel heap root key = .ok changed ∧
      SuccessorSpliced heap changed root tree result p node freed := by
  have rootIs := searchTree.root
  subst rootIs
  have stored := searchTree.stored
  have ordered := searchTree.byKey
  have hit := searchTree.search_node (stored.mem_of_reachable inTree) live same
  have rootKept := root_kept stored ordered hit live hasLeft hasRight
  rcases search_subtree tree hit with ⟨left, right, part, partAfter⟩
  have atP := (stored.subtree part).1
  rw [live] at atP
  rcases node with ⟨element, nodeLeft, nodeRight⟩
  cases atP
  have leftChild := rootOf_ne_nil hasLeft
  cases right with
  | nil => exact absurd rfl hasRight
  | node succ middle last =>
    cases left with
    | nil => exact absurd rfl leftChild
    | node next first second =>
      rcases deleteNode_frees stored searchTree.distinct enough rfl hit part with
        ⟨changed, run, deletes, freedLive, freesOne⟩
      have freedIn : (popMin succ middle last).1.1 ∈ labels tree := by
        by_contra outside
        have kept := deletes.unchanged _ outside (Option.some_ne_none _).symm
        exact freedLive (kept ▸ (freesOne _).mpr (.inr rfl))
      have freedOut : (popMin succ middle last).1.1 ∉
          labels (delete accountKey (accountKey key) tree) :=
        deletes.stored.not_mem_of_dead ((freesOne _).mpr (.inr rfl))
      rcases element_removed ordered hit with ⟨before, after, split, removed⟩
      have keeps := mem_labels_of_ne (labels_delete _ tree)
        (length_labels_of_removed split removed) freedIn freedOut searchTree.distinct
      refine ⟨changed, delete accountKey (accountKey key) tree, (popMin succ middle last).1.1,
        run, ?_, ⟨freedLive, freesOne⟩, ?_, ?_, ⟨before, after, split, removed⟩, ?_⟩
      · exact ⟨rootKept.symm, deletes.stored, (labels_delete _ tree).nodup searchTree.distinct,
          (ordered_accountKey_iff _).mp (ordered_delete _ tree ordered)⟩
      · rw [← rootKept, deletes.stored.reachable_iff]
        exact freedOut
      · intro address different reached
        rw [← rootKept, deletes.stored.reachable_iff]
        exact keeps address (stored.mem_of_reachable reached) different
      · rw [← rootKept]
        exact successor_of_subtree stored deletes.stored part partAfter leftChild

/-- Four accounts; the one at the root has its successor at the end of a chain. -/
def fourAccounts : Tree :=
  .node (0, account 2) (.node (1, account 1) .nil .nil)
    (.node (2, account 4) (.node (3, account 3) .nil .nil) .nil)

def fourNodes : AccountHeap
  | 0 => some ⟨account 2, some 1, some 2⟩
  | 1 => some ⟨account 1, none, none⟩
  | 2 => some ⟨account 4, some 3, none⟩
  | 3 => some ⟨account 3, none, none⟩
  | _ => none

theorem root_of_four_accounts_spliced :
    SearchTreeAt fourNodes (some 0) fourAccounts ∧
      ∃ changed result freed, deleteNode 4 fourNodes (some 0) (account 2) = .ok changed ∧
        SuccessorSpliced fourNodes changed (some 0) fourAccounts result 0
          ⟨account 2, some 1, some 2⟩ freed := by
  have searchTree : SearchTreeAt fourNodes (some 0) fourAccounts :=
    ⟨rfl, ⟨rfl, ⟨rfl, trivial, trivial⟩, rfl, ⟨rfl, trivial, trivial⟩, trivial⟩, by decide,
      by decide⟩
  exact ⟨searchTree, successor_splice 4 fourNodes (some 0) fourAccounts 0 _ (account 2)
    searchTree (.here 0) rfl (by decide) (by decide) (by decide) (by decide)⟩

end GamZ.AccountTree
