import GamZ.AccountTree.FiniteMap

/-! # Insertion and lookup

What `insertKey` does to an arbitrary search tree on the heap, as `searchBST`
and a traversal in order see it. -/

namespace GamZ.AccountTree

open CString LinkedTree SearchTree

theorem compareAccounts_eq_zero_iff (first second : Element) :
    compareAccounts first second = 0 ↔ accountKey first = accountKey second :=
  not_iff_not.mp (compareAccounts_ne_zero_iff first second)

/-- A binary search tree, ordered by `strcmp` on the account numbers, lies on the
heap at a root pointer. -/
structure SearchTreeAt (heap : AccountHeap) (root : Pointer) (tree : Tree) : Prop where
  root : root = rootOf tree
  stored : Stored heap tree
  distinct : (labels tree).Nodup
  ordered : (items tree).Pairwise fun first second => compareAccounts first second < 0

theorem ordered_accountKey_iff (tree : Tree) :
    Ordered accountKey tree ↔
      (items tree).Pairwise fun first second => compareAccounts first second < 0 := by
  simp only [Ordered, compareAccounts_neg_iff]

theorem SearchTreeAt.byKey {heap : AccountHeap} {root : Pointer} {tree : Tree}
    (searchTree : SearchTreeAt heap root tree) : Ordered accountKey tree :=
  (ordered_accountKey_iff tree).mpr searchTree.ordered

def Registered (tree : Tree) (k : Element) : Prop :=
  ∃ item ∈ items tree, compareAccounts item k = 0

theorem search_none_iff {tree : Tree} (ordered : Ordered accountKey tree) (k : Element) :
    search accountKey (accountKey k) tree = none ↔ ¬ Registered tree k := by
  rw [search_eq_none_iff tree ordered]
  simp only [Registered, compareAccounts_eq_zero_iff, not_exists, not_and]

/-- `searchBST` returns the same pointer on both heaps, and the element behind it
is the same. -/
def FindsSame (fuel : Nat) (heap changed : AccountHeap) (root newRoot : Pointer)
    (k : Element) : Prop :=
  ∃ found, searchBST fuel heap root k = .ok found ∧
    searchBST fuel changed newRoot k = .ok found ∧
    ∀ p, found = some p → ∃ before after, heap p = some before ∧ changed p = some after ∧
      after.key = before.key

def FindsElement (fuel : Nat) (heap : AccountHeap) (root : Pointer) (k e : Element) : Prop :=
  ∃ p node, searchBST fuel heap root k = .ok (some p) ∧ heap p = some node ∧ node.key = e

/-- The second sequence is the first one with `e` added at its ordered place. -/
def AddedInOrder (e : Element) (original added : List Element) : Prop :=
  ∃ before after, original = before ++ after ∧ added = before ++ e :: after ∧
    (∀ item ∈ before, compareAccounts item e < 0) ∧ ∀ item ∈ after, compareAccounts e item < 0

structure InsertionLaws (fuel : Nat) (heap changed : AccountHeap) (root newRoot : Pointer)
    (tree result : Tree) (e : Element) : Prop where
  searchTree : SearchTreeAt changed newRoot result
  displayed : displayInorder fuel changed newRoot =
    .ok ((items result).map Element.accountNum)
  duplicate : Registered tree e → items result = items tree
  added : ¬ Registered tree e → AddedInOrder e (items tree) (items result)
  others : ∀ k, compareAccounts k e ≠ 0 ∨ Registered tree k →
    FindsSame fuel heap changed root newRoot k
  found : ∀ k, compareAccounts k e = 0 → ¬ Registered tree k →
    FindsElement fuel changed newRoot k e

theorem height_insert_le (newNode : Address) (e : Element) (tree : Tree) :
    (SearchTree.insert accountKey newNode e tree).height ≤ tree.height + 1 := by
  induction tree with
  | nil => simp [SearchTree.insert, BinaryTree.height]
  | node value left right leftInduction rightInduction =>
      unfold SearchTree.insert
      split_ifs <;> simp only [BinaryTree.height] <;> omega

/-- A search finds the old node under its key, unless only the new one has it. -/
theorem search_insert_of_registered {tree : Tree} (ordered : Ordered accountKey tree)
    (newNode : Address) (e k : Element) (known : compareAccounts k e ≠ 0 ∨ Registered tree k) :
    search accountKey (accountKey k) (SearchTree.insert accountKey newNode e tree) =
      search accountKey (accountKey k) tree := by
  rw [search_insert]
  by_cases same : accountKey k = accountKey e
  · have registered : Registered tree k := by
      rcases known with different | registered
      · exact absurd ((compareAccounts_eq_zero_iff k e).mpr same) different
      · exact registered
    cases hit : search accountKey (accountKey k) tree with
    | none => exact absurd registered ((search_none_iff ordered k).mp hit)
    | some found => rw [if_pos same, Option.getD_some]
  · rw [if_neg same]

/-- Only the new element is found under a number that was not there. -/
theorem search_insert_of_new {tree : Tree} (ordered : Ordered accountKey tree)
    (newNode : Address) (e k : Element) (same : compareAccounts k e = 0)
    (absent : ¬ Registered tree k) :
    search accountKey (accountKey k) (SearchTree.insert accountKey newNode e tree) =
      some (newNode, e) := by
  rw [search_insert, if_pos ((compareAccounts_eq_zero_iff k e).mp same),
    (search_none_iff ordered k).mpr absent, Option.getD_none]

theorem insert_of_registered {tree : Tree} (ordered : Ordered accountKey tree)
    (newNode : Address) {e : Element} (registered : Registered tree e) :
    SearchTree.insert accountKey newNode e tree = tree := by
  cases hit : search accountKey (accountKey e) tree with
  | none => exact absurd registered ((search_none_iff ordered e).mp hit)
  | some found => exact insert_of_search tree hit

theorem items_insert_of_new {tree : Tree} (ordered : Ordered accountKey tree)
    (newNode : Address) {e : Element} (absent : ¬ Registered tree e) :
    AddedInOrder e (items tree) (items (SearchTree.insert accountKey newNode e tree)) := by
  rcases inorder_insert newNode tree ordered ((search_none_iff ordered e).mpr absent) with
    ⟨before, after, split, joined, low, high⟩
  refine ⟨before.map Prod.snd, after.map Prod.snd, ?_, ?_, ?_, ?_⟩
  · rw [items, split, List.map_append]
  · rw [items, joined, List.map_append, List.map_cons]
  · intro item member
    rcases List.mem_map.mp member with ⟨value, inBefore, rfl⟩
    exact (compareAccounts_neg_iff _ _).mpr (low value inBefore)
  · intro item member
    rcases List.mem_map.mp member with ⟨value, inAfter, rfl⟩
    exact (compareAccounts_neg_iff _ _).mpr (high value inAfter)

/-- An insertion into a search tree returns a search tree: the same one for a
number that is registered, otherwise one with the new element at its ordered
place, in which all other accounts are found as before. -/
theorem insertion_and_lookup_laws (fuel : Nat) (heap : AccountHeap) (root : Pointer)
    (tree : Tree) (e : Element) (newNode : Address) (searchTree : SearchTreeAt heap root tree)
    (fresh : heap newNode = none) (enough : tree.height + 1 < fuel) :
    ∃ newRoot changed result,
      insertKey fuel heap root e newNode = .ok (newRoot, changed) ∧
      InsertionLaws fuel heap changed root newRoot tree result e := by
  have ordered := searchTree.byKey
  have stored := searchTree.stored
  rcases insertKey_refines e newNode tree fuel stored searchTree.distinct fresh (by omega) with
    ⟨changed, run, replaces⟩
  have resultHigh : (SearchTree.insert accountKey newNode e tree).height < fuel :=
    lt_of_le_of_lt (height_insert_le newNode e tree) enough
  have searchesBefore := fun k => searchBST_refines k tree fuel stored (by omega)
  have searchesAfter := fun k =>
    searchBST_refines k (SearchTree.insert accountKey newNode e tree) fuel replaces.stored
      resultHigh
  refine ⟨rootOf (SearchTree.insert accountKey newNode e tree), changed,
    SearchTree.insert accountKey newNode e tree, ?_, ?_, ?_, ?_, ?_, ?_, ?_⟩
  · rw [searchTree.root]
    exact run
  · exact ⟨rfl, replaces.stored,
      nodup_labels_insert e tree searchTree.distinct (stored.not_mem_of_dead fresh),
      (ordered_accountKey_iff _).mp (ordered_insert newNode e tree ordered)⟩
  · exact displayInorder_refines _ fuel replaces.stored resultHigh
  · intro registered
    rw [insert_of_registered ordered newNode registered]
  · exact items_insert_of_new ordered newNode
  · intro k known
    have sameSearch := search_insert_of_registered ordered newNode e k known
    refine ⟨(search accountKey (accountKey k) tree).map Prod.fst, ?_, ?_, ?_⟩
    · rw [searchTree.root]
      exact searchesBefore k
    · rw [← sameSearch]
      exact searchesAfter k
    · intro p isFound
      rcases Option.map_eq_some_iff.mp isFound with ⟨value, hit, rfl⟩
      rcases stored.read (search_eq_some tree hit).1 with ⟨before, atBefore, keyBefore⟩
      rw [← sameSearch] at hit
      rcases replaces.stored.read (search_eq_some _ hit).1 with ⟨after, atAfter, keyAfter⟩
      exact ⟨before, after, atBefore, atAfter, keyAfter.trans keyBefore.symm⟩
  · intro k same absent
    have hit := search_insert_of_new ordered newNode e k same absent
    rcases replaces.stored.read (search_eq_some _ hit).1 with ⟨node, live, key⟩
    refine ⟨newNode, node, ?_, live, key⟩
    rw [searchesAfter k, hit, Option.map_some]

def oneAccount : AccountHeap :=
  writeNode (fun _ => none) 0 ⟨account 1, none, none⟩

theorem second_account_inserted :
    SearchTreeAt oneAccount (some 0) (.node (0, account 1) .nil .nil) ∧
      ∃ newRoot changed result,
        insertKey 3 oneAccount (some 0) (account 2) 1 = .ok (newRoot, changed) ∧
        InsertionLaws 3 oneAccount changed (some 0) newRoot
          (.node (0, account 1) .nil .nil) result (account 2) := by
  have stored : SearchTreeAt oneAccount (some 0) (.node (0, account 1) .nil .nil) :=
    ⟨rfl, ⟨rfl, trivial, trivial⟩, by simp, by simp⟩
  exact ⟨stored, insertion_and_lookup_laws 3 oneAccount (some 0) _ (account 2) 1 stored rfl
    (by decide)⟩

end GamZ.AccountTree
