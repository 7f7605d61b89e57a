import GamZ.AccountTree.Refinement
import GamZ.Foundation.Transition

/-! # The account tree over whole runs

The calls of `main` on one root pointer. As long as no call deletes the root
node while it has a child missing, the tree is a finite map. -/

namespace GamZ.AccountTree

open CString LinkedTree SearchTree Transition TransitionSystem

/-- The heap and the variable `root` of `main`. -/
structure Program where
  heap : AccountHeap
  root : Pointer

/-- One call of `main`. An insertion names the block that `malloc` would hand
out. -/
inductive Call
  | insert (e : Element) (newNode : Address)
  | deleteNode (e : Element)
  | searchBST (e : Element)
deriving DecidableEq

def Program.call (fuel : Nat) (program : Program) : Call → Except Fault Program
  | .insert e newNode => do
      let (root, heap) ← insertKey fuel program.heap program.root e newNode
      pure { heap, root }
  | .deleteNode e => do
      let heap ← deleteNode fuel program.heap program.root e
      pure { program with heap }
  | .searchBST e => do
      let _ ← searchBST fuel program.heap program.root e
      pure program

/-- `malloc` hands out no live block. -/
def Call.FreshIn (program : Program) : Call → Prop
  | .insert _ newNode => program.heap newNode = none
  | _ => True

instance (program : Program) : (call : Call) → Decidable (call.FreshIn program)
  | .insert _ newNode => inferInstanceAs (Decidable (program.heap newNode = none))
  | .deleteNode _ => inferInstanceAs (Decidable True)
  | .searchBST _ => inferInstanceAs (Decidable True)

def Program.start : Program where
  heap := fun _ => none
  root := none

/-- The calls of `main`, in any order. -/
def accountCalls (fuel : Nat) : TransitionSystem Program Call where
  Initial program := program = .start
  step program call :=
    if call.FreshIn program then (program.call fuel call).toOption else none

/-- The call does not delete the node at the root, or that node has two children. -/
def KeepsRoot (program : Program) : Call → Prop
  | .deleteNode e => ∀ p node, program.root = some p → program.heap p = some node →
      compareAccounts node.key e = 0 → node.left ≠ none ∧ node.right ≠ none
  | _ => True

/-! ## The map the calls describe -/

abbrev Accounts := List Byte → Option Element

/-- An insertion keeps an element that is already there. -/
def Accounts.after (accounts : Accounts) : Call → Accounts
  | .insert e _ => fun number =>
      if number = contents e.accountNum.val then some ((accounts number).getD e)
      else accounts number
  | .deleteNode e => fun number =>
      if number = contents e.accountNum.val then none else accounts number
  | .searchBST _ => accounts

def accountsAfter (calls : List Call) : Accounts :=
  calls.foldl Accounts.after fun _ => none

/-! ## The invariant -/

/-- A search tree with the given contents is stored at the root. -/
structure Holds (program : Program) (accounts : Accounts) (tree : Tree) : Prop where
  root : program.root = rootOf tree
  stored : Stored program.heap tree
  distinct : (labels tree).Nodup
  ordered : Ordered accountKey tree
  map : ∀ text, lookup accountKey (sortKey text) tree = accounts (contents text)

theorem length_labels (tree : Tree) : (labels tree).length = tree.numNodes := by
  induction tree with
  | nil => rfl
  | node value left right leftInduction rightInduction =>
      simp [leftInduction, rightInduction]
      omega

theorem numNodes_insert_le (newNode : Address) (e : Element) (tree : Tree) :
    (SearchTree.insert accountKey newNode e tree).numNodes ≤ tree.numNodes + 1 := by
  induction tree with
  | nil => simp [SearchTree.insert]
  | node value left right leftInduction rightInduction =>
      unfold SearchTree.insert
      split_ifs <;> simp only [BinaryTree.numNodes] <;> omega

theorem numNodes_delete_le (e : Element) (tree : Tree) :
    (delete accountKey (accountKey e) tree).numNodes ≤ tree.numNodes := by
  rw [← length_labels, ← length_labels]
  exact (labels_delete _ tree).length_le

theorem sortKey_eq_accountKey_iff (text : List Byte) (e : Element) :
    sortKey text = accountKey e ↔ contents text = contents e.accountNum.val :=
  sortKey_eq_iff _ _

theorem Holds.insert {program : Program} {accounts : Accounts} {tree : Tree} {fuel : Nat}
    (holds : Holds program accounts tree) (e : Element) (newNode : Address)
    (fresh : program.heap newNode = none) (enough : tree.height < fuel) :
    ∃ after, program.call fuel (.insert e newNode) = .ok after ∧
      Holds after (accounts.after (.insert e newNode))
        (SearchTree.insert accountKey newNode e tree) := by
  rcases insertKey_refines e newNode tree fuel holds.stored holds.distinct fresh enough with
    ⟨heap, run, replaces⟩
  refine ⟨⟨heap, rootOf (SearchTree.insert accountKey newNode e tree)⟩, ?_, rfl,
    replaces.stored,
    nodup_labels_insert e tree holds.distinct (holds.stored.not_mem_of_dead fresh),
    ordered_insert newNode e tree holds.ordered, ?_⟩
  · simp [Program.call, holds.root, run, bind, Except.bind, pure, Except.pure]
  · intro text
    simp only [lookup_insert, Accounts.after, holds.map, sortKey_eq_accountKey_iff]

theorem Holds.deleteNode {program : Program} {accounts : Accounts} {tree : Tree} {fuel : Nat}
    (holds : Holds program accounts tree) (e : Element) (enough : tree.height < fuel) :
    ∃ heap, program.call fuel (.deleteNode e) = .ok { program with heap } ∧
      Holds { heap, root := rootOf (delete accountKey (accountKey e) tree) }
        (accounts.after (.deleteNode e)) (delete accountKey (accountKey e) tree) := by
  have noParent : Below program.heap none tree := by
    intro p impossible
    cases impossible
  rcases deleteFrom_refines e fuel tree fuel none holds.stored holds.distinct noParent enough
      enough with ⟨heap, run, deletes⟩
  refine ⟨heap, ?_, rfl, deletes.stored, (labels_delete _ tree).nodup holds.distinct,
    ordered_delete _ tree holds.ordered, ?_⟩
  · simp [Program.call, AccountTree.deleteNode, holds.root, run, bind, Except.bind, pure,
      Except.pure]
  · intro text
    simp only [lookup_delete _ _ tree holds.ordered, Accounts.after, holds.map,
      sortKey_eq_accountKey_iff]

theorem Holds.rootOf_delete {program : Program} {accounts : Accounts} {tree : Tree}
    (holds : Holds program accounts tree) (e : Element)
    (keepsRoot : KeepsRoot program (.deleteNode e)) :
    rootOf (delete accountKey (accountKey e) tree) = rootOf tree := by
  apply LinkedTree.rootOf_delete
  intro value left right isNode here
  have root := holds.root
  have stored := holds.stored
  rw [isNode] at root stored
  have same : compareAccounts value.2 e = 0 := by
    by_contra different
    exact (compareAccounts_ne_zero_iff value.2 e).mp different here
  rcases keepsRoot value.1 _ root stored.1 same with ⟨hasLeft, hasRight⟩
  exact ⟨rootOf_ne_nil hasLeft, rootOf_ne_nil hasRight⟩

theorem Program.root_freed {program : Program} {fuel : Nat} (e : Element) (positive : 0 < fuel)
    (losesRoot : ¬ KeepsRoot program (.deleteNode e)) :
    ∃ p heap, program.root = some p ∧
      program.call fuel (.deleteNode e) = .ok { program with heap } ∧ heap p = none := by
  simp only [KeepsRoot, not_forall] at losesRoot
  rcases losesRoot with ⟨p, node, atRoot, live, same, missing⟩
  refine ⟨p, Function.update program.heap p none, atRoot, ?_, Function.update_self ..⟩
  cases fuel with
  | zero => omega
  | succ fuel =>
      rcases node with ⟨key, left, right⟩
      have found : locate (fuel + 1) program.heap none (some p) e = .ok (none, some p) := by
        simp only [locate, readNode_live live, bind, Except.bind, same, ne_eq, not_true,
          if_false, pure, Except.pure]
      cases left with
      | none =>
          cases right <;>
            simp [Program.call, AccountTree.deleteNode, deleteFrom, atRoot, found, unlink,
              readNode_live live, detach, free_live live, bind, Except.bind, pure, Except.pure]
      | some left =>
          cases right with
          | none =>
              simp [Program.call, AccountTree.deleteNode, deleteFrom, atRoot, found, unlink,
                readNode_live live, detach, free_live live, bind, Except.bind, pure, Except.pure]
          | some right => exact absurd ⟨Option.some_ne_none _, Option.some_ne_none _⟩ missing

theorem accountsAfter_concat (calls : List Call) (call : Call) :
    accountsAfter (calls ++ [call]) = (accountsAfter calls).after call :=
  List.foldl_concat ..

/-- Some search tree holds the accounts, with no more nodes than calls. -/
def HoldsAfter (calls : List Call) (program : Program) : Prop :=
  ∃ tree, Holds program (accountsAfter calls) tree ∧ tree.numNodes ≤ calls.length

theorem HoldsAfter.next {fuel : Nat} {calls : List Call} {program after : Program} {call : Call}
    (holdsAfter : HoldsAfter calls program) (enough : calls.length < fuel)
    (keepsRoot : KeepsRoot program call)
    (stepped : (accountCalls fuel).step program call = some after) :
    HoldsAfter (calls ++ [call]) after := by
  rcases holdsAfter with ⟨tree, holds, size⟩
  have high : tree.height < fuel := lt_of_le_of_lt (tree.height_le_numNodes.trans size) enough
  simp only [accountCalls] at stepped
  rw [HoldsAfter, accountsAfter_concat, List.length_append, List.length_singleton]
  split_ifs at stepped with fresh
  cases call with
  | insert e newNode =>
      rcases holds.insert e newNode fresh high with ⟨found, run, inserted⟩
      rw [run] at stepped
      cases stepped
      exact ⟨_, inserted, (numNodes_insert_le newNode e tree).trans (by omega)⟩
  | deleteNode e =>
      rcases holds.deleteNode e high with ⟨heap, run, deleted⟩
      rw [holds.rootOf_delete e keepsRoot, ← holds.root] at deleted
      rw [run] at stepped
      cases stepped
      exact ⟨_, deleted, (numNodes_delete_le e tree).trans (by omega)⟩
  | searchBST e =>
      have run := searchBST_refines e tree fuel holds.stored high
      rw [← holds.root] at run
      simp only [Program.call, run, bind, Except.bind, pure, Except.pure] at stepped
      cases stepped
      exact ⟨tree, holds, by omega⟩

theorem holdsAfter_of_run {fuel : Nat} {calls : List Call} {program : Program}
    (run : (accountCalls fuel).RunWhere KeepsRoot calls program) (enough : calls.length < fuel) :
    HoldsAfter calls program := by
  refine run.invariant (fun calls program => calls.length < fuel → HoldsAfter calls program)
    ?_ ?_ enough
  · intro program initial _
    rw [initial]
    exact ⟨.nil, ⟨rfl, trivial, by simp, by simp [Ordered], fun _ => rfl⟩, Nat.le_refl _⟩
  · intro calls program call after holdsAfter keepsRoot stepped enough
    rw [List.length_append, List.length_singleton] at enough
    exact (holdsAfter (by omega)).next (by omega) keepsRoot stepped

/-! ## What the user of the tree sees -/

/-- What the calls of `main` find in a state. -/
structure IsFiniteMap (fuel : Nat) (program : Program) (accounts : Accounts) : Prop where
  noFreedNode : ∀ p, Reachable program.heap program.root p → program.heap p ≠ none
  displayed : ∃ numbers, displayInorder fuel program.heap program.root = .ok numbers ∧
    numbers.Pairwise fun first second => strcmp first.val second.val < 0
  searched : ∀ e, ∃ found, searchBST fuel program.heap program.root e = .ok found ∧
    (found = none → accounts (contents e.accountNum.val) = none) ∧
    ∀ p, found = some p → ∃ node, program.heap p = some node ∧
      accounts (contents e.accountNum.val) = some node.key
  returns : ∀ call, call.FreshIn program → ∃ after, program.call fuel call = .ok after

theorem Holds.isFiniteMap {fuel : Nat} {program : Program} {accounts : Accounts} {tree : Tree}
    (holds : Holds program accounts tree) (enough : tree.height < fuel) :
    IsFiniteMap fuel program accounts where
  noFreedNode := by
    intro p reached
    rw [holds.root] at reached
    exact holds.stored.live (holds.stored.mem_of_reachable reached)
  displayed := by
    refine ⟨(items tree).map Element.accountNum, ?_, ?_⟩
    · rw [holds.root]
      exact displayInorder_refines tree fuel holds.stored enough
    · rw [List.pairwise_map]
      exact holds.ordered.imp fun below => (compareAccounts_neg_iff _ _).mpr below
  searched := by
    intro e
    refine ⟨(search accountKey (accountKey e) tree).map Prod.fst, ?_, ?_⟩
    · rw [holds.root]
      exact searchBST_refines e tree fuel holds.stored enough
    · have found := holds.map e.accountNum.val
      rw [lookup] at found
      cases hit : search accountKey (accountKey e) tree with
      | none =>
          rw [show sortKey e.accountNum.val = accountKey e from rfl, hit] at found
          exact ⟨fun _ => found.symm, fun p impossible => absurd impossible.symm (by simp)⟩
      | some value =>
          rw [show sortKey e.accountNum.val = accountKey e from rfl, hit] at found
          rcases holds.stored.read (search_eq_some tree hit).1 with ⟨node, live, key⟩
          refine ⟨fun impossible => absurd impossible (by simp), ?_⟩
          intro p here
          cases here
          rw [Option.map_some, ← key] at found
          exact ⟨node, live, found.symm⟩
  returns := by
    intro call fresh
    cases call with
    | insert e newNode =>
        rcases holds.insert e newNode fresh enough with ⟨after, run, -⟩
        exact ⟨after, run⟩
    | deleteNode e =>
        rcases holds.deleteNode e enough with ⟨heap, run, -⟩
        exact ⟨_, run⟩
    | searchBST e =>
        have run := searchBST_refines e tree fuel holds.stored enough
        rw [← holds.root] at run
        exact ⟨program, by simp only [Program.call, run, bind, Except.bind, pure, Except.pure]⟩

/-- As long as no call deletes the root node while it has a child missing, the
account tree is the finite map its calls describe. -/
theorem account_tree_is_finite_map (fuel : Nat) (calls : List Call) (program : Program)
    (enough : calls.length < fuel)
    (run : (accountCalls fuel).RunWhere KeepsRoot calls program) :
    IsFiniteMap fuel program (accountsAfter calls) := by
  rcases holdsAfter_of_run run enough with ⟨tree, holds, size⟩
  exact holds.isFiniteMap (lt_of_le_of_lt (tree.height_le_numNodes.trans size) enough)

def account (digit : Byte) : Element where
  accountNum := ⟨[48 + digit], show 1 < 200 by decide⟩
  userName := ⟨[], by decide⟩
  randNum := 0
  otpNum := 0

theorem two_accounts_one_deleted :
    ∃ program, (accountCalls 4).RunWhere KeepsRoot
        [.insert (account 1) 0, .insert (account 2) 1, .deleteNode (account 2)] program ∧
      IsFiniteMap 4 program
        (accountsAfter
          [.insert (account 1) 0, .insert (account 2) 1, .deleteNode (account 2)]) := by
  have start : (accountCalls 4).RunWhere KeepsRoot [] .start := .start rfl
  have first := start.next (Call.insert (account 1) 0) trivial rfl
  have second := first.next (Call.insert (account 2) 1) trivial rfl
  have notRoot : compareAccounts (account 1) (account 2) ≠ 0 := by decide
  have third := second.next (Call.deleteNode (account 2))
    (fun p node atRoot live same => by
      cases atRoot
      cases live
      exact absurd same notRoot) rfl
  exact ⟨_, third, account_tree_is_finite_map 4 _ _ (by decide) third⟩

/-- The first call that does not keep the root node leaves the caller's root
pointer to a freed node. -/
theorem root_dangles_after_deletion (fuel : Nat) (calls : List Call) (program : Program)
    (enough : calls.length < fuel)
    (run : (accountCalls fuel).RunWhere KeepsRoot calls program) (call : Call)
    (losesRoot : ¬ KeepsRoot program call) :
    ∃ after p, (accountCalls fuel).step program call = some after ∧
      Reachable after.heap after.root p ∧ after.heap p = none := by
  rcases holdsAfter_of_run run enough with ⟨tree, holds, size⟩
  have high : tree.height < fuel := lt_of_le_of_lt (tree.height_le_numNodes.trans size) enough
  cases call with
  | insert => exact absurd trivial losesRoot
  | searchBST => exact absurd trivial losesRoot
  | deleteNode e =>
      rcases Program.root_freed e (Nat.zero_lt_of_lt high) losesRoot with
        ⟨p, heap, atRoot, deleted, freed⟩
      refine ⟨{ program with heap }, p, ?_, ?_, freed⟩
      · simp [accountCalls, Call.FreshIn, deleted, Except.toOption]
      · rw [atRoot]
        exact .here p

/-- Deleting the only account leaves the root pointer to a freed node. -/
theorem only_account_deleted_dangles :
    ¬ ∀ (fuel : Nat) (calls : List Call) (program : Program), calls.length < fuel →
      (accountCalls fuel).Run calls program →
      IsFiniteMap fuel program (accountsAfter calls) := by
  intro alwaysMap
  have executed : ∃ program, (accountCalls 3).execute .start
      [.insert (account 1) 0, .deleteNode (account 1)] = some program ∧
      program.root = some 0 ∧ program.heap 0 = none :=
    ⟨_, rfl, rfl, rfl⟩
  rcases executed with ⟨program, executed, root, freed⟩
  have isMap := alwaysMap 3 _ program (by decide) (run_of_execute rfl executed)
  have reached : Reachable program.heap program.root 0 := by
    rw [root]
    exact .here 0
  exact isMap.noFreedNode 0 reached freed

end GamZ.AccountTree
