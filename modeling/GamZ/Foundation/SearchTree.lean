import Mathlib.Data.List.Pairwise
import Mathlib.Data.Tree.Basic
import Mathlib.Order.Lattice
import Mathlib.Tactic.SplitIfs

/-! # Binary search trees with labelled nodes

A node carries an item, ordered by its key, and a label that plays no part in
the ordering. Deleting a node with two children keeps its label and moves the
successor's item into it. -/

namespace GamZ.SearchTree

variable {Label Item Key : Type*}

def inorder : BinaryTree (Label × Item) → List (Label × Item)
  | .nil => []
  | .node value left right => inorder left ++ value :: inorder right

def labels (tree : BinaryTree (Label × Item)) : List Label :=
  (inorder tree).map Prod.fst

def items (tree : BinaryTree (Label × Item)) : List Item :=
  (inorder tree).map Prod.snd

@[simp] theorem labels_nil : labels (.nil : BinaryTree (Label × Item)) = [] := rfl

@[simp] theorem items_nil : items (.nil : BinaryTree (Label × Item)) = [] := rfl

@[simp] theorem labels_node (value : Label × Item) (left right : BinaryTree (Label × Item)) :
    labels (.node value left right) = labels left ++ value.1 :: labels right := by
  simp [labels, inorder]

@[simp] theorem items_node (value : Label × Item) (left right : BinaryTree (Label × Item)) :
    items (.node value left right) = items left ++ value.2 :: items right := by
  simp [items, inorder]

theorem length_items (tree : BinaryTree (Label × Item)) :
    (items tree).length = (labels tree).length := by
  simp [items, labels]

/-! ## Operations -/

section Operations

variable [LinearOrder Key] (key : Item → Key)

def search (wanted : Key) : BinaryTree (Label × Item) → Option (Label × Item)
  | .nil => none
  | .node value left right =>
      if wanted < key value.2 then search wanted left
      else if key value.2 < wanted then search wanted right
      else some value

def insert (label : Label) (item : Item) :
    BinaryTree (Label × Item) → BinaryTree (Label × Item)
  | .nil => .node (label, item) .nil .nil
  | .node value left right =>
      if key item < key value.2 then .node value (insert label item left) right
      else if key value.2 < key item then .node value left (insert label item right)
      else .node value left right

/-- The leftmost node of a nonempty tree, and the tree without it. -/
def popMin (value : Label × Item) :
    BinaryTree (Label × Item) → BinaryTree (Label × Item) →
      (Label × Item) × BinaryTree (Label × Item)
  | .nil, right => (value, right)
  | .node next left middle, right =>
      ((popMin next left middle).1, .node value (popMin next left middle).2 right)

/-- The children of a deleted node, joined into one tree. -/
def removeRoot (label : Label) :
    BinaryTree (Label × Item) → BinaryTree (Label × Item) → BinaryTree (Label × Item)
  | .nil, right => right
  | left, .nil => left
  | left, .node next middle right =>
      .node (label, (popMin next middle right).1.2) left (popMin next middle right).2

def delete (unwanted : Key) : BinaryTree (Label × Item) → BinaryTree (Label × Item)
  | .nil => .nil
  | .node value left right =>
      if unwanted < key value.2 then .node value (delete unwanted left) right
      else if key value.2 < unwanted then .node value left (delete unwanted right)
      else removeRoot value.1 left right

def Ordered (tree : BinaryTree (Label × Item)) : Prop :=
  (items tree).Pairwise fun first second => key first < key second

end Operations

/-! ## Items of the results -/

theorem inorder_popMin (left : BinaryTree (Label × Item)) :
    ∀ (value : Label × Item) (right : BinaryTree (Label × Item)),
      inorder (.node value left right) =
        (popMin value left right).1 :: inorder (popMin value left right).2 := by
  induction left with
  | nil => exact fun _ _ => rfl
  | node next left middle leftInduction _ =>
      intro value right
      have popped := leftInduction next middle
      simp only [inorder] at popped
      simp [popMin, inorder, popped]

theorem items_popMin (value : Label × Item) (left right : BinaryTree (Label × Item)) :
    items left ++ value.2 :: items right =
      (popMin value left right).1.2 :: items (popMin value left right).2 := by
  have popped := congrArg (List.map Prod.snd) (inorder_popMin left value right)
  simpa [items, inorder] using popped

theorem labels_popMin (value : Label × Item) (left right : BinaryTree (Label × Item)) :
    labels left ++ value.1 :: labels right =
      (popMin value left right).1.1 :: labels (popMin value left right).2 := by
  have popped := congrArg (List.map Prod.fst) (inorder_popMin left value right)
  simpa [labels, inorder] using popped

theorem items_removeRoot (label : Label) (left right : BinaryTree (Label × Item)) :
    items (removeRoot label left right) = items left ++ items right := by
  cases left with
  | nil => rfl
  | node value first second =>
      cases right with
      | nil => simp [removeRoot]
      | node next middle last =>
          have popped := items_popMin next middle last
          simp [removeRoot, popped]

theorem labels_removeRoot (label : Label) (left right : BinaryTree (Label × Item)) :
    (labels (removeRoot label left right)).Sublist (labels left ++ label :: labels right) := by
  cases left with
  | nil => exact List.sublist_cons_self label _
  | node value first second =>
      cases right with
      | nil => simp [removeRoot]
      | node next middle last =>
          have popped := labels_popMin next middle last
          simp only [removeRoot, labels_node, popped]
          exact List.Sublist.append_left
            (List.Sublist.cons_cons label (List.sublist_cons_self _ _)) _

section Laws

variable [LinearOrder Key] {key : Item → Key}

theorem ordered_node (value : Label × Item) (left right : BinaryTree (Label × Item)) :
    Ordered key (.node value left right) ↔
      Ordered key left ∧ Ordered key right ∧
        (∀ item ∈ items left, key item < key value.2) ∧
        ∀ item ∈ items right, key value.2 < key item := by
  simp only [Ordered, items_node, List.pairwise_append, List.pairwise_cons, List.mem_cons]
  constructor
  · intro ordered
    rcases ordered with ⟨leftOrdered, ⟨above, rightOrdered⟩, below⟩
    exact ⟨leftOrdered, rightOrdered, fun item member => below item member _ (.inl rfl), above⟩
  · intro ordered
    rcases ordered with ⟨leftOrdered, rightOrdered, below, above⟩
    refine ⟨leftOrdered, ⟨above, rightOrdered⟩, ?_⟩
    intro item member other otherMember
    rcases otherMember with atRoot | inRight
    · rw [atRoot]
      exact below item member
    · exact lt_trans (below item member) (above other inRight)

theorem mem_inorder_insert {label : Label} {item : Item} {node : Label × Item}
    (tree : BinaryTree (Label × Item)) (member : node ∈ inorder (insert key label item tree)) :
    node ∈ inorder tree ∨ node = (label, item) := by
  induction tree with
  | nil => exact .inr (by simpa [insert, inorder] using member)
  | node value left right leftInduction rightInduction =>
      unfold insert at member
      split_ifs at member <;> simp only [inorder, List.mem_append, List.mem_cons] at member ⊢
      · rcases member with inLeft | rest
        · rcases leftInduction inLeft with old | new
          · exact .inl (.inl old)
          · exact .inr new
        · exact .inl (.inr rest)
      · rcases member with inLeft | atRoot | inRight
        · exact .inl (.inl inLeft)
        · exact .inl (.inr (.inl atRoot))
        · rcases rightInduction inRight with old | new
          · exact .inl (.inr (.inr old))
          · exact .inr new
      · exact .inl member

theorem mem_items_insert {label : Label} {item other : Item} (tree : BinaryTree (Label × Item))
    (member : other ∈ items (insert key label item tree)) : other ∈ items tree ∨ other = item := by
  rcases List.mem_map.mp member with ⟨node, inTree, isOther⟩
  subst isOther
  rcases mem_inorder_insert tree inTree with old | new
  · exact .inl (List.mem_map_of_mem old)
  · exact .inr (congrArg Prod.snd new)

theorem ordered_insert (label : Label) (item : Item) (tree : BinaryTree (Label × Item))
    (ordered : Ordered key tree) : Ordered key (insert key label item tree) := by
  induction tree with
  | nil => simp [insert, Ordered]
  | node value left right leftInduction rightInduction =>
      rcases (ordered_node value left right).mp ordered with
        ⟨leftOrdered, rightOrdered, below, above⟩
      unfold insert
      split_ifs with before after
      · refine (ordered_node _ _ _).mpr ⟨leftInduction leftOrdered, rightOrdered, ?_, above⟩
        intro other member
        rcases mem_items_insert left member with old | new
        · exact below other old
        · rw [new]
          exact before
      · refine (ordered_node _ _ _).mpr ⟨leftOrdered, rightInduction rightOrdered, below, ?_⟩
        intro other member
        rcases mem_items_insert right member with old | new
        · exact above other old
        · rw [new]
          exact after
      · exact ordered

/-- A key beyond a bound of the items occurs in none of them. -/
private theorem filter_of_forall_ne {wanted : Key} {values : List Item}
    (others : ∀ item ∈ values, key item ≠ wanted) :
    values.filter (fun item => key item ≠ wanted) = values := by
  rw [List.filter_eq_self]
  intro item member
  simpa using others item member

theorem items_delete (unwanted : Key) (tree : BinaryTree (Label × Item))
    (ordered : Ordered key tree) :
    items (delete key unwanted tree) =
      (items tree).filter fun item => key item ≠ unwanted := by
  induction tree with
  | nil => rfl
  | node value left right leftInduction rightInduction =>
      rcases (ordered_node value left right).mp ordered with
        ⟨leftOrdered, rightOrdered, below, above⟩
      have splits : (items left ++ value.2 :: items right).filter
            (fun item => key item ≠ unwanted) =
          (items left).filter (fun item => key item ≠ unwanted) ++
            (value.2 :: items right).filter fun item => key item ≠ unwanted :=
        List.filter_append ..
      rw [items_node, splits]
      unfold delete
      split_ifs with before after
      · have untouched : ∀ item ∈ value.2 :: items right, key item ≠ unwanted := by
          intro item member
          rcases List.mem_cons.mp member with atRoot | inRight
          · rw [atRoot]
            exact ne_of_gt before
          · exact ne_of_gt (lt_trans before (above item inRight))
        rw [filter_of_forall_ne untouched, items_node, leftInduction leftOrdered]
      · have untouched : ∀ item ∈ items left, key item ≠ unwanted := fun item member =>
          ne_of_lt (lt_trans (below item member) after)
        rw [filter_of_forall_ne untouched, items_node, rightInduction rightOrdered,
          List.filter_cons_of_pos (by simpa using ne_of_lt after)]
      · have here : key value.2 = unwanted :=
          le_antisymm (le_of_not_gt before) (le_of_not_gt after)
        have leftUntouched : ∀ item ∈ items left, key item ≠ unwanted := fun item member =>
          here ▸ ne_of_lt (below item member)
        have rightUntouched : ∀ item ∈ items right, key item ≠ unwanted := fun item member =>
          here ▸ ne_of_gt (above item member)
        rw [filter_of_forall_ne leftUntouched, List.filter_cons_of_neg (by simp [here]),
          filter_of_forall_ne rightUntouched, items_removeRoot]

theorem ordered_delete (unwanted : Key) (tree : BinaryTree (Label × Item))
    (ordered : Ordered key tree) : Ordered key (delete key unwanted tree) := by
  rw [Ordered, items_delete unwanted tree ordered]
  exact List.Pairwise.filter _ ordered

/-! ## The tree as a finite map -/

def lookup (key : Item → Key) (wanted : Key) (tree : BinaryTree (Label × Item)) :
    Option Item :=
  (search key wanted tree).map Prod.snd

theorem search_eq_some {wanted : Key} {found : Label × Item} (tree : BinaryTree (Label × Item))
    (hit : search key wanted tree = some found) :
    found ∈ inorder tree ∧ key found.2 = wanted := by
  induction tree with
  | nil => cases hit
  | node value left right leftInduction rightInduction =>
      unfold search at hit
      simp only [inorder, List.mem_append, List.mem_cons]
      split_ifs at hit with before after
      · have inLeft := leftInduction hit
        exact ⟨.inl inLeft.1, inLeft.2⟩
      · have inRight := rightInduction hit
        exact ⟨.inr (.inr inRight.1), inRight.2⟩
      · cases hit
        exact ⟨.inr (.inl rfl), le_antisymm (le_of_not_gt before) (le_of_not_gt after)⟩

theorem search_eq_none {wanted : Key} (tree : BinaryTree (Label × Item))
    (ordered : Ordered key tree) (miss : search key wanted tree = none) :
    ∀ item ∈ items tree, key item ≠ wanted := by
  induction tree with
  | nil => simp
  | node value left right leftInduction rightInduction =>
      rcases (ordered_node value left right).mp ordered with
        ⟨leftOrdered, rightOrdered, below, above⟩
      intro item member
      rw [items_node, List.mem_append, List.mem_cons] at member
      unfold search at miss
      split_ifs at miss with before after
      · rcases member with inLeft | atRoot | inRight
        · exact leftInduction leftOrdered miss item inLeft
        · rw [atRoot]
          exact ne_of_gt before
        · exact ne_of_gt (lt_trans before (above item inRight))
      · rcases member with inLeft | atRoot | inRight
        · exact ne_of_lt (lt_trans (below item inLeft) after)
        · rw [atRoot]
          exact ne_of_lt after
        · exact rightInduction rightOrdered miss item inRight

theorem distinct_keys (tree : BinaryTree (Label × Item)) (ordered : Ordered key tree) :
    ∀ first ∈ items tree, ∀ second ∈ items tree, first ≠ second →
      key first ≠ key second := by
  have symmetric : Std.Symm fun first second : Item => key first ≠ key second :=
    ⟨fun _ _ different => different.symm⟩
  have different : (items tree).Pairwise fun first second => key first ≠ key second :=
    ordered.imp ne_of_lt
  exact fun _ firstMember _ secondMember => different.forall firstMember secondMember

theorem lookup_eq_some_iff {wanted : Key} {item : Item} (tree : BinaryTree (Label × Item))
    (ordered : Ordered key tree) :
    lookup key wanted tree = some item ↔ item ∈ items tree ∧ key item = wanted := by
  cases result : search key wanted tree with
  | none =>
      have absent := search_eq_none tree ordered result
      simp only [lookup, result, Option.map_none]
      constructor
      · intro impossible
        cases impossible
      · intro hit
        exact absurd hit.2 (absent item hit.1)
  | some found =>
      have hit := search_eq_some tree result
      have member : found.2 ∈ items tree := List.mem_map_of_mem hit.1
      simp only [lookup, result, Option.map_some, Option.some.injEq]
      constructor
      · intro same
        rw [← same]
        exact ⟨member, hit.2⟩
      · intro other
        by_contra different
        exact distinct_keys tree ordered _ member _ other.1 different
          (hit.2.trans other.2.symm)

/-- A search for the new key finds the old node under it or the new one. -/
theorem search_insert (wanted : Key) (label : Label) (item : Item)
    (tree : BinaryTree (Label × Item)) :
    search key wanted (insert key label item tree) =
      if wanted = key item then some ((search key wanted tree).getD (label, item))
      else search key wanted tree := by
  induction tree with
  | nil =>
      rcases lt_trichotomy wanted (key item) with before | equal | after
      · simp [insert, search, before, ne_of_lt before]
      · simp [insert, search, equal]
      · simp [insert, search, after, ne_of_gt after, not_lt_of_gt after]
  | node value left right leftInduction rightInduction =>
      by_cases same : wanted = key item
      · subst same
        rw [if_pos rfl] at leftInduction rightInduction ⊢
        simp only [insert, search]
        split_ifs with before after
        · simpa [search, before] using leftInduction
        · simpa [search, before, after] using rightInduction
        · simp [search, before, after]
      · rw [if_neg same] at leftInduction rightInduction ⊢
        simp only [insert]
        split_ifs with before after
        · simp only [search, leftInduction]
        · simp only [search, rightInduction]
        · rfl

theorem lookup_insert (wanted : Key) (label : Label) (item : Item)
    (tree : BinaryTree (Label × Item)) :
    lookup key wanted (insert key label item tree) =
      if wanted = key item then some ((lookup key wanted tree).getD item)
      else lookup key wanted tree := by
  rw [lookup, lookup, search_insert]
  split_ifs with same
  · cases search key wanted tree <;> rfl
  · rfl

theorem insert_of_search {label : Label} {item : Item} {found : Label × Item}
    (tree : BinaryTree (Label × Item)) (hit : search key (key item) tree = some found) :
    insert key label item tree = tree := by
  induction tree with
  | nil => cases hit
  | node value left right leftInduction rightInduction =>
      unfold search at hit
      unfold insert
      split_ifs at hit ⊢ with before after
      · rw [leftInduction hit]
      · rw [rightInduction hit]
      · rfl

/-- A new node goes between the smaller and the larger ones. -/
theorem inorder_insert {item : Item} (label : Label) (tree : BinaryTree (Label × Item))
    (ordered : Ordered key tree) (miss : search key (key item) tree = none) :
    ∃ before after, inorder tree = before ++ after ∧
      inorder (insert key label item tree) = before ++ (label, item) :: after ∧
      (∀ value ∈ before, key value.2 < key item) ∧ ∀ value ∈ after, key item < key value.2 := by
  induction tree with
  | nil => exact ⟨[], [], rfl, rfl, by simp, by simp⟩
  | node value left right leftInduction rightInduction =>
      rcases (ordered_node value left right).mp ordered with
        ⟨leftOrdered, rightOrdered, below, above⟩
      have item_mem : ∀ {side : BinaryTree (Label × Item)} {node : Label × Item},
          node ∈ inorder side → node.2 ∈ items side := List.mem_map_of_mem
      unfold search at miss
      unfold insert
      split_ifs at miss ⊢ with smaller larger
      · rcases leftInduction leftOrdered miss with ⟨before, after, split, joined, low, high⟩
        refine ⟨before, after ++ value :: inorder right, ?_, ?_, low, ?_⟩
        · rw [inorder, split, List.append_assoc]
        · rw [inorder, joined, List.append_assoc, List.cons_append]
        · intro node member
          rcases List.mem_append.mp member with inLeft | rest
          · exact high node inLeft
          · rcases List.mem_cons.mp rest with atRoot | inRight
            · rw [atRoot]
              exact smaller
            · exact smaller.trans (above node.2 (item_mem inRight))
      · rcases rightInduction rightOrdered miss with ⟨before, after, split, joined, low, high⟩
        refine ⟨inorder left ++ value :: before, after, ?_, ?_, ?_, high⟩
        · rw [inorder, split, List.append_assoc, List.cons_append]
        · rw [inorder, joined, List.append_assoc, List.cons_append]
        · intro node member
          rcases List.mem_append.mp member with inLeft | rest
          · exact (below node.2 (item_mem inLeft)).trans larger
          · rcases List.mem_cons.mp rest with atRoot | inRight
            · rw [atRoot]
              exact larger
            · exact low node inRight

theorem search_eq_none_iff {wanted : Key} (tree : BinaryTree (Label × Item))
    (ordered : Ordered key tree) :
    search key wanted tree = none ↔ ∀ item ∈ items tree, key item ≠ wanted := by
  constructor
  · exact search_eq_none tree ordered
  · intro absent
    cases hit : search key wanted tree with
    | none => rfl
    | some found =>
        have present := search_eq_some tree hit
        exact absurd present.2 (absent found.2 (List.mem_map_of_mem present.1))

theorem search_eq_some_iff {wanted : Key} {found : Label × Item}
    (tree : BinaryTree (Label × Item)) (ordered : Ordered key tree) :
    search key wanted tree = some found ↔ found ∈ inorder tree ∧ key found.2 = wanted := by
  constructor
  · exact search_eq_some tree
  · intro here
    induction tree with
    | nil => exact absurd here.1 (List.not_mem_nil)
    | node value left right leftInduction rightInduction =>
        rcases (ordered_node value left right).mp ordered with
          ⟨leftOrdered, rightOrdered, below, above⟩
        rcases here with ⟨member, same⟩
        rw [inorder, List.mem_append, List.mem_cons] at member
        unfold search
        rcases member with inLeft | atRoot | inRight
        · have smaller := below found.2 (List.mem_map_of_mem inLeft)
          rw [if_pos (same ▸ smaller)]
          exact leftInduction leftOrdered ⟨inLeft, same⟩
        · rw [← atRoot, same, if_neg (lt_irrefl _), if_neg (lt_irrefl _)]
        · have larger := above found.2 (List.mem_map_of_mem inRight)
          rw [if_neg (not_lt_of_gt (same ▸ larger)), if_pos (same ▸ larger)]
          exact rightInduction rightOrdered ⟨inRight, same⟩

/-- A deletion takes one item out of the sequence. -/
theorem items_delete_split {item : Item} {before after : List Item}
    (tree : BinaryTree (Label × Item)) (ordered : Ordered key tree)
    (split : items tree = before ++ item :: after) :
    items (delete key (key item) tree) = before ++ after := by
  have sorted := ordered
  rw [Ordered, split, List.pairwise_append, List.pairwise_cons] at sorted
  rcases sorted with ⟨-, ⟨above, -⟩, below⟩
  have beforeKept : ∀ other ∈ before, key other ≠ key item := fun other member =>
    ne_of_lt (below other member item (by simp))
  have afterKept : ∀ other ∈ after, key other ≠ key item := fun other member =>
    ne_of_gt (above other member)
  rw [items_delete _ tree ordered, split, List.filter_append,
    List.filter_cons_of_neg (by simp), filter_of_forall_ne beforeKept,
    filter_of_forall_ne afterKept]

theorem lookup_delete (wanted unwanted : Key) (tree : BinaryTree (Label × Item))
    (ordered : Ordered key tree) :
    lookup key wanted (delete key unwanted tree) =
      if wanted = unwanted then none else lookup key wanted tree := by
  have removed := items_delete unwanted tree ordered
  apply Option.ext
  intro item
  rw [lookup_eq_some_iff _ (ordered_delete unwanted tree ordered), removed, List.mem_filter]
  by_cases same : wanted = unwanted
  · rw [if_pos same, same]
    simp
  · rw [if_neg same, lookup_eq_some_iff tree ordered]
    constructor
    · exact fun hit => ⟨hit.1.1, hit.2⟩
    · exact fun hit => ⟨⟨hit.1, by simpa [hit.2] using same⟩, hit.2⟩

/-! ## Subtrees -/

inductive IsSubtree : BinaryTree (Label × Item) → BinaryTree (Label × Item) → Prop
  | whole (tree : BinaryTree (Label × Item)) : IsSubtree tree tree
  | left {part left right : BinaryTree (Label × Item)} {value : Label × Item} :
      IsSubtree part left → IsSubtree part (.node value left right)
  | right {part left right : BinaryTree (Label × Item)} {value : Label × Item} :
      IsSubtree part right → IsSubtree part (.node value left right)

theorem IsSubtree.labels_sublist {part tree : BinaryTree (Label × Item)}
    (isSubtree : IsSubtree part tree) : (labels part).Sublist (labels tree) := by
  induction isSubtree with
  | whole => exact List.Sublist.refl _
  | left _ induction =>
      rw [labels_node]
      exact induction.trans (List.sublist_append_left _ _)
  | right _ induction =>
      rw [labels_node]
      exact (induction.trans (List.sublist_cons_self _ _)).trans (List.sublist_append_right _ _)

theorem IsSubtree.height_le {part tree : BinaryTree (Label × Item)}
    (isSubtree : IsSubtree part tree) : part.height ≤ tree.height := by
  induction isSubtree with
  | whole => exact Nat.le_refl _
  | left _ induction =>
      rw [BinaryTree.height]
      omega
  | right _ induction =>
      rw [BinaryTree.height]
      omega

/-- Below the node that a search finds, a deletion is one of the root. -/
theorem search_subtree {wanted : Key} {found : Label × Item} (tree : BinaryTree (Label × Item))
    (hit : search key wanted tree = some found) :
    ∃ left right, IsSubtree (.node found left right) tree ∧
      IsSubtree (removeRoot found.1 left right) (delete key wanted tree) := by
  induction tree with
  | nil => cases hit
  | node value left right leftInduction rightInduction =>
      unfold search at hit
      unfold delete
      split_ifs at hit ⊢ with before after
      · rcases leftInduction hit with ⟨first, second, part, removed⟩
        exact ⟨first, second, part.left, removed.left⟩
      · rcases rightInduction hit with ⟨first, second, part, removed⟩
        exact ⟨first, second, part.right, removed.right⟩
      · cases hit
        exact ⟨left, right, .whole _, .whole _⟩

/-- The leftmost node has no left child, and its right subtree stays. -/
theorem popMin_subtree (left : BinaryTree (Label × Item)) :
    ∀ (value : Label × Item) (right : BinaryTree (Label × Item)),
      ∃ below, IsSubtree (.node (popMin value left right).1 .nil below) (.node value left right) ∧
        IsSubtree below (popMin value left right).2 := by
  induction left with
  | nil => exact fun value right => ⟨right, .whole _, .whole _⟩
  | node next first second firstInduction _ =>
      intro value right
      rcases firstInduction next second with ⟨below, part, kept⟩
      exact ⟨below, part.left, kept.left⟩

/-! ## Labels of the results -/

theorem labels_insert (label : Label) (item : Item) (tree : BinaryTree (Label × Item)) :
    ∀ other ∈ labels (insert key label item tree), other ∈ labels tree ∨ other = label := by
  intro other member
  rcases List.mem_map.mp member with ⟨node, inTree, isOther⟩
  subst isOther
  rcases mem_inorder_insert tree inTree with old | new
  · exact .inl (List.mem_map_of_mem old)
  · exact .inr (congrArg Prod.fst new)

theorem nodup_labels_node (value : Label × Item) (left right : BinaryTree (Label × Item)) :
    (labels (.node value left right)).Nodup ↔
      (labels left).Nodup ∧ (labels right).Nodup ∧ value.1 ∉ labels left ∧
        value.1 ∉ labels right ∧ ∀ label ∈ labels left, label ∉ labels right := by
  rw [labels_node, List.nodup_append, List.nodup_cons]
  constructor
  · intro distinct
    rcases distinct with ⟨leftDistinct, ⟨rightNot, rightDistinct⟩, apart⟩
    exact ⟨leftDistinct, rightDistinct, fun member => apart _ member _ (by simp) rfl, rightNot,
      fun label inLeft inRight => apart label inLeft label (by simp [inRight]) rfl⟩
  · intro distinct
    rcases distinct with ⟨leftDistinct, rightDistinct, leftNot, rightNot, apart⟩
    refine ⟨leftDistinct, ⟨rightNot, rightDistinct⟩, ?_⟩
    intro label inLeft other member equal
    subst equal
    rcases List.mem_cons.mp member with atRoot | inRight
    · exact leftNot (atRoot ▸ inLeft)
    · exact apart label inLeft inRight

theorem nodup_labels_insert {label : Label} (item : Item) (tree : BinaryTree (Label × Item))
    (distinct : (labels tree).Nodup) (fresh : label ∉ labels tree) :
    (labels (insert key label item tree)).Nodup := by
  induction tree with
  | nil => simp [insert]
  | node value left right leftInduction rightInduction =>
      rcases (nodup_labels_node value left right).mp distinct with
        ⟨leftDistinct, rightDistinct, leftNot, rightNot, apart⟩
      simp only [labels_node, List.mem_append, List.mem_cons, not_or] at fresh
      rcases fresh with ⟨notLeft, notRoot, notRight⟩
      unfold insert
      split_ifs with before after
      · refine (nodup_labels_node _ _ _).mpr
          ⟨leftInduction leftDistinct notLeft, rightDistinct, ?_, rightNot, ?_⟩
        · intro member
          rcases labels_insert label item left _ member with old | new
          · exact leftNot old
          · exact notRoot new.symm
        · intro other member
          rcases labels_insert label item left _ member with old | new
          · exact apart other old
          · exact new ▸ notRight
      · refine (nodup_labels_node _ _ _).mpr
          ⟨leftDistinct, rightInduction rightDistinct notRight, leftNot, ?_, ?_⟩
        · intro member
          rcases labels_insert label item right _ member with old | new
          · exact rightNot old
          · exact notRoot new.symm
        · intro other inLeft member
          rcases labels_insert label item right _ member with old | new
          · exact apart other inLeft old
          · exact notLeft (new ▸ inLeft)
      · exact distinct

theorem labels_delete (unwanted : Key) (tree : BinaryTree (Label × Item)) :
    (labels (delete key unwanted tree)).Sublist (labels tree) := by
  induction tree with
  | nil => exact List.Sublist.refl _
  | node value left right leftInduction rightInduction =>
      unfold delete
      rw [labels_node]
      split_ifs with before after
      · rw [labels_node]
        exact List.Sublist.append_right leftInduction _
      · rw [labels_node]
        exact List.Sublist.append_left (List.Sublist.cons_cons value.1 rightInduction) _
      · exact labels_removeRoot value.1 left right

end Laws

end GamZ.SearchTree
