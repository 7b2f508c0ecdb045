import DeskCalc.Tree.Gap

/-! Sequences of nodes that are taken into a tree one by one, in any order.  Insertion follows the rule
of ranks on every tree, and nodes without operands keep the order of ranks all along.  A sequence that
is no alternation of numbers and operators leaves an operand missing somewhere, and evaluation reports
it: such a tree has no value. -/

namespace DeskCalc

namespace Node

theorem eq_single {n : Node} (h : n.isLeaf) : n = single n.label := by
  obtain ⟨l, a, b⟩ := n
  simp only [isLeaf, Bool.and_eq_true] at h
  cases a with
  | node => exact absurd h.1 (by simp [Tree.isEmpty])
  | empty =>
    cases b with
    | node => exact absurd h.2 (by simp [Tree.isEmpty])
    | empty => rfl

/-- A node that is made without operands is a leaf. -/
theorem isLeaf_of_make {kind : Kind} {value : Option Float} {n : Node}
    (h : make kind value .empty .empty = .ok n) : n.isLeaf := by
  unfold make at h
  split at h
  · cases h
  · obtain rfl := Except.ok.inj h
    rfl
  · obtain rfl := Except.ok.inj h
    rfl
  · cases h
  · cases h

end Node

namespace Tree

/-- The tree after nodes were taken in one by one. -/
def insertAll (t : Tree) (nodes : List Node) : Tree := nodes.foldl insert t

theorem insertAll_leaves {nodes : List Node} (leaves : ∀ n ∈ nodes, n.isLeaf) (t : Tree) :
    t.insertAll nodes = t.insertLabels (nodes.map Node.label) := by
  induction nodes generalizing t with
  | nil => rfl
  | cons n nodes ih =>
    have first : t.insert n = t.insert (.single n.label) := by
      rw [← Node.eq_single (leaves n (by simp))]
    have rest : ∀ m ∈ nodes, m.isLeaf := fun m hm => leaves m (by simp [hm])
    calc t.insertAll (n :: nodes) = (t.insert n).insertAll nodes := rfl
      _ = (t.insert n).insertLabels (nodes.map Node.label) := ih rest _
      _ = t.insertLabels ((n :: nodes).map Node.label) := by rw [first]; rfl

/-- Inserting follows the rule of ranks on any tree: an empty tree becomes the node, a node of lower
rank than the root takes the tree as its left operand, and any other goes into the right operand.  A
node without a left operand comes after the labels of the tree, and nodes without operands that are
taken in one by one keep the order of ranks at each step. -/
theorem insert_follows_ranks (t : Tree) (n : Node) :
    (t.insert n = match t with
      | empty => n.toTree
      | node l a b =>
        if n.label.rank < l.rank then { n with left := node l a b }.toTree
        else node l a (b.insert n)) ∧
      (n.left = empty → (t.insert n).inorder = t.inorder ++ n.toTree.inorder) ∧
      ∀ nodes : List Node, (∀ m ∈ nodes, m.isLeaf) →
        ∀ k, (empty.insertAll (nodes.take k)).RankOrdered := by
  refine ⟨?_, fun h => ?_, fun nodes leaves k => ?_⟩
  · cases t with
    | empty => rfl
    | node l a b =>
      simp only [insert_eq_graft, graft]
      rfl
  · rw [insert_eq_graft, inorder_graft t h]
  · rw [insertAll_leaves fun m hm => leaves m (List.mem_of_mem_take hm)]
    exact rankOrdered_empty.insertLabels _

/-- A number with a sum on its right, which no expression has, becomes the left operand of a minus that
brings a right operand of its own. -/
theorem insert_follows_ranks_disorderly :
    let t : Tree := .node (.number 2) .empty (.node (.operator .plus) .empty .empty)
    let n : Node := ⟨.operator .minus, .empty, .node (.number 3) .empty .empty⟩
    let nodes : List Node :=
      [.single (.operator .times), .single (.number 5), .single (.operator .minus), .single (.number 7)]
    t.insert n = .node (.operator .minus) t (.node (.number 3) .empty .empty) ∧
      n.left = empty ∧ (t.insert n).inorder = t.inorder ++ n.toTree.inorder ∧
      (∀ m ∈ nodes, m.isLeaf) ∧ ∀ k, (empty.insertAll (nodes.take k)).RankOrdered := by
  intro t n nodes
  have leaves : ∀ m ∈ nodes, m.isLeaf := by simp [nodes, Node.single, Node.isLeaf, isEmpty]
  obtain ⟨rule, inorder, ordered⟩ := insert_follows_ranks t n
  exact ⟨rule.trans (if_pos (by decide)), rfl, inorder rfl, leaves, ordered nodes leaves⟩

/-! ### Evaluating what was taken in -/

/-- Evaluating a rank-ordered tree that is not complete reports a missing operand. -/
theorem RankOrdered.missingOperand {t : Tree} (ordered : t.RankOrdered) (nonempty : t ≠ empty)
    (incomplete : ¬ t.Complete) : ∃ k, t.value = .error (.missingOperand k) := by
  cases gap : t.firstGap with
  | none => exact absurd (ordered.leftFree.complete nonempty gap) incomplete
  | some n => exact ⟨n.label.kind, ordered.leftFree.value_of_firstGap gap⟩

/-- A rank-ordered tree has a value when its labels alternate, and otherwise lacks an operand. -/
theorem RankOrdered.evaluate {t : Tree} (ordered : t.RankOrdered) (nonempty : t ≠ empty) :
    ((∃ v, t.evaluate = .ok v) ↔ Label.Alternating t.inorder) ∧
      (¬ Label.Alternating t.inorder → ∃ k, t.evaluate = .error (.missingOperand k)) := by
  rw [← ordered.complete_iff, evaluate_eq_value]
  have missing := ordered.missingOperand nonempty
  refine ⟨⟨?_, Complete.exists_value⟩, missing⟩
  rintro ⟨v, hv⟩
  refine Classical.byContradiction fun incomplete => ?_
  obtain ⟨k, hk⟩ := missing incomplete
  rw [hk] at hv
  cases hv

/-- Nodes that are made without operands and taken in one by one evaluate to a number exactly when they
alternate, a number first and last.  In any other case evaluation reports an operand that is
missing. -/
theorem alternating_nodes_evaluate {nodes : List Node} (nonempty : nodes ≠ [])
    (made : ∀ n ∈ nodes, ∃ kind value, Node.make kind value .empty .empty = .ok n) :
    ((∃ v, (empty.insertAll nodes).evaluate = .ok v) ↔
        Label.Alternating (nodes.map Node.label)) ∧
      (¬ Label.Alternating (nodes.map Node.label) →
        ∃ k, (empty.insertAll nodes).evaluate = .error (.missingOperand k)) := by
  have leaves : ∀ n ∈ nodes, n.isLeaf := by
    intro n hn
    obtain ⟨kind, value, h⟩ := made n hn
    exact Node.isLeaf_of_make h
  have labels : (empty.insertAll nodes).inorder = nodes.map Node.label := by
    rw [insertAll_leaves leaves, inorder_insertLabels]
    rfl
  have ordered : (empty.insertAll nodes).RankOrdered := by
    rw [insertAll_leaves leaves]
    exact rankOrdered_empty.insertLabels _
  have taken : empty.insertAll nodes ≠ empty := by
    intro h
    rw [h] at labels
    exact nonempty (List.map_eq_nil_iff.1 labels.symm)
  rw [← labels]
  exact ordered.evaluate taken

/-- `2`, `x`, `-`, `3`: the minus sign gets both operands, and the `x` below it lacks one. -/
theorem alternating_nodes_evaluate_not :
    let nodes : List Node :=
      [.single (.number 2), .single (.operator .times), .single (.operator .minus), .single (.number 3)]
    nodes ≠ [] ∧ (∀ n ∈ nodes, ∃ kind value, Node.make kind value .empty .empty = .ok n) ∧
      ¬ Label.Alternating (nodes.map Node.label) ∧
      (¬ ∃ v, (empty.insertAll nodes).evaluate = .ok v) ∧
      ∃ k, (empty.insertAll nodes).evaluate = .error (.missingOperand k) := by
  intro nodes
  have nonempty : nodes ≠ [] := by simp [nodes]
  have made : ∀ n ∈ nodes, ∃ kind value, Node.make kind value .empty .empty = .ok n := by
    simp only [nodes, List.forall_mem_cons]
    exact ⟨⟨.number, some 2, rfl⟩, ⟨.operator .times, none, rfl⟩, ⟨.operator .minus, none, rfl⟩,
      ⟨.number, some 3, rfl⟩, by simp⟩
  have disorderly : ¬ Label.Alternating (nodes.map Node.label) := id
  obtain ⟨exactly, missing⟩ := alternating_nodes_evaluate nonempty made
  exact ⟨nonempty, made, disorderly, fun h => disorderly (exactly.1 h), missing disorderly⟩

end Tree

end DeskCalc
