import DeskCalc.Tree.Basic

/-! Taking a node into a tree.  The right spine of a tree is walked down past every node whose rank
is not above that of the new one.  The new node takes what is left of the spine as its left operand,
and the nodes that were passed are put back over it.  A whole sequence of labels is taken in at once
by keeping the right spine open from one label to the next. -/

namespace DeskCalc

/-- A node of a right spine that waits for its right operand. -/
structure Frame where
  label : Label
  left : Tree
  deriving DecidableEq

/-- An open right spine, from its lowest node up to the root. -/
abbrev Spine := List Frame

namespace Spine

/-- The tree of a spine whose lowest right operand is `t`. -/
def close (s : Spine) (t : Tree) : Tree := s.foldl (fun right f => .node f.label f.left right) t

@[simp] theorem close_nil (t : Tree) : close [] t = t := rfl

@[simp] theorem close_cons (f : Frame) (s : Spine) (t : Tree) :
    close (f :: s) t = close s (.node f.label f.left t) := rfl

theorem close_append (s u : Spine) (t : Tree) : close (s ++ u) t = close u (close s t) := by
  simp [close, List.foldl_append]

/-- Walks down a right spine past the nodes of rank at most `rank`, and gives the nodes that were
passed and the tree below them. -/
def descend (rank : Nat) : Spine → Tree → Spine × Tree
  | passed, .empty => (passed, .empty)
  | passed, .node l a b =>
    if l.rank ≤ rank then descend rank (⟨l, a⟩ :: passed) b else (passed, .node l a b)

/-- A label put at the end of an open spine.  The nodes of higher rank are closed, and their tree is
the left operand of the new node. -/
def push (s : Spine) (l : Label) : Spine :=
  ⟨l, close (s.takeWhile fun f => l.rank < f.label.rank) .empty⟩
    :: s.dropWhile fun f => l.rank < f.label.rank

/-- The walk down leaves the frames that were passed before it as they are. -/
theorem descend_append (rank : Nat) (s u : Spine) (t : Tree) :
    descend rank (s ++ u) t = ((descend rank s t).1 ++ u, (descend rank s t).2) := by
  induction t generalizing s with
  | empty => rfl
  | node l a b _ ihb =>
    unfold descend
    split
    · rw [← List.cons_append, ihb]
    · rfl

/-- A closed spine has the labels of its frames from the root down, each after its left operand, and
then those of the tree at its end. -/
theorem inorder_close (s : Spine) (t : Tree) :
    (close s t).inorder
      = s.reverse.flatMap (fun f => f.left.inorder ++ [f.label]) ++ t.inorder := by
  induction s generalizing t with
  | nil => simp
  | cons f s ih => simp [ih, Tree.inorder]

end Spine

namespace Tree

/-- The tree with `n` taken in. -/
def insert (t : Tree) (n : Node) : Tree :=
  let (passed, below) := Spine.descend n.label.rank [] t
  match below with
  | empty => Spine.close passed n.toTree
  | node .. => Spine.close passed (.node n.label below n.right)

/-- The tree with the root of another tree taken in.  An empty tree takes in anything; any other tree
asks the new node for its rank. -/
def insert? (t : Tree) : Tree → Except AbsentNode Tree
  | node l a b => .ok (t.insert ⟨l, a, b⟩)
  | empty => if t.isEmpty then .ok empty else .error .rank

/-- The tree of a sequence of labels, in one pass. -/
def ofLabels (labels : List Label) : Tree := Spine.close (labels.foldl Spine.push []) .empty

/-- The rule of insertion: an empty tree becomes the node, a node of lower rank than the root takes
the tree as its left operand, and any other goes into the right operand. -/
def graft : Tree → Node → Tree
  | empty, n => n.toTree
  | node l a b, n =>
    if n.label.rank < l.rank then node n.label (node l a b) n.right else node l a (b.graft n)

/-- Walking down the spine and putting it back is the rule of insertion. -/
theorem insert_eq_graft (t : Tree) (n : Node) : t.insert n = t.graft n := by
  induction t with
  | empty => rfl
  | node l a b _ ih =>
    unfold graft insert Spine.descend
    by_cases h : n.label.rank < l.rank
    · rw [if_pos h, if_neg (by omega)]
      rfl
    · rw [if_neg h, if_pos (by omega), ← ih]
      unfold insert
      rw [show [(⟨l, a⟩ : Frame)] = [] ++ [⟨l, a⟩] from rfl, Spine.descend_append]
      dsimp only
      split <;> simp [Spine.close_append]

end Tree

end DeskCalc
