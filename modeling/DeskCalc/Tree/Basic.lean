import DeskCalc.Kind

/-! Trees of operators and numbers.  A tree is any binary tree: one that is still being put together
may lack operands, and a number may even have got one.  The rank of a label decides where a tree
takes it in. -/

namespace DeskCalc

/-- What a node of a tree carries. -/
inductive Label where
  | number (value : Float)
  | operator (o : Operator)
  deriving DecidableEq

namespace Label

def kind : Label → Kind
  | number _ => .number
  | operator o => .operator o

def rank (l : Label) : Nat := l.kind.rank

def value? : Label → Option Float
  | number v => some v
  | operator _ => none

theorem rank_le_number (l : Label) (v : Float) : l.rank ≤ (number v).rank := by
  cases l with
  | number => exact Nat.le_refl _
  | operator o => exact Nat.le_of_lt (Kind.rank_operator_lt o)

end Label

/-- A tree; `empty` stands for an operand that is missing. -/
inductive Tree where
  | empty
  | node (label : Label) (left right : Tree)
  deriving DecidableEq

namespace Tree

def isEmpty : Tree → Bool
  | empty => true
  | node .. => false

def inorder : Tree → List Label
  | empty => []
  | node l a b => a.inorder ++ l :: b.inorder

def size : Tree → Nat
  | empty => 0
  | node _ a b => a.size + b.size + 1

theorem length_inorder (t : Tree) : t.inorder.length = t.size := by
  induction t with
  | empty => rfl
  | node l a b iha ihb => simp [inorder, size, iha, ihb]; omega

/-- The rank of the root is at least `n`; an empty tree has no root to speak against it. -/
def RankAtLeast (n : Nat) : Tree → Prop
  | empty => True
  | node l _ _ => n ≤ l.rank

/-- Every left operand ranks higher than its node, and every right operand at least as high. -/
def RankOrdered : Tree → Prop
  | empty => True
  | node l a b =>
    a.RankAtLeast (l.rank + 1) ∧ b.RankAtLeast l.rank ∧ a.RankOrdered ∧ b.RankOrdered

/-- Every operator has both operands and every number has none. -/
def Complete : Tree → Prop
  | empty => False
  | node (.number _) a b => a = empty ∧ b = empty
  | node (.operator _) a b => a.Complete ∧ b.Complete

end Tree

/-- A node with its operands, which may be missing. -/
structure Node where
  label : Label
  left : Tree
  right : Tree
  deriving DecidableEq

namespace Node

/-- A node without operands. -/
def single (l : Label) : Node := ⟨l, .empty, .empty⟩

def toTree (n : Node) : Tree := .node n.label n.left n.right

def isLeaf (n : Node) : Bool := n.left.isEmpty && n.right.isEmpty

end Node

/-- What was asked of a node that is not there. -/
inductive AbsentNode where
  | kind
  | rank
  | isLeaf
  deriving DecidableEq

namespace AbsentNode

def name : AbsentNode → Text
  | kind => "kind".toList
  | rank => "rank".toList
  | isLeaf => "is_leaf".toList

def message (asked : AbsentNode) : Text :=
  "'NoneType' object has no attribute '".toList ++ asked.name ++ ['\'']

end AbsentNode

/-- The root of a tree with its operands; an empty tree is asked for its kind in vain. -/
def Tree.root : Tree → Except AbsentNode Node
  | empty => .error .kind
  | node l a b => .ok ⟨l, a, b⟩

inductive NodeError where
  | unknownRank
  | immenseRank
  | numberWithoutValue
  | numberWithOperands
  | operatorWithValue (o : Operator)
  | displaySymbol (kind : Kind)
  deriving DecidableEq

namespace NodeError

def message : NodeError → Text
  | unknownRank =>
    "kind: Input should be ".toList ++ Text.alternatives (Kind.all.map (Text.ofNat ·.rank))
  | immenseRank =>
    "kind: Unable to parse input string as an integer, exceeded maximum size".toList
  | numberWithoutValue => "Value error, NUMBER node requires a value".toList
  | numberWithOperands => "Value error, NUMBER node cannot have children".toList
  | operatorWithValue o =>
    "Value error, ".toList ++ (Kind.operator o).name ++ " node cannot carry a value".toList
  | displaySymbol kind =>
    "Value error, ".toList ++ kind.name ++ " is a display symbol, not a tree node".toList

end NodeError

/-- A node of a kind, if the kind, the value and the operands agree: a number has a value and no
operand, an operator has no value, and a symbol of the display makes no node. -/
def Node.make (kind : Kind) (value : Option Float) (left right : Tree) : Except NodeError Node :=
  match kind, value with
  | .number, none => .error .numberWithoutValue
  | .number, some v =>
    if left.isEmpty && right.isEmpty then .ok ⟨.number v, left, right⟩
    else .error .numberWithOperands
  | .operator o, none => .ok ⟨.operator o, left, right⟩
  | .operator o, some _ => .error (.operatorWithValue o)
  | kind, _ => .error (.displaySymbol kind)

/-- A node of the kind with a given rank, which is a signed word of 64 bits. -/
def Node.makeRanked (rank : Int) (value : Option Float) (left right : Tree) :
    Except NodeError Node :=
  match Kind.ofRank? rank with
  | none =>
    .error (if -2 ^ 63 ≤ rank && rank < 2 ^ 63 then .unknownRank else .immenseRank)
  | some kind => make kind value left right

end DeskCalc
