import DeskCalc.Tree.Evaluate
import DeskCalc.Tree.Order

/-! Where an operand is missing in a tree.  As long as no number has a left operand, no number is
ever combined, and evaluation fails exactly where a node lacks an operand.  It reports the first such
node from the root down, the left operand of a node before the right one. -/

namespace DeskCalc

/-- Whether an operand is missing where one belongs: a number stands by itself or needs both, like an
operator. -/
def Node.lacksOperand (n : Node) : Bool :=
  match n.label with
  | .number _ => !n.isLeaf && (n.left.isEmpty || n.right.isEmpty)
  | .operator _ => n.left.isEmpty || n.right.isEmpty

namespace Tree

/-- No number has a left operand. -/
def LeftFree : Tree → Prop
  | empty => True
  | node (.number _) a b => a = empty ∧ b.LeftFree
  | node (.operator _) a b => a.LeftFree ∧ b.LeftFree

theorem LeftFree.right {l : Label} {a b : Tree} (h : (node l a b).LeftFree) : b.LeftFree := by
  cases l with
  | number v => exact h.2
  | operator o => exact h.2

theorem LeftFree.withRight {l : Label} {a b : Tree} (h : (node l a b).LeftFree) {b' : Tree}
    (hb : b'.LeftFree) : (node l a b').LeftFree := by
  cases l with
  | number v => exact ⟨h.1, hb⟩
  | operator o => exact ⟨h.1, hb⟩

theorem RankOrdered.leftFree {t : Tree} (ordered : t.RankOrdered) : t.LeftFree := by
  induction t with
  | empty => trivial
  | node l a b iha ihb =>
    obtain ⟨left, -, orderedLeft, orderedRight⟩ := ordered
    cases l with
    -- Nothing ranks high enough to be on the left of a number.
    | number v => exact ⟨RankAtLeast.eq_empty left, ihb orderedRight⟩
    | operator o => exact ⟨iha orderedLeft, ihb orderedRight⟩

/-! ### The first node that lacks an operand -/

/-- The nodes of a tree, each before those of its left operand, and these before those of its right
one. -/
def preorder : Tree → List Node
  | empty => []
  | node l a b => ⟨l, a, b⟩ :: (a.preorder ++ b.preorder)

/-- The first node that lacks an operand. -/
def firstGap (t : Tree) : Option Node := t.preorder.find? Node.lacksOperand

theorem firstGap_of_lacksOperand {l : Label} {a b : Tree} (h : Node.lacksOperand ⟨l, a, b⟩) :
    (node l a b).firstGap = some ⟨l, a, b⟩ := by
  rw [firstGap, preorder, List.find?_cons_of_pos h]

theorem firstGap_of_operands {l : Label} {a b : Tree} (h : Node.lacksOperand ⟨l, a, b⟩ = false) :
    (node l a b).firstGap = a.firstGap.or b.firstGap := by
  rw [firstGap, preorder, List.find?_cons_of_neg (by simp [h]), List.find?_append]
  rfl

theorem lacksOperand_number (v : Float) (b : Tree) :
    Node.lacksOperand ⟨.number v, empty, b⟩ = !b.isEmpty := by
  simp [Node.lacksOperand, Node.isLeaf, isEmpty]

theorem LeftFree.complete {t : Tree} (free : t.LeftFree) (nonempty : t ≠ empty)
    (noGap : t.firstGap = none) : t.Complete := by
  induction t with
  | empty => exact absurd rfl nonempty
  | node l a b iha ihb =>
    cases lacks : Node.lacksOperand ⟨l, a, b⟩ with
    | true =>
      rw [firstGap_of_lacksOperand lacks] at noGap
      cases noGap
    | false =>
      rw [firstGap_of_operands lacks, Option.or_eq_none_iff] at noGap
      cases l with
      | number v =>
        obtain ⟨rfl, -⟩ := free
        rw [lacksOperand_number] at lacks
        cases b with
        | empty => exact ⟨rfl, rfl⟩
        | node => cases lacks
      | operator o =>
        simp only [Node.lacksOperand, Bool.or_eq_false_iff] at lacks
        have ha : a ≠ empty := by
          rintro rfl
          cases lacks.1
        have hb : b ≠ empty := by
          rintro rfl
          cases lacks.2
        exact ⟨iha free.1 ha noGap.1, ihb free.2 hb noGap.2⟩

/-- The error of a tree in which a node lacks an operand names the first one. -/
theorem LeftFree.value_of_firstGap {t : Tree} (free : t.LeftFree) {n : Node}
    (gap : t.firstGap = some n) : t.value = .error (.missingOperand n.label.kind) := by
  induction t with
  | empty => cases gap
  | node l a b iha ihb =>
    cases lacks : Node.lacksOperand ⟨l, a, b⟩ with
    | true =>
      rw [firstGap_of_lacksOperand lacks] at gap
      obtain rfl := Option.some.inj gap
      cases l with
      | number v =>
        obtain ⟨rfl, -⟩ := free
        rw [lacksOperand_number] at lacks
        cases b with
        | empty => cases lacks
        | node => rw [value] <;> simp [isEmpty]
      | operator o => exact (value_operator_eq o a b).trans (if_pos lacks)
    | false =>
      rw [firstGap_of_operands lacks] at gap
      cases l with
      | number v =>
        -- A number that lacks nothing is a leaf, and there is no node below it.
        obtain ⟨rfl, -⟩ := free
        rw [lacksOperand_number] at lacks
        cases b with
        | empty => cases gap
        | node => cases lacks
      | operator o =>
        have operands : ¬ (a.isEmpty || b.isEmpty) = true := by
          rw [Bool.not_eq_true]
          exact lacks
        rw [value_operator_eq, if_neg operands]
        cases left : a.firstGap with
        | some m =>
          rw [left, Option.some_or] at gap
          rw [iha free.1 (left.trans gap)]
          rfl
        | none =>
          rw [left, Option.none_or] at gap
          have nonempty : a ≠ empty := by
            rintro rfl
            exact operands rfl
          obtain ⟨x, hx⟩ := (free.1.complete nonempty left).exists_value
          rw [hx, ihb free.2 gap]
          rfl

end Tree

end DeskCalc
