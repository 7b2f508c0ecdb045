import DeskCalc.Tree.Basic

/-! The value of a tree.  A list of tasks stands for the work that is left and a stack for the values
that are ready, so that a tree of any depth is evaluated.  `Tree.value` is the same by recursion on
the tree. -/

namespace DeskCalc

/-- Why a tree has no value. -/
inductive EvalError where
  /-- A node of this kind has an operand too few. -/
  | missingOperand (kind : Kind)
  /-- A number has two operands. -/
  | numberWithOperands
  | divisionByZero
  /-- There is no tree. -/
  | nothing
  /-- The values that are ready do not fit the tasks. -/
  | unbalanced
  deriving DecidableEq

namespace EvalError

def message : EvalError → Text
  | missingOperand kind => kind.name ++ " node is missing an operand".toList
  | numberWithOperands => "NUMBER node has two operands".toList
  | divisionByZero => "float division by zero".toList
  | nothing => AbsentNode.message .isLeaf
  | unbalanced => "an operand is left over or missing".toList

end EvalError

/-- The value of a label on two operands. -/
def Label.apply : Label → Float → Float → Except EvalError Float
  | .operator o, a, b =>
    match o.result? a b with
    | some v => .ok v
    | none => .error .divisionByZero
  | .number _, _, _ => .error .numberWithOperands

@[simp] theorem Label.apply_operator (o : Operator) (a b : Float) :
    (Label.operator o).apply a b = .ok (o.apply a b) := by simp [Label.apply]

/-- A step of the work that is left. -/
inductive Task where
  | visit (t : Tree)
  | combine (l : Label)

namespace Task

/-- The steps that a task takes at most. -/
def weight : Task → Nat
  | visit t => 2 * t.size
  | combine _ => 1

/-- Does the tasks in order on a stack of values.  The operands of a node are visited before it is
combined, the left one first. -/
def run : List Task → List Float → Except EvalError (List Float)
  | [], values => .ok values
  | combine l :: tasks, right :: left :: values =>
    match l.apply left right with
    | .ok v => run tasks (v :: values)
    | .error e => .error e
  | combine _ :: _, _ => .error .unbalanced
  | visit .empty :: _, _ => .error .nothing
  | visit (.node (.number v) .empty .empty) :: tasks, values => run tasks (v :: values)
  | visit (.node l a b) :: tasks, values =>
    if a.isEmpty || b.isEmpty then .error (.missingOperand l.kind)
    else run (visit a :: visit b :: combine l :: tasks) values
  termination_by tasks => tasks.foldr (fun task n => task.weight + n) 0
  decreasing_by all_goals simp [weight, Tree.size]; try omega

end Task

namespace Tree

/-- The value of a tree, by the tasks that it takes: what is at the bottom of the stack after
them. -/
def evaluate (t : Tree) : Except EvalError Float :=
  match Task.run [.visit t] [] with
  | .ok values =>
    match values.getLast? with
    | some v => .ok v
    | none => .error .unbalanced
  | .error e => .error e

/-- The value of a tree by recursion: a number without operands is its own value, and any other node
needs both operands. -/
def value : Tree → Except EvalError Float
  | empty => .error .nothing
  | node l a b =>
    match l, a, b with
    | .number v, empty, empty => .ok v
    | l, a, b =>
      if a.isEmpty || b.isEmpty then .error (.missingOperand l.kind)
      else do
        let left ← a.value
        let right ← b.value
        l.apply left right

end Tree

/-- Visiting a tree puts its value on the stack, and a tree without a value ends the run with its
error. -/
theorem Task.run_visit (t : Tree) (tasks : List Task) (values : List Float) :
    run (visit t :: tasks) values = match t.value with
      | .ok v => run tasks (v :: values)
      | .error e => .error e := by
  induction t generalizing tasks values with
  | empty => simp [run, Tree.value]
  | node l a b iha ihb =>
    by_cases leaf : ∃ v, l = .number v ∧ a = .empty ∧ b = .empty
    · obtain ⟨v, rfl, rfl, rfl⟩ := leaf
      simp [run, Tree.value]
    · have inner : ∀ v, l = .number v → a = .empty → b = .empty → False :=
        fun v h1 h2 h3 => leaf ⟨v, h1, h2, h3⟩
      rw [run, Tree.value] <;> try exact inner
      split
      · rfl
      · rw [iha]
        cases a.value with
        | error e => simp [bind, Except.bind]
        | ok left =>
          simp only [bind, Except.bind]
          rw [ihb]
          cases b.value with
          | error e => rfl
          | ok right =>
            simp only [run]

namespace Tree

/-- The tasks give the value that the recursion gives. -/
theorem evaluate_eq_value (t : Tree) : t.evaluate = t.value := by
  unfold evaluate
  rw [Task.run_visit]
  cases t.value <;> simp [Task.run]

theorem value_operator_eq (o : Operator) (a b : Tree) :
    (node (.operator o) a b).value =
      if a.isEmpty || b.isEmpty then .error (.missingOperand (.operator o))
      else a.value >>= fun left => b.value >>= fun right => (Label.operator o).apply left right := by
  rw [value]
  · rfl
  · simp

/-- The value of an operator node is that of the operator on the values of its operands, the left one
first. -/
theorem value_operator {o : Operator} {a b : Tree} {x y : Float} (ha : a.value = .ok x)
    (hb : b.value = .ok y) : (node (.operator o) a b).value = .ok (o.apply x y) := by
  cases a with
  | empty => simp [value] at ha
  | node =>
    cases b with
    | empty => simp [value] at hb
    | node =>
      rw [value, if_neg (by simp [isEmpty]), ha, hb]
      · exact Label.apply_operator o x y
      · simp

theorem Complete.exists_value {t : Tree} (h : t.Complete) : ∃ v, t.value = .ok v := by
  induction t with
  | empty => exact h.elim
  | node l a b iha ihb =>
    cases l with
    | number v =>
      obtain ⟨rfl, rfl⟩ := h
      exact ⟨v, by simp [value]⟩
    | operator o =>
      obtain ⟨x, hx⟩ := iha h.1
      obtain ⟨y, hy⟩ := ihb h.2
      exact ⟨o.apply x y, value_operator hx hy⟩

end Tree

end DeskCalc
