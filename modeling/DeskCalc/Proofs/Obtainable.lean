import DeskCalc.Expression
import DeskCalc.Tree.Gap

/-! Evaluation of every tree that checked nodes and insertion give.  Insertion copies nodes without
checking them, so that a number may get an operand and an operator may be left without one, but no
number ever gets a left operand.  Hence the only error is that a node lacks an operand, and in any
other case the tasks come to the value by recursion. -/

namespace DeskCalc

namespace Tree

/-- The trees that checked nodes and insertion give; `empty` is the operand or the tree that is not
there. -/
inductive Obtainable : Tree → Prop
  | empty : Obtainable .empty
  | made {kind : Kind} {value : Option Float} {left right : Tree} {n : Node}
      (hl : Obtainable left) (hr : Obtainable right) (made : Node.make kind value left right = .ok n) :
      Obtainable n.toTree
  | inserted {t : Tree} {n : Node} (ht : Obtainable t) (hn : Obtainable n.toTree) :
      Obtainable (t.insert n)

theorem LeftFree.of_make {kind : Kind} {value : Option Float} {left right : Tree} {n : Node}
    (hl : left.LeftFree) (hr : right.LeftFree) (made : Node.make kind value left right = .ok n) :
    n.toTree.LeftFree := by
  unfold Node.make at made
  split at made
  · cases made
  · split at made
    · next bare =>
      obtain rfl := Except.ok.inj made
      simp only [Bool.and_eq_true] at bare
      have bareLeft : left = empty := by
        cases left with
        | empty => rfl
        | node => exact absurd bare.1 (by simp [isEmpty])
      exact ⟨bareLeft, hr⟩
    · cases made
  · obtain rfl := Except.ok.inj made
    exact ⟨hl, hr⟩
  · cases made
  · cases made

theorem LeftFree.graft {t : Tree} {n : Node} (ht : t.LeftFree) (hn : n.toTree.LeftFree) :
    (t.graft n).LeftFree := by
  induction t with
  | empty => exact hn
  | node l a b _ ih =>
    rw [Tree.graft]
    split
    · next lower =>
      obtain ⟨label, left, right⟩ := n
      cases label with
      -- Only a node of lower rank gets a left operand, and a number has the highest.
      | number v =>
        have highest := l.rank_le_number v
        exact absurd lower (Nat.not_lt.2 highest)
      | operator o => exact ⟨ht, hn.right⟩
    · exact ht.withRight (ih ht.right)

theorem Obtainable.leftFree {t : Tree} (h : Obtainable t) : t.LeftFree := by
  induction h with
  | empty => trivial
  | made hl hr made ihl ihr => exact .of_make ihl ihr made
  | inserted ht hn iht ihn =>
    rw [insert_eq_graft]
    exact iht.graft ihn

/-! ### The value by recursion -/

/-- The value of a tree: a number by itself is its value, and an operator with both operands combines
their values, the left one first. -/
inductive Evaluates : Tree → Float → Prop
  | number (v : Float) : Evaluates (node (.number v) empty empty) v
  | operator {a b : Tree} {x y : Float} (o : Operator) (ha : Evaluates a x) (hb : Evaluates b y) :
      Evaluates (node (.operator o) a b) (o.apply x y)

theorem Evaluates.value {t : Tree} {v : Float} (h : t.Evaluates v) : t.value = .ok v := by
  induction h with
  | number v => simp [Tree.value]
  | operator o _ _ iha ihb => exact value_operator iha ihb

theorem Complete.exists_evaluates {t : Tree} (h : t.Complete) : ∃ v, t.Evaluates v := by
  induction t with
  | empty => exact h.elim
  | node l a b iha ihb =>
    cases l with
    | number v =>
      obtain ⟨rfl, rfl⟩ := h
      exact ⟨v, .number v⟩
    | operator o =>
      obtain ⟨x, hx⟩ := iha h.1
      obtain ⟨y, hy⟩ := ihb h.2
      exact ⟨o.apply x y, .operator o hx hy⟩

/-- Doing the tasks of a tree comes to its value by recursion, or ends with the error that names the
first node that lacks an operand. -/
theorem LeftFree.run_cases {t : Tree} (free : t.LeftFree) (nonempty : t ≠ empty) :
    (t.firstGap = none ∧ ∃ v, t.Evaluates v ∧ Task.run [.visit t] [] = .ok [v]) ∨
      ∃ n, t.firstGap = some n ∧
        Task.run [.visit t] [] = .error (.missingOperand n.label.kind) := by
  rw [Task.run_visit]
  cases gap : t.firstGap with
  | none =>
    obtain ⟨v, hv⟩ := (free.complete nonempty gap).exists_evaluates
    refine .inl ⟨rfl, v, hv, ?_⟩
    rw [hv.value]
    exact Task.run.eq_1 [v]
  | some n =>
    refine .inr ⟨n, rfl, ?_⟩
    rw [free.value_of_firstGap gap]

/-- Every tree that checked nodes and insertion give evaluates to its value by recursion, and leaves
just this value on the stack.  Evaluation fails exactly if a node lacks an operand, and always
reports the kind of the first such node. -/
theorem evaluate_reports_the_first_gap {t : Tree} (obtainable : t.Obtainable) (nonempty : t ≠ empty) :
    (∀ v, t.evaluate = .ok v ↔ t.Evaluates v) ∧
      (∀ v, t.evaluate = .ok v ↔ Task.run [.visit t] [] = .ok [v]) ∧
      (∀ values, Task.run [.visit t] [] = .ok values → values.length = 1) ∧
      ((∃ e, t.evaluate = .error e) ↔ ∃ n ∈ t.preorder, n.lacksOperand) ∧
      ∀ e, t.evaluate = .error e ↔
        ∃ n, t.preorder.find? Node.lacksOperand = some n ∧ e = .missingOperand n.label.kind ∧
          e.message = n.label.kind.name ++ " node is missing an operand".toList ∧
          (CalcError.eval e).isReported := by
  have exists_gap : (∃ n ∈ t.preorder, n.lacksOperand) ↔ t.firstGap.isSome := List.find?_isSome.symm
  rw [exists_gap, ← firstGap]
  rcases obtainable.leftFree.run_cases nonempty with ⟨gap, v, value, run⟩ | ⟨n, gap, run⟩
  · have done : t.evaluate = .ok v := by rw [evaluate_eq_value, value.value]
    have only (w : Float) : t.Evaluates w ↔ w = v := by
      constructor
      · intro h
        exact Except.ok.inj (h.value.symm.trans value.value)
      · rintro rfl
        exact value
    rw [done, run, gap]
    refine ⟨fun w => ?_, fun w => ?_, ?_, by simp, by simp⟩
    · rw [only, Except.ok.injEq, eq_comm]
    · simp
    · rintro values ⟨⟩
      rfl
  · have failed : t.evaluate = .error (.missingOperand n.label.kind) := by
      unfold evaluate
      rw [run]
    rw [failed, run, gap]
    refine ⟨fun w => ?_, fun w => by simp, ?_, by simp, fun e => ?_⟩
    · constructor
      · intro h
        cases h
      · intro h
        rw [evaluate_eq_value, h.value] at failed
        cases failed
    · intro values h
      cases h
    · constructor
      · rintro ⟨⟩
        exact ⟨n, rfl, rfl, rfl, rfl⟩
      · rintro ⟨m, found, rfl, -⟩
        obtain rfl := Option.some.inj found
        rfl

/-- A number that got a right operand is named before an operator that comes later and has no
operand. -/
theorem evaluate_reports_the_first_gap_number :
    let extended : Tree := (Node.single (.number 2)).toTree.insert (.single (.number 3))
    let t : Tree := .node (.operator .plus) extended (.node (.operator .times) .empty .empty)
    t.Obtainable ∧ t ≠ empty ∧ (¬ ∃ v, t.Evaluates v) ∧
      t.evaluate = .error (.missingOperand .number) := by
  intro extended t
  have two : (Node.single (.number 2)).toTree.Obtainable :=
    .made .empty .empty (show Node.make .number (some 2) .empty .empty = _ from rfl)
  have three : (Node.single (.number 3)).toTree.Obtainable :=
    .made .empty .empty (show Node.make .number (some 3) .empty .empty = _ from rfl)
  have times : (Node.single (.operator .times)).toTree.Obtainable :=
    .made .empty .empty (show Node.make (.operator .times) none .empty .empty = _ from rfl)
  have obtainable : t.Obtainable :=
    .made (.inserted two three) times
      (show Node.make (.operator .plus) none extended (Node.single (.operator .times)).toTree = _ from
        rfl)
  obtain ⟨values, -, -, -, errors⟩ := evaluate_reports_the_first_gap obtainable (by simp [t])
  have failed := (errors (.missingOperand .number)).2
    ⟨⟨.number 2, .empty, .node (.number 3) .empty .empty⟩, rfl, rfl, rfl, rfl⟩
  refine ⟨obtainable, by simp [t], ?_, failed⟩
  rintro ⟨v, hv⟩
  cases failed.symm.trans ((values v).2 hv)

end Tree

end DeskCalc
