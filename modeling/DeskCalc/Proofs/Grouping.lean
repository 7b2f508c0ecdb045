import DeskCalc.Expression.Building
import Mathlib.Control.Monad.Basic
import Mathlib.Data.List.Forall2

/-! How the operators of an expression group its operands.  Labels are cut at the leftmost operator of
the lowest rank, and both sides are cut again the same way.  The tree that is built from an expression
is the only one that groups its labels so, the only complete and rank-ordered one with these labels
from left to right, and its value is the one that the cuts give. -/

namespace DeskCalc

/-- `o` is the leftmost operator of the lowest rank in `before ++ o :: after`. -/
structure LoosestCut (before : List Label) (o : Operator) (after : List Label) : Prop where
  before : ∀ p, .operator p ∈ before → o.rank < p.rank
  after : ∀ p, .operator p ∈ after → o.rank ≤ p.rank

/-- The tree that groups labels by cutting them at the leftmost operator of the lowest rank. -/
inductive Grouped : List Label → Tree → Prop
  | number (v : Float) : Grouped [.number v] (.node (.number v) .empty .empty)
  | cut {before after : List Label} {o : Operator} {a b : Tree} (loosest : LoosestCut before o after)
      (left : Grouped before a) (right : Grouped after b) :
      Grouped (before ++ .operator o :: after) (.node (.operator o) a b)

/-- The value of labels that are cut at the leftmost operator of the lowest rank. -/
inductive GroupedValue : List Label → Float → Prop
  | number (v : Float) : GroupedValue [.number v] v
  | cut {before after : List Label} {o : Operator} {x y : Float} (loosest : LoosestCut before o after)
      (left : GroupedValue before x) (right : GroupedValue after y) :
      GroupedValue (before ++ .operator o :: after) (o.apply x y)

namespace Tree

theorem rankAtLeast_of_forall_mem {t : Tree} {n : Nat} (h : ∀ l ∈ t.inorder, n ≤ l.rank) :
    t.RankAtLeast n := by
  cases t with
  | empty => trivial
  | node l a b => exact h l (by simp [inorder])

theorem RankOrdered.loosestCut {o : Operator} {a b : Tree}
    (h : (node (.operator o) a b).RankOrdered) : LoosestCut a.inorder o b.inorder :=
  ⟨fun _ => h.lt_of_mem_left, fun _ => h.le_of_mem_right⟩

theorem Complete.grouped {t : Tree} (complete : t.Complete) (ordered : t.RankOrdered) :
    Grouped t.inorder t := by
  induction t with
  | empty => exact complete.elim
  | node l a b iha ihb =>
    cases l with
    | number v =>
      obtain ⟨rfl, rfl⟩ := complete
      exact .number v
    | operator o =>
      exact .cut ordered.loosestCut (iha complete.1 ordered.2.2.1) (ihb complete.2 ordered.2.2.2)

end Tree

theorem LoosestCut.lt_of_mem {before after : List Label} {o : Operator} {l : Label}
    (h : LoosestCut before o after) (hl : l ∈ before) : o.rank < l.rank := by
  cases l with
  | number v => exact Kind.rank_operator_lt o
  | operator p => exact h.before p hl

theorem LoosestCut.le_of_mem {before after : List Label} {o : Operator} {l : Label}
    (h : LoosestCut before o after) (hl : l ∈ after) : o.rank ≤ l.rank := by
  cases l with
  | number v => exact Nat.le_of_lt (Kind.rank_operator_lt o)
  | operator p => exact h.after p hl

theorem Grouped.inorder {ls : List Label} {t : Tree} (h : Grouped ls t) : t.inorder = ls := by
  induction h with
  | number v => rfl
  | cut loosest left right ihl ihr => simp [Tree.inorder, ihl, ihr]

theorem Grouped.complete {ls : List Label} {t : Tree} (h : Grouped ls t) : t.Complete := by
  induction h with
  | number v => exact ⟨rfl, rfl⟩
  | cut loosest left right ihl ihr => exact ⟨ihl, ihr⟩

theorem Grouped.rankOrdered {ls : List Label} {t : Tree} (h : Grouped ls t) : t.RankOrdered := by
  induction h with
  | number v => exact ⟨trivial, trivial, trivial, trivial⟩
  | cut loosest left right ihl ihr =>
    refine ⟨Tree.rankAtLeast_of_forall_mem fun l hl => ?_,
      Tree.rankAtLeast_of_forall_mem fun l hl => ?_, ihl, ihr⟩
    · rw [left.inorder] at hl
      exact loosest.lt_of_mem hl
    · rw [right.inorder] at hl
      exact loosest.le_of_mem hl

/-- Grouping labels is being complete and rank-ordered with these labels from left to right. -/
theorem grouped_iff {ls : List Label} {t : Tree} :
    Grouped ls t ↔ t.inorder = ls ∧ t.Complete ∧ t.RankOrdered := by
  constructor
  · exact fun h => ⟨h.inorder, h.complete, h.rankOrdered⟩
  · rintro ⟨rfl, complete, ordered⟩
    exact complete.grouped ordered

theorem Grouped.groupedValue {ls : List Label} {t : Tree} (h : Grouped ls t) {v : Float}
    (hv : t.value = .ok v) : GroupedValue ls v := by
  induction h generalizing v with
  | number w =>
    rw [Tree.value] at hv
    obtain rfl := Except.ok.inj hv
    exact .number w
  | @cut before after o a b loosest left right ihl ihr =>
    obtain ⟨x, hx⟩ := left.complete.exists_value
    obtain ⟨y, hy⟩ := right.complete.exists_value
    rw [Tree.value_operator hx hy] at hv
    obtain rfl := Except.ok.inj hv
    exact .cut loosest (ihl hx) (ihr hy)

theorem GroupedValue.exists_grouped {ls : List Label} {v : Float} (h : GroupedValue ls v) :
    ∃ t, Grouped ls t ∧ t.value = .ok v := by
  induction h with
  | number v => exact ⟨_, .number v, by simp [Tree.value]⟩
  | cut loosest left right ihl ihr =>
    obtain ⟨a, groupedLeft, hx⟩ := ihl
    obtain ⟨b, groupedRight, hy⟩ := ihr
    exact ⟨_, .cut loosest groupedLeft groupedRight, Tree.value_operator hx hy⟩

namespace Expression

theorem forall₂_labels {tokens : List Token} {ls : List Label} (h : labels tokens = .ok ls) :
    List.Forall₂ (fun token l => label token = .ok l) tokens ls := by
  induction tokens generalizing ls with
  | nil =>
    obtain rfl := Except.ok.inj h
    exact .nil
  | cons token rest ih =>
    obtain ⟨l, others, hl, read, rfl⟩ := labels_cons_eq_ok_iff.1 h
    exact .cons hl (ih read)

/-- The tree of an expression is the only complete and rank-ordered one that has the labels of the
tokens from left to right, and the only one that groups them; the expression has the value of its
cuts. -/
theorem build_groups_uniquely {e : Text} {t : Tree} (built : build e = .ok t) :
    ∃ tokens ls, tokenize (stripPending e) = .ok tokens ∧
      List.Forall₂ (fun token l => label token = .ok l) tokens ls ∧
      (∀ u : Tree, u.inorder = ls ∧ u.Complete ∧ u.RankOrdered ↔ u = t) ∧
      (∀ u, Grouped ls u ↔ u = t) ∧
      ∃ v, calculate e = .ok v ∧ ∀ w, GroupedValue ls w ↔ w = v := by
  obtain ⟨-, tokens, ls, scanned, read, rfl⟩ := build_eq_ok_iff.1 built
  have grouped : Grouped ls (Tree.ofLabels ls) :=
    grouped_iff.2 ⟨Tree.inorder_ofLabels ls, complete_of_build built, Tree.rankOrdered_ofLabels ls⟩
  have unique : ∀ u, Grouped ls u ↔ u = Tree.ofLabels ls := by
    refine fun u => ⟨fun hu => ?_, fun hu => hu ▸ grouped⟩
    exact hu.rankOrdered.eq_of_inorder grouped.rankOrdered (hu.inorder.trans grouped.inorder.symm)
  obtain ⟨v, hv⟩ := exists_evaluate_of_build built
  refine ⟨tokens, ls, scanned, forall₂_labels read, fun u => grouped_iff.symm.trans (unique u),
    unique, v, by simp [calculate, built, hv], fun w => ⟨fun hw => ?_, ?_⟩⟩
  · obtain ⟨u, hu, value⟩ := hw.exists_grouped
    rw [(unique u).1 hu, ← Tree.evaluate_eq_value, hv] at value
    exact (Except.ok.inj value).symm
  · rintro rfl
    exact grouped.groupedValue (Tree.evaluate_eq_value _ ▸ hv)

/-- `2x3-4-5+6` is `(2x3)-(4-(5+6))`. -/
theorem build_groups_uniquely_nested :
    let e := "2x3-4-5+6".toList
    let leaf (n : Nat) : Tree := .node (.number (Binary64.nearest false n 1)) .empty .empty
    let t : Tree := .node (.operator .minus) (.node (.operator .times) (leaf 2) (leaf 3))
      (.node (.operator .minus) (leaf 4) (.node (.operator .plus) (leaf 5) (leaf 6)))
    build e = .ok t ∧ ∃ tokens ls, tokenize (stripPending e) = .ok tokens ∧
      List.Forall₂ (fun token l => label token = .ok l) tokens ls ∧
      (∀ u : Tree, u.inorder = ls ∧ u.Complete ∧ u.RankOrdered ↔ u = t) ∧
      (∀ u, Grouped ls u ↔ u = t) ∧
      ∃ v, calculate e = .ok v ∧ ∀ w, GroupedValue ls w ↔ w = v := by
  intro e leaf t
  have built : build e = .ok t := by decide +kernel
  exact ⟨built, build_groups_uniquely built⟩

end Expression

end DeskCalc
