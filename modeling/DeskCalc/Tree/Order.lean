import DeskCalc.Tree.Insert

/-! The order of ranks in a tree.  In a rank-ordered tree the root is the leftmost label of the lowest
rank, so that the labels from left to right determine the tree.  Taking in a node without operands and
pushing a label on an open spine both keep the order and put the label last, and so a tree may be put
together either way.  A rank-ordered tree is complete exactly when numbers and operators take turns. -/

namespace DeskCalc

namespace Tree

theorem rankOrdered_empty : empty.RankOrdered := trivial

theorem RankOrdered.le_of_mem {t : Tree} {n : Nat} {l : Label} (ordered : t.RankOrdered)
    (root : t.RankAtLeast n) (h : l ∈ t.inorder) : n ≤ l.rank := by
  induction t generalizing n with
  | empty => simp [inorder] at h
  | node m a b iha ihb =>
    obtain ⟨left, right, orderedLeft, orderedRight⟩ := ordered
    have root : n ≤ m.rank := root
    simp only [inorder, List.mem_append, List.mem_cons] at h
    rcases h with h | rfl | h
    · have := iha orderedLeft left h
      omega
    · exact root
    · have := ihb orderedRight right h
      omega

theorem RankOrdered.lt_of_mem_left {l m : Label} {a b : Tree} (h : (node l a b).RankOrdered)
    (hm : m ∈ a.inorder) : l.rank < m.rank := h.2.2.1.le_of_mem h.1 hm

theorem RankOrdered.le_of_mem_right {l m : Label} {a b : Tree} (h : (node l a b).RankOrdered)
    (hm : m ∈ b.inorder) : l.rank ≤ m.rank := h.2.2.2.le_of_mem h.2.1 hm

/-- The leftmost label of the lowest rank stands at one place. -/
theorem leftmost_lowest_unique {a b c d : List Label} {l m : Label} (h : a ++ l :: b = c ++ m :: d)
    (ha : ∀ x ∈ a, l.rank < x.rank) (hb : ∀ x ∈ b, l.rank ≤ x.rank)
    (hc : ∀ x ∈ c, m.rank < x.rank) (hd : ∀ x ∈ d, m.rank ≤ x.rank) : a = c ∧ l = m ∧ b = d := by
  -- Were one of the two places to the left of the other, each label would rank below the other.
  rcases List.append_eq_append_iff.1 h with ⟨u, rfl, hu⟩ | ⟨u, rfl, hu⟩
  · cases u with
    | nil => simpa using hu
    | cons x u =>
      obtain ⟨rfl, rfl⟩ := List.cons.inj hu
      have := hc l (by simp)
      have := hb m (by simp)
      omega
  · cases u with
    | nil => simpa [eq_comm] using hu
    | cons x u =>
      obtain ⟨rfl, rfl⟩ := List.cons.inj hu
      have := ha m (by simp)
      have := hd l (by simp)
      omega

/-- The labels from left to right determine a rank-ordered tree. -/
theorem RankOrdered.eq_of_inorder {t u : Tree} (ht : t.RankOrdered) (hu : u.RankOrdered)
    (h : t.inorder = u.inorder) : t = u := by
  induction t generalizing u with
  | empty =>
    cases u with
    | empty => rfl
    | node => simp [inorder] at h
  | node l a b iha ihb =>
    cases u with
    | empty => simp [inorder] at h
    | node m c d =>
      obtain ⟨hac, rfl, hbd⟩ := leftmost_lowest_unique h (fun _ => ht.lt_of_mem_left)
        (fun _ => ht.le_of_mem_right) (fun _ => hu.lt_of_mem_left) (fun _ => hu.le_of_mem_right)
      rw [iha ht.2.2.1 hu.2.2.1 hac, ihb ht.2.2.2 hu.2.2.2 hbd]

/-! ### Taking in a node -/

theorem inorder_graft (t : Tree) {n : Node} (h : n.left = empty) :
    (t.graft n).inorder = t.inorder ++ n.toTree.inorder := by
  induction t with
  | empty => rfl
  | node l a b _ ihb =>
    unfold graft
    split
    · simp [inorder, Node.toTree, h]
    · simp [inorder, ihb]

theorem rankAtLeast_graft {t : Tree} {n : Node} {rank : Nat} (h : t.RankAtLeast rank)
    (hn : rank ≤ n.label.rank) : (t.graft n).RankAtLeast rank := by
  cases t with
  | empty => exact hn
  | node l a b =>
    unfold graft
    split
    · exact hn
    · exact h

theorem RankOrdered.graft {t : Tree} (h : t.RankOrdered) (l : Label) :
    (t.graft (.single l)).RankOrdered := by
  induction t with
  | empty => exact ⟨trivial, trivial, trivial, trivial⟩
  | node m a b _ ihb =>
    unfold Tree.graft
    split
    · next lower => exact ⟨lower, trivial, h, trivial⟩
    · next higher =>
      obtain ⟨left, right, orderedLeft, orderedRight⟩ := h
      exact ⟨left, rankAtLeast_graft right (by omega), orderedLeft, ihb orderedRight⟩

/-- The tree after labels were taken in one by one, each as a node without operands. -/
def insertLabels (t : Tree) (labels : List Label) : Tree :=
  labels.foldl (fun t l => t.insert (.single l)) t

theorem RankOrdered.insertLabels {t : Tree} (h : t.RankOrdered) (labels : List Label) :
    (t.insertLabels labels).RankOrdered := by
  induction labels generalizing t with
  | nil => exact h
  | cons l labels ih =>
    have taken : (t.insert (.single l)).RankOrdered := by
      rw [insert_eq_graft]
      exact h.graft l
    exact ih taken

theorem inorder_insertLabels (t : Tree) (labels : List Label) :
    (t.insertLabels labels).inorder = t.inorder ++ labels := by
  induction labels generalizing t with
  | nil => simp [insertLabels]
  | cons l labels ih =>
    have taken : (t.insert (.single l)).inorder = t.inorder ++ [l] := by
      rw [insert_eq_graft, inorder_graft t rfl]
      rfl
    exact (ih _).trans (by simp [taken])

end Tree

/-! ### Open spines -/

namespace Spine

/-- Ranks do not decrease down the spine, and every left operand ranks higher than its node. -/
structure Ordered (s : Spine) : Prop where
  ranks : s.Pairwise fun below above => above.label.rank ≤ below.label.rank
  left : ∀ f ∈ s, f.left.RankAtLeast (f.label.rank + 1) ∧ f.left.RankOrdered

theorem Ordered.nil : Ordered [] := ⟨.nil, by simp⟩

theorem Ordered.of_sublist {s u : Spine} (h : u.Ordered) (hs : s.Sublist u) : s.Ordered :=
  ⟨h.ranks.sublist hs, fun f hf => h.left f (hs.subset hf)⟩

theorem rankAtLeast_close {s : Spine} {t : Tree} {rank : Nat} (hs : ∀ f ∈ s, rank ≤ f.label.rank)
    (ht : t.RankAtLeast rank) : (s.close t).RankAtLeast rank := by
  induction s generalizing t with
  | nil => exact ht
  | cons f s ih => exact ih (fun g hg => hs g (by simp [hg])) (hs f (by simp))

/-- Closing an ordered spine with a tree that ranks as high as its lowest node gives a rank-ordered
tree. -/
theorem Ordered.close {s : Spine} {t : Tree} (hs : s.Ordered) (ht : t.RankOrdered)
    (root : ∀ f ∈ s, t.RankAtLeast f.label.rank) : (s.close t).RankOrdered := by
  induction s generalizing t with
  | nil => exact ht
  | cons f s ih =>
    obtain ⟨higher, left⟩ := hs.left f (by simp)
    apply ih (hs.of_sublist (List.sublist_cons_self f s))
    · exact ⟨higher, root f (by simp), left, ht⟩
    · exact fun g hg => List.rel_of_pairwise_cons hs.ranks hg

/-- What is left of an ordered spine does not rank higher than the rank it was cleared down to. -/
theorem Ordered.le_of_mem_dropWhile {s : Spine} (h : s.Ordered) {rank : Nat} {f : Frame}
    (hf : f ∈ s.dropWhile fun f => rank < f.label.rank) : f.label.rank ≤ rank := by
  induction s with
  | nil => simp at hf
  | cons g s ih =>
    rw [List.dropWhile_cons] at hf
    split at hf
    · exact ih (h.of_sublist (List.sublist_cons_self g s)) hf
    · next hg =>
      have hg : g.label.rank ≤ rank := by simpa using hg
      rcases List.mem_cons.1 hf with rfl | hf
      · exact hg
      · exact Nat.le_trans (List.rel_of_pairwise_cons h.ranks hf) hg

theorem lt_of_mem_takeWhile {s : Spine} {rank : Nat} {f : Frame}
    (hf : f ∈ s.takeWhile fun f => rank < f.label.rank) : rank < f.label.rank := by
  simpa using List.all_eq_true.1 (List.all_takeWhile (l := s)) f hf

theorem Ordered.push {s : Spine} (h : s.Ordered) (l : Label) : (s.push l).Ordered := by
  have rest := h.of_sublist (List.dropWhile_sublist fun f => l.rank < f.label.rank)
  have taken := h.of_sublist (List.takeWhile_sublist fun f => l.rank < f.label.rank)
  refine ⟨List.pairwise_cons.2 ⟨fun f hf => h.le_of_mem_dropWhile hf, rest.ranks⟩, ?_⟩
  intro f hf
  rcases List.mem_cons.1 hf with rfl | hf
  · exact ⟨rankAtLeast_close (fun g hg => lt_of_mem_takeWhile hg) trivial,
      taken.close Tree.rankOrdered_empty fun _ _ => trivial⟩
  · exact rest.left f hf

theorem inorder_push (s : Spine) (l : Label) :
    ((s.push l).close .empty).inorder = (s.close .empty).inorder ++ [l] := by
  unfold push
  rw [close_cons, inorder_close]
  simp only [Tree.inorder]
  rw [← List.append_assoc, ← inorder_close, ← close_append, List.takeWhile_append_dropWhile]

theorem Ordered.foldl_push {s : Spine} (h : s.Ordered) (labels : List Label) :
    (labels.foldl Spine.push s).Ordered := by
  induction labels generalizing s with
  | nil => exact h
  | cons l labels ih => exact ih (h.push l)

theorem inorder_foldl_push (s : Spine) (labels : List Label) :
    ((labels.foldl push s).close .empty).inorder = (s.close .empty).inorder ++ labels := by
  induction labels generalizing s with
  | nil => simp
  | cons l labels ih => exact (ih _).trans (by simp [inorder_push])

end Spine

namespace Tree

theorem rankOrdered_ofLabels (labels : List Label) : (ofLabels labels).RankOrdered :=
  (Spine.Ordered.nil.foldl_push labels).close rankOrdered_empty fun _ _ => trivial

@[simp] theorem inorder_ofLabels (labels : List Label) : (ofLabels labels).inorder = labels := by
  simp [ofLabels, Spine.inorder_foldl_push, inorder]

/-- Taking labels in one by one gives the tree that one pass gives. -/
theorem insertLabels_empty (labels : List Label) : empty.insertLabels labels = ofLabels labels := by
  have ordered : (empty.insertLabels labels).RankOrdered := rankOrdered_empty.insertLabels labels
  exact ordered.eq_of_inorder (rankOrdered_ofLabels labels) (by simp [inorder_insertLabels, inorder])

/-! ### Complete trees -/

end Tree

/-- Numbers and operators in turn, a number first and last. -/
def Label.Alternating : List Label → Prop
  | [.number _] => True
  | .number _ :: .operator _ :: rest => Alternating rest
  | _ => False

/-- An operator cuts an alternating list into two of them. -/
theorem Label.alternating_append {before after : List Label} {o : Operator} :
    Alternating (before ++ .operator o :: after) ↔ Alternating before ∧ Alternating after := by
  fun_induction Alternating before with
  | case1 v => simp [Alternating]
  | case2 v p rest ih => simpa [Alternating] using ih
  | case3 before h1 h2 =>
    simp only [false_and, iff_false]
    match before, h1, h2 with
    | [], _, _ => simp [Alternating]
    | .operator _ :: _, _, _ => simp [Alternating]
    | .number _ :: .number _ :: _, _, _ => simp [Alternating]
    | [.number v], h1, _ => exact absurd rfl (h1 v)
    | .number v :: .operator p :: rest, _, h2 => exact absurd rfl (h2 v p rest)

namespace Tree

theorem Complete.alternating {t : Tree} (h : t.Complete) : Label.Alternating t.inorder := by
  induction t with
  | empty => exact h.elim
  | node l a b iha ihb =>
    cases l with
    | number v =>
      obtain ⟨rfl, rfl⟩ := h
      trivial
    | operator o => exact Label.alternating_append.2 ⟨iha h.1, ihb h.2⟩

theorem RankAtLeast.eq_empty {t : Tree} {v : Float}
    (h : t.RankAtLeast ((Label.number v).rank + 1)) : t = empty := by
  cases t with
  | empty => rfl
  | node l a b => exact absurd h (Nat.not_le.2 (Nat.lt_succ_of_le (l.rank_le_number v)))

/-- A rank-ordered tree is complete exactly when its labels alternate. -/
theorem RankOrdered.complete_iff {t : Tree} (h : t.RankOrdered) :
    t.Complete ↔ Label.Alternating t.inorder := by
  refine ⟨Complete.alternating, fun alternating => ?_⟩
  induction t with
  | empty => exact alternating
  | node l a b iha ihb =>
    obtain ⟨left, right, orderedLeft, orderedRight⟩ := h
    cases l with
    | operator o =>
      obtain ⟨hl, hr⟩ := Label.alternating_append.1 alternating
      exact ⟨iha orderedLeft hl, ihb orderedRight hr⟩
    | number v =>
      have ha : a = empty := RankAtLeast.eq_empty left
      subst ha
      refine ⟨rfl, ?_⟩
      cases b with
      | empty => rfl
      | node m c d =>
        cases m with
        | number w =>
          have hc : c = empty := RankAtLeast.eq_empty orderedRight.1
          subst hc
          exact alternating.elim
        | operator o => exact absurd right (Nat.not_le.2 (Kind.rank_operator_lt o))

end Tree

end DeskCalc
