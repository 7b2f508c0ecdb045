import DeskCalc.Expression.Building
import DeskCalc.Proofs.Ways
import Mathlib.Data.List.Chain

/-! The arena while the tokens of an expression are placed in it, one after another.  After each
token the spine is the right side of a single tree that all slots belong to: its numbers rise from
the root to the slot of the last token, its ranks never fall, and every slot but the root is named
once.  Making nodes of such an arena comes to an end.  Each slot is made once, after the operands
that it names and of exactly these, and as no two numbers stand next to each other every node passes
its check. -/

namespace DeskCalc

/-! ### Labels of which no two neighbours are numbers -/

namespace Label

/-- Labels that may stand next to each other. -/
def Apart (l m : Label) : Prop := l.kind = .number → m.kind ≠ .number

theorem operator_apart (o : Operator) (m : Label) : Apart (.operator o) m := by
  intro number
  cases number

theorem apart_operator (l : Label) (o : Operator) : Apart l (.operator o) := by
  intro _ number
  cases number

theorem Alternating.isChain_apart {ls : List Label} (h : Alternating ls) : ls.IsChain Apart := by
  fun_induction Alternating ls with
  | case1 v => exact .singleton _
  | case2 v o rest ih =>
    have next : (operator o :: rest).IsChain Apart :=
      List.isChain_cons.2 ⟨fun m _ => operator_apart o m, ih h⟩
    exact List.isChain_cons_cons.2 ⟨apart_operator _ o, next⟩
  | case3 => exact h.elim

end Label

/-- In a rank-ordered tree only a number can be below a number, and it would stand next to it. -/
theorem Tree.RankOrdered.valid {t : Tree} (ordered : t.RankOrdered)
    (apart : t.inorder.IsChain Label.Apart) : t.Valid := by
  induction t with
  | empty => trivial
  | node l a b iha ihb =>
    obtain ⟨left, right, orderedLeft, orderedRight⟩ := ordered
    cases l with
    | operator o =>
      exact ⟨iha orderedLeft apart.left_of_append, ihb orderedRight apart.right_of_append.tail⟩
    | number v =>
      obtain rfl := RankAtLeast.eq_empty left
      refine ⟨rfl, ?_⟩
      cases b with
      | empty => rfl
      | node m c d =>
        cases m with
        | operator o => exact absurd right (Nat.not_le.2 (Kind.rank_operator_lt o))
        | number w =>
          obtain rfl := RankAtLeast.eq_empty orderedRight.1
          exact absurd rfl ((List.isChain_cons_cons.1 apart).1 rfl)

namespace Arena

/-! ### The spine -/

def kindOf (slots : Array Slot) (number : Nat) : Option Kind := slots[number]?.map (·.kind)

theorem kindOf_of_slot {slots : Array Slot} {number : Nat} {l : Label} {left right : Option Nat}
    (slot : slots[number]? = some (.ofLabel l left right)) : kindOf slots number = some l.kind := by
  rw [kindOf, slot]
  rfl

namespace Chain

variable {slots : Array Slot} {numbers : List Nat} {s : Spine} {next : Option Nat} {stop : Nat}

theorem head?_eq (h : Chain slots numbers s next stop) (nonempty : numbers ≠ []) :
    numbers.head? = some (stop - 1) := by
  cases h with
  | nil => exact absurd rfl nonempty
  | cons => rfl

theorem lt_stop (h : Chain slots numbers s next stop) : ∀ number ∈ numbers, number < stop := by
  induction h with
  | nil => simp
  | cons slot leftHeld above ih =>
    have := leftHeld.stop_eq
    refine List.forall_mem_cons.2 ⟨Nat.lt_succ_self _, fun number hn => ?_⟩
    have := ih number hn
    omega

theorem increasing (h : Chain slots numbers s next stop) :
    numbers.Pairwise fun upper lower => lower < upper := by
  induction h with
  | nil => exact .nil
  | cons slot leftHeld above ih =>
    have := leftHeld.stop_eq
    refine List.pairwise_cons.2 ⟨fun number hn => ?_, ih⟩
    have := above.lt_stop number hn
    omega

theorem exists_frame (h : Chain slots numbers s next stop) :
    ∀ number ∈ numbers, ∃ f ∈ s, kindOf slots number = some f.label.kind := by
  induction h with
  | nil => simp
  | @cons f _ _ _ _ _ _ slot leftHeld above ih =>
    refine List.forall_mem_cons.2 ⟨⟨f, List.mem_cons_self, kindOf_of_slot slot⟩, fun number hn => ?_⟩
    obtain ⟨g, hg, kind⟩ := ih number hn
    exact ⟨g, List.mem_cons_of_mem f hg, kind⟩

/-- The slots of an ordered spine have its ranks. -/
theorem kinds (h : Chain slots numbers s next stop) (ordered : s.Ordered) :
    numbers.Pairwise fun upper lower => ∃ k k', kindOf slots upper = some k ∧
      kindOf slots lower = some k' ∧ k'.rank ≤ k.rank := by
  induction h with
  | nil => exact .nil
  | @cons f _ s _ _ _ _ slot leftHeld above ih =>
    refine List.pairwise_cons.2 ⟨fun number hn => ?_, ih (ordered.of_sublist (List.sublist_cons_self f s))⟩
    obtain ⟨g, hg, kind⟩ := above.exists_frame number hn
    exact ⟨f.label.kind, g.label.kind, kindOf_of_slot slot, kind,
      List.rel_of_pairwise_cons ordered.ranks hg⟩

/-- Going right from the root one meets the numbers of the chain from the root on, and then what hangs
below the chain. -/
theorem follow_right (h : Chain slots numbers s next stop) (steps : Nat) :
    follow slots (numbers.getLast?.or next) (List.replicate steps .right)
      = numbers.reverse[steps]?.or
          (follow slots next (List.replicate (steps - numbers.length) .right)) := by
  induction h with
  | nil => simp
  | @cons f numbers s left next first number slot leftHeld above ih =>
    rw [getLast?_cons_or, ih, List.reverse_cons, List.length_cons]
    by_cases inside : steps < numbers.length
    · rw [List.getElem?_append_left (by simpa using inside)]
      simp [inside]
    · obtain ⟨more, rfl⟩ := Nat.exists_eq_add_of_le (Nat.le_of_not_lt inside)
      cases more with
      | zero => simp
      | succ more =>
        have below : follow slots (some number) (List.replicate (more + 1) .right)
            = follow slots next (List.replicate more .right) := follow_cons slot .right _
        rw [show numbers.length + (more + 1) - numbers.length = more + 1 by omega, below,
          show numbers.length + (more + 1) - (numbers.length + 1) = more by omega]
        simp

end Chain

/-- How the slots of an arena hang together.  From `root` at its bottom to the slot that was placed
last at its top, the numbers of the spine rise and its ranks never fall, and the spine is all that
one meets going right from `root`.  Every slot but `root` is named by one slot, on one side, and
`root` by none. -/
structure Threaded (a : Arena) (root : Nat) : Prop where
  bottom : a.spine.getLast? = some root
  top : a.spine.head? = some (a.slots.size - 1)
  increasing : a.spine.Pairwise fun upper lower => lower < upper
  kinds : a.spine.Pairwise fun upper lower => ∃ k k', kindOf a.slots upper = some k ∧
    kindOf a.slots lower = some k' ∧ k'.rank ≤ k.rank
  rightward : ∀ steps,
    follow a.slots (some root) (List.replicate steps .right) = a.spine.reverse[steps]?
  namedOnce : ∀ number < a.slots.size, number ≠ root →
    ∃! place : Nat × Side, target a.slots place.1 place.2 = some number
  unnamed : ∀ number side, target a.slots number side ≠ some root

theorem Carries.threaded {a : Arena} {s : Spine} (h : a.Carries s) (ordered : s.Ordered)
    {root : Nat} (bottom : a.spine.getLast? = some root) (tree : OneTree a.slots root) :
    a.Threaded root where
  bottom := bottom
  top := by
    refine Chain.head?_eq h fun empty => ?_
    rw [empty] at bottom
    cases bottom
  increasing := Chain.increasing h
  kinds := Chain.kinds h ordered
  rightward steps := by
    have right := Chain.follow_right h steps
    rwa [bottom, Option.some_or, follow_none, Option.or_none] at right
  namedOnce _ inside notRoot := tree.existsUnique_target inside notRoot
  unnamed := tree.target_ne_root

/-! ### The slots -/

/-- The slots that hold a tree have its labels from left to right. -/
theorem Holds.exists_slot {slots : Array Slot} {link : Option Nat} {t : Tree} {first stop : Nat}
    (h : Holds slots link t first stop) {number : Nat} {l : Label} (found : t.inorder[number]? = some l) :
    ∃ left right, slots[first + number]? = some (.ofLabel l left right) := by
  induction h generalizing number with
  | empty => simp [Tree.inorder] at found
  | @node m a b left right first root stop slot leftHeld rightHeld ihl ihr =>
    have root_eq := leftHeld.stop_eq
    have length := a.length_inorder
    rw [Tree.inorder] at found
    rcases Nat.lt_trichotomy number a.size with before | rfl | after
    · rw [List.getElem?_append_left (by omega)] at found
      exact ihl found
    · rw [List.getElem?_append_right (by omega), length, Nat.sub_self] at found
      obtain rfl : m = l := Option.some.inj found
      exact ⟨left, right, root_eq ▸ slot⟩
    · obtain ⟨more, rfl⟩ := Nat.exists_eq_add_of_lt after
      rw [List.getElem?_append_right (by omega), length,
        show a.size + more + 1 - a.size = more + 1 by omega, List.getElem?_cons_succ] at found
      obtain ⟨left', right', below⟩ := ihr found
      refine ⟨left', right', ?_⟩
      rw [show first + (a.size + more + 1) = root + 1 + more by omega]
      exact below

/-! ### The order of making -/

/-- Nodes made of slots, the last one first.  Each passed its check when the operands that the links of
its slot name were made, and was made of exactly these. -/
inductive MadeUp (slots : Array Slot) : Made → Prop
  | nil : MadeUp slots []
  | cons {made : Made} {number : Nat} {slot : Slot} {n : Node} (earlier : MadeUp slots made)
      (found : slots[number]? = some slot) (left : Names made slot.left n.left)
      (right : Names made slot.right n.right)
      (checked : Node.make slot.kind slot.value n.left n.right = .ok n) :
      MadeUp slots ((number, n.toTree) :: made)

theorem Holds.madeUp {slots : Array Slot} {link : Option Nat} {t : Tree} {first stop : Nat}
    (h : Holds slots link t first stop) (valid : t.Valid) {made : Made} (earlier : MadeUp slots made) :
    MadeUp slots (t.entries first ++ made) := by
  induction h generalizing made with
  | empty => exact earlier
  | @node l a b left right first number stop slot leftHeld rightHeld ihl ihr =>
    obtain ⟨leftNamed, rightNamed⟩ := leftHeld.names_operands rightHeld made
    have operands := ihl valid.left (ihr valid.right earlier)
    have node : MadeUp slots ((number, .node l a b) :: _) :=
      .cons (n := ⟨l, a, b⟩) operands slot leftNamed rightNamed valid.make
    have number_eq := leftHeld.stop_eq
    simpa [Tree.entries, ← number_eq] using node

end Arena

/-- The entries of a tree have the numbers of its slots, each once. -/
theorem Tree.numbers_entries (t : Tree) (first : Nat) :
    ((t.entries first).map Prod.fst).Perm (List.range' first t.size) := by
  induction t generalizing first with
  | empty => exact .nil
  | node l a b iha ihb =>
    have slots : List.range' first (a.size + b.size + 1)
        = List.range' first a.size ++ (first + a.size) :: List.range' (first + a.size + 1) b.size := by
      rw [← List.range'_succ, List.range'_append_1, Nat.add_assoc]
    rw [entries, List.map_cons, List.map_append, size, slots]
    exact (((iha first).append (ihb (first + a.size + 1))).cons _).trans List.perm_middle.symm

namespace Arena

/-- Making nodes of an arena comes to an end with `made`, in which each slot occurs once and every
operand before the node that names it, and the tree of the root is `t`. -/
structure Frozen (a : Arena) (root : Nat) (made : Made) (t : Tree) : Prop where
  ends : ∀ steps, make a.slots (2 * a.slots.size + steps) [(root, false)] [] = .ok made
  once : (made.map Prod.fst).Perm (List.range a.slots.size)
  order : MadeUp a.slots made
  root : made.lookup root = some t
  freeze : a.freeze = .ok t

theorem Carries.frozen {a : Arena} {s : Spine} (h : a.Carries s) (valid : (s.close .empty).Valid)
    (nonempty : s ≠ []) {root : Nat} (held : Holds a.slots (some root) (s.close .empty) 0 a.slots.size) :
    a.Frozen root ((s.close .empty).entries 0) (s.close .empty) where
  ends := held.make_all valid
  once := by
    have size := held.stop_eq
    rw [Nat.zero_add] at size
    rw [size, List.range_eq_range']
    exact Tree.numbers_entries _ 0
  order := by
    have made := held.madeUp valid .nil
    rwa [List.append_nil] at made
  root := by
    have found := held.lookup []
    rwa [List.append_nil] at found
  freeze := h.freeze nonempty valid

end Arena

/-! ### Placing tokens one after another -/

namespace Expression

namespace Labelled

variable {number : Nat} {tokens : List Token} {ls : List Label}

theorem length_eq (h : Labelled number tokens ls) : ls.length = tokens.length := by
  induction h with
  | nil => rfl
  | cons node others ih => rw [List.length_cons, List.length_cons, ih]

theorem exists_label (h : Labelled number tokens ls) {place : Nat} {token : Token}
    (found : tokens[place]? = some token) :
    ∃ l, ls[place]? = some l ∧ nodeOf (number + place) token = .ok (l.kind, l.value?) := by
  induction h generalizing place with
  | nil => simp at found
  | @cons number _ l _ _ node others ih =>
    cases place with
    | zero =>
      obtain rfl := Option.some.inj found
      exact ⟨l, rfl, node⟩
    | succ place =>
      obtain ⟨m, hm, node'⟩ := ih found
      exact ⟨m, hm, by rwa [show number + (place + 1) = number + 1 + place by omega]⟩

/-- The first tokens have the first labels. -/
theorem exists_of_append {before after : List Token} (h : Labelled number (before ++ after) ls) :
    ∃ us vs, ls = us ++ vs ∧ Labelled number before us := by
  induction before generalizing number ls with
  | nil => exact ⟨[], ls, rfl, .nil _⟩
  | cons token before ih =>
    cases h with
    | cons node others =>
      obtain ⟨us, vs, rfl, first⟩ := ih others
      exact ⟨_ :: us, vs, rfl, .cons node first⟩

end Labelled

/-- Placing some tokens and then others is placing all of them. -/
theorem placeTokens_append {number : Nat} {a a' : Arena} {before : List Token}
    (placed : placeTokens number a before = .ok a') (after : List Token) :
    placeTokens number a (before ++ after) = placeTokens (number + before.length) a' after := by
  induction before generalizing number a with
  | nil =>
    obtain rfl := Except.ok.inj placed
    rfl
  | cons token before ih =>
    rw [placeTokens] at placed
    rw [List.cons_append, placeTokens]
    cases node : nodeOf number token with
    | error e =>
      rw [node] at placed
      cases placed
    | ok kindValue =>
      obtain ⟨kind, value⟩ := kindValue
      rw [node] at placed
      simp only at placed ⊢
      cases first : a.place kind value with
      | error fault =>
        rw [first] at placed
        cases placed
      | ok a₁ =>
        rw [first] at placed
        rw [List.length_cons, show number + (before.length + 1) = number + 1 + before.length by omega]
        exact ih placed

/-- The slots of an arena are those of some tokens, in the same order. -/
structure Filled (tokens : List Token) (a : Arena) : Prop where
  size : a.slots.size = tokens.length
  slot : ∀ number token, tokens[number]? = some token → ∃ slot, a.slots[number]? = some slot ∧
    nodeOf number token = .ok (slot.kind, slot.value)

theorem Labelled.filled {tokens : List Token} {ls : List Label} (h : Labelled 0 tokens ls) {a : Arena}
    {root : Nat} (held : Arena.Holds a.slots (some root) (Tree.ofLabels ls) 0 a.slots.size) :
    Filled tokens a where
  size := by
    rw [held.stop_eq, ← Tree.length_inorder, Tree.inorder_ofLabels, Nat.zero_add, h.length_eq]
  slot number token found := by
    obtain ⟨l, hl, node⟩ := h.exists_label found
    obtain ⟨left, right, slot⟩ := held.exists_slot ((Tree.inorder_ofLabels ls).symm ▸ hl)
    rw [Nat.zero_add] at slot node
    exact ⟨_, slot, node⟩

/-- Placing tokens of which no two neighbours are numbers gives an arena that is a single tree and
can be frozen. -/
theorem Labelled.exists_arena {tokens : List Token} {ls : List Label} (h : Labelled 0 tokens ls)
    (nonempty : tokens ≠ []) (apart : ls.IsChain Label.Apart) :
    ∃ a root, placeTokens 0 .empty tokens = .ok a ∧ Filled tokens a ∧ a.Threaded root ∧
      Arena.OneTree a.slots root ∧ ∃ made t, a.Frozen root made t := by
  obtain ⟨a, placed, carries⟩ := h.place Arena.carries_empty
  have spine : ls.foldl Spine.push [] ≠ [] := by
    intro closed
    have length := congrArg List.length (Tree.inorder_ofLabels ls)
    rw [Tree.ofLabels, closed, h.length_eq] at length
    exact nonempty (List.length_eq_zero_iff.1 length.symm)
  obtain ⟨root, bottom, held⟩ := carries.exists_root spine
  have ordered := Spine.Ordered.nil.foldl_push ls
  have valid : (Tree.ofLabels ls).Valid :=
    (Tree.rankOrdered_ofLabels ls).valid ((Tree.inorder_ofLabels ls).symm ▸ apart)
  exact ⟨a, root, placed, h.filled held, carries.threaded ordered bottom held.oneTree, held.oneTree, _, _,
    carries.frozen valid spine held⟩

/-- After every token that is placed, the slots are those of the tokens so far and make up a single tree
whose right side is the spine.  Its nodes can be made, each once and after its operands, and all of them
pass their checks. -/
theorem placing_keeps_one_tree {source : Text} {tokens : List Token}
    (scanned : tokenize source = .ok tokens)
    (numbers : ∀ t, .literal t ∈ tokens → ∃ v, parseLiteral t = .ok v) :
    tokens ≠ [] ∧ ∀ before token after, tokens = before ++ token :: after →
      ∃ a root, placeTokens 0 .empty (before ++ [token]) = .ok a ∧
        placeTokens 0 .empty tokens = placeTokens (before.length + 1) a after ∧
        Filled (before ++ [token]) a ∧ a.Threaded root ∧ Arena.OneTree a.slots root ∧
        ∃ made t, a.Frozen root made t := by
  have row := (Token.tokenize_eq_ok_iff.1 scanned).1
  obtain ⟨ls, read⟩ := exists_labels_iff.2 numbers
  refine ⟨by cases row <;> simp, fun before token after split => ?_⟩
  have split : tokens = (before ++ [token]) ++ after := by simp [split]
  have labelled := labelled_row row read (Nat.zero_mod 2)
  have apart := (alternating_labels row read).isChain_apart
  rw [split] at labelled
  obtain ⟨us, vs, rfl, first⟩ := labelled.exists_of_append
  obtain ⟨a, root, placed, holds⟩ := first.exists_arena (by simp) apart.left_of_append
  have goesOn := placeTokens_append placed after
  rw [← split, List.length_append, Nat.zero_add] at goesOn
  exact ⟨a, root, placed, goesOn, holds⟩

/-- In `2+3x4-5` the minus takes three slots off the spine and becomes the root, with the whole sum
on its left. -/
theorem placing_keeps_one_tree_displaced :
    let before : List Token :=
      [.literal ['2'], .operator .plus, .literal ['3'], .operator .times, .literal ['4']]
    let token : Token := .operator .minus
    let tokens := before ++ token :: [.literal ['5']]
    let links : List (Option Nat × Option Nat) :=
      [(none, none), (some 0, some 3), (none, none), (some 2, some 4), (none, none), (some 1, none)]
    tokenize "2+3x4-5".toList = .ok tokens ∧
      (∀ t, .literal t ∈ tokens → ∃ v, parseLiteral t = .ok v) ∧
      ∃ a, placeTokens 0 .empty (before ++ [token]) = .ok a ∧ a.spine = [5] ∧
        a.slots.toList.map (fun slot => (slot.left, slot.right)) = links ∧
        Filled (before ++ [token]) a ∧ a.Threaded 5 ∧ Arena.OneTree a.slots 5 ∧
        ∃ made t, a.Frozen 5 made t := by
  intro before token tokens links
  have scanned : tokenize "2+3x4-5".toList = .ok tokens := by decide +kernel
  let whole (n : Nat) : Label := .number (Binary64.nearest false n 1)
  have read : labels tokens = .ok [whole 2, .operator .plus, whole 3, .operator .times, whole 4,
      .operator .minus, whole 5] := by decide +kernel
  have numbers : ∀ t, .literal t ∈ tokens → ∃ v, parseLiteral t = .ok v := exists_labels_iff.1 ⟨_, read⟩
  obtain ⟨-, states⟩ := placing_keeps_one_tree scanned numbers
  obtain ⟨a, root, placed, -, filled, threaded, tree, frozen⟩ := states before token _ rfl
  have shape : (placeTokens 0 .empty (before ++ [token])).map (fun a =>
      (a.spine, a.slots.toList.map fun slot => (slot.left, slot.right))) = .ok ([5], links) := by
    decide +kernel
  rw [placed] at shape
  obtain ⟨spine, slots⟩ := Prod.mk.inj (Except.ok.inj shape)
  have bottom := threaded.bottom
  rw [spine] at bottom
  obtain rfl : 5 = root := Option.some.inj bottom
  exact ⟨scanned, numbers, a, placed, spine, slots, filled, threaded, tree, frozen⟩

end Expression

end DeskCalc
