import DeskCalc.Tree.Arena
import DeskCalc.Tree.Insert

/-! What an arena holds.  Slots are numbered from left to right, so that a subtree takes an interval of
numbers and two subtrees share no slot.  An arena carries an open spine when the slots on its stack are
those of the spine and all slots belong to it.  Placing a node pushes its label on the spine, and
freezing makes every slot into a node once, in the order that `Tree.entries` lists from its end. -/

namespace DeskCalc

namespace Tree

/-- Every number is without operands. -/
def Valid : Tree → Prop
  | empty => True
  | node (.number _) a b => a = empty ∧ b = empty
  | node (.operator _) a b => a.Valid ∧ b.Valid

theorem Complete.valid {t : Tree} (h : t.Complete) : t.Valid := by
  induction t with
  | empty => trivial
  | node l a b iha ihb =>
    cases l with
    | number => exact h
    | operator => exact ⟨iha h.1, ihb h.2⟩

theorem Valid.left {l : Label} {a b : Tree} (h : (node l a b).Valid) : a.Valid := by
  cases l with
  | number => rw [h.1]; trivial
  | operator => exact h.1

theorem Valid.right {l : Label} {a b : Tree} (h : (node l a b).Valid) : b.Valid := by
  cases l with
  | number => rw [h.2]; trivial
  | operator => exact h.2

theorem Valid.make {l : Label} {a b : Tree} (h : (node l a b).Valid) :
    Node.make l.kind l.value? a b = .ok ⟨l, a, b⟩ := by
  cases l with
  | number => obtain ⟨rfl, rfl⟩ := h; rfl
  | operator => rfl

/-- The subtrees with the numbers of their roots, each before those of its left operand and these
before those of its right one; the numbers go from left to right, `first` being the lowest. -/
def entries (first : Nat) : Tree → Arena.Made
  | empty => []
  | node l a b =>
    (first + a.size, node l a b) :: (a.entries first ++ b.entries (first + a.size + 1))

theorem mem_entries {t : Tree} {first : Nat} {entry : Nat × Tree} (h : entry ∈ t.entries first) :
    first ≤ entry.1 ∧ entry.1 < first + t.size := by
  induction t generalizing first with
  | empty => simp [entries] at h
  | node l a b iha ihb =>
    simp only [entries, List.mem_cons, List.mem_append] at h
    simp only [size]
    rcases h with rfl | h | h
    · simp only
      omega
    · have := iha h
      omega
    · have := ihb h
      omega

end Tree

def Slot.ofLabel (l : Label) (left right : Option Nat) : Slot := ⟨l.kind, l.value?, left, right⟩

namespace Arena

/-- The slots from `first` up to `stop` hold the tree whose root the link names, numbered from left to
right. -/
inductive Holds (slots : Array Slot) : Option Nat → Tree → Nat → Nat → Prop
  | empty (first : Nat) : Holds slots none .empty first first
  | node {l : Label} {a b : Tree} {left right : Option Nat} {first number stop : Nat}
      (slot : slots[number]? = some (.ofLabel l left right))
      (leftHeld : Holds slots left a first number)
      (rightHeld : Holds slots right b (number + 1) stop) :
      Holds slots (some number) (.node l a b) first stop

theorem Holds.stop_eq {slots : Array Slot} {link : Option Nat} {t : Tree} {first stop : Nat}
    (h : Holds slots link t first stop) : stop = first + t.size := by
  induction h with
  | empty => rfl
  | node _ _ _ ihl ihr =>
    simp only [Tree.size]
    omega

theorem Holds.congr {slots slots' : Array Slot} {link : Option Nat} {t : Tree} {first stop : Nat}
    (h : Holds slots link t first stop)
    (same : ∀ i, first ≤ i → i < stop → slots'[i]? = slots[i]?) :
    Holds slots' link t first stop := by
  induction h with
  | empty first => exact .empty first
  | node slot leftHeld rightHeld ihl ihr =>
    have hl := leftHeld.stop_eq
    have hr := rightHeld.stop_eq
    refine .node ?_ (ihl fun i h1 h2 => same i h1 (by omega))
      (ihr fun i h1 h2 => same i (by omega) h2)
    rw [same _ (by omega) (by omega)]
    exact slot

/-- The numbers are those of the slots of an open spine, the lowest first.  Each names the one before
it as its right operand, and the lowest names `next`.  With their left operands they take the slots
below `stop`. -/
inductive Chain (slots : Array Slot) : List Nat → Spine → Option Nat → Nat → Prop
  | nil (next : Option Nat) : Chain slots [] [] next 0
  | cons {f : Frame} {numbers : List Nat} {s : Spine} {left next : Option Nat} {first number : Nat}
      (slot : slots[number]? = some (.ofLabel f.label left next))
      (leftHeld : Holds slots left f.left first number)
      (above : Chain slots numbers s (some number) first) :
      Chain slots (number :: numbers) (f :: s) next (number + 1)

theorem Chain.congr {slots slots' : Array Slot} {numbers : List Nat} {s : Spine}
    {next : Option Nat} {stop : Nat} (h : Chain slots numbers s next stop)
    (same : ∀ i, i < stop → slots'[i]? = slots[i]?) : Chain slots' numbers s next stop := by
  induction h with
  | nil next => exact .nil next
  | cons slot leftHeld above ih =>
    have := leftHeld.stop_eq
    refine .cons ?_ (leftHeld.congr fun i _ h2 => same i (by omega))
      (ih fun i hi => same i (by omega))
    rw [same _ (by omega)]
    exact slot

theorem Chain.exists_root {slots : Array Slot} {numbers : List Nat} {s : Spine}
    {next : Option Nat} {stop : Nat} (h : Chain slots numbers s next stop) (nonempty : s ≠ []) :
    ∃ root, numbers.getLast? = some root := by
  cases h with
  | nil => exact absurd rfl nonempty
  | cons => exact ⟨_, List.getLast?_cons⟩

/-- The root of a chain with one more number below it. -/
theorem getLast?_cons_or (number : Nat) (numbers : List Nat) (next : Option Nat) :
    (number :: numbers).getLast?.or next = numbers.getLast?.or (some number) := by
  rw [List.getLast?_cons]
  cases numbers.getLast? <;> rfl

/-- A chain and what hangs below it hold the closed spine; its root is the last of the numbers. -/
theorem Chain.holds_close {slots : Array Slot} {numbers : List Nat} {s : Spine}
    {next : Option Nat} {stop top : Nat} {t : Tree} (h : Chain slots numbers s next stop)
    (held : Holds slots next t stop top) :
    Holds slots (numbers.getLast?.or next) (s.close t) 0 top := by
  induction h generalizing t with
  | nil => exact held
  | cons slot leftHeld above ih =>
    rw [getLast?_cons_or]
    exact ih (.node slot leftHeld held)

/-! ### Placing a node -/

/-- Displacing takes the frames of higher rank off the spine; what hung below the spine and the frames
taken hang below what is left. -/
theorem Chain.displace {slots : Array Slot} {numbers : List Nat} {s : Spine} {next : Option Nat}
    {stop top : Nat} {t : Tree} (h : Chain slots numbers s next stop)
    (held : Holds slots next t stop top) (rank : Nat) :
    ∃ displaced rest first, displace slots rank next numbers = .ok (displaced, rest) ∧
      Chain slots rest (s.dropWhile fun f => rank < f.label.rank) displaced first ∧
      Holds slots displaced (Spine.close (s.takeWhile fun f => rank < f.label.rank) t) first top := by
  induction h generalizing t with
  | nil next => exact ⟨next, [], 0, rfl, .nil next, held⟩
  | @cons f numbers s left next first number slot leftHeld above ih =>
    rw [Arena.displace, slot, List.dropWhile_cons, List.takeWhile_cons]
    by_cases higher : rank < f.label.rank
    -- A frame that is taken closes over what hung below it, and the frames above it go on from there.
    · have higher' : rank < (Slot.ofLabel f.label left next).kind.rank := higher
      simp only [higher, higher', decide_true, if_true]
      exact ih (.node slot leftHeld held)
    · have higher' : ¬ rank < (Slot.ofLabel f.label left next).kind.rank := higher
      simp only [higher, higher', decide_false, if_false]
      exact ⟨next, _, _, rfl, .cons slot leftHeld above, held⟩

/-- Linking changes the right operand of the lowest slot of a chain and no slot past the chain. -/
theorem Chain.link {slots : Array Slot} {numbers : List Nat} {s : Spine} {next : Option Nat}
    {stop : Nat} (h : Chain slots numbers s next stop) (number : Nat) :
    ∃ slots', link slots number numbers = .ok slots' ∧ slots'.size = slots.size ∧
      Chain slots' numbers s (some number) stop ∧
      ∀ i, stop ≤ i → slots'[i]? = slots[i]? := by
  cases h with
  | nil => exact ⟨slots, rfl, rfl, .nil _, fun _ _ => rfl⟩
  | @cons f numbers s left next first lowest slot leftHeld above =>
    have inside : lowest < slots.size := (Array.getElem?_eq_some_iff.1 slot).1
    have others : ∀ i, i ≠ lowest →
        (slots.modify lowest fun slot => { slot with right := some number })[i]? = slots[i]? := by
      intro i hi
      rw [Array.getElem?_modify, if_neg (Ne.symm hi)]
    have := leftHeld.stop_eq
    refine ⟨_, if_pos inside, Array.size_modify, ?_, fun i hi => others i (by omega)⟩
    refine .cons ?_ (leftHeld.congr fun i _ h2 => others i (by omega))
      (above.congr fun i hi => others i (by omega))
    rw [Array.getElem?_modify, if_pos rfl, slot]
    rfl

/-- All slots of the arena belong to an open spine, and its stack names those on the spine itself. -/
def Carries (a : Arena) (s : Spine) : Prop := Chain a.slots a.spine s none a.slots.size

theorem carries_empty : empty.Carries [] := .nil none

theorem Carries.place {a : Arena} {s : Spine} (h : a.Carries s) (l : Label) :
    ∃ a', a.place l.kind l.value? = .ok a' ∧ a'.Carries (s.push l) := by
  obtain ⟨displaced, rest, first, displaces, chain, held⟩ :=
    Chain.displace h (.empty a.slots.size) l.rank
  have fits := held.stop_eq
  have same : ∀ i, i < a.slots.size →
      (a.slots.push (.ofLabel l displaced none))[i]? = a.slots[i]? := by
    intro i hi
    rw [Array.getElem?_push, if_neg (by omega)]
  obtain ⟨slots, links, size, chain', same'⟩ :=
    (chain.congr fun i hi => same i (by omega)).link a.slots.size
  have sizeEq : slots.size = a.slots.size + 1 := by rw [size, Array.size_push]
  refine ⟨⟨slots, a.slots.size :: rest⟩, ?_, ?_⟩
  · have displaces : Arena.displace a.slots l.kind.rank none a.spine = .ok (displaced, rest) :=
      displaces
    have links : Arena.link (a.slots.push ⟨l.kind, l.value?, displaced, none⟩) a.slots.size rest
        = .ok slots := links
    simp only [Arena.place, displaces, links]
  · unfold Carries
    rw [sizeEq]
    refine .cons ?_ (held.congr fun i h1 h2 => ?_) chain'
    · rw [same' _ (by omega), Array.getElem?_push, if_pos rfl]
    · rw [same' _ h1, same _ h2]

/-! ### Freezing -/

theorem Holds.lookup {slots : Array Slot} {number first stop : Nat} {t : Tree}
    (h : Holds slots (some number) t first stop) (made : Made) :
    (t.entries first ++ made).lookup number = some t := by
  cases h with
  | node slot leftHeld rightHeld => simp [Tree.entries, leftHeld.stop_eq]

/-- The tree is the operand that a link names: one that was made, or none. -/
def Names (made : Made) : Option Nat → Tree → Prop
  | none, t => t = .empty
  | some number, t => made.lookup number = some t

theorem Names.operand_eq {made : Made} {link : Option Nat} {t : Tree} (h : Names made link t) :
    operand made link = t := by
  cases link with
  | none => exact h.symm
  | some number =>
    have found : made.lookup number = some t := h
    rw [operand, Option.bind_some, found]
    rfl

/-- Entries of lower numbers do not hide an operand. -/
theorem Holds.names {slots : Array Slot} {link : Option Nat} {t : Tree} {first stop : Nat}
    (h : Holds slots link t first stop) (before made : Made) (apart : ∀ e ∈ before, e.1 < first) :
    Names (before ++ (t.entries first ++ made)) link t := by
  cases link with
  | none => cases h; rfl
  | some number =>
    have low : first ≤ number := by
      cases h with
      | node slot leftHeld rightHeld => have := leftHeld.stop_eq; omega
    have missing : before.lookup number = none := by
      rw [List.lookup_eq_none_iff]
      intro e he
      have := apart e he
      simp only [bne_iff_ne, ne_eq]
      omega
    rw [Names, List.lookup_append, missing, Option.none_or, h.lookup]

/-- The right operand is made first, so the entries of the left one stand before its own. -/
theorem Holds.names_operands {slots : Array Slot} {left right : Option Nat} {a b : Tree}
    {first number stop : Nat} (leftHeld : Holds slots left a first number)
    (rightHeld : Holds slots right b (number + 1) stop) (made : Made) :
    Names (a.entries first ++ (b.entries (number + 1) ++ made)) left a ∧
      Names (a.entries first ++ (b.entries (number + 1) ++ made)) right b := by
  have := leftHeld.stop_eq
  refine ⟨leftHeld.names [] _ (by simp), rightHeld.names _ _ fun e he => ?_⟩
  have := (Tree.mem_entries he).2
  omega

/-- Making the nodes of a tree that is held takes two steps a node and leaves its entries. -/
theorem Holds.make {slots : Array Slot} {link : Option Nat} {t : Tree} {first stop : Nat}
    (h : Holds slots link t first stop) (valid : t.Valid) (steps : Nat)
    (stack : List (Nat × Bool)) (made : Made) :
    make slots (2 * t.size + steps) (visits link ++ stack) made
      = make slots steps stack (t.entries first ++ made) := by
  induction h generalizing steps stack made with
  | empty first => simp [visits, Tree.size, Tree.entries]
  | @node l a b left right first number stop slot leftHeld rightHeld ihl ihr =>
    have number_eq := leftHeld.stop_eq
    have count : 2 * (Tree.node l a b).size + steps
        = 2 * b.size + (2 * a.size + (steps + 1)) + 1 := by
      simp only [Tree.size]
      omega
    obtain ⟨leftNamed, rightNamed⟩ := leftHeld.names_operands rightHeld made
    have first_eq : first + a.size = number := number_eq.symm
    calc Arena.make slots (2 * (Tree.node l a b).size + steps) ((number, false) :: stack) made
        = Arena.make slots (2 * b.size + (2 * a.size + (steps + 1)))
            (visits right ++ (visits left ++ (number, true) :: stack)) made := by
          rw [count, Arena.make, slot]
          simp [Slot.ofLabel]
      _ = Arena.make slots (steps + 1) ((number, true) :: stack)
            (a.entries first ++ (b.entries (number + 1) ++ made)) := by
          rw [ihr valid.right, ihl valid.left]
      _ = Arena.make slots steps stack
            ((number, .node l a b) :: (a.entries first ++ (b.entries (number + 1) ++ made))) := by
          rw [Arena.make, slot]
          simp only [Slot.ofLabel, leftNamed.operand_eq, rightNamed.operand_eq, valid.make, if_true]
          rfl
      _ = Arena.make slots steps stack ((Tree.node l a b).entries first ++ made) := by
          simp [Tree.entries, first_eq]

/-- A tree that takes all slots is made in two steps a slot. -/
theorem Holds.make_all {slots : Array Slot} {root : Nat} {t : Tree}
    (h : Holds slots (some root) t 0 slots.size) (valid : t.Valid) (steps : Nat) :
    Arena.make slots (2 * slots.size + steps) [(root, false)] [] = .ok (t.entries 0) := by
  have size := h.stop_eq
  rw [Nat.zero_add] at size
  have made := h.make valid steps [] []
  simp only [List.append_nil] at made
  rw [size, show [(root, false)] = visits (some root) from rfl, made, Arena.make]

/-- The lowest number of the spine is the root of the tree that an arena holds. -/
theorem Carries.exists_root {a : Arena} {s : Spine} (h : a.Carries s) (nonempty : s ≠ []) :
    ∃ root, a.spine.getLast? = some root ∧
      Holds a.slots (some root) (s.close .empty) 0 a.slots.size := by
  obtain ⟨root, last⟩ := Chain.exists_root h nonempty
  have held := Chain.holds_close h (.empty _)
  rw [last, Option.some_or] at held
  exact ⟨root, last, held⟩

theorem Carries.freeze {a : Arena} {s : Spine} (h : a.Carries s) (nonempty : s ≠ [])
    (valid : (s.close .empty).Valid) : a.freeze = .ok (s.close .empty) := by
  obtain ⟨root, last, held⟩ := h.exists_root nonempty
  have made := held.make_all valid 0
  have found := held.lookup []
  rw [List.append_nil] at found
  rw [Nat.add_zero] at made
  simp only [Arena.freeze, last, made, found]

end Arena

end DeskCalc
