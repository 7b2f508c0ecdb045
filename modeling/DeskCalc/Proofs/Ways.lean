import DeskCalc.Tree.Placement
import Mathlib.Logic.ExistsUnique

/-! Ways through an arena.  A way goes from slot to slot, each time by the left or the right operand
that the slot names.  The slots of a tree that an arena holds are those that some way from its root
leads to, and no two ways lead to the same one.  When this is so of all slots of an arena, it is a
single tree: each slot but the root is named once, and the root never. -/

namespace DeskCalc

/-- The side of an operand. -/
inductive Side where
  | left
  | right
  deriving DecidableEq

def Slot.link (slot : Slot) : Side → Option Nat
  | .left => slot.left
  | .right => slot.right

namespace Arena

/-- The slot that a slot names on one side. -/
def target (slots : Array Slot) (number : Nat) (side : Side) : Option Nat :=
  slots[number]?.bind fun slot => slot.link side

/-- Where a way leads that begins at what a link names. -/
def follow (slots : Array Slot) (link : Option Nat) (way : List Side) : Option Nat :=
  way.foldl (fun place side => place.bind fun number => target slots number side) link

variable {slots : Array Slot}

theorem target_of_slot {number : Nat} {slot : Slot} (h : slots[number]? = some slot) (side : Side) :
    target slots number side = slot.link side := by
  rw [target, h]
  rfl

theorem lt_size_of_target {number named : Nat} {side : Side}
    (h : target slots number side = some named) : number < slots.size := by
  obtain ⟨slot, found, -⟩ := Option.bind_eq_some_iff.1 h
  exact (Array.getElem?_eq_some_iff.1 found).1

@[simp] theorem follow_nil (link : Option Nat) : follow slots link [] = link := rfl

@[simp] theorem follow_none (way : List Side) : follow slots none way = none := by
  induction way with
  | nil => rfl
  | cons side way ih => exact ih

theorem follow_cons {number : Nat} {slot : Slot} (h : slots[number]? = some slot) (side : Side)
    (way : List Side) : follow slots (some number) (side :: way) = follow slots (slot.link side) way := by
  rw [← target_of_slot h]
  rfl

theorem follow_concat (link : Option Nat) (way : List Side) (side : Side) :
    follow slots link (way ++ [side])
      = (follow slots link way).bind fun number => target slots number side := by
  simp [follow]

/-! ### Ways in a tree that is held -/

namespace Holds

/-- A way never leaves the slots of the tree. -/
theorem bounds_of_follow {link : Option Nat} {t : Tree} {first stop : Nat}
    (h : Holds slots link t first stop) {way : List Side} {number : Nat}
    (leads : follow slots link way = some number) : first ≤ number ∧ number < stop := by
  induction h generalizing way with
  | empty => simp at leads
  | @node l a b left right first root stop slot leftHeld rightHeld ihl ihr =>
    have := leftHeld.stop_eq
    have := rightHeld.stop_eq
    cases way with
    | nil =>
      obtain rfl : root = number := Option.some.inj leads
      omega
    | cons side way =>
      rw [follow_cons slot] at leads
      cases side with
      | left =>
        have := ihl leads
        omega
      | right =>
        have := ihr leads
        omega

theorem exists_way {link : Option Nat} {t : Tree} {first stop : Nat}
    (h : Holds slots link t first stop) {number : Nat} (low : first ≤ number)
    (high : number < stop) : ∃ way, follow slots link way = some number := by
  induction h with
  | empty => omega
  | @node l a b left right first root stop slot leftHeld rightHeld ihl ihr =>
    rcases Nat.lt_trichotomy number root with before | rfl | after
    · obtain ⟨way, leads⟩ := ihl low before
      exact ⟨.left :: way, (follow_cons slot .left way).trans leads⟩
    · exact ⟨[], rfl⟩
    · obtain ⟨way, leads⟩ := ihr after high
      exact ⟨.right :: way, (follow_cons slot .right way).trans leads⟩

/-- A way that goes on from the root takes one of its sides, and the slots on the left have lower
numbers than the root, those on the right higher ones. -/
theorem side_of_follow {l : Label} {a b : Tree} {left right : Option Nat} {first root stop : Nat}
    (slot : slots[root]? = some (.ofLabel l left right)) (leftHeld : Holds slots left a first root)
    (rightHeld : Holds slots right b (root + 1) stop) {side : Side} {way : List Side} {number : Nat}
    (leads : follow slots (some root) (side :: way) = some number) :
    side = .left ∧ follow slots left way = some number ∧ number < root ∨
      side = .right ∧ follow slots right way = some number ∧ root < number := by
  rw [follow_cons slot] at leads
  cases side with
  | left => exact .inl ⟨rfl, leads, (leftHeld.bounds_of_follow leads).2⟩
  | right => exact .inr ⟨rfl, leads, (rightHeld.bounds_of_follow leads).1⟩

/-- Where a way ends tells each of its steps. -/
theorem way_unique {link : Option Nat} {t : Tree} {first stop : Nat}
    (h : Holds slots link t first stop) {way other : List Side} {number : Nat}
    (leads : follow slots link way = some number) (leads' : follow slots link other = some number) :
    way = other := by
  induction h generalizing way other with
  | empty => simp at leads
  | @node l a b left right first root stop slot leftHeld rightHeld ihl ihr =>
    cases way with
    | nil =>
      obtain rfl : root = number := Option.some.inj leads
      cases other with
      | nil => rfl
      | cons side other =>
        rcases side_of_follow slot leftHeld rightHeld leads' with ⟨-, -, lower⟩ | ⟨-, -, higher⟩
        · omega
        · omega
    | cons side way =>
      have taken := side_of_follow slot leftHeld rightHeld leads
      cases other with
      | nil =>
        obtain rfl : root = number := Option.some.inj leads'
        rcases taken with ⟨-, -, lower⟩ | ⟨-, -, higher⟩
        · omega
        · omega
      | cons side' other =>
        have taken' := side_of_follow slot leftHeld rightHeld leads'
        rcases taken with ⟨rfl, leads, lower⟩ | ⟨rfl, leads, higher⟩
        · rcases taken' with ⟨rfl, leads', -⟩ | ⟨-, -, higher'⟩
          · rw [ihl leads leads']
          · omega
        · rcases taken' with ⟨-, -, lower'⟩ | ⟨rfl, leads', -⟩
          · omega
          · rw [ihr leads leads']

end Holds

/-! ### An arena that is a single tree -/

/-- Every link names a slot that is there, and exactly one way leads from the root to each slot. -/
structure OneTree (slots : Array Slot) (root : Nat) : Prop where
  inside : ∀ number side named, target slots number side = some named → named < slots.size
  reached : ∀ number < slots.size, ∃! way, follow slots (some root) way = some number

theorem Holds.oneTree {root : Nat} {t : Tree} (h : Holds slots (some root) t 0 slots.size) :
    OneTree slots root where
  inside number side named links := by
    obtain ⟨way, leads⟩ := h.exists_way (Nat.zero_le number) (lt_size_of_target links)
    have further : follow slots (some root) (way ++ [side]) = some named := by
      rw [follow_concat, leads]
      exact links
    exact (h.bounds_of_follow further).2
  reached number inside := by
    obtain ⟨way, leads⟩ := h.exists_way (Nat.zero_le number) inside
    exact ⟨way, leads, fun other leads' => h.way_unique leads' leads⟩

namespace OneTree

variable {root : Nat}

/-- A link is the last step of the way to the slot that it names. -/
theorem exists_way_of_target (h : OneTree slots root) {number named : Nat} {side : Side}
    (links : target slots number side = some named) :
    ∃ way, follow slots (some root) way = some number ∧
      follow slots (some root) (way ++ [side]) = some named := by
  obtain ⟨way, leads, -⟩ := h.reached number (lt_size_of_target links)
  refine ⟨way, leads, ?_⟩
  rw [follow_concat, leads]
  exact links

/-- No slot names the root. -/
theorem target_ne_root (h : OneTree slots root) (number : Nat) (side : Side) :
    target slots number side ≠ some root := by
  intro links
  obtain ⟨way, -, back⟩ := h.exists_way_of_target links
  have same : way ++ [side] = [] :=
    (h.reached root (h.inside number side root links)).unique back rfl
  exact absurd same (by simp)

/-- Every slot but the root is named by one slot, and on one side only. -/
theorem existsUnique_target (h : OneTree slots root) {number : Nat} (inside : number < slots.size)
    (notRoot : number ≠ root) :
    ∃! place : Nat × Side, target slots place.1 place.2 = some number := by
  obtain ⟨way, leads, only⟩ := h.reached number inside
  have notEmpty : way ≠ [] := by
    rintro rfl
    exact notRoot (Option.some.inj leads).symm
  obtain ⟨before, side, rfl⟩ : ∃ before side, way = before ++ [side] :=
    ⟨_, _, (List.dropLast_concat_getLast notEmpty).symm⟩
  rw [follow_concat] at leads
  obtain ⟨parent, leadsBefore, links⟩ := Option.bind_eq_some_iff.1 leads
  refine ⟨(parent, side), links, ?_⟩
  rintro ⟨other, side'⟩ links'
  obtain ⟨before', leadsBefore', leads'⟩ := h.exists_way_of_target links'
  obtain ⟨rfl, rfl⟩ := List.append_singleton_inj.1 (only _ leads')
  have same : other = parent := Option.some.inj (leadsBefore'.symm.trans leadsBefore)
  rw [same]

end OneTree

end Arena

end DeskCalc
