import DeskCalc.Tree.Basic

/-! An arena in which a tree is put together from left to right, in one pass over its nodes.  Each
node has a slot, and slots name their operands by number.  The numbers of the slots on the right spine
are kept on a stack.  A new node takes from the stack every slot of higher rank, has the last one taken
as its left operand and becomes the right operand of the slot that is then on top.  When all nodes are
placed, the slots are made into a tree, operands first. -/

namespace DeskCalc

/-- A node that is still being put together; its operands are numbers of slots. -/
structure Slot where
  kind : Kind
  value : Option Float
  left : Option Nat
  right : Option Nat

/-- The slots in the order they were placed, and the numbers of those on the right spine, the lowest
first. -/
structure Arena where
  slots : Array Slot
  spine : List Nat

/-- Why an arena gives no tree. -/
inductive ArenaFault where
  /-- No slot has the number. -/
  | noSlot (number : Nat)
  /-- The spine has no root. -/
  | noRoot
  | noNode (number : Nat)
  | refused (e : NodeError)
  /-- Making nodes of the slots does not come to an end. -/
  | endless
  deriving DecidableEq

namespace ArenaFault

def message : ArenaFault → Text
  | noSlot number => "no slot has the number ".toList ++ Text.ofNat number
  | noRoot => "the spine is empty".toList
  | noNode number => Text.ofNat number
  | refused e => e.message
  | endless => "the links of the slots do not end".toList

end ArenaFault

namespace Arena

def empty : Arena := ⟨#[], []⟩

/-- Takes the slots that rank higher than `rank` from a spine, and gives the last one taken and what is
left of the spine. -/
def displace (slots : Array Slot) (rank : Nat) :
    Option Nat → List Nat → Except ArenaFault (Option Nat × List Nat)
  | displaced, [] => .ok (displaced, [])
  | displaced, top :: spine =>
    match slots[top]? with
    | none => .error (.noSlot top)
    | some slot =>
      if rank < slot.kind.rank then displace slots rank (some top) spine
      else .ok (displaced, top :: spine)

/-- The slots with the slot `number` as the right operand of the lowest one on the spine. -/
def link (slots : Array Slot) (number : Nat) : List Nat → Except ArenaFault (Array Slot)
  | [] => .ok slots
  | top :: _ =>
    if top < slots.size then .ok (slots.modify top fun slot => { slot with right := some number })
    else .error (.noSlot top)

/-- Places a node of a kind with its value. -/
def place (a : Arena) (kind : Kind) (value : Option Float) : Except ArenaFault Arena :=
  let number := a.slots.size
  match displace a.slots kind.rank none a.spine with
  | .error fault => .error fault
  | .ok (displaced, spine) =>
    match link (a.slots.push ⟨kind, value, displaced, none⟩) number spine with
    | .error fault => .error fault
    | .ok slots => .ok ⟨slots, number :: spine⟩

/-- The trees of the slots that were made into nodes, the last one made first. -/
abbrev Made := List (Nat × Tree)

/-- The operand that a link names, as far as it is made. -/
def operand (made : Made) (link : Option Nat) : Tree :=
  (link.bind fun number => made.lookup number).getD .empty

/-- The visits that a link asks for. -/
def visits (link : Option Nat) : List (Nat × Bool) := (link.map (·, false)).toList

/-- Makes nodes of the slots on a stack, in at most `steps` steps.  A slot is put back under its
operands at its first visit and made into a node at its second. -/
def make (slots : Array Slot) : Nat → List (Nat × Bool) → Made → Except ArenaFault Made
  | _, [], made => .ok made
  | 0, _ :: _, _ => .error .endless
  | steps + 1, (number, operandsMade) :: stack, made =>
    match slots[number]? with
    | none => .error (.noSlot number)
    | some slot =>
      if operandsMade then
        match Node.make slot.kind slot.value (operand made slot.left) (operand made slot.right) with
        | .ok n => make slots steps stack ((number, n.toTree) :: made)
        | .error e => .error (.refused e)
      else
        make slots steps (visits slot.right ++ visits slot.left ++ (number, true) :: stack) made

/-- The tree of an arena.  Each slot takes two steps. -/
def freeze (a : Arena) : Except ArenaFault Tree :=
  match a.spine.getLast? with
  | none => .error .noRoot
  | some root =>
    match make a.slots (2 * a.slots.size) [(root, false)] [] with
    | .error fault => .error fault
    | .ok made =>
      match made.lookup root with
      | some t => .ok t
      | none => .error (.noNode root)

end Arena

end DeskCalc
