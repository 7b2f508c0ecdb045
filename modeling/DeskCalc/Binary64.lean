/-! Binary64 numbers as exact integers.  Every finite magnitude is `mantissa * 2 ^ shift` quanta of
`2 ^ (-1074)`, and its 63 bits are `shift * 2 ^ 52 + mantissa`, for subnormal and normal numbers
alike.  `decode` reads a `Float` this way, and `nearest` rounds a ratio of natural numbers to the
closest number, a tie going to the even mantissa. -/

-- Powers of numbers are the core library's own, also where a monoid brings powers with it.
attribute [instance (high), default_instance (high)] instPowNat

namespace DeskCalc.Binary64

/-- A magnitude in quanta of `2 ^ (-1074)`: `mantissa * 2 ^ shift` of them. -/
structure Magnitude where
  mantissa : Nat
  shift : Nat
  deriving DecidableEq, Repr

namespace Magnitude

def quanta (a : Magnitude) : Nat := a.mantissa * 2 ^ a.shift

/-- The 63 bits below the sign.  The leading bit of a normal mantissa adds one to the exponent
field. -/
def bits (a : Magnitude) : Nat := a.shift * 2 ^ 52 + a.mantissa

/-- The magnitude of finite `bits`: a zero exponent field keeps the fraction as it is, any other
stands for a leading bit. -/
def ofBits (bits : Nat) : Magnitude :=
  if bits < 2 ^ 52 then ⟨bits, 0⟩ else ⟨2 ^ 52 + bits % 2 ^ 52, bits / 2 ^ 52 - 1⟩

/-- The mantissas and shifts that bits can spell: subnormal at shift zero, normal at any. -/
def Canonical (a : Magnitude) : Prop :=
  a.mantissa < 2 ^ 53 ∧ (a.shift = 0 ∨ 2 ^ 52 ≤ a.mantissa)

theorem canonical_ofBits (b : Nat) : (ofBits b).Canonical := by
  unfold ofBits Canonical
  split
  · simp; omega
  · have := Nat.mod_lt b (show 2 ^ 52 > 0 by decide)
    simp; omega

theorem bits_ofBits (b : Nat) : (ofBits b).bits = b := by
  unfold ofBits bits
  split
  · simp
  · have := Nat.div_add_mod b (2 ^ 52)
    have : 1 ≤ b / 2 ^ 52 := by omega
    simp only []
    omega

theorem ofBits_bits {a : Magnitude} (h : a.Canonical) : ofBits a.bits = a := by
  obtain ⟨m, k⟩ := a
  obtain ⟨hm, hs⟩ := h
  simp only at hm hs
  unfold ofBits bits
  by_cases hb : k * 2 ^ 52 + m < 2 ^ 52
  · have hk : k = 0 := by omega
    subst hk
    simp only [if_pos hb, mk.injEq, and_true]
    omega
  · have hm' : 2 ^ 52 ≤ m := by omega
    simp only [if_neg hb, mk.injEq]
    omega

end Magnitude

/-- The bits of an infinity, the first magnitude past the finite ones. -/
def infinityBits : Nat := 2047 * 2 ^ 52

/-- What a number stands for. -/
inductive Value where
  | nan
  | infinite (negative : Bool)
  | finite (negative : Bool) (magnitude : Magnitude)
  deriving DecidableEq, Repr

def isNegative (x : Float) : Bool := 2 ^ 63 ≤ x.toBits.toNat

def decode (x : Float) : Value :=
  let negative := isNegative x
  let bits := x.toBits.toNat % 2 ^ 63
  if bits < infinityBits then .finite negative (Magnitude.ofBits bits)
  else if bits = infinityBits then .infinite negative
  else .nan

/-- The number with the given sign and magnitude bits. -/
def ofSignBits (negative : Bool) (bits : Nat) : Float :=
  Float.ofBits (UInt64.ofNat ((if negative then 2 ^ 63 else 0) + bits))

/-- `n / d` rounded to the nearest natural number, a half going to the even one. -/
def roundDiv (n d : Nat) : Nat :=
  let q := n / d
  let r := n % d
  if 2 * r < d then q
  else if 2 * r = d then q + q % 2
  else q + 1

/-- The magnitude bits nearest to `num / den`.  The shift is the least that leaves the mantissa
below `2 ^ 53`; a mantissa that rounds up to `2 ^ 53` carries into the exponent field by itself, and
all that is past the finite numbers is an infinity. -/
def nearestBits (num den : Nat) : Nat :=
  let quanta := num * 2 ^ 1074
  let shift := (quanta / den).log2 - 52
  min infinityBits (shift * 2 ^ 52 + roundDiv quanta (den * 2 ^ shift))

/-- The number nearest to `num / den` with the given sign. -/
def nearest (negative : Bool) (num den : Nat) : Float :=
  ofSignBits negative (nearestBits num den)

def zero (negative : Bool) : Float := ofSignBits negative 0

def one (negative : Bool) : Float := ofSignBits negative (1023 * 2 ^ 52)

def infinity (negative : Bool) : Float := ofSignBits negative infinityBits

/-- The one number that is not a number. -/
def nan : Float := Float.ofBits 0x7ff8000000000000

end DeskCalc.Binary64
