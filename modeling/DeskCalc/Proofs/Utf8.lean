import DeskCalc.Reader

/-! UTF-8 read back.  The bytes of a character are a lead and continuations of six bits each.
Reading the continuations puts the bits together again, and the bounds that the lead sets for the
first of them hold because the character takes no fewer bytes and is no surrogate. -/

namespace DeskCalc.Utf8

def continuation (n k : Nat) : UInt8 := UInt8.ofNat (0x80 + n / 64 ^ k % 64)

/-- The last `count` continuations of a number. -/
def continuations (n : Nat) : Nat → List UInt8
  | 0 => []
  | count + 1 => continuation n count :: continuations n count

theorem length_continuations (n count : Nat) : (continuations n count).length = count := by
  induction count with
  | zero => rfl
  | succ count ih => simp [continuations, ih]

theorem toNat_continuation (n k : Nat) : (continuation n k).toNat = 0x80 + n / 64 ^ k % 64 :=
  UInt8.toNat_ofNat_of_lt' (show _ < 256 by omega)

/-- Whether the first of the continuations is between two bounds. -/
def FirstWithin (low high n : Nat) : Nat → Prop
  | 0 => True
  | count + 1 => low ≤ 0x80 + n / 64 ^ count % 64 ∧ 0x80 + n / 64 ^ count % 64 ≤ high

theorem firstWithin_any (n count : Nat) : FirstWithin 0x80 0xbf n count := by
  cases count with
  | zero => trivial
  | succ count =>
    unfold FirstWithin
    omega

/-- Reading continuations after the bits before them gives the number. -/
theorem readTail_continuations {low high n count : Nat} (first : FirstWithin low high n count)
    (taken : Nat) (rest : List UInt8) :
    readTail count low high taken (n / 64 ^ count) (continuations n count ++ rest)
      = .ok (taken + count, n) := by
  -- The bounds of the lead are for the first continuation only, so the induction leaves them free.
  induction count generalizing low high taken with
  | zero => simp [readTail]
  | succ count ih =>
    have bits : n / 64 ^ (count + 1) * 64 + (0x80 + n / 64 ^ count % 64) % 64 = n / 64 ^ count := by
      rw [Nat.pow_succ, ← Nat.div_div_eq_div_mul]
      omega
    have inside : (decide (low ≤ (continuation n count).toNat)
        && decide ((continuation n count).toNat ≤ high)) = true := by
      rw [toNat_continuation]
      simpa [FirstWithin] using first
    rw [continuations, List.cons_append, readTail, if_pos inside, toNat_continuation, bits,
      ih (firstWithin_any n count)]
    congr 2
    omega

/-- The byte `b` asks for the continuations of `n`, which stand for all bits of `n` that `b` does
not. -/
structure Leads (n : Nat) (l : Lead) (b : UInt8) : Prop where
  long : ¬ b.toNat < 0x80
  found : lead? b = some l
  bits : leadBits l.follow b = n / 64 ^ l.follow
  first : FirstWithin l.low l.high n l.follow

theorem leads_two {n : Nat} (least : 0x80 ≤ n) (greatest : n < 0x800) :
    Leads n ⟨1, 0x80, 0xbf⟩ (UInt8.ofNat (0xc0 + n / 64)) := by
  have value : (UInt8.ofNat (0xc0 + n / 64)).toNat = 0xc0 + n / 64 :=
    UInt8.toNat_ofNat_of_lt' (show _ < 256 by omega)
  refine ⟨by omega, ?_, ?_, firstWithin_any n 1⟩
  · unfold lead?
    dsimp only
    rw [value, if_neg (by omega), if_pos (by omega)]
  · show (UInt8.ofNat (0xc0 + n / 64)).toNat % 2 ^ 5 = n / 64 ^ 1
    omega

/-- Long forms and surrogates are kept out by the bounds of the first continuation. -/
theorem exists_leads_three {n : Nat} (least : 0x800 ≤ n) (greatest : n < 0x10000)
    (valid : n < 0xd800 ∨ 0xdfff < n) :
    ∃ low high, Leads n ⟨2, low, high⟩ (UInt8.ofNat (0xe0 + n / 64 ^ 2)) := by
  have value : (UInt8.ofNat (0xe0 + n / 64 ^ 2)).toNat = 0xe0 + n / 64 ^ 2 :=
    UInt8.toNat_ofNat_of_lt' (show _ < 256 by omega)
  have long : ¬ (UInt8.ofNat (0xe0 + n / 64 ^ 2)).toNat < 0x80 := by omega
  have bits : leadBits 2 (UInt8.ofNat (0xe0 + n / 64 ^ 2)) = n / 64 ^ 2 := by
    rw [leadBits, value]
    omega
  by_cases shortest : n / 64 ^ 2 = 0
  · refine ⟨0xa0, 0xbf, long, ?_, bits, ?_⟩
    · simp [lead?, shortest]
    · simp only [FirstWithin]
      omega
  by_cases surrogate : n / 64 ^ 2 = 13
  · refine ⟨0x80, 0x9f, long, ?_, bits, ?_⟩
    · simp [lead?, surrogate]
    · simp only [FirstWithin]
      omega
  · refine ⟨0x80, 0xbf, long, ?_, bits, firstWithin_any n 2⟩
    unfold lead?
    dsimp only
    rw [value, if_neg (by omega), if_neg (by omega), if_neg (by omega), if_neg (by omega),
      if_pos (by omega)]

theorem exists_leads_four {n : Nat} (least : 0x10000 ≤ n) (greatest : n < 0x110000) :
    ∃ low high, Leads n ⟨3, low, high⟩ (UInt8.ofNat (0xf0 + n / 64 ^ 3)) := by
  have value : (UInt8.ofNat (0xf0 + n / 64 ^ 3)).toNat = 0xf0 + n / 64 ^ 3 :=
    UInt8.toNat_ofNat_of_lt' (show _ < 256 by omega)
  have long : ¬ (UInt8.ofNat (0xf0 + n / 64 ^ 3)).toNat < 0x80 := by omega
  have bits : leadBits 3 (UInt8.ofNat (0xf0 + n / 64 ^ 3)) = n / 64 ^ 3 := by
    rw [leadBits, value]
    omega
  by_cases shortest : n / 64 ^ 3 = 0
  · refine ⟨0x90, 0xbf, long, ?_, bits, ?_⟩
    · simp [lead?, shortest]
    · simp only [FirstWithin]
      omega
  by_cases last : n / 64 ^ 3 = 4
  · refine ⟨0x80, 0x8f, long, ?_, bits, ?_⟩
    · simp [lead?, last]
    · simp only [FirstWithin]
      omega
  · refine ⟨0x80, 0xbf, long, ?_, bits, firstWithin_any n 3⟩
    unfold lead?
    dsimp only
    rw [value, if_neg (by omega), if_neg (by omega), if_neg (by omega), if_neg (by omega),
      if_neg (by omega), if_neg (by omega), if_pos (by omega)]

/-- The bytes of a character beyond ASCII: a lead, and as many continuations as it asks for. -/
theorem exists_leads {c : Char} (long : ¬ c.toNat < 0x80) :
    ∃ l b, Leads c.toNat l b ∧ encodeChar c = b :: continuations c.toNat l.follow := by
  have valid : c.toNat < 0xd800 ∨ 0xdfff < c.toNat ∧ c.toNat < 0x110000 := c.valid
  unfold encodeChar
  dsimp only
  rw [if_neg long]
  split
  · exact ⟨_, _, leads_two (by omega) (by omega), rfl⟩
  split
  · obtain ⟨low, high, leads⟩ := exists_leads_three (n := c.toNat) (by omega) (by omega) (by omega)
    exact ⟨_, _, leads, rfl⟩
  · obtain ⟨low, high, leads⟩ := exists_leads_four (n := c.toNat) (by omega) (by omega)
    exact ⟨_, _, leads, rfl⟩

theorem decodeFrom_encodeChar (c : Char) (position : Nat) (rest : List UInt8) :
    decodeFrom position (encodeChar c ++ rest)
      = (decodeFrom (position + (encodeChar c).length) rest).map (c :: ·) := by
  by_cases ascii : c.toNat < 0x80
  · have bytes : encodeChar c = [UInt8.ofNat c.toNat] := by simp only [encodeChar, if_pos ascii]
    have value : (UInt8.ofNat c.toNat).toNat = c.toNat :=
    UInt8.toNat_ofNat_of_lt' (show _ < 256 by omega)
    rw [bytes, List.singleton_append, decodeFrom, if_pos (by omega), value, Char.ofNat_toNat,
      List.length_singleton]
    cases decodeFrom (position + 1) rest <;> rfl
  · obtain ⟨l, b, leads, bytes⟩ := exists_leads ascii
    have tail := readTail_continuations leads.first 1 rest
    have dropped : (continuations c.toNat l.follow ++ rest).drop (1 + l.follow - 1) = rest := by
      rw [Nat.add_sub_cancel_left, List.drop_left' (length_continuations _ _)]
    rw [bytes, List.cons_append, decodeFrom, if_neg leads.long]
    simp only [leads.found, leads.bits, tail, dropped, Char.ofNat_toNat, List.length_cons,
      length_continuations, Nat.add_comm l.follow 1]
    cases decodeFrom (position + (1 + l.follow)) rest <;> rfl

/-- Decoding what was encoded gives the text back. -/
theorem decodeFrom_encode (t : Text) (position : Nat) : decodeFrom position (encode t) = .ok t := by
  induction t generalizing position with
  | nil => simp [encode, decodeFrom]
  | cons c t ih =>
    have bytes : encode (c :: t) = encodeChar c ++ encode t := List.flatMap_cons
    rw [bytes, decodeFrom_encodeChar, ih]
    rfl

end DeskCalc.Utf8
