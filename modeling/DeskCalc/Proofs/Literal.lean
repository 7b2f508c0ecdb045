import DeskCalc.Decimal.Layout
import DeskCalc.Proofs.Numeral

/-! The value of a numeral.  The digits before and after the point are the coefficient, and the digits
after it count down the exponent.  Zeros at the start of the digits do not change the value, as long as
a digit is left without them. -/

namespace DeskCalc

theorem Digits.append {ds fs : Text} (hd : Digits ds) (hf : Digits fs) : Digits (ds ++ fs) := by
  intro c hc
  exact (List.mem_append.1 hc).elim (hd c) (hf c)

theorem Digits.pointed {ds : Text} (h : Digits ds) : Pointed ds := fun c hc => .inl (h c hc)

namespace Decimal

theorem readUnsigned_whole {ds : Text} (h : Digits ds) (nonempty : ds ≠ []) :
    readUnsigned ds = some ⟨Nat.ofDigitChars 10 ds 0, 0⟩ := by
  have taken : ds.takeWhile Char.isDigit = ds := List.takeWhile_eq_self_iff.2 h
  have dropped : ds.dropWhile Char.isDigit = [] := List.dropWhile_eq_nil_iff.2 h
  simp [readUnsigned, taken, dropped, splitFraction, readExponent, nonempty]

theorem readUnsigned_pointed {ds fs : Text} (hd : Digits ds) (hf : Digits fs)
    (nonempty : ds ++ fs ≠ []) :
    readUnsigned (ds ++ '.' :: fs) = some ⟨Nat.ofDigitChars 10 (ds ++ fs) 0, -fs.length⟩ := by
  have taken : fs.takeWhile Char.isDigit = fs := List.takeWhile_eq_self_iff.2 hf
  have dropped : fs.dropWhile Char.isDigit = [] := List.dropWhile_eq_nil_iff.2 hf
  have some_digit : (ds ++ fs).isEmpty = false := by
    simpa only [List.isEmpty_eq_false_iff] using nonempty
  simp only [readUnsigned, takeWhile_digits hd, dropWhile_digits hd, splitFraction, taken, dropped,
    some_digit, readExponent, Option.map_some, Int.zero_sub]
  rfl

/-- A numeral is read as its sign and the number without the sign. -/
theorem read?_signed {t : Text} (h : Pointed t) (negative : Bool) :
    read? (signed negative t) = (readUnsigned t).map (toFloat negative) := by
  cases negative with
  | false =>
    show read? t = _
    rw [read?_eq_readAscii (plain_of_pointed h), readAscii_of_splitSign (splitSign_of_pointed h) h]
  | true =>
    have plain : ∀ c ∈ '-' :: t, Plain c := by
      intro c hc
      rcases List.mem_cons.1 hc with rfl | hc
      · exact ⟨by decide, by decide, by decide⟩
      · exact plain_of_pointed h c hc
    have sign : splitSign ('-' :: t) = (true, t) := rfl
    show read? ('-' :: t) = _
    rw [read?_eq_readAscii plain, readAscii_of_splitSign sign h]

end Decimal

theorem UnsignedNumeral.signed {t : Text} (h : UnsignedNumeral t) (negative : Bool) :
    Numeral (Decimal.signed negative t) := by
  cases negative with
  | false => exact .unsigned h
  | true => exact .negative h

/-! ### Leading zeros -/

theorem UnsignedNumeral.zero_cons {t : Text} (h : UnsignedNumeral t) :
    UnsignedNumeral ('0' :: t) ∧ Decimal.readUnsigned ('0' :: t) = Decimal.readUnsigned t := by
  have zero : Digits ['0'] := by simp [Digits]
  cases h with
  | whole nonempty digits =>
    have digits' := zero.append digits
    refine ⟨.whole (List.cons_ne_nil _ _) digits', ?_⟩
    rw [Decimal.readUnsigned_whole digits nonempty]
    exact (Decimal.readUnsigned_whole digits' (by simp)).trans (by simp [Nat.ofDigitChars_cons])
  | @pointed ds fs nonempty digits fraction =>
    have digits' := zero.append digits
    refine ⟨.pointed (List.cons_ne_nil _ _) digits' fraction, ?_⟩
    rw [Decimal.readUnsigned_pointed digits fraction (by simp [nonempty])]
    exact (Decimal.readUnsigned_pointed digits' fraction (by simp)).trans
      (by simp [Nat.ofDigitChars_cons])
  | @fraction fs nonempty fraction =>
    refine ⟨.pointed (List.cons_ne_nil _ _) zero fraction, ?_⟩
    have none : Digits [] := by simp [Digits]
    calc Decimal.readUnsigned (['0'] ++ '.' :: fs)
        = some ⟨Nat.ofDigitChars 10 (['0'] ++ fs) 0, -fs.length⟩ :=
          Decimal.readUnsigned_pointed zero fraction (by simp)
      _ = some ⟨Nat.ofDigitChars 10 ([] ++ fs) 0, -fs.length⟩ := by simp [Nat.ofDigitChars_cons]
      _ = Decimal.readUnsigned ([] ++ '.' :: fs) :=
          (Decimal.readUnsigned_pointed none fraction (by simpa using nonempty)).symm

/-- A literal without the zeros at the start of its digits; a sign stays. -/
def dropZeros : Text → Text
  | '-' :: t => '-' :: t.dropWhile (· = '0')
  | t => t.dropWhile (· = '0')

theorem dropZeros_pointed {t : Text} (h : Pointed t) : dropZeros t = t.dropWhile (· = '0') := by
  unfold dropZeros
  split
  · exact absurd h (not_pointed_minus _)
  · rfl

/-- Putting zeros back in front of a numeral keeps its value. -/
theorem UnsignedNumeral.of_dropWhile {t : Text} (h : UnsignedNumeral (t.dropWhile (· = '0'))) :
    UnsignedNumeral t ∧
      Decimal.readUnsigned t = Decimal.readUnsigned (t.dropWhile (· = '0')) := by
  induction t with
  | nil => exact ⟨h, rfl⟩
  | cons c t ih =>
    by_cases hc : c = '0'
    · subst hc
      have dropped : ('0' :: t).dropWhile (· = '0') = t.dropWhile (· = '0') := rfl
      rw [dropped] at h ⊢
      obtain ⟨numeral, value⟩ := ih h
      obtain ⟨numeral', value'⟩ := numeral.zero_cons
      exact ⟨numeral', value'.trans value⟩
    · have kept : (c :: t).dropWhile (· = '0') = c :: t := by simp [hc]
      rw [kept] at h ⊢
      exact ⟨h, rfl⟩

theorem UnsignedNumeral.numeral_dropWhile {t : Text} (h : UnsignedNumeral t)
    (digit : ∃ c ∈ t.dropWhile (· = '0'), c.isDigit) :
    UnsignedNumeral (t.dropWhile (· = '0')) := by
  have sub {ds : Text} (digits : Digits ds) : Digits (ds.dropWhile (· = '0')) :=
    fun c hc => digits c ((List.dropWhile_sublist _).subset hc)
  cases h with
  | whole nonempty digits =>
    obtain ⟨c, hc, -⟩ := digit
    exact .whole (List.ne_nil_of_mem hc) (sub digits)
  | fraction nonempty fraction => exact .fraction nonempty fraction
  | @pointed ds fs nonempty digits fraction =>
    rw [List.dropWhile_append] at digit ⊢
    split at digit
    -- All digits before the point are zeros, so the one that is left stands after it.
    · next empty =>
      rw [if_pos empty]
      have point : ('.' :: fs).dropWhile (· = '0') = '.' :: fs := rfl
      rw [point] at digit ⊢
      obtain ⟨c, hc, isDigit⟩ := digit
      refine .fraction ?_ fraction
      rintro rfl
      obtain rfl : c = '.' := by simpa using hc
      exact absurd isDigit (by decide)
    · next nonempty' =>
      rw [if_neg nonempty']
      exact .pointed (by simpa using nonempty') (sub digits) fraction

/-- A numeral that has a digit left without its leading zeros is still one, with the same value. -/
theorem Numeral.numeral_dropZeros {t : Text} (h : Numeral t)
    (digit : ∃ c ∈ dropZeros t, c.isDigit) :
    Numeral (dropZeros t) ∧ Decimal.read? (dropZeros t) = Decimal.read? t := by
  cases h with
  | unsigned numeral =>
    rw [dropZeros_pointed numeral.pointedText] at digit ⊢
    have left := numeral.numeral_dropWhile digit
    refine ⟨.unsigned left, ?_⟩
    have before := Decimal.read?_signed numeral.pointedText false
    have after := Decimal.read?_signed left.pointedText false
    rw [left.of_dropWhile.2] at before
    exact after.trans before.symm
  | @negative t numeral =>
    obtain ⟨c, hc, isDigit⟩ := digit
    have inside : c ∈ t.dropWhile (· = '0') := by
      rcases List.mem_cons.1 hc with rfl | hc
      · exact absurd isDigit (by decide)
      · exact hc
    have left := numeral.numeral_dropWhile ⟨c, inside, isDigit⟩
    refine ⟨.negative left, ?_⟩
    have before := Decimal.read?_signed numeral.pointedText true
    have after := Decimal.read?_signed left.pointedText true
    rw [left.of_dropWhile.2] at before
    exact after.trans before.symm

/-- The last character stays. -/
theorem getLast?_dropZeros {t : Text} (digit : ∃ c ∈ dropZeros t, c.isDigit) :
    (dropZeros t).getLast? = t.getLast? := by
  have ending {u : Text} (h : u.dropWhile (· = '0') ≠ []) :
      (u.dropWhile (· = '0')).getLast? = u.getLast? := by
    obtain ⟨zeros, split⟩ := List.dropWhile_suffix (l := u) (· = '0')
    calc (u.dropWhile (· = '0')).getLast?
        = ((u.dropWhile (· = '0')).getLast?.or zeros.getLast?) := by
          rw [List.getLast?_eq_some_getLast h, Option.some_or]
      _ = u.getLast? := by rw [← List.getLast?_append, split]
  obtain ⟨c, hc, isDigit⟩ := digit
  unfold dropZeros at hc ⊢
  split at hc
  · next u =>
    have inside : c ∈ u.dropWhile (· = '0') := by
      rcases List.mem_cons.1 hc with rfl | hc
      · exact absurd isDigit (by decide)
      · exact hc
    have nonempty := List.ne_nil_of_mem inside
    have nonempty' : u ≠ [] := by
      rintro rfl
      exact nonempty rfl
    rw [List.getLast?_cons_of_ne_nil nonempty, List.getLast?_cons_of_ne_nil nonempty', ending nonempty]
  · exact ending (List.ne_nil_of_mem hc)

end DeskCalc
