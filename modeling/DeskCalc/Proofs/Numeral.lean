import DeskCalc.Expression
import DeskCalc.Token.Row
import Mathlib.Data.List.TakeWhile

/-! Which literals are numbers.  A numeral is an optional minus sign, digits with at most one point
among them and a digit at least.  On a text of digits and points after an optional sign, the reader
of numbers accepts exactly the numerals. -/

namespace DeskCalc

def Digits (t : Text) : Prop := ∀ c ∈ t, c.isDigit

/-- A number without a sign: digits, digits with a point after them and perhaps more digits, or a point
with digits after it. -/
inductive UnsignedNumeral : Text → Prop
  | whole {ds : Text} (nonempty : ds ≠ []) (digits : Digits ds) : UnsignedNumeral ds
  | pointed {ds fs : Text} (nonempty : ds ≠ []) (digits : Digits ds) (fraction : Digits fs) :
      UnsignedNumeral (ds ++ '.' :: fs)
  | fraction {fs : Text} (nonempty : fs ≠ []) (fraction : Digits fs) : UnsignedNumeral ('.' :: fs)

/-- A number, perhaps with a minus sign. -/
inductive Numeral : Text → Prop
  | unsigned {t : Text} (h : UnsignedNumeral t) : Numeral t
  | negative {t : Text} (h : UnsignedNumeral t) : Numeral ('-' :: t)

/-- Digits and points. -/
def Pointed (t : Text) : Prop := ∀ c ∈ t, c.isDigit ∨ c = '.'

namespace Decimal

/-! ### Numbers without a sign -/

theorem takeWhile_digits {ds rest : Text} (h : Digits ds) :
    (ds ++ '.' :: rest).takeWhile Char.isDigit = ds := by
  rw [List.takeWhile_append_of_pos h, List.takeWhile_cons, if_neg (by decide), List.append_nil]

theorem dropWhile_digits {ds rest : Text} (h : Digits ds) :
    (ds ++ '.' :: rest).dropWhile Char.isDigit = '.' :: rest := by
  rw [List.dropWhile_append_of_pos h, List.dropWhile_cons, if_neg (by decide)]

/-- A text of digits and points has no point, or one after its first digits. -/
theorem pointed_cases {t : Text} (h : Pointed t) :
    Digits t ∨ ∃ ds rest, t = ds ++ '.' :: rest ∧ Digits ds ∧ Pointed rest := by
  induction t with
  | nil => exact .inl (by simp [Digits])
  | cons c t ih =>
    have ht : Pointed t := fun d hd => h d (by simp [hd])
    rcases h c (by simp) with hc | rfl
    · rcases ih ht with digits | ⟨ds, rest, rfl, digits, pointed⟩
      · exact .inl (by simpa [Digits, hc] using digits)
      · exact .inr ⟨c :: ds, rest, rfl, by simpa [Digits, hc] using digits, pointed⟩
    · exact .inr ⟨[], t, rfl, by simp [Digits], ht⟩

theorem isSome_readUnsigned_whole {ds : Text} (h : Digits ds) :
    (readUnsigned ds).isSome ↔ ds ≠ [] := by
  have taken : ds.takeWhile Char.isDigit = ds := List.takeWhile_eq_self_iff.2 h
  have dropped : ds.dropWhile Char.isDigit = [] := List.dropWhile_eq_nil_iff.2 h
  cases ds with
  | nil => simp [readUnsigned, splitFraction]
  | cons c ds => simp [readUnsigned, taken, dropped, splitFraction, readExponent]

theorem isSome_readUnsigned_pointed {ds fs : Text} (hd : Digits ds) (hf : Digits fs) :
    (readUnsigned (ds ++ '.' :: fs)).isSome ↔ ds ++ fs ≠ [] := by
  have taken : fs.takeWhile Char.isDigit = fs := List.takeWhile_eq_self_iff.2 hf
  have dropped : fs.dropWhile Char.isDigit = [] := List.dropWhile_eq_nil_iff.2 hf
  simp only [readUnsigned, takeWhile_digits hd, dropWhile_digits hd, splitFraction, taken, dropped]
  cases ds ++ fs <;> simp [readExponent]

/-- No exponent begins with a point, so a second point is left over. -/
theorem readUnsigned_two_points {ds fs rest : Text} (hd : Digits ds) (hf : Digits fs) :
    readUnsigned (ds ++ '.' :: (fs ++ '.' :: rest)) = none := by
  have none : readExponent ('.' :: rest) = none := by simp [readExponent]
  simp only [readUnsigned, takeWhile_digits hd, dropWhile_digits hd, splitFraction,
    takeWhile_digits hf, dropWhile_digits hf, none]
  split <;> rfl

end Decimal

theorem Digits.count_point {t : Text} (h : Digits t) : t.count '.' = 0 := by
  rw [List.count_eq_zero]
  intro hp
  exact absurd (h '.' hp) (by decide)

namespace UnsignedNumeral

theorem exists_digit {t : Text} (h : UnsignedNumeral t) : ∃ c ∈ t, c.isDigit := by
  cases h with
  | whole nonempty digits =>
    obtain ⟨c, hc⟩ := List.exists_mem_of_ne_nil _ nonempty
    exact ⟨c, hc, digits c hc⟩
  | pointed nonempty digits fraction =>
    obtain ⟨c, hc⟩ := List.exists_mem_of_ne_nil _ nonempty
    exact ⟨c, by simp [hc], digits c hc⟩
  | fraction nonempty fraction =>
    obtain ⟨c, hc⟩ := List.exists_mem_of_ne_nil _ nonempty
    exact ⟨c, by simp [hc], fraction c hc⟩

theorem count_point_le {t : Text} (h : UnsignedNumeral t) : t.count '.' ≤ 1 := by
  cases h with
  | whole nonempty digits => simp [digits.count_point]
  | pointed nonempty digits fraction => simp [digits.count_point, fraction.count_point]
  | fraction nonempty fraction => simp [fraction.count_point]

theorem pointedText {t : Text} (h : UnsignedNumeral t) : Pointed t := by
  cases h with
  | whole nonempty digits => exact fun c hc => .inl (digits c hc)
  | pointed nonempty digits fraction =>
    intro c hc
    simp only [List.mem_append, List.mem_cons] at hc
    rcases hc with hc | rfl | hc
    · exact .inl (digits c hc)
    · exact .inr rfl
    · exact .inl (fraction c hc)
  | fraction nonempty fraction =>
    intro c hc
    rcases List.mem_cons.1 hc with rfl | hc
    · exact .inr rfl
    · exact .inl (fraction c hc)

end UnsignedNumeral

namespace Decimal

/-- Of the texts of digits and points, the reader accepts the numbers without a sign. -/
theorem isSome_readUnsigned {t : Text} (h : Pointed t) :
    (readUnsigned t).isSome ↔ UnsignedNumeral t := by
  rcases pointed_cases h with digits | ⟨ds, rest, rfl, digits, pointed⟩
  · rw [isSome_readUnsigned_whole digits]
    constructor
    · exact fun nonempty => .whole nonempty digits
    · rintro numeral rfl
      obtain ⟨c, hc, -⟩ := numeral.exists_digit
      exact absurd hc (by simp)
  · rcases pointed_cases pointed with digits' | ⟨fs, more, rfl, digits', -⟩
    · rw [isSome_readUnsigned_pointed digits digits']
      constructor
      · intro nonempty
        by_cases hd : ds = []
        · subst hd
          exact .fraction nonempty digits'
        · exact .pointed hd digits digits'
      · intro numeral empty
        obtain ⟨rfl, rfl⟩ := List.append_eq_nil_iff.1 empty
        obtain ⟨c, hc, digit⟩ := numeral.exists_digit
        obtain rfl : c = '.' := by simpa using hc
        exact absurd digit (by decide)
    · rw [readUnsigned_two_points digits digits']
      constructor
      · exact fun h => absurd h (by simp)
      · intro numeral
        have := numeral.count_point_le
        simp only [List.count_append, List.count_cons_self] at this
        omega

/-! ### The text around a number -/

/-- A character that is read as it stands, wherever it is: one of ASCII, no padding and no
underscore. -/
structure Plain (c : Char) : Prop where
  ascii : c.toNat < 128
  notPadding : isPadding c = false
  notUnderscore : c ≠ '_'

theorem mapM_toAscii? {t : Text} (h : ∀ c ∈ t, Plain c) : t.mapM toAscii? = some t := by
  induction t with
  | nil => rfl
  | cons c t ih =>
    have hc : toAscii? c = some c := if_pos (h c (by simp)).ascii
    rw [List.mapM_cons, hc, ih fun d hd => h d (by simp [hd])]
    rfl

theorem dropUnderscores_eq {t : Text} {previous : Char} (h : ∀ c ∈ t, Plain c)
    (hp : previous ≠ '_') : dropUnderscores previous t = some t := by
  induction t generalizing previous with
  | nil => simp [dropUnderscores, hp]
  | cons c t ih =>
    have hc := (h c (by simp)).notUnderscore
    simp [dropUnderscores, hc, hp, ih (fun d hd => h d (by simp [hd])) hc]

theorem dropWhile_isPadding {t : Text} (h : ∀ c ∈ t, Plain c) : t.dropWhile isPadding = t := by
  cases t with
  | nil => rfl
  | cons c t =>
    rw [List.dropWhile_cons, (h c (by simp)).notPadding]
    rfl

/-- Plain characters are read as they stand. -/
theorem read?_eq_readAscii {t : Text} (h : ∀ c ∈ t, Plain c) : read? t = readAscii t := by
  have ending : Text.dropEnd isPadding t = t := by
    rw [Text.dropEnd, dropWhile_isPadding (fun c hc => h c (by simpa using hc)), List.reverse_reverse]
  simp [read?, mapM_toAscii? h, dropWhile_isPadding h, ending, dropUnderscores_eq h]

theorem toNat_of_isDigit {c : Char} (h : c.isDigit) : 48 ≤ c.toNat ∧ c.toNat ≤ 57 := by
  simp only [Char.isDigit, Bool.and_eq_true, decide_eq_true_eq, ge_iff_le, UInt32.le_iff_toNat_le] at h
  exact h

theorem plain_of_isDigit {c : Char} (h : c.isDigit) : Plain c := by
  have := toNat_of_isDigit h
  refine ⟨by omega, ?_, ?_⟩
  · have notSpace : c ≠ ' ' := by
      rintro rfl
      exact absurd h (by decide)
    simp only [isPadding, notSpace, decide_false, Bool.false_or, Bool.and_eq_false_iff,
      decide_eq_false_iff_not]
    omega
  · rintro rfl
    exact absurd h (by decide)

theorem plain_of_pointed {t : Text} (h : Pointed t) : ∀ c ∈ t, Plain c := by
  intro c hc
  rcases h c hc with digit | rfl
  · exact plain_of_isDigit digit
  · exact ⟨by decide, by decide, by decide⟩

theorem toLower_of_isDigit {c : Char} (h : c.isDigit) : c.toLower = c := by
  refine dif_neg fun ⟨low, _⟩ => ?_
  have low : 65 ≤ c.toNat := UInt32.le_iff_toNat_le.1 low
  have := toNat_of_isDigit h
  omega

theorem map_toLower_of_pointed {t : Text} (h : Pointed t) : t.map Char.toLower = t := by
  calc t.map Char.toLower = t.map id := by
        refine List.map_congr_left fun c hc => ?_
        rcases h c hc with digit | rfl
        · exact toLower_of_isDigit digit
        · decide
    _ = t := List.map_id t

theorem ne_of_pointed {t word : Text} (h : Pointed t) {c : Char} (hc : c ∈ word)
    (letter : ¬ (c.isDigit ∨ c = '.')) : t ≠ word := by
  rintro rfl
  exact letter (h c hc)

theorem splitSign_of_pointed {t : Text} (h : Pointed t) : splitSign t = (false, t) := by
  unfold splitSign
  split
  · exact absurd (h '-' (by simp)) (by decide)
  · exact absurd (h '+' (by simp)) (by decide)
  · rfl

/-- With its sign taken off, a text of digits and points is read as a number without a sign. -/
theorem readAscii_of_splitSign {t u : Text} {negative : Bool} (sign : splitSign t = (negative, u))
    (h : Pointed u) : readAscii t = (readUnsigned u).map (toFloat negative) := by
  have notInf : u ≠ "inf".toList := ne_of_pointed h (c := 'i') (by decide) (by decide)
  have notInfinity : u ≠ "infinity".toList := ne_of_pointed h (c := 'i') (by decide) (by decide)
  have notNan : u ≠ "nan".toList := ne_of_pointed h (c := 'n') (by decide) (by decide)
  simp only [readAscii, sign, map_toLower_of_pointed h, notInf, notInfinity, notNan, decide_false,
    Bool.or_self, Bool.false_eq_true, if_false]

end Decimal

/-! ### Literals -/

theorem RawLiteral.cases {t : Text} (raw : RawLiteral t) :
    Pointed t ∨ ∃ u, t = '-' :: u ∧ Pointed u := by
  cases t with
  | nil => exact raw.elim
  | cons c t =>
    obtain ⟨first, others⟩ := raw
    have pointed : Pointed t := others
    rcases first with digit | rfl | rfl
    · exact .inl fun d hd => (List.mem_cons.1 hd).elim (fun h => .inl (h ▸ digit)) (pointed d)
    · exact .inl fun d hd => (List.mem_cons.1 hd).elim .inr (pointed d)
    · exact .inr ⟨t, rfl, pointed⟩

theorem not_pointed_minus (t : Text) : ¬ Pointed ('-' :: t) :=
  fun h => absurd (h '-' (by simp)) (by decide)

theorem numeral_iff_unsigned {t : Text} (h : Pointed t) : Numeral t ↔ UnsignedNumeral t := by
  refine ⟨fun numeral => ?_, .unsigned⟩
  cases numeral with
  | unsigned numeral => exact numeral
  | negative => exact absurd h (not_pointed_minus _)

theorem numeral_minus_iff {t : Text} : Numeral ('-' :: t) ↔ UnsignedNumeral t := by
  refine ⟨fun numeral => ?_, .negative⟩
  generalize hu : '-' :: t = u at numeral
  cases numeral with
  | unsigned numeral => exact absurd numeral.pointedText (hu ▸ not_pointed_minus t)
  | negative numeral =>
    obtain rfl := (List.cons.inj hu).2
    exact numeral

theorem UnsignedNumeral.ne_nil {t : Text} (h : UnsignedNumeral t) : t ≠ [] := by
  rintro rfl
  obtain ⟨c, hc, -⟩ := h.exists_digit
  exact absurd hc (by simp)

theorem Numeral.rawLiteral {t : Text} (h : Numeral t) : RawLiteral t := by
  cases h with
  | negative numeral => exact ⟨.inr (.inr rfl), numeral.pointedText⟩
  | unsigned numeral =>
    have pointed := numeral.pointedText
    cases t with
    | nil => exact numeral.ne_nil rfl
    | cons c t =>
      exact ⟨(pointed c (by simp)).imp_right .inl, fun d hd => pointed d (by simp [hd])⟩

/-- Of the raw literals, the reader accepts the numbers. -/
theorem RawLiteral.isSome_read? {t : Text} (raw : RawLiteral t) :
    (Decimal.read? t).isSome ↔ Numeral t := by
  rcases raw.cases with pointed | ⟨u, rfl, pointed⟩
  · rw [Decimal.read?_eq_readAscii (Decimal.plain_of_pointed pointed),
      Decimal.readAscii_of_splitSign (Decimal.splitSign_of_pointed pointed) pointed,
      Option.isSome_map, Decimal.isSome_readUnsigned pointed, numeral_iff_unsigned pointed]
  · have plain : ∀ c ∈ '-' :: u, Decimal.Plain c := by
      intro c hc
      rcases List.mem_cons.1 hc with rfl | hc
      · exact ⟨by decide, by decide, by decide⟩
      · exact Decimal.plain_of_pointed pointed c hc
    have sign : Decimal.splitSign ('-' :: u) = (true, u) := rfl
    rw [Decimal.read?_eq_readAscii plain, Decimal.readAscii_of_splitSign sign pointed,
      Option.isSome_map, Decimal.isSome_readUnsigned pointed, numeral_minus_iff]

namespace Expression

theorem exists_parseLiteral_iff {t : Text} (raw : RawLiteral t) :
    (∃ v, parseLiteral t = .ok v) ↔ Numeral t := by
  rw [← raw.isSome_read?, parseLiteral]
  cases Decimal.read? t <;> simp

/-- The only error of a literal is that it is malformed. -/
theorem parseLiteral_eq_error_iff {t : Text} (raw : RawLiteral t) {e : ParseError} :
    parseLiteral t = .error e ↔ ¬ Numeral t ∧ e = .malformedNumber t := by
  rw [← raw.isSome_read?, parseLiteral]
  cases Decimal.read? t <;> simp [eq_comm]

end Expression

end DeskCalc
