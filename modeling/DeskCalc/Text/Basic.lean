/-! Text as a list of characters: every position counts Unicode scalar values.  Here are the parts
that other modules share: decimal numerals, joining, cutting a text at a character, and counting its
bytes. -/

namespace DeskCalc

/-- A text, character by character. -/
abbrev Text := List Char

namespace Text

def ofNat (n : Nat) : Text := Nat.toDigits 10 n

/-- The decimal numeral of an integer, a minus sign before a negative one. -/
def ofInt (n : Int) : Text :=
  if n < 0 then '-' :: ofNat n.natAbs else ofNat n.natAbs

/-- The texts one after another with `separator` between any two. -/
def join (separator : Text) : List Text → Text
  | [] => []
  | [a] => a
  | a :: b :: rest => a ++ separator ++ join separator (b :: rest)

/-- The texts as alternatives: commas between them, and the word `or` before the last. -/
def alternatives : List Text → Text
  | [] => []
  | [a] => a
  | [a, b] => a ++ " or ".toList ++ b
  | a :: b :: rest => a ++ [',', ' '] ++ alternatives (b :: rest)

/-- The pieces of a text between the occurrences of `c`; there is always one more piece than
occurrence. -/
def cut (c : Char) : Text → List Text
  | [] => [[]]
  | d :: rest =>
    if d = c then [] :: cut c rest
    else match cut c rest with
      | [] => [[d]]
      | piece :: pieces => (d :: piece) :: pieces

theorem cut_cons_self (c : Char) (t : Text) : cut c (c :: t) = [] :: cut c t := if_pos rfl

theorem cut_cons_of_ne {c d : Char} (h : d ≠ c) {t piece : Text} {pieces : List Text}
    (ht : cut c t = piece :: pieces) : cut c (d :: t) = (d :: piece) :: pieces := by
  rw [cut, if_neg h, ht]

theorem cut_ne_nil (c : Char) (t : Text) : cut c t ≠ [] := by
  cases t with
  | nil => simp [cut]
  | cons d rest =>
    unfold cut
    split
    · simp
    · split <;> simp

/-- Cutting at a character and joining with it gives the text back. -/
theorem join_cut (c : Char) (t : Text) : join [c] (cut c t) = t := by
  induction t with
  | nil => rfl
  | cons d rest ih =>
    unfold cut
    split
    · next h =>
      obtain ⟨p, ps, hp⟩ := List.exists_cons_of_ne_nil (cut_ne_nil c rest)
      rw [hp] at ih ⊢
      simp [join, ih, h]
    · next h =>
      obtain ⟨p, ps, hp⟩ := List.exists_cons_of_ne_nil (cut_ne_nil c rest)
      rw [hp] at ih ⊢
      cases ps with
      | nil => simpa [join] using ih
      | cons q qs => simpa [join] using ih

/-- A text that ends with the character it is cut at ends with an empty piece. -/
theorem cut_concat (c : Char) (t : Text) : cut c (t ++ [c]) = cut c t ++ [[]] := by
  induction t with
  | nil => simp [cut]
  | cons d rest ih =>
    obtain ⟨p, ps, hp⟩ := List.exists_cons_of_ne_nil (cut_ne_nil c rest)
    simp only [List.cons_append, cut, ih, hp]
    split <;> rfl

/-- A character of a joined text is one of a text or of the separator. -/
theorem mem_join_of_mem {c : Char} {t separator : Text} {texts : List Text} (there : t ∈ texts)
    (h : c ∈ t) : c ∈ join separator texts := by
  induction texts with
  | nil => cases there
  | cons x rest ih =>
    cases rest with
    | nil =>
      obtain rfl := List.mem_singleton.1 there
      exact h
    | cons y rest =>
      rw [join, List.append_assoc]
      rcases List.mem_cons.1 there with rfl | there
      · exact List.mem_append_left _ h
      · exact List.mem_append_right _ (List.mem_append_right _ (ih there))

theorem mem_join {c : Char} {separator : Text} {texts : List Text} (h : c ∈ join separator texts) :
    c ∈ separator ∨ ∃ t ∈ texts, c ∈ t := by
  induction texts with
  | nil => simp [join] at h
  | cons x rest ih =>
    cases rest with
    | nil => exact .inr ⟨x, by simp, by simpa [join] using h⟩
    | cons y rest =>
      simp only [join, List.append_assoc, List.mem_append] at h
      rcases h with h | h | h
      · exact .inr ⟨x, by simp, h⟩
      · exact .inl h
      · rcases ih h with h | ⟨t, ht, hc⟩
        · exact .inl h
        · exact .inr ⟨t, by simp [ht], hc⟩

def byteCount (t : Text) : Nat := t.foldr (fun c n => c.utf8Size + n) 0

@[simp] theorem byteCount_append (t u : Text) : byteCount (t ++ u) = byteCount t + byteCount u := by
  induction t with
  | nil => simp [byteCount]
  | cons c t ih =>
    simp only [byteCount, List.cons_append, List.foldr_cons] at ih ⊢
    omega

/-- The first of the texts that are joined take no more room than all of them. -/
theorem byteCount_join_append (separator : Text) (a b : List Text) :
    byteCount (join separator a) ≤ byteCount (join separator (a ++ b)) := by
  induction a with
  | nil => simp [join, byteCount]
  | cons x rest ih =>
    cases rest with
    | nil => cases b <;> simp [join]
    | cons y rest => simpa [join] using ih

/-- Drops from the end the characters that satisfy `p`. -/
def dropEnd (p : Char → Bool) (t : Text) : Text := (t.reverse.dropWhile p).reverse

end Text

end DeskCalc
