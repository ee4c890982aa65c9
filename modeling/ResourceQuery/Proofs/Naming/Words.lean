import Mathlib
import ResourceQuery.Naming
import ResourceQuery.Proofs.Text.Trim

/-!
# Words of a name

Names with capitals and names with underscores, character by character.

* `IsSmall`, `IsNameChar`: small letters and digits, and these with capitals;
* `Text.lower_eq_map`, `Text.upperChar_eq`: the case of characters of ASCII;
* `WordEnds`, `wordGap`: where a word ends before a capital, and what is put there;
* `separateWords_cons`, `joinWords_cons`, `joinWords_underscore`: a name with one more character;
* `camelCase_padded`: underscores at the ends of a name stay.
-/

namespace ResourceQuery

open Text

/-! ## Letters and digits -/

/-- Whether a character is a small letter or a digit of ASCII. -/
def IsSmall (c : Char) : Prop := isLowerLetter c ∨ isDigitLetter c

/-- Whether a character is a letter or a digit of ASCII. -/
def IsNameChar (c : Char) : Prop := isUpperLetter c ∨ IsSmall c

instance : DecidablePred IsSmall := fun _ => inferInstanceAs (Decidable (_ ∨ _))

instance : DecidablePred IsNameChar := fun _ => inferInstanceAs (Decidable (_ ∨ _))

section Letters

variable {c : Char}

theorem isLowerLetter_eq (c : Char) : isLowerLetter c = c.isLower := by
  simp [isLowerLetter, Char.isLower, Char.le_def]

theorem isUpperLetter_eq (c : Char) : isUpperLetter c = c.isUpper := by
  simp [isUpperLetter, Char.isUpper, Char.le_def]

theorem isDigitLetter_eq (c : Char) : isDigitLetter c = c.isDigit := by
  simp [isDigitLetter, Char.isDigit, Char.le_def]

theorem IsNameChar.toNat_lt (h : IsNameChar c) : c.toNat < 0x80 := by
  simp only [IsNameChar, IsSmall, isUpperLetter_eq, isLowerLetter_eq, isDigitLetter_eq,
    Char.isUpper, Char.isLower, Char.isDigit, Bool.and_eq_true, decide_eq_true_eq,
    UInt32.le_iff_toNat_le] at h
  simp at h
  omega

theorem IsNameChar.ne_underscore (h : IsNameChar c) : c ≠ '_' := by
  rintro rfl
  exact absurd h (by decide)

theorem IsNameChar.not_underscore (h : IsNameChar c) : ¬isUnderscore c := by
  simpa [isUnderscore] using h.ne_underscore

theorem not_upper_of_lower (h : isLowerLetter c) : ¬isUpperLetter c := by
  rw [isLowerLetter_eq] at h
  rw [isUpperLetter_eq]
  exact Char.not_isUpper_of_isLower h

theorem not_lower_of_digit (h : isDigitLetter c) : ¬isLowerLetter c := by
  simp only [isLowerLetter_eq, isDigitLetter_eq, Char.isLower, Char.isDigit, Bool.and_eq_true,
    decide_eq_true_eq, UInt32.le_iff_toNat_le] at h ⊢
  simp at h ⊢
  omega

theorem IsSmall.not_upper (h : IsSmall c) : ¬isUpperLetter c := by
  rcases h with h | h
  · exact not_upper_of_lower h
  · simp only [isUpperLetter_eq, isDigitLetter_eq, Char.isUpper, Char.isDigit, Bool.and_eq_true,
      decide_eq_true_eq, UInt32.le_iff_toNat_le] at h ⊢
    simp at h ⊢
    omega

theorem IsSmall.isNameChar (h : IsSmall c) : IsNameChar c := .inr h

theorem toLower_of_not_upper (h : ¬isUpperLetter c) : c.toLower = c :=
  Char.toLower_eq_of_not_isUpper (by rwa [← isUpperLetter_eq])

theorem toLower_eq_self_iff : c.toLower = c ↔ ¬isUpperLetter c := by
  refine ⟨fun h hc => ?_, toLower_of_not_upper⟩
  rw [isUpperLetter_eq, ← h, Char.isUpper_toLower_eq_false] at hc
  cases hc

theorem toUpper_of_not_lower (h : ¬isLowerLetter c) : c.toUpper = c :=
  Char.toUpper_eq_of_not_isLower (by rwa [← isLowerLetter_eq])

theorem toUpper_of_upper (h : isUpperLetter c) : c.toUpper = c :=
  toUpper_of_not_lower fun hlower => not_upper_of_lower hlower h

theorem IsNameChar.toLower (h : IsNameChar c) : IsSmall c.toLower := by
  rcases h with h | h
  · left
    rw [isUpperLetter_eq] at h
    rw [isLowerLetter_eq, Char.isLower_toLower_eq_isAlpha, Char.isAlpha, h, Bool.true_or]
  · rwa [toLower_of_not_upper h.not_upper]

theorem IsSmall.upper_toUpper_iff (h : IsSmall c) : isUpperLetter c.toUpper ↔ isLowerLetter c := by
  have hnot := h.not_upper
  rw [isUpperLetter_eq, Bool.not_eq_true] at hnot
  rw [isUpperLetter_eq, Char.isUpper_toUpper_eq_isAlpha, Char.isAlpha, hnot, Bool.false_or,
    isLowerLetter_eq]

theorem IsSmall.toUpper (h : IsSmall c) : IsNameChar c.toUpper := by
  by_cases hlower : isLowerLetter c
  · exact .inl (h.upper_toUpper_iff.2 hlower)
  · rw [toUpper_of_not_lower hlower]
    exact h.isNameChar

theorem IsSmall.toLower_toUpper (h : IsSmall c) : c.toUpper.toLower = c := by
  rw [Char.toLower_toUpper_eq_toLower, toLower_of_not_upper h.not_upper]

end Letters

/-! ## The case of a text -/

namespace Text

variable {c : Char} {chars : List Char}

theorem lowerAfter_eq_map (before : List Char) (h : ∀ c ∈ chars, c.toNat < 0x80) :
    lowerAfter before chars = chars.map Char.toLower := by
  induction chars generalizing before with
  | nil => rfl
  | cons c rest ih =>
    rw [List.forall_mem_cons] at h
    rw [lowerAfter, if_neg (by omega), lowerChar, if_pos h.1, ih _ h.2, List.singleton_append,
      List.map_cons]

theorem lower_eq_map (h : ∀ c ∈ chars, c.toNat < 0x80) : lower chars = chars.map Char.toLower :=
  lowerAfter_eq_map [] h

theorem upperChar_eq (h : c.toNat < 0x80) : upperChar c = [c.toUpper] :=
  if_pos h

end Text

/-! ## Ends of words -/

/-- Whether a word ends between a character and a capital, given what follows the capital. -/
def WordEnds (before : Char) (rest : List Char) : Prop :=
  IsSmall before ∨ isUpperLetter before ∧ ∃ c ∈ rest.head?, isLowerLetter c

/-- What is put between a character and those that follow it. -/
def wordGap (before : Char) : List Char → List Char
  | [] => []
  | c :: rest => if breaksBetween before c rest then ['_'] else []

section Words

variable {before c : Char} {chars rest : List Char}

theorem breaksBetween_iff :
    breaksBetween before c rest ↔ isUpperLetter c ∧ WordEnds before rest := by
  cases rest <;> simp [breaksBetween, WordEnds, IsSmall]

/-- Where no small letter comes next, a word ends as it does at the end of a text. -/
theorem wordEnds_append {back : List Char} (h : ∀ c ∈ back.head?, ¬isLowerLetter c) :
    WordEnds before (rest ++ back) ↔ WordEnds before rest := by
  cases rest with
  | cons c rest => rfl
  | nil =>
    have hback : ¬∃ c ∈ back.head?, isLowerLetter c := fun ⟨c, hc, hlower⟩ => h c hc hlower
    exact or_congr_right (and_congr_right fun _ => iff_of_false hback (by simp))

theorem breaksBetween_append {back : List Char} (h : ∀ c ∈ back.head?, ¬isLowerLetter c) :
    breaksBetween before c (rest ++ back) = breaksBetween before c rest := by
  rw [Bool.eq_iff_iff, breaksBetween_iff, breaksBetween_iff, wordEnds_append h]

theorem separateWords_cons (c : Char) (chars : List Char) :
    separateWords (c :: chars) = c :: (wordGap c chars ++ separateWords chars) := by
  cases chars with
  | nil => rfl
  | cons d rest =>
    rw [separateWords, wordGap]
    split <;> rfl

theorem separateWords_ne_nil (h : chars ≠ []) : separateWords chars ≠ [] := by
  cases chars with
  | nil => exact absurd rfl h
  | cons c rest =>
    rw [separateWords_cons]
    exact List.cons_ne_nil _ _

/-- No underscore comes last. -/
theorem getLast?_separateWords (chars : List Char) :
    (separateWords chars).getLast? = chars.getLast? := by
  induction chars with
  | nil => rfl
  | cons c chars ih =>
    rw [separateWords_cons]
    cases chars with
    | nil => rfl
    | cons d rest =>
      have hne := separateWords_ne_nil (List.cons_ne_nil d rest)
      rw [List.getLast?_cons_cons, ← ih, ← List.cons_append, List.getLast?_append_of_ne_nil _ hne]

theorem mem_wordGap (h : c ∈ wordGap before chars) : c = '_' := by
  cases chars with
  | nil => cases h
  | cons d rest =>
    rw [wordGap] at h
    split at h
    · exact List.mem_singleton.1 h
    · cases h

theorem mem_separateWords (h : c ∈ separateWords chars) : c = '_' ∨ c ∈ chars := by
  induction chars with
  | nil => cases h
  | cons d chars ih =>
    rw [separateWords_cons, List.mem_cons, List.mem_append] at h
    obtain rfl | hgap | hrest := h
    · exact .inr (List.mem_cons_self ..)
    · exact .inl (mem_wordGap hgap)
    · exact (ih hrest).imp_right (List.mem_cons_of_mem d)

/-- What a name of ASCII is stored as. -/
theorem snakeCase_ofList (h : ∀ c ∈ chars, c = '_' ∨ IsNameChar c) :
    snakeCase (String.ofList chars) = String.ofList ((separateWords chars).map Char.toLower) := by
  have hascii : ∀ c, c = '_' ∨ IsNameChar c → c.toNat < 0x80 := by
    rintro c (rfl | hc)
    · decide
    · exact hc.toNat_lt
  rw [snakeCase, String.toList_ofList, lower_eq_map]
  intro c hc
  rcases mem_separateWords hc with rfl | hc
  · exact hascii _ (.inl rfl)
  · exact hascii c (h c hc)

theorem joinWords_cons (hc : c ≠ '_') (chars : List Char) :
    joinWords (c :: chars) = c :: joinWords chars := by
  obtain ⟨first, others, hpieces⟩ := List.exists_cons_of_ne_nil (pieces_ne_nil '_' chars)
  simp only [joinWords, pieces, if_neg hc, hpieces, List.cons_append]

/-- After an underscore all words are capitalized. -/
theorem joinWords_append (chars rest : List Char) :
    joinWords (chars ++ '_' :: rest) =
      joinWords chars ++ (pieces '_' rest).flatMap capitalized := by
  obtain ⟨first, others, hpieces⟩ := List.exists_cons_of_ne_nil (pieces_ne_nil '_' chars)
  simp only [joinWords, pieces_append, hpieces, List.cons_append, List.flatMap_append,
    List.append_assoc]

theorem joinWords_underscore (hc : c ≠ '_') (chars : List Char) :
    joinWords ('_' :: c :: chars) = upperChar c ++ joinWords chars := by
  obtain ⟨first, others, hpieces⟩ := List.exists_cons_of_ne_nil (pieces_ne_nil '_' chars)
  simp only [joinWords, pieces, if_pos, if_neg hc, hpieces, List.flatMap_cons, capitalized,
    List.nil_append, List.append_assoc]

end Words

/-! ## Underscores at the ends -/

section Ends

variable {before core after : List Char}

/-- Underscores around the words stay. -/
theorem camelCase_padded (hcore : core ≠ []) (hbefore : ∀ c ∈ before, isUnderscore c)
    (hhead : ∀ c ∈ core.head?, ¬isUnderscore c) (hlast : ∀ c ∈ core.getLast?, ¬isUnderscore c)
    (hafter : ∀ c ∈ after, isUnderscore c) :
    camelCase (String.ofList (before ++ core ++ after)) =
      String.ofList (before ++ joinWords core ++ after) := by
  have hfront : (before ++ core ++ after).takeWhile isUnderscore = before := by
    rw [List.append_assoc]
    refine takeWhile_append hbefore ?_
    rwa [List.head?_append_of_ne_nil _ hcore]
  have hback : (before ++ core ++ after).reverse.takeWhile isUnderscore = after.reverse := by
    rw [List.reverse_append]
    refine takeWhile_append (fun c hc => hafter c (List.mem_reverse.1 hc)) ?_
    rwa [List.head?_reverse, List.getLast?_append_of_ne_nil _ hcore]
  unfold camelCase
  dsimp only
  rw [String.toList_ofList, trim_append hbefore hhead hlast hafter, hfront, hback,
    List.reverse_reverse, if_neg (by simpa using hcore)]

theorem camelCase_ofList (hcore : core ≠ []) (hhead : ∀ c ∈ core.head?, ¬isUnderscore c)
    (hlast : ∀ c ∈ core.getLast?, ¬isUnderscore c) :
    camelCase (String.ofList core) = String.ofList (joinWords core) := by
  have hpadded := @camelCase_padded [] core [] hcore (by simp) hhead hlast (by simp)
  rwa [List.nil_append, List.append_nil, List.nil_append, List.append_nil] at hpadded

end Ends

end ResourceQuery
