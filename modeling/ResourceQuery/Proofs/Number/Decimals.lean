import ResourceQuery.Number.Decimal
import ResourceQuery.Proofs.Number.Digits

/-!
# Written decimal numbers

A decimal number is written with the point and the power of ten that its exponent calls for. Digits
before the point, digits after it and a power of ten tell the coefficient and the exponent again.

* `pointText`, `powerText`: what follows the digits before the point;
* `takeDecimal?_append`: a decimal number in these parts is read;
* `Decimal.exists_finiteText`: the text of a finite number is in these parts;
* `IsNumberChar`, `map_toAscii_of_isNumberChar`: the characters of a number are neither dropped nor
  replaced;
* `Decimal.read?_text`: a finite number within the limits is read as it is written.
-/

namespace ResourceQuery

open Text

/-! ## Parts of a decimal number -/

/-- Digits after a point, and the point only before a digit. -/
def pointText (fraction : List Char) : List Char :=
  if fraction = [] then [] else '.' :: fraction

/-- A power of ten, where it is not zero. -/
def powerText (power : ℤ) : List Char := if power = 0 then [] else 'E' :: Decimal.signed power

section Parts

variable {whole fraction : List Char} {power : ℤ}

theorem head?_powerText {c : Char} (h : c ∈ (powerText power).head?) : ¬c.isDigit ∧ c ≠ '.' := by
  unfold powerText at h
  split at h
  · cases h
  · obtain rfl := Option.some.inj h
    decide

theorem takeSign_signed (i : ℤ) :
    takeSign (Decimal.signed i) = (decide (i < 0), Nat.toDigits 10 i.natAbs) := by
  unfold Decimal.signed
  by_cases h : i < 0
  · rw [if_pos h, decide_eq_true h]
    rfl
  · rw [if_neg h, decide_eq_false h]
    rfl

theorem takePower?_powerText (power : ℤ) : takePower? (powerText power) = some (power, []) := by
  unfold powerText
  split
  · next h =>
    rw [h]
    rfl
  · have hne : digitValues (Nat.toDigits 10 power.natAbs) ≠ [] :=
      digitValues_ne_nil Nat.toDigits_ne_nil
    obtain ⟨d, digits, hdigits⟩ := List.exists_cons_of_ne_nil hne
    have htake : takeDigits (Nat.toDigits 10 power.natAbs) = (d :: digits, []) := by
      rw [← hdigits, ← takeDigits_append (fun _ => isDigit_of_mem_toDigits) (by simp),
        List.append_nil]
    have hvalue : digitsValue (d :: digits) = power.natAbs := by
      rw [← hdigits, digitsValue_digitValues, Nat.ofDigitChars_ten_toDigits]
    rw [takePower?, if_pos (.inr rfl), takeSign_signed]
    simp only [htake, hvalue, eq_natAbs_of_sign]

/-- Digits without a point. -/
theorem takeDecimal?_whole {rest : List Char} (hne : whole ≠ []) (hwhole : ∀ c ∈ whole, c.isDigit)
    (hrest : ∀ c ∈ rest.head?, ¬c.isDigit ∧ c ≠ '.') : takeDecimal? (whole ++ rest) =
      (takePower? rest).map fun (power, after) => (⟨digitValues whole, [], power⟩, after) := by
  have hsome : (digitValues whole).isEmpty = false :=
    List.isEmpty_eq_false_iff.2 (digitValues_ne_nil hne)
  rw [takeDecimal?, takeDigits_append hwhole fun c hc => (hrest c hc).1]
  dsimp only
  split
  · exact absurd rfl (hrest _ rfl).2
  · rw [if_neg (by simp [hsome])]
    cases takePower? rest <;> rfl

/-- Digits with a point. -/
theorem takeDecimal?_fraction {rest : List Char} (hne : whole ≠ [])
    (hwhole : ∀ c ∈ whole, c.isDigit) (hfraction : ∀ c ∈ fraction, c.isDigit)
    (hrest : ∀ c ∈ rest.head?, ¬c.isDigit) : takeDecimal? (whole ++ '.' :: (fraction ++ rest)) =
      (takePower? rest).map fun (power, after) =>
        (⟨digitValues whole, digitValues fraction, power⟩, after) := by
  have hsome : (digitValues whole).isEmpty = false :=
    List.isEmpty_eq_false_iff.2 (digitValues_ne_nil hne)
  have hpoint : ∀ c ∈ ('.' :: (fraction ++ rest)).head?, ¬c.isDigit := by simp
  simp only [takeDecimal?, takeDigits_append hwhole hpoint, takeDigits_append hfraction hrest,
    hsome]
  cases takePower? rest <;> rfl

/-- Digits with a point and a power of ten are read, and nothing is left. -/
theorem takeDecimal?_append (hne : whole ≠ []) (hwhole : ∀ c ∈ whole, c.isDigit)
    (hfraction : ∀ c ∈ fraction, c.isDigit) (power : ℤ) :
    takeDecimal? (whole ++ (pointText fraction ++ powerText power)) =
      some (⟨digitValues whole, digitValues fraction, power⟩, []) := by
  unfold pointText
  split
  · next hnil =>
    rw [hnil, List.nil_append, takeDecimal?_whole hne hwhole fun _ => head?_powerText,
      takePower?_powerText]
    rfl
  · rw [List.cons_append, takeDecimal?_fraction hne hwhole hfraction
      fun c hc => (head?_powerText hc).1, takePower?_powerText]
    rfl

end Parts

/-! ## The text of a finite number -/

namespace Decimal

/-- Digits with the point in front of the last of them. Zeros stand between when it is in front of
all of them. -/
theorem withPoint_eq {digits : List Char} (hne : digits ≠ []) (hdigits : ∀ c ∈ digits, c.isDigit)
    {place : ℤ} (hlast : place ≤ digits.length) : ∃ whole fraction,
    withPoint digits place = whole ++ pointText fraction ∧
      whole ≠ [] ∧ (∀ c ∈ whole, c.isDigit) ∧ (∀ c ∈ fraction, c.isDigit) ∧
      Nat.ofDigitChars 10 (whole ++ fraction) 0 = Nat.ofDigitChars 10 digits 0 ∧
      (fraction.length : ℤ) = digits.length - place := by
  unfold withPoint
  split
  · next hplace =>
    refine ⟨['0'], List.replicate (-place).toNat '0' ++ digits, ?_, by simp, by simp, ?_, ?_, ?_⟩
    · rw [pointText, if_neg (by simp [hne])]
      rfl
    · intro c hc
      rcases List.mem_append.1 hc with hc | hc
      · rw [List.eq_of_mem_replicate hc]
        rfl
      · exact hdigits c hc
    · rw [List.singleton_append, ← List.cons_append, ← List.replicate_succ,
        Nat.ofDigitChars_append, Nat.ofDigitChars_replicate_zero, Nat.mul_zero]
    · rw [List.length_append, List.length_replicate]
      omega
  · next hpos =>
    split
    · next hplace =>
      have hzeros : place.toNat - digits.length = 0 := by omega
      refine ⟨digits, [], ?_, hne, hdigits, by simp, by rw [List.append_nil], ?_⟩
      · rw [hzeros]
        rfl
      · rw [List.length_nil]
        omega
    · next hinside =>
      have hfraction : digits.drop place.toNat ≠ [] := by
        rw [ne_eq, List.drop_eq_nil_iff]
        omega
      refine ⟨digits.take place.toNat, digits.drop place.toNat, ?_, ?_,
        fun c hc => hdigits c (List.mem_of_mem_take hc),
        fun c hc => hdigits c (List.mem_of_mem_drop hc), ?_, ?_⟩
      · rw [pointText, if_neg hfraction]
      · rw [ne_eq, List.take_eq_nil_iff]
        simp only [hne, or_false]
        omega
      · rw [List.take_append_drop]
      · rw [List.length_drop]
        omega

/-- The text of a finite number is made of digits before the point, digits after it and a power of
ten, which tell its coefficient and its exponent. -/
theorem exists_finiteText (coefficient : ℕ) (exponent : ℤ) : ∃ whole fraction power,
    finiteText coefficient exponent = whole ++ (pointText fraction ++ powerText power) ∧
      whole ≠ [] ∧ (∀ c ∈ whole, c.isDigit) ∧ (∀ c ∈ fraction, c.isDigit) ∧
      Nat.ofDigitChars 10 (whole ++ fraction) 0 = coefficient ∧
      power - fraction.length = exponent := by
  have hpos : 0 < (Nat.toDigits 10 coefficient).length :=
    List.length_pos_iff.2 Nat.toDigits_ne_nil
  set left : ℤ := exponent + (Nat.toDigits 10 coefficient).length with hleft
  set place : ℤ := if exponent ≤ 0 ∧ -6 < left then left else 1 with hplace
  have hlast : place ≤ (Nat.toDigits 10 coefficient).length := by
    split at hplace <;> omega
  obtain ⟨whole, fraction, heq, hne, hwhole, hfraction, hvalue, hlength⟩ :=
    withPoint_eq Nat.toDigits_ne_nil (fun _ => isDigit_of_mem_toDigits) hlast
  refine ⟨whole, fraction, left - place, ?_, hne, hwhole, hfraction, ?_, by omega⟩
  · rw [← List.append_assoc, ← heq]
    simp only [finiteText, powerText, sub_eq_zero, ← hleft, ← hplace]
  · rw [hvalue, Nat.ofDigitChars_ten_toDigits]

end Decimal

/-! ## Characters of numbers -/

/-- Whether a character is one of ASCII that no reader of numbers drops or replaces. -/
def IsNumberChar (c : Char) : Prop := 0x20 < c.toNat ∧ c.toNat < 0x80 ∧ c ≠ '_'

instance (c : Char) : Decidable (IsNumberChar c) := inferInstanceAs (Decidable (_ ∧ _ ∧ _))

section Plain

variable {c : Char} {chars whole fraction : List Char} {power : ℤ}

theorem isNumberChar_of_isDigit (h : c.isDigit) : IsNumberChar c := by
  obtain ⟨hlow, hhigh⟩ : 48 ≤ c.toNat ∧ c.toNat ≤ 57 := Char.isDigit_iff_toNat.1 h
  refine ⟨by omega, by omega, ?_⟩
  rintro rfl
  contradiction

theorem IsNumberChar.isBlank (h : IsNumberChar c) : isBlank c = false := by
  obtain ⟨hlow, hhigh, -⟩ := h
  simp only [Text.isBlank, isWhiteSpace, Bool.or_eq_false_iff, Bool.and_eq_false_iff,
    decide_eq_false_iff_not, beq_eq_false_iff_ne]
  omega

theorem isNumberChar_of_mem_signChars {negative : Bool} (h : c ∈ signChars negative) :
    IsNumberChar c := by
  rw [mem_signChars h]
  decide

theorem isNumberChar_of_mem_powerText (h : c ∈ powerText power) : IsNumberChar c := by
  unfold powerText Decimal.signed at h
  split at h
  · cases h
  · rw [List.mem_cons, List.mem_cons] at h
    obtain rfl | rfl | h := h
    · decide
    · split <;> decide
    · exact isNumberChar_of_isDigit (isDigit_of_mem_toDigits h)

theorem isNumberChar_of_mem_pointText (hfraction : ∀ c ∈ fraction, c.isDigit)
    (h : c ∈ pointText fraction) : IsNumberChar c := by
  unfold pointText at h
  split at h
  · cases h
  · rw [List.mem_cons] at h
    obtain rfl | h := h
    · decide
    · exact isNumberChar_of_isDigit (hfraction c h)

/-- Nothing is dropped from a plain text, and nothing is replaced in it. -/
theorem map_toAscii_of_isNumberChar (h : ∀ c ∈ chars, IsNumberChar c) :
    ((trim isBlank chars).filter (· ≠ '_')).map toAscii = chars := by
  rw [trim_eq_self fun c hc => by rw [(h c hc).isBlank]; exact Bool.false_ne_true,
    List.filter_eq_self.2 fun c hc => decide_eq_true (h c hc).2.2]
  calc
    chars.map toAscii = chars.map id := List.map_congr_left fun c hc => if_pos (h c hc).2.1
    _ = chars := List.map_id chars

theorem toLower_of_isDigit (h : c.isDigit) : c.toLower = c := by
  refine dif_neg fun hupper => ?_
  have hlow : 65 ≤ c.toNat := hupper.1
  have hhigh : c.toNat ≤ 57 := (Char.isDigit_iff_toNat.1 h).2
  omega

/-- What starts with a digit is no word that does not. -/
theorem isWord_eq_false {word : String} {first : Char} (hchars : ∃ c ∈ chars.head?, c.isDigit)
    (hword : word.toList.head? = some first) (hfirst : ¬first.isDigit) :
    isWord word chars = false := by
  obtain ⟨c, hc, hdigit⟩ := hchars
  rw [isWord, beq_eq_false_iff_ne]
  intro heq
  rw [← heq, List.head?_map, hc, Option.map_some, toLower_of_isDigit hdigit] at hword
  exact hfirst (Option.some.inj hword ▸ hdigit)

end Plain

namespace Decimal

/-- A finite number within the limits is read as it is written. -/
theorem read?_text (negative : Bool) {coefficient : ℕ} {exponent : ℤ}
    (h : inRange coefficient exponent) :
    read? (finite negative coefficient exponent).text =
      some (finite negative coefficient exponent) := by
  obtain ⟨whole, fraction, power, htext, hne, hwhole, hfraction, hvalue, hexponent⟩ :=
    exists_finiteText coefficient exponent
  have hnumber : ∀ c ∈ signChars negative ++ finiteText coefficient exponent, IsNumberChar c := by
    intro c hc
    rw [htext, List.mem_append, List.mem_append, List.mem_append] at hc
    obtain hc | hc | hc | hc := hc
    · exact isNumberChar_of_mem_signChars hc
    · exact isNumberChar_of_isDigit (hwhole c hc)
    · exact isNumberChar_of_mem_pointText hfraction hc
    · exact isNumberChar_of_mem_powerText hc
  have hdigit : ∃ c ∈ (finiteText coefficient exponent).head?, c.isDigit := by
    rw [htext]
    exact exists_head?_isDigit hne hwhole _
  have hread : takeDecimal? (finiteText coefficient exponent) =
      some (⟨digitValues whole, digitValues fraction, power⟩, []) := by
    rw [htext, takeDecimal?_append hne hwhole hfraction]
  have hcoefficient : DecimalParts.coefficient
      ⟨digitValues whole, digitValues fraction, power⟩ = coefficient := by
    rw [DecimalParts.coefficient, digitValues, digitValues, ← List.map_append, ← digitValues,
      digitsValue_digitValues, hvalue]
  have hpower :
      DecimalParts.exponent ⟨digitValues whole, digitValues fraction, power⟩ = exponent := by
    rw [DecimalParts.exponent, digitValues, digitValues, List.length_map, hexponent]
  have hinf : isWord "inf" (finiteText coefficient exponent) = false :=
    isWord_eq_false hdigit (rfl : "inf".toList.head? = some 'i') (by decide)
  have hinfinity : isWord "infinity" (finiteText coefficient exponent) = false :=
    isWord_eq_false hdigit (rfl : "infinity".toList.head? = some 'i') (by decide)
  have htoList : (finite negative coefficient exponent).text.toList =
      signChars negative ++ finiteText coefficient exponent := String.toList_ofList
  simp only [read?, htoList, map_toAscii_of_isNumberChar hnumber,
    takeSign_signChars negative hdigit, hinf, hinfinity, hread, hcoefficient, hpower, h,
    Bool.or_false, Bool.false_eq_true, if_false, if_true]

end Decimal

end ResourceQuery
