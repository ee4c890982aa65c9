import ResourceQuery.Calendar.Reading
import ResourceQuery.Number.Numeral
import ResourceQuery.Proofs.Number.Forms

/-!
# Written digits

Numbers are written with the ten digits of ASCII, and every reader of digits knows these.

* `digitValues`, `digitsValue_digitValues`: the values of the digits of a text, and its value as a
  number;
* `takeDigits_append`, `Calendar.takeNumber?_append`: digits at the front of a text;
* `length_padded`, `ofDigitChars_padded`: numbers with zeros in front;
* `readInteger?_toString`: an integer that is written with no more digits than can be read is read
  again.
-/

namespace ResourceQuery

open Text

/-! ## Digits -/

section Digits

variable {c : Char} {chars rest : List Char}

theorem asciiDigit?_eq (c : Char) :
    asciiDigit? c = if c.isDigit then some (c.toNat - 48) else none :=
  if_congr Char.isDigit_iff_toNat.symm rfl rfl

theorem asciiDigit?_of_isDigit (h : c.isDigit) : asciiDigit? c = some (c.toNat - 48) := by
  rw [asciiDigit?_eq, if_pos h]

theorem digitValue?_of_isDigit (h : c.isDigit) : digitValue? c = some (c.toNat - 48) := by
  obtain ⟨hlow, hhigh⟩ := Char.isDigit_iff_toNat.1 h
  rw [digitValue?, zeros, List.find?_cons_of_pos (by simpa using ⟨hlow, hhigh⟩)]
  rfl

/-- The values of the digits of a text. -/
def digitValues (chars : List Char) : List ℕ := chars.map (·.toNat - 48)

theorem digitValues_ne_nil (h : chars ≠ []) : digitValues chars ≠ [] := by
  rwa [digitValues, ne_eq, List.map_eq_nil_iff]

theorem digitsValue_digitValues (chars : List Char) :
    digitsValue (digitValues chars) = Nat.ofDigitChars 10 chars 0 := by
  rw [digitsValue, digitValues, List.foldl_map, Nat.ofDigitChars_eq_foldl]
  rfl

theorem allDigits?_eq {value? : Char → Option ℕ}
    (hvalue : ∀ c, c.isDigit → value? c = some (c.toNat - 48)) (h : ∀ c ∈ chars, c.isDigit) :
    allDigits? value? chars = some (digitValues chars) := by
  induction chars with
  | nil => rfl
  | cons c chars ih =>
    rw [List.forall_mem_cons] at h
    exact Input.allDigits?_cons.2 ⟨_, _, hvalue c h.1, ih h.2, rfl⟩

/-- Digits at the front of a text end where no digit follows. -/
theorem takeDigits_append (h : ∀ c ∈ chars, c.isDigit) (hrest : ∀ c ∈ rest.head?, ¬c.isDigit) :
    takeDigits (chars ++ rest) = (digitValues chars, rest) := by
  induction chars with
  | nil =>
    cases rest with
    | nil => rfl
    | cons c rest =>
      have hc : asciiDigit? c = none := by rw [asciiDigit?_eq, if_neg (hrest c rfl)]
      rw [List.nil_append, takeDigits, hc]
      rfl
  | cons c chars ih =>
    rw [List.forall_mem_cons] at h
    rw [List.cons_append, takeDigits, asciiDigit?_of_isDigit h.1, ih h.2]
    rfl

/-- As many digits as are asked for are taken from the front of a text. -/
theorem Calendar.takeNumber?_append {count : ℕ} (h : ∀ c ∈ chars, c.isDigit)
    (hcount : chars.length = count) :
    takeNumber? count (chars ++ rest) = some (Nat.ofDigitChars 10 chars 0, rest) := by
  have hdigits : chars.mapM asciiDigit? = some (digitValues chars) :=
    allDigits?_eq (fun _ => asciiDigit?_of_isDigit) h
  rw [takeNumber?, ← hcount, List.take_left, List.drop_left, if_neg (lt_irrefl _), hdigits,
    ← digitsValue_digitValues]
  rfl

theorem ungrouped?_eq_self {isDigit : Char → Bool} {before : Bool} (h : '_' ∉ chars) :
    ungrouped? isDigit before chars = some chars := by
  induction chars generalizing before with
  | nil => rfl
  | cons c chars ih =>
    rw [List.mem_cons, not_or] at h
    rw [Input.ungrouped?_cons (Ne.symm h.1), ih h.2]
    rfl

end Digits

/-! ## Signs -/

/-- The sign of a negative number. -/
def signChars (negative : Bool) : List Char := if negative then ['-'] else []

theorem mem_signChars {negative : Bool} {c : Char} (h : c ∈ signChars negative) : c = '-' := by
  cases negative with
  | true => exact List.mem_singleton.1 h
  | false => cases h

theorem exists_head?_isDigit {chars : List Char} (hne : chars ≠ []) (h : ∀ c ∈ chars, c.isDigit)
    (rest : List Char) : ∃ c ∈ (chars ++ rest).head?, c.isDigit := by
  obtain ⟨c, tail, rfl⟩ := List.exists_cons_of_ne_nil hne
  exact ⟨c, rfl, h c (List.mem_cons_self ..)⟩

/-- A sign before a digit is taken from the front of a text. -/
theorem takeSign_signChars (negative : Bool) {chars : List Char}
    (h : ∃ c ∈ chars.head?, c.isDigit) :
    takeSign (signChars negative ++ chars) = (negative, chars) := by
  obtain ⟨c, hc, hdigit⟩ := h
  cases negative with
  | true => rfl
  | false =>
    show takeSign chars = (false, chars)
    unfold takeSign
    split
    · exact absurd (Option.some.inj hc ▸ hdigit) (by decide)
    · exact absurd (Option.some.inj hc ▸ hdigit) (by decide)
    · rfl

/-! ## Zeros in front -/

section Padded

variable {width n : ℕ}

theorem isDigit_of_mem_toDigits {c : Char} (h : c ∈ Nat.toDigits 10 n) : c.isDigit :=
  Nat.isDigit_of_mem_toDigits (by decide) (by decide) h

theorem isDigit_of_mem_padded {c : Char} (h : c ∈ padded width n) : c.isDigit := by
  rcases List.mem_append.1 h with h | h
  · rw [List.eq_of_mem_replicate h]
    rfl
  · exact isDigit_of_mem_toDigits h

theorem length_toDigits_le (hwidth : 0 < width) (h : n < 10 ^ width) :
    (Nat.toDigits 10 n).length ≤ width :=
  (Nat.length_toDigits_le_iff (by decide) hwidth).2 h

theorem length_padded (hwidth : 0 < width) (h : n < 10 ^ width) :
    (padded width n).length = width := by
  have hle := length_toDigits_le hwidth h
  rw [padded, List.length_append, List.length_replicate]
  omega

theorem padded_ne_nil (width n : ℕ) : padded width n ≠ [] :=
  List.append_ne_nil_of_right_ne_nil _ Nat.toDigits_ne_nil

theorem ofDigitChars_padded (width n : ℕ) : Nat.ofDigitChars 10 (padded width n) 0 = n := by
  rw [padded, Nat.ofDigitChars_append, Nat.ofDigitChars_replicate_zero, Nat.mul_zero,
    Nat.ofDigitChars_ten_toDigits]

/-- A number of a given width is taken from the front of a text. -/
theorem Calendar.takeNumber?_padded (hwidth : 0 < width) (h : n < 10 ^ width) (rest : List Char) :
    takeNumber? width (padded width n ++ rest) = some (n, rest) := by
  rw [takeNumber?_append (fun _ => isDigit_of_mem_padded) (length_padded hwidth h),
    ofDigitChars_padded]

end Padded

/-! ## Integers -/

theorem toList_toString (i : ℤ) :
    (toString i).toList = signChars (decide (i < 0)) ++ Nat.toDigits 10 i.natAbs := by
  cases i with
  | ofNat n =>
    show (Nat.repr n).toList = _
    rw [Nat.repr_eq_ofList_toDigits, String.toList_ofList]
    rfl
  | negSucc n =>
    show ("-" ++ Nat.repr (n + 1)).toList = _
    rw [Nat.repr_eq_ofList_toDigits, String.toList_append, decide_eq_true (Int.negSucc_lt_zero n)]
    simp [signChars]

theorem eq_natAbs_of_sign (i : ℤ) :
    (if decide (i < 0) then -(i.natAbs : ℤ) else i.natAbs) = i := by
  by_cases h : i < 0
  · rw [if_pos (decide_eq_true h)]
    omega
  · rw [if_neg (by simpa using h)]
    omega

/-- An integer with no more digits than can be read is read as it is written. -/
theorem readInteger?_toString {i : ℤ} (h : i.natAbs < 10 ^ digitLimit) :
    readInteger? (toString i) = some i := by
  have hdigits : ∀ c ∈ Nat.toDigits 10 i.natAbs, c.isDigit := fun c => isDigit_of_mem_toDigits
  have htrim : trim isWhiteSpace (toString i).toList = (toString i).toList := by
    refine trim_eq_self fun c hc => ?_
    rw [toList_toString] at hc
    rcases List.mem_append.1 hc with hc | hc
    · rw [mem_signChars hc]
      decide
    · rw [Input.isWhiteSpace_of_asciiDigit? (asciiDigit?_of_isDigit (hdigits c hc))]
      exact Bool.false_ne_true
  have hsign : takeSign (toString i).toList = (decide (i < 0), Nat.toDigits 10 i.natAbs) := by
    rw [toList_toString, takeSign_signChars]
    simpa using exists_head?_isDigit Nat.toDigits_ne_nil hdigits []
  have hlength : (digitValues (Nat.toDigits 10 i.natAbs)).length ≤ digitLimit := by
    rw [digitValues, List.length_map]
    exact length_toDigits_le (by decide) h
  have hne : digitValues (Nat.toDigits 10 i.natAbs) ≠ [] := digitValues_ne_nil Nat.toDigits_ne_nil
  simp only [readInteger?, htrim, hsign, ungrouped?_eq_self Nat.underscore_not_in_toDigits,
    allDigits?_eq (fun _ => digitValue?_of_isDigit) hdigits, Option.bind_eq_bind, Option.bind_some,
    digitsValue_digitValues, Nat.ofDigitChars_ten_toDigits]
  rw [if_neg (by simpa using ⟨hne, hlength⟩), eq_natAbs_of_sign]

end ResourceQuery
