import Mathlib.Data.List.TakeWhile
import Mathlib.Data.Nat.Digits.Defs
import ResourceQuery.Input
import ResourceQuery.Proofs.Outcome
import ResourceQuery.Proofs.Store.CellOrder
import ResourceQuery.Proofs.Text.Trim

/-!
# Integers in other forms

A client may send an integer as a number of another kind or as a text. What counts as an integer,
and as which one, is said here without the order in which the characters are read.

* `Input.Grouped`, `Input.IntegerText`: texts that stand for integers;
* `Input.Denotes`: the integer that a value stands for;
* `Input.wholeNumber?_eq_some`, `Input.integerOfText_eq_ok`: these texts are read, and no others;
* `Input.readInteger_eq_ok`: so are these values.
-/

namespace ResourceQuery

namespace Input

open Text

/-! ## What stands for an integer -/

/-- Digits with single underscores between them, and the values of the digits. -/
inductive Grouped : List Char → List ℕ → Prop
  | last {c : Char} {d : ℕ} (hc : asciiDigit? c = some d) : Grouped [c] [d]
  | digit {c : Char} {d : ℕ} {chars : List Char} {digits : List ℕ} (hc : asciiDigit? c = some d)
      (h : Grouped chars digits) : Grouped (c :: chars) (d :: digits)
  | underscore {c : Char} {d : ℕ} {chars : List Char} {digits : List ℕ}
      (hc : asciiDigit? c = some d) (h : Grouped chars digits) :
      Grouped (c :: '_' :: chars) (d :: digits)

/-- A sign, and whether it makes a number negative. -/
inductive Sign : List Char → Bool → Prop
  | none : Sign [] false
  | plus : Sign ['+'] false
  | minus : Sign ['-'] true

/-- A fraction that is zero: none at all, or a point with zeros. -/
inductive ZeroFraction : List Char → Prop
  | none : ZeroFraction []
  | zeros (count : ℕ) : ZeroFraction ('.' :: List.replicate (count + 1) '0')

/-- Whether a text is an integer with white space around it: a sign, digits, and a fraction that is
zero. -/
def IntegerText (chars : List Char) (i : ℤ) : Prop :=
  ∃ before sign negative whole digits fraction after,
    chars = before ++ (sign ++ (whole ++ fraction)) ++ after ∧
    (∀ c ∈ before, isWhiteSpace c) ∧ (∀ c ∈ after, isWhiteSpace c) ∧
    Sign sign negative ∧ Grouped whole digits ∧ ZeroFraction fraction ∧
    (sign ++ (whole ++ fraction)).length ≤ textLimit ∧
    i = if negative then -((Nat.ofDigits 10 digits.reverse : ℕ) : ℤ)
      else (Nat.ofDigits 10 digits.reverse : ℕ)

/-- The integer that a value stands for. A number with a binary point is within the limits of 64
bits. -/
inductive Denotes : Value → ℤ → Prop
  | bool (b : Bool) : Denotes (.bool b) (if b then 1 else 0)
  | int (i : ℤ) : Denotes (.int i) i
  | float {x : Binary64} {r : ℤ × ℕ} {i : ℤ} (hx : x.ratio? = some r) (hr : r.1 = i * r.2)
      (hlow : -2 ^ 63 < i) (hhigh : i < 2 ^ 63) : Denotes (.float x) i
  | decimal {d : Decimal} {r : ℤ × ℕ} {i : ℤ} (hd : d.ratio? = some r) (hr : r.1 = i * r.2) :
      Denotes (.decimal d) i
  | text {s : String} {i : ℤ} (h : IntegerText s.toList i) : Denotes (.text s) i
  | bytes {bs : List UInt8} {s : String} {i : ℤ} (hs : textOfBytes? bs = some s)
      (h : IntegerText s.toList i) : Denotes (.bytes bs) i

/-! ## Digits -/

section Digits

variable {c : Char} {chars : List Char} {digits : List ℕ}

theorem digitsValue_eq (digits : List ℕ) : digitsValue digits = Nat.ofDigits 10 digits.reverse := by
  induction digits using List.reverseRecOn with
  | nil => rfl
  | append_singleton digits d ih =>
    rw [List.reverse_append, List.reverse_singleton, List.singleton_append, Nat.ofDigits_cons, ← ih,
      digitsValue, List.foldl_append, List.foldl_cons, List.foldl_nil, Nat.add_comm]
    rfl

theorem allDigits?_cons {value? : Char → Option ℕ} :
    allDigits? value? (c :: chars) = some digits ↔
      ∃ d rest, value? c = some d ∧ allDigits? value? chars = some rest ∧ digits = d :: rest := by
  simp only [allDigits?, List.mapM_cons, Option.bind_eq_bind, Option.bind_eq_some_iff,
    Option.pure_def, Option.some.injEq]
  grind

theorem ungrouped?_cons {isDigit : Char → Bool} (hc : c ≠ '_') (before : Bool) :
    ungrouped? isDigit before (c :: chars) =
      (ungrouped? isDigit (isDigit c) chars).map (c :: ·) := by
  rw [ungrouped?]
  · simp_all
  · simp_all

/-- The values of the digits of a text, without the underscores between them. -/
def digits? (before : Bool) (chars : List Char) : Option (List ℕ) :=
  (ungrouped? (fun c => (asciiDigit? c).isSome) before chars).bind (allDigits? asciiDigit?)

theorem digits?_nil (before : Bool) : digits? before [] = some [] := rfl

theorem digits?_cons (hc : c ≠ '_') (before : Bool) :
    digits? before (c :: chars) = some digits ↔
      ∃ d rest, asciiDigit? c = some d ∧ digits? true chars = some rest ∧ digits = d :: rest := by
  simp only [digits?, ungrouped?_cons hc, Option.bind_eq_some_iff, Option.map_eq_some_iff]
  constructor
  · rintro ⟨_, ⟨plain, hplain, rfl⟩, h⟩
    obtain ⟨d, rest, hd, hrest, rfl⟩ := allDigits?_cons.1 h
    rw [hd, Option.isSome_some] at hplain
    exact ⟨d, rest, hd, ⟨plain, hplain, hrest⟩, rfl⟩
  · rintro ⟨d, rest, hd, ⟨plain, hplain, hrest⟩, rfl⟩
    rw [hd, Option.isSome_some]
    exact ⟨c :: plain, ⟨plain, hplain, rfl⟩, allDigits?_cons.2 ⟨d, rest, hd, hrest, rfl⟩⟩

/-- An underscore stands behind a digit and before another one. -/
theorem digits?_underscore (before : Bool) :
    digits? before ('_' :: chars) = some digits ↔
      before = true ∧ chars ≠ [] ∧ digits? false chars = some digits := by
  cases chars with
  | nil => simp [digits?, ungrouped?]
  | cons c chars =>
    have hstep : digits? before ('_' :: c :: chars) =
        (if before && (asciiDigit? c).isSome then
          (ungrouped? (fun c => (asciiDigit? c).isSome) true chars).map (c :: ·) else none).bind
            (allDigits? asciiDigit?) := rfl
    rcases eq_or_ne c '_' with rfl | hc
    · have hnone : digits? false ('_' :: chars) = none := by
        cases chars <;> rfl
      rw [hstep, hnone]
      simp [show asciiDigit? '_' = none from rfl]
    · cases hd : asciiDigit? c with
      | none =>
        rw [hstep, digits?_cons hc]
        simp [hd]
      | some d =>
        rw [hstep, digits?, ungrouped?_cons hc]
        cases before <;> simp [hd]

theorem grouped_cons : Grouped (c :: chars) digits ↔
    ∃ d rest, asciiDigit? c = some d ∧ digits = d :: rest ∧
      (chars = [] ∧ rest = [] ∨ Grouped chars rest ∨
        ∃ chars', chars = '_' :: chars' ∧ Grouped chars' rest) := by
  constructor
  · intro h
    cases h with
    | last hc => exact ⟨_, _, hc, rfl, .inl ⟨rfl, rfl⟩⟩
    | digit hc h => exact ⟨_, _, hc, rfl, .inr (.inl h)⟩
    | underscore hc h => exact ⟨_, _, hc, rfl, .inr (.inr ⟨_, rfl, h⟩)⟩
  · rintro ⟨d, rest, hc, rfl, ⟨rfl, rfl⟩ | h | ⟨chars', rfl, h⟩⟩
    · exact .last hc
    · exact .digit hc h
    · exact .underscore hc h

/-- The digits of a text after another character: there may be none, and one underscore may come
first when that character is a digit. -/
theorem digits?_eq_some {before : Bool} : digits? before chars = some digits ↔
    chars = [] ∧ digits = [] ∨ Grouped chars digits ∨
      before = true ∧ ∃ rest, chars = '_' :: rest ∧ Grouped rest digits := by
  induction chars generalizing before digits with
  | nil =>
    have hnil : ¬Grouped [] digits := nofun
    simp [digits?_nil, hnil, eq_comm]
  | cons c chars ih =>
    rcases eq_or_ne c '_' with rfl | hc
    · have hfirst : ¬Grouped ('_' :: chars) digits := by
        rw [grouped_cons]
        rintro ⟨d, rest, hd, -⟩
        cases hd
      rw [digits?_underscore, ih]
      simp only [hfirst]
      grind [Grouped]
    · simp only [digits?_cons hc, ih, grouped_cons]
      grind

theorem Grouped.ne_nil (h : Grouped chars digits) : digits ≠ [] := by
  cases h <;> exact List.cons_ne_nil _ _

/-- The texts that are read as a number without a sign. -/
theorem wholeNumber?_eq_some {n : ℕ} : wholeNumber? chars = some n ↔
    ∃ digits, Grouped chars digits ∧ n = Nat.ofDigits 10 digits.reverse := by
  have hread : wholeNumber? chars =
      (digits? false chars).bind fun digits =>
        if digits.isEmpty then none else some (digitsValue digits) := by
    rw [digits?, Option.bind_assoc]
    rfl
  rw [hread, Option.bind_eq_some_iff]
  refine exists_congr fun digits => ?_
  rw [digits?_eq_some, digitsValue_eq]
  constructor
  · rintro ⟨⟨rfl, rfl⟩ | h | ⟨hbefore, -⟩, hn⟩
    · cases hn
    · rw [if_neg (by simpa using h.ne_nil)] at hn
      exact ⟨h, (Option.some.inj hn).symm⟩
    · cases hbefore
  · rintro ⟨h, rfl⟩
    exact ⟨.inr (.inl h), if_neg (by simpa using h.ne_nil)⟩

end Digits

/-! ## Texts -/

section Texts

variable {c : Char} {chars whole fraction : List Char} {digits : List ℕ}

theorem Grouped.mem (h : Grouped chars digits) (hc : c ∈ chars) :
    c = '_' ∨ ∃ d, asciiDigit? c = some d := by
  induction h with
  | last hd =>
    rw [List.mem_singleton] at hc
    exact .inr ⟨_, hc ▸ hd⟩
  | digit hd _ ih =>
    rcases List.mem_cons.1 hc with rfl | hc
    · exact .inr ⟨_, hd⟩
    · exact ih hc
  | underscore hd _ ih =>
    rcases List.mem_cons.1 hc with rfl | hc
    · exact .inr ⟨_, hd⟩
    · rcases List.mem_cons.1 hc with rfl | hc
      · exact .inl rfl
      · exact ih hc

theorem Grouped.not_mem (h : Grouped chars digits) (hc : c ≠ '_') (hd : asciiDigit? c = none) :
    c ∉ chars := by
  intro hmem
  rcases h.mem hmem with rfl | ⟨d, hd'⟩
  · exact hc rfl
  · rw [hd] at hd'
    cases hd'

theorem isWhiteSpace_of_asciiDigit? {d : ℕ} (h : asciiDigit? c = some d) :
    isWhiteSpace c = false := by
  unfold asciiDigit? at h
  split at h
  · next hc =>
    have hlow : 48 ≤ c.toNat := hc.1
    have hhigh : c.toNat ≤ 57 := hc.2
    simp only [isWhiteSpace, Bool.or_eq_false_iff, Bool.and_eq_false_iff, decide_eq_false_iff_not,
      beq_eq_false_iff_ne]
    omega
  · cases h

/-- The characters of an integer are no white space. -/
theorem isWhiteSpace_integer {sign : List Char} {negative : Bool} (hsign : Sign sign negative)
    (hwhole : Grouped whole digits) (hfraction : ZeroFraction fraction)
    (hc : c ∈ sign ++ (whole ++ fraction)) : isWhiteSpace c = false := by
  rcases List.mem_append.1 hc with hc | hc
  · cases hsign with
    | none => cases hc
    | plus =>
      rw [List.mem_singleton.1 hc]
      rfl
    | minus =>
      rw [List.mem_singleton.1 hc]
      rfl
  · rcases List.mem_append.1 hc with hc | hc
    · rcases hwhole.mem hc with rfl | ⟨d, hd⟩
      · rfl
      · exact isWhiteSpace_of_asciiDigit? hd
    · cases hfraction with
      | none => cases hc
      | zeros count =>
        rcases List.mem_cons.1 hc with rfl | hc
        · rfl
        · rw [List.eq_of_mem_replicate hc]
          rfl

theorem exists_sign (chars : List Char) :
    ∃ sign, Sign sign (takeSign chars).1 ∧ chars = sign ++ (takeSign chars).2 := by
  unfold takeSign
  split
  · exact ⟨_, .minus, rfl⟩
  · exact ⟨_, .plus, rfl⟩
  · exact ⟨_, .none, rfl⟩

theorem takeSign_append {sign : List Char} {negative : Bool} (hsign : Sign sign negative)
    (hwhole : Grouped whole digits) (rest : List Char) :
    takeSign (sign ++ (whole ++ rest)) = (negative, whole ++ rest) := by
  cases hsign with
  | plus => rfl
  | minus => rfl
  | none =>
    have hplus : '+' ∉ whole := hwhole.not_mem (by decide) rfl
    have hminus : '-' ∉ whole := hwhole.not_mem (by decide) rfl
    cases hwhole <;>
    · simp only [List.mem_cons, not_or] at hplus hminus
      rw [List.nil_append, takeSign]
      · grind
      · grind

/-- The zeros at the end of a text, and what stands before them. -/
theorem exists_zeros (chars : List Char) : ∃ count,
    chars = (chars.reverse.dropWhile (· = '0')).reverse ++ List.replicate count '0' := by
  have hzeros : chars.reverse.takeWhile (· = '0') =
      List.replicate (chars.reverse.takeWhile (· = '0')).length '0' :=
    List.eq_replicate_of_mem fun c hc => by simpa using List.mem_takeWhile_imp hc
  refine ⟨(chars.reverse.takeWhile (· = '0')).length, ?_⟩
  calc
    chars =
        (chars.reverse.takeWhile (· = '0') ++ chars.reverse.dropWhile (· = '0')).reverse := by
          rw [List.takeWhile_append_dropWhile, List.reverse_reverse]
    _ = (chars.reverse.dropWhile (· = '0')).reverse ++
          (chars.reverse.takeWhile (· = '0')).reverse := List.reverse_append
    _ = (chars.reverse.dropWhile (· = '0')).reverse ++
          List.replicate (chars.reverse.takeWhile (· = '0')).length '0' := by
        rw [← List.reverse_replicate, ← hzeros]

theorem exists_fraction (chars : List Char) :
    ∃ fraction, ZeroFraction fraction ∧ chars = dropZeroFraction chars ++ fraction := by
  unfold dropZeroFraction
  split
  · next before hbefore =>
    split
    · next hlast =>
      obtain ⟨count, hcount⟩ := exists_zeros chars
      rw [hbefore, List.reverse_cons, List.append_assoc, List.singleton_append] at hcount
      cases count with
      | zero =>
        rw [hcount] at hlast
        simp at hlast
      | succ count => exact ⟨_, .zeros count, hcount⟩
    · exact ⟨[], .none, (List.append_nil _).symm⟩
  · exact ⟨[], .none, (List.append_nil _).symm⟩

theorem dropZeroFraction_append (hwhole : '.' ∉ whole) (hfraction : ZeroFraction fraction) :
    dropZeroFraction (whole ++ fraction) = whole := by
  cases hfraction with
  | none =>
    rw [List.append_nil, dropZeroFraction]
    split
    · next before hbefore =>
      have hmem : '.' ∈ whole.reverse :=
        (List.dropWhile_sublist _).subset (hbefore ▸ List.mem_cons_self)
      exact absurd (List.mem_reverse.1 hmem) hwhole
    · rfl
  | zeros count =>
    have hdrop : (whole ++ '.' :: List.replicate (count + 1) '0').reverse.dropWhile (· = '0') =
        '.' :: whole.reverse := by
      rw [List.reverse_append, List.reverse_cons, List.reverse_replicate, List.append_assoc,
        List.dropWhile_append_of_pos fun c hc => by simpa using List.eq_of_mem_replicate hc]
      rfl
    have hlast : (whole ++ '.' :: List.replicate (count + 1) '0').getLast? = some '0' := by
      rw [List.replicate_succ', ← List.cons_append, ← List.append_assoc, List.getLast?_concat]
    rw [dropZeroFraction, hdrop]
    simp [hlast]

/-- The texts that are read as an integer, and as which one. -/
theorem integerOfText_eq_ok {i : ℤ} : integerOfText chars = .ok i ↔ IntegerText chars i := by
  constructor
  · intro h
    obtain ⟨before, after, hchars, hbefore, hafter⟩ := exists_trim isWhiteSpace chars
    obtain ⟨sign, hsign, hbody⟩ := exists_sign (trim isWhiteSpace chars)
    obtain ⟨fraction, hfraction, hnumber⟩ :=
      exists_fraction (takeSign (trim isWhiteSpace chars)).2
    unfold integerOfText at h
    dsimp only at h
    split at h
    · cases h
    · next hlimit =>
      split at h
      · next n hn =>
        obtain ⟨digits, hdigits, rfl⟩ := wholeNumber?_eq_some.1 hn
        rw [hnumber] at hbody
        refine ⟨before, sign, _, _, digits, fraction, after, hbody ▸ hchars, hbefore, hafter, hsign,
          hdigits, hfraction, hbody ▸ not_lt.1 hlimit, (Except.ok.inj h).symm⟩
      · cases h
  · rintro ⟨before, sign, negative, whole, digits, fraction, after, rfl, hbefore, hafter, hsign,
      hdigits, hfraction, hlimit, rfl⟩
    have hinteger : ∀ c ∈ sign ++ (whole ++ fraction), ¬isWhiteSpace c := fun c hc => by
      rw [isWhiteSpace_integer hsign hdigits hfraction hc]
      decide
    have htrim := trim_append hbefore (fun c hc => hinteger c (List.mem_of_mem_head? hc))
      (fun c hc => hinteger c (List.mem_of_mem_getLast? hc)) hafter
    unfold integerOfText
    rw [htrim, if_neg (not_lt.2 hlimit), takeSign_append hsign hdigits]
    dsimp only
    rw [dropZeroFraction_append (hdigits.not_mem (by decide) rfl) hfraction,
      wholeNumber?_eq_some.2 ⟨digits, hdigits, rfl⟩]

end Texts

/-! ## Numbers of other kinds -/

section Numbers

variable {i : ℤ}

/-- The quotient of a number without rest. -/
theorem quotient_eq_some {num : ℤ} {den : ℕ} (hden : 0 < den) :
    (if num % den = 0 then some (num / den) else none) = some i ↔ num = i * den := by
  have hne : (den : ℤ) ≠ 0 := by omega
  constructor
  · intro h
    split at h
    · next hrest =>
      cases h
      exact (Int.ediv_mul_cancel (Int.dvd_of_emod_eq_zero hrest)).symm
    · cases h
  · rintro rfl
    rw [if_pos (Int.mul_emod_left ..), Int.mul_ediv_cancel _ hne]

theorem integerOfFloat_eq_ok {x : Binary64} : integerOfFloat x = .ok i ↔
    ∃ r, x.ratio? = some r ∧ r.1 = i * r.2 ∧ -2 ^ 63 < i ∧ i < 2 ^ 63 := by
  cases x with
  | nan => simp [integerOfFloat, Binary64.ratio?]
  | infinite negative => simp [integerOfFloat, Binary64.ratio?]
  | finite negative m e =>
    obtain ⟨r, hr, hpos⟩ := Binary64.ratio?_finite negative m e
    have hlimit : floatLimit = 2 ^ 63 := rfl
    have hint : ∀ i, (Binary64.finite negative m e).toInt? = some i ↔ r.1 = i * r.2 := by
      intro i
      rw [Binary64.toInt?, hr, Option.bind_some, quotient_eq_some hpos]
    simp only [integerOfFloat, hr, Option.some.injEq, exists_eq_left', hlimit]
    cases hx : (Binary64.finite negative m e).toInt? with
    | none =>
      have hnone : r.1 ≠ i * r.2 := fun h => by simp [(hint i).2 h] at hx
      simp [hnone]
    | some j =>
      have hj := (hint j).1 hx
      have hsame : r.1 = i * r.2 ↔ j = i := by
        rw [← hint, hx, Option.some_inj]
      dsimp only
      split <;> simp [hsame] <;> omega

theorem ratio?_decimal (negative : Bool) (coefficient : ℕ) (exponent : ℤ) :
    ∃ r, (Decimal.finite negative coefficient exponent).ratio? = some r ∧ 0 < r.2 := by
  refine ⟨_, rfl, ?_⟩
  split
  · exact Nat.one_pos
  · exact Nat.pow_pos (by decide)

theorem integerOfDecimal_eq_ok {d : Decimal} : integerOfDecimal d = .ok i ↔
    ∃ r, d.ratio? = some r ∧ r.1 = i * r.2 := by
  cases d with
  | nan negative signalling diagnostic => simp [integerOfDecimal, Decimal.ratio?]
  | infinite negative => simp [integerOfDecimal, Decimal.ratio?]
  | finite negative coefficient exponent =>
    obtain ⟨r, hr, hpos⟩ := ratio?_decimal negative coefficient exponent
    rw [integerOfDecimal, Decimal.toInt?, hr, Option.bind_some]
    simp only [Option.some.injEq, exists_eq_left', ← quotient_eq_some hpos]
    split <;> simp_all

end Numbers

/-- **What is read as an integer.** A value is read when it stands for an integer, and as that
one. -/
theorem readInteger_eq_ok {v : Value} {i : ℤ} : readInteger v = .ok i ↔ Denotes v i := by
  constructor
  · intro h
    unfold readInteger at h
    split at h
    · cases h
      exact .bool _
    · cases h
      exact .int _
    · obtain ⟨r, hr, hi, hlow, hhigh⟩ := integerOfFloat_eq_ok.1 h
      exact .float hr hi hlow hhigh
    · obtain ⟨r, hr, hi⟩ := integerOfDecimal_eq_ok.1 h
      exact .decimal hr hi
    · exact .text (integerOfText_eq_ok.1 h)
    · split at h
      · next hs => exact .bytes hs (integerOfText_eq_ok.1 h)
      · cases h
    · cases h
  · intro h
    cases h with
    | bool b => rfl
    | int i => rfl
    | float hx hr hlow hhigh => exact integerOfFloat_eq_ok.2 ⟨_, hx, hr, hlow, hhigh⟩
    | decimal hd hr => exact integerOfDecimal_eq_ok.2 ⟨_, hd, hr⟩
    | text h => exact integerOfText_eq_ok.2 h
    | bytes hs h =>
      simp only [readInteger, hs]
      exact integerOfText_eq_ok.2 h

/-- A value stands for no more than one integer. -/
theorem Denotes.unique {v : Value} {i j : ℤ} (hi : Denotes v i) (hj : Denotes v j) : i = j :=
  Except.ok.inj ((readInteger_eq_ok.2 hi).symm.trans (readInteger_eq_ok.2 hj))

end Input

end ResourceQuery
