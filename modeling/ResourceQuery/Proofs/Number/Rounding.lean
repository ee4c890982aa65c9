import Mathlib.Algebra.Order.Group.Abs
import ResourceQuery.Proofs.Number.PageCount

/-!
# Rounded quotients

What it means for a quotient to be rounded to a floating-point number, said about exact rationals,
and the count of pages that comes of it.

* `Binary64.IsValue`: the values of finite floating-point numbers;
* `Binary64.Rounds`: a value is nearest to a quotient, and has an even significand when another one
  is as near;
* `Binary64.Rounds.unique`: there is no more than one such value;
* `Binary64.rounds_roundHalfEven`: the nearest integer in units of the last place is such a value;
* `PageWindow.paginate?_isLeast`: the count of pages.
-/

namespace ResourceQuery

/-! ## The nearest integer -/

section Nearest

variable {num den : ℕ} {k : ℤ}

/-- Where the nearest integer to a quotient lies, and that it is even when it is not the only
one. -/
theorem roundHalfEven_cases (num den : ℕ) :
    roundHalfEven num den = num / den ∧
        (2 * (num % den) < den ∨ 2 * (num % den) = den ∧ Even (num / den)) ∨
      roundHalfEven num den = num / den + 1 ∧
        (den < 2 * (num % den) ∨ 2 * (num % den) = den ∧ Even (num / den + 1)) := by
  unfold roundHalfEven
  dsimp only
  split
  · next h => exact .inl ⟨rfl, .inl h⟩
  · next h =>
    split
    · next h' => exact .inr ⟨rfl, .inl h'⟩
    · next h' =>
      have htie : 2 * (num % den) = den := by omega
      split
      · next heven => exact .inl ⟨rfl, .inr ⟨htie, Nat.even_iff.2 heven⟩⟩
      · next hodd =>
        exact .inr ⟨rfl, .inr ⟨htie, Nat.even_add_one.2 (Nat.even_iff.not.2 hodd)⟩⟩

/-- No other integer is nearer to a quotient, and when one is as near, the nearest one is even. -/
theorem roundHalfEven_nearest (hden : 0 < den) (hne : k ≠ roundHalfEven num den) :
    |(roundHalfEven num den : ℤ) * den - num| ≤ |k * den - num| ∧
      (|k * den - num| = |(roundHalfEven num den : ℤ) * den - num| →
        Even (roundHalfEven num den)) := by
  have hsplit : (num : ℤ) = den * (num / den : ℕ) + (num % den : ℕ) := by
    exact_mod_cast (Nat.div_add_mod num den).symm
  have hmod : num % den < den := Nat.mod_lt num hden
  -- The integers up to the floor and the ones above it lie on either side of the quotient.
  have hbelow : ∀ j : ℤ, j < (num / den : ℕ) → den + (num % den : ℕ) ≤ |j * den - num| := by
    intro j hj
    rw [abs_sub_comm]
    refine le_trans ?_ (le_abs_self _)
    nlinarith
  have habove : ∀ j : ℤ, (num / den : ℕ) + 1 < j → 2 * den - (num % den : ℕ) ≤ |j * den - num| := by
    intro j hj
    refine le_trans ?_ (le_abs_self _)
    nlinarith
  have hfloor : |((num / den : ℕ) : ℤ) * den - num| = (num % den : ℕ) := by
    rw [hsplit, mul_comm, sub_add_cancel_left, abs_neg, Nat.abs_cast]
  have hnext : |((num / den + 1 : ℕ) : ℤ) * den - num| = den - (num % den : ℕ) := by
    rw [hsplit, show ((num / den + 1 : ℕ) : ℤ) * den - (den * (num / den : ℕ) + (num % den : ℕ)) =
      den - (num % den : ℕ) by push_cast; ring, abs_of_nonneg (by omega)]
  obtain ⟨heq, hrest⟩ | ⟨heq, hrest⟩ := roundHalfEven_cases num den <;> rw [heq] at hne ⊢
  · rw [hfloor]
    rcases lt_trichotomy k ((num / den + 1 : ℕ) : ℤ) with hk | rfl | hk
    · have := hbelow k (by push_cast at hk; omega)
      omega
    · rw [hnext]
      refine ⟨by omega, fun htie => ?_⟩
      obtain hlt | ⟨-, heven⟩ := hrest
      · omega
      · exact heven
    · have := habove k (by push_cast at hk; omega)
      omega
  · rw [hnext]
    rcases lt_trichotomy k ((num / den : ℕ) : ℤ) with hk | rfl | hk
    · have := hbelow k hk
      omega
    · rw [hfloor]
      refine ⟨by omega, fun htie => ?_⟩
      obtain hlt | ⟨-, heven⟩ := hrest
      · omega
      · exact heven
    · have := habove k (by push_cast at hne; omega)
      omega

end Nearest

namespace Binary64

/-! ## Values -/

/-- Whether a significand and an exponent are those of a finite number. -/
def InRange (m e : ℤ) : Prop := |m| < 2 ^ 53 ∧ leastExponent ≤ e ∧ e ≤ greatestExponent

instance (m e : ℤ) : Decidable (InRange m e) := inferInstanceAs (Decidable (_ ∧ _ ∧ _))

/-- Whether a quotient is the value of a finite number. -/
def IsValue (x : ℚ) : Prop := ∃ m e : ℤ, InRange m e ∧ x = m * 2 ^ e

/-- Whether a quotient is the value of a finite number with an even significand. The significand has
all its 53 bits, unless the least exponent comes first. -/
def IsEvenValue (x : ℚ) : Prop :=
  ∃ m e : ℤ, InRange m e ∧ (2 ^ 52 ≤ |m| ∨ e = leastExponent) ∧ Even m ∧ x = m * 2 ^ e

/-- Whether a value is what a quotient within the range of the values is rounded to: none is nearer,
and when another one is as near, it is the one with the even significand. -/
structure Rounds (q x : ℚ) : Prop where
  isValue : IsValue x
  nearest : ∀ y, IsValue y → |x - q| ≤ |y - q|
  even : ∀ y, IsValue y → y ≠ x → |y - q| = |x - q| → IsEvenValue x

namespace Rounds

variable {q x y : ℚ}

/-- A value is rounded to itself. -/
theorem of_isValue (h : IsValue q) : Rounds q q where
  isValue := h
  nearest y _ := by simp
  even y _ hne hy := by
    rw [sub_self, abs_zero, abs_eq_zero, sub_eq_zero] at hy
    exact absurd hy hne

/-- Above a number with an even significand there is another one, below every number with an even
significand and no lesser exponent. -/
theorem succ_mul_lt {a b e f : ℤ} (ha : Even a) (hb : Even b) (hle : e ≤ f)
    (hlt : (a : ℚ) * 2 ^ e < b * 2 ^ f) : ((a + 1 : ℤ) : ℚ) * 2 ^ e < b * 2 ^ f := by
  obtain ⟨n, hn⟩ := Int.eq_ofNat_of_zero_le (sub_nonneg.2 hle)
  obtain rfl : f = n + e := by omega
  have hunit : (0 : ℚ) < 2 ^ e := by positivity
  rw [zpow_add₀ two_ne_zero, ← mul_assoc, mul_lt_mul_iff_left₀ hunit] at hlt ⊢
  have hint : a < b * 2 ^ n := by exact_mod_cast hlt
  have heven : Even (b * 2 ^ n) := hb.mul_right _
  have hnext : a + 1 < b * 2 ^ n := by
    obtain ⟨i, rfl⟩ := ha
    obtain ⟨j, hj⟩ := heven
    omega
  exact_mod_cast hnext

/-- Between two numbers with even significands there is another one. -/
theorem exists_isValue_between (hx : IsEvenValue x) (hy : IsEvenValue y) (hlt : x < y) :
    ∃ z, IsValue z ∧ x < z ∧ z < y := by
  obtain ⟨a, e, ⟨ha, he⟩, -, hae, rfl⟩ := hx
  obtain ⟨b, f, ⟨hb, hf⟩, -, hbf, rfl⟩ := hy
  rw [abs_lt] at ha hb
  rcases le_total e f with hle | hle
  · refine ⟨((a + 1 : ℤ) : ℚ) * 2 ^ e, ⟨a + 1, e, ⟨?_, he⟩, rfl⟩, ?_, succ_mul_lt hae hbf hle hlt⟩
    · obtain ⟨i, rfl⟩ := hae
      rw [abs_lt]
      omega
    · have hunit : (0 : ℚ) < 2 ^ e := by positivity
      push_cast
      linarith
  · have hneg : ((-b : ℤ) : ℚ) * 2 ^ f < ((-a : ℤ) : ℚ) * 2 ^ e := by
      push_cast
      linarith
    have hnext := succ_mul_lt hbf.neg hae.neg hle hneg
    refine ⟨((b - 1 : ℤ) : ℚ) * 2 ^ f, ⟨b - 1, f, ⟨?_, hf⟩, rfl⟩, ?_, ?_⟩
    · obtain ⟨i, rfl⟩ := hbf
      rw [abs_lt]
      omega
    · push_cast at hnext ⊢
      linarith
    · have hunit : (0 : ℚ) < 2 ^ f := by positivity
      push_cast
      linarith

/-- **A quotient is rounded to one value.** Two values as near as possible would lie around the
quotient, both with even significands, and a value between them would be nearer. -/
theorem unique (hx : Rounds q x) (hy : Rounds q y) : x = y := by
  by_contra hne
  wlog hlt : x < y generalizing x y
  · exact this hy hx (Ne.symm hne) (lt_of_le_of_ne (not_lt.1 hlt) (Ne.symm hne))
  have hsame : |x - q| = |y - q| := le_antisymm (hx.nearest y hy.isValue) (hy.nearest x hx.isValue)
  have heven := hx.even y hy.isValue (Ne.symm hne) hsame.symm
  have heven' := hy.even x hx.isValue hne hsame
  obtain ⟨z, hz, hxz, hzy⟩ := exists_isValue_between heven heven' hlt
  have hmiddle : x - q = -(y - q) := by
    rcases abs_eq_abs.1 hsame with h | h
    · exact absurd (sub_left_inj.1 h) hne
    · exact h
  have hnear := hx.nearest z hz
  rw [abs_of_neg (by linarith : x - q < 0)] at hnear
  rcases abs_cases (z - q) with ⟨h, -⟩ | ⟨h, -⟩ <;> linarith

end Rounds

/-! ## The nearest integer in units of the last place -/

section Rounded

variable {num den n t : ℕ}

/-- The significand and the exponent of a number of units with 53 bits, or one more unit. -/
theorem exists_significand (hlow : 2 ^ 52 ≤ n) (hhigh : n ≤ 2 ^ 53) (hleast : t ≤ 1074) :
    ∃ m e : ℤ, InRange m e ∧ 2 ^ 52 ≤ |m| ∧ (Even n → Even m) ∧ (n / 2 ^ t : ℚ) = m * 2 ^ e := by
  rcases hhigh.lt_or_eq with hlt | rfl
  · refine ⟨n, -t, ⟨?_, ?_, ?_⟩, ?_, (Int.even_coe_nat n).2, ?_⟩
    · rw [Nat.abs_cast]
      exact_mod_cast hlt
    · rw [leastExponent]
      omega
    · rw [greatestExponent]
      omega
    · rw [Nat.abs_cast]
      exact_mod_cast hlow
    · rw [zpow_neg, zpow_natCast, div_eq_mul_inv, Int.cast_natCast]
  · refine ⟨2 ^ 52, -t + 1, ⟨by norm_num, ?_, ?_⟩, by norm_num, fun _ => by decide, ?_⟩
    · rw [leastExponent]
      omega
    · rw [greatestExponent]
      omega
    · rw [zpow_add₀ two_ne_zero, zpow_neg, zpow_natCast]
      push_cast
      ring

/-- A value is a number of units, or has less than 53 bits of them. -/
theorem IsValue.units_or_lt {y : ℚ} (h : IsValue y) (t : ℕ) :
    (∃ k : ℤ, y = k / 2 ^ t) ∨ |y| * 2 ^ t < 2 ^ 52 := by
  obtain ⟨m, e, ⟨hm, -⟩, rfl⟩ := h
  have hscaled : (2 : ℚ) ^ e * 2 ^ t = 2 ^ (e + t) := by
    rw [zpow_add₀ two_ne_zero, zpow_natCast]
  rcases le_or_gt 0 (e + t) with he | he
  · obtain ⟨j, hj⟩ := Int.eq_ofNat_of_zero_le he
    refine .inl ⟨m * 2 ^ j, ?_⟩
    rw [eq_div_iff (by positivity), mul_assoc, hscaled, hj]
    push_cast
    rw [zpow_natCast]
  · refine .inr ?_
    have hsig : |(m : ℚ)| < 2 ^ 53 := by exact_mod_cast hm
    have hhalf : (2 : ℚ) ^ (e + t) ≤ 2 ^ (-1 : ℤ) := zpow_le_zpow_right₀ one_le_two (by omega)
    calc |(m : ℚ) * 2 ^ e| * 2 ^ t = |(m : ℚ)| * 2 ^ (e + t) := by
          rw [abs_mul, abs_of_pos (by positivity : (0 : ℚ) < 2 ^ e), mul_assoc, hscaled]
      _ ≤ |(m : ℚ)| * 2 ^ (-1 : ℤ) := by gcongr
      _ < 2 ^ 53 * 2 ^ (-1 : ℤ) := by gcongr
      _ = 2 ^ 52 := by norm_num

/-- The distance of a number of units from a quotient. -/
theorem abs_units_sub (hden : 0 < den) (k : ℤ) :
    |(k / 2 ^ t - num / den : ℚ)| = (|k * den - (num * 2 ^ t : ℕ)| : ℤ) / (2 ^ t * den) := by
  have hpos : (0 : ℚ) < den := by exact_mod_cast hden
  have hunit : (0 : ℚ) < 2 ^ t := by positivity
  rw [div_sub_div _ _ hunit.ne' hpos.ne', abs_div, abs_of_pos (mul_pos hunit hpos),
    mul_comm ((2 : ℚ) ^ t) num]
  push_cast
  rfl

/-- No number of units is nearer to a quotient than the nearest integer of them, and when another
one is as near, the nearest one is even. -/
theorem units_nearest (hden : 0 < den) (k : ℤ) :
    |(roundHalfEven (num * 2 ^ t) den / 2 ^ t - num / den : ℚ)| ≤ |(k / 2 ^ t - num / den : ℚ)| ∧
      (k ≠ roundHalfEven (num * 2 ^ t) den → |(k / 2 ^ t - num / den : ℚ)| =
          |(roundHalfEven (num * 2 ^ t) den / 2 ^ t - num / den : ℚ)| →
        Even (roundHalfEven (num * 2 ^ t) den)) := by
  have hscale : (0 : ℚ) < 2 ^ t * den := by positivity
  rw [← Int.cast_natCast (roundHalfEven _ _), abs_units_sub hden, abs_units_sub hden,
    div_le_div_iff_of_pos_right hscale, div_left_inj' hscale.ne', Int.cast_le, Int.cast_inj]
  rcases eq_or_ne k (roundHalfEven (num * 2 ^ t) den) with rfl | hne
  · exact ⟨le_rfl, fun hne => absurd rfl hne⟩
  · obtain ⟨hle, heven⟩ := roundHalfEven_nearest hden hne
    exact ⟨hle, fun _ => heven⟩

/-- The nearest integer in units of the last place is what the quotient is rounded to: whatever is
no number of these units has too few bits. -/
theorem rounds_roundHalfEven (hden : 0 < den) (hlow : 2 ^ 52 * den ≤ num * 2 ^ t)
    (hhigh : num * 2 ^ t < 2 ^ 53 * den) (hleast : t ≤ 1074) :
    Rounds (num / den) (roundHalfEven (num * 2 ^ t) den / 2 ^ t) := by
  have hge : 2 ^ 52 - 1 < roundHalfEven (num * 2 ^ t) den := lt_roundHalfEven hden (by omega)
  have hle : roundHalfEven (num * 2 ^ t) den ≤ 2 ^ 53 := roundHalfEven_le hden hhigh.le
  obtain ⟨m, e, hrange, hbits, hparity, hx⟩ := exists_significand (by omega) hle hleast
  have hpos : (0 : ℚ) < den := by exact_mod_cast hden
  have hunit : (0 : ℚ) < 2 ^ t := by positivity
  have hfar : ∀ y : ℚ, |y| * 2 ^ t < 2 ^ 52 →
      |(roundHalfEven (num * 2 ^ t) den / 2 ^ t - num / den : ℚ)| < |y - num / den| := by
    intro y hy
    have hfull : ((2 ^ 52 : ℤ) : ℚ) / 2 ^ t ≤ num / den := by
      rw [div_le_div_iff₀ hunit hpos]
      exact_mod_cast hlow
    have hless : y < ((2 ^ 52 : ℤ) : ℚ) / 2 ^ t := by
      rw [lt_div_iff₀ hunit]
      have hself : y * 2 ^ t ≤ |y| * 2 ^ t := by gcongr; exact le_abs_self y
      push_cast
      linarith
    have hstep : _ ≤ |(((2 ^ 52 : ℤ) : ℚ) / 2 ^ t - num / den)| := (units_nearest hden _).1
    rw [abs_of_nonpos (by linarith : ((2 ^ 52 : ℤ) : ℚ) / 2 ^ t - num / den ≤ 0)] at hstep
    rw [abs_of_neg (by linarith : y - num / den < 0)]
    linarith
  refine ⟨⟨m, e, hrange, hx⟩, fun y hy => ?_, fun y hy hne htie => ?_⟩
  · rcases hy.units_or_lt t with ⟨k, rfl⟩ | hy
    · exact (units_nearest hden k).1
    · exact (hfar y hy).le
  · rcases hy.units_or_lt t with ⟨k, rfl⟩ | hy
    · have hother : k ≠ roundHalfEven (num * 2 ^ t) den := by
        rintro rfl
        exact hne (by rw [Int.cast_natCast])
      exact ⟨m, e, hrange, .inl hbits, hparity ((units_nearest hden k).2 hother htie), hx⟩
    · exact absurd htie (hfar y hy).ne'

end Rounded

end Binary64

/-! ## The count of pages -/

section Pages

open Binary64

variable {rows size : ℕ}

/-- The number nearest a quotient of rows and a size, as it is computed, is what the quotient is
rounded to. -/
theorem exists_ratio?_rounds (hrows : rows ≤ 2 ^ 53) (hsize : 0 < size) (hlimit : size < 2 ^ 63) :
    ∃ r : ℤ × ℕ, (ofRatio false rows size).ratio? = some r ∧ Rounds (rows / size) (r.1 / r.2) := by
  rcases Nat.eq_zero_or_pos rows with rfl | hpos
  · refine ⟨(0, 1), rfl, ?_⟩
    have hzero : IsValue 0 := ⟨0, 0, by decide, by norm_num⟩
    simpa using Rounds.of_isValue hzero
  · rcases exists_places hpos hrows hsize hlimit with ⟨t, ht, hleast⟩ | ⟨rfl, rfl⟩
    · obtain ⟨hlow, hhigh⟩ := bounds_of_floorLog2 hpos.ne' hsize.ne' ht
      obtain ⟨r, hr, hvalue⟩ := ratio?_ofRatio hpos.ne' hsize.ne' ht hleast
      exact ⟨r, hr, hvalue ▸ rounds_roundHalfEven hsize hlow hhigh hleast⟩
    · refine ⟨(2 ^ 53, 1), by decide +kernel, ?_⟩
      have hfull : IsValue (2 ^ 53) := ⟨2 ^ 52, 1, by decide, by norm_num⟩
      simpa only [Nat.cast_pow, Nat.cast_ofNat, Int.cast_pow, Int.cast_ofNat, Nat.cast_one, div_one]
        using Rounds.of_isValue hfull

/-- The count of pages is the least number of pages that hold all the rows. -/
theorem isLeast_pagesOf (hsize : 0 < size) (rows : ℕ) :
    IsLeast {k : ℤ | (rows : ℤ) ≤ k * size} (pagesOf rows size) := by
  have hmem : (rows : ℤ) ≤ pagesOf rows size * size := by
    exact_mod_cast le_pagesOf_mul hsize rows
  refine ⟨hmem, fun k (hk : (rows : ℤ) ≤ k * size) => ?_⟩
  by_contra! hlt
  have hnonneg : 0 ≤ k := by
    by_contra! hneg
    have : k * size < 0 := mul_neg_of_neg_of_pos hneg (by exact_mod_cast hsize)
    omega
  lift k to ℕ using hnonneg
  have hless : k * size < rows := mul_lt_of_lt_pagesOf hsize (by exact_mod_cast hlt)
  exact absurd (by exact_mod_cast hk) (not_le.2 hless)

end Pages

/-- **The count of pages is exact.** One value is what the quotient of the rows and the limit is
rounded to, the count is that value rounded up, and so many pages are the least number that holds
all the rows. -/
theorem PageWindow.paginate?_isLeast {w : PageWindow} {rows limit : ℤ} (hrows : 0 ≤ rows)
    (hrows' : rows ≤ 2 ^ 53) (hlimit : 1 ≤ limit) (hlimit' : limit < 2 ^ 63)
    (hw : w.limit = some limit) :
    ∃ x : ℚ, (∀ y, Binary64.Rounds (rows / limit) y ↔ y = x) ∧
      w.paginate? rows = .ok ⟨some limit, w.offset, rows, some ⌈x⌉⟩ ∧
      IsLeast {k : ℤ | rows ≤ k * limit} ⌈x⌉ := by
  lift rows to ℕ using hrows
  lift limit to ℕ using (by omega)
  have hpos : 0 < limit := by omega
  obtain ⟨r, hr, hround⟩ := exists_ratio?_rounds (by exact_mod_cast hrows') hpos
    (by exact_mod_cast hlimit')
  have hcount : pageCount? rows limit = some (pagesOf rows limit : ℤ) :=
    pageCount?_eq (by exact_mod_cast hrows') hpos (by exact_mod_cast hlimit')
  have hceil : ⌈(r.1 / r.2 : ℚ)⌉ = pagesOf rows limit := by
    have hsign : decide ((rows : ℤ) < 0) = false := by simp
    rw [pageCount?, hsign, Int.natAbs_natCast, hr, Option.map_some, Option.some_inj] at hcount
    rw [← ceiling_eq, hcount]
  refine ⟨r.1 / r.2, fun y => ⟨fun hy => ?_, ?_⟩, ?_, ?_⟩
  · rw [Int.cast_natCast, Int.cast_natCast] at hy
    exact hy.unique hround
  · rintro rfl
    rwa [Int.cast_natCast, Int.cast_natCast]
  · simp only [paginate?, hw]
    rw [if_pos (by exact_mod_cast hpos), Int.toNat_natCast, hcount, hceil]
  · rw [hceil]
    exact isLeast_pagesOf hpos rows

namespace Sample

/-- The quotient ends in a third, which is rounded up to a half. -/
theorem paginate?_thirds :
    (PageWindow.mk (some 3) 0).paginate? (2 ^ 53 - 1) =
        .ok ⟨some 3, 0, 2 ^ 53 - 1, some 3002399751580331⟩ ∧
      IsLeast {k : ℤ | 2 ^ 53 - 1 ≤ k * 3} 3002399751580331 := by
  have hcount : (PageWindow.mk (some 3) 0).paginate? (2 ^ 53 - 1) =
      .ok ⟨some 3, 0, 2 ^ 53 - 1, some 3002399751580331⟩ := by decide +kernel
  obtain ⟨x, -, hx, hleast⟩ := PageWindow.paginate?_isLeast (by norm_num : (0 : ℤ) ≤ 2 ^ 53 - 1)
    (by norm_num) (by norm_num : (1 : ℤ) ≤ 3) (by norm_num)
    (rfl : (PageWindow.mk (some 3) 0).limit = some 3)
  rw [hcount] at hx
  have hceil : 3002399751580331 = ⌈x⌉ := by simpa using hx
  exact ⟨hcount, hceil ▸ hleast⟩

end Sample

/-- One more row than can be counted exactly is lost from the last page. -/
example : pageCount? (2 ^ 53 + 1) 1 = some (2 ^ 53) := by decide +kernel

end ResourceQuery
