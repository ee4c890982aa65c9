import Mathlib.Algebra.Order.Field.Power
import Mathlib.Data.Rat.Floor
import ResourceQuery.Page
import ResourceQuery.Proofs.Store.CellOrder

/-!
# The count of pages

How many pages some rows fill is computed with floating-point numbers. For as many rows as these
numbers count exactly it is the exact quotient rounded up.

* `roundHalfEven_le`, `lt_roundHalfEven`: where the nearest integer to a quotient lies;
* `Binary64.floorLog2_spec`: the powers of two around a quotient;
* `Binary64.ratio?_ofRatio`: the value of a rounded quotient;
* `Binary64.isSome_ratio?_ofRatio`: a quotient of a number that is not too large has a value;
* `pagesOf`, `pageCount?_eq`: the count of pages.

A quotient with rest is at least one part of the divisor above an integer, which is more than
rounding can take away.
-/

namespace ResourceQuery

theorem ceiling_eq (r : ℤ × ℕ) : ceiling r = ⌈(r.1 / r.2 : ℚ)⌉ :=
  (Rat.ceil_intCast_div_natCast r.1 r.2).symm

/-! ## The nearest integer -/

section Nearest

variable {num den m : ℕ}

theorem roundHalfEven_le (hden : 0 < den) (h : num ≤ m * den) : roundHalfEven num den ≤ m := by
  have hsplit := Nat.div_add_mod num den
  have hfloor : num / den ≤ m := Nat.div_le_of_le_mul (by rwa [Nat.mul_comm])
  have hrest : num / den = m → num % den = 0 := by
    intro heq
    rw [heq, Nat.mul_comm] at hsplit
    omega
  unfold roundHalfEven
  grind

theorem lt_roundHalfEven (hden : 0 < den) (h : (2 * m + 1) * den < 2 * num) :
    m < roundHalfEven num den := by
  have hsplit := Nat.div_add_mod num den
  have hmod := Nat.mod_lt num hden
  have hfloor : m ≤ num / den := by
    refine (Nat.le_div_iff_mul_le hden).2 ?_
    linarith
  have hrest : num / den = m → den < 2 * (num % den) := by
    intro heq
    rw [heq] at hsplit
    linarith
  unfold roundHalfEven
  grind

end Nearest

/-! ## Powers of two -/

namespace Binary64

theorem scaled_eq (n : ℕ) (e : ℤ) : ((scaled n e).1 : ℚ) / (scaled n e).2 = n * 2 ^ e := by
  unfold scaled
  split
  · next h =>
    obtain ⟨k, rfl⟩ := Int.eq_ofNat_of_zero_le h
    simp
  · next h =>
    obtain ⟨k, hk⟩ := Int.eq_ofNat_of_zero_le (by omega : 0 ≤ -e)
    obtain rfl : e = -k := by omega
    simp [div_eq_mul_inv]

/-- The powers of two around a quotient. -/
theorem floorLog2_spec {num den : ℕ} (hnum : num ≠ 0) (hden : den ≠ 0) :
    (2 : ℚ) ^ floorLog2 num den ≤ num / den ∧ (num / den : ℚ) < 2 ^ (floorLog2 num den + 1) := by
  have hpos : (0 : ℚ) < den := by positivity
  have hnum_ge : (2 : ℚ) ^ (num.log2 : ℤ) ≤ num := by
    exact_mod_cast Nat.log2_self_le hnum
  have hnum_lt : (num : ℚ) < 2 ^ (num.log2 + 1 : ℤ) := by
    exact_mod_cast Nat.lt_log2_self (n := num)
  have hden_ge : (2 : ℚ) ^ (den.log2 : ℤ) ≤ den := by
    exact_mod_cast Nat.log2_self_le hden
  have hden_lt : (den : ℚ) < 2 ^ (den.log2 + 1 : ℤ) := by
    exact_mod_cast Nat.lt_log2_self (n := den)
  set guess : ℤ := (num.log2 : ℤ) - den.log2 with hguess
  have hlow : (2 : ℚ) ^ (guess - 1) ≤ num / den := by
    rw [le_div_iff₀ hpos]
    calc (2 : ℚ) ^ (guess - 1) * den ≤ 2 ^ (guess - 1) * 2 ^ (den.log2 + 1 : ℤ) := by gcongr
      _ = 2 ^ (num.log2 : ℤ) := by rw [← zpow_add₀ two_ne_zero]; congr 1; omega
      _ ≤ num := hnum_ge
  have hhigh : (num / den : ℚ) < 2 ^ (guess + 1) := by
    rw [div_lt_iff₀ hpos]
    calc (num : ℚ) < 2 ^ (num.log2 + 1 : ℤ) := hnum_lt
      _ = 2 ^ (guess + 1) * 2 ^ (den.log2 : ℤ) := by rw [← zpow_add₀ two_ne_zero]; congr 1; omega
      _ ≤ 2 ^ (guess + 1) * den := by gcongr
  have htest : (scaled den guess).1 ≤ num * (scaled den guess).2 ↔ (2 : ℚ) ^ guess ≤ num / den := by
    have hunit : (0 : ℚ) < (scaled den guess).2 := by exact_mod_cast scaled_den_pos den guess
    rw [le_div_iff₀ hpos, mul_comm ((2 : ℚ) ^ guess), ← scaled_eq, div_le_iff₀ hunit]
    exact_mod_cast Iff.rfl
  unfold floorLog2
  simp only [← hguess, htest]
  split
  · next h => exact ⟨h, hhigh⟩
  · next h =>
    rw [sub_add_cancel]
    exact ⟨hlow, not_le.1 h⟩

/-! ## Rounded quotients -/

theorem scaled_neg (n t : ℕ) : scaled n (-t) = (n, 2 ^ t) := by
  unfold scaled
  split
  · next h =>
    obtain rfl : t = 0 := by omega
    simp
  · simp

theorem ratio?_positive (m : ℕ) (e : ℤ) :
    (finite false m e).ratio? = some (((scaled m e).1 : ℤ), (scaled m e).2) := rfl

section Rounded

variable {num den t : ℕ}

/-- The quotient in units of its last place has 53 bits. -/
theorem bounds_of_floorLog2 (hnum : num ≠ 0) (hden : den ≠ 0) (ht : floorLog2 num den + t = 52) :
    2 ^ 52 * den ≤ num * 2 ^ t ∧ num * 2 ^ t < 2 ^ 53 * den := by
  obtain ⟨hle, hlt⟩ := floorLog2_spec hnum hden
  have hpos : (0 : ℚ) < den := by positivity
  have hunit : (0 : ℚ) < 2 ^ (t : ℤ) := by positivity
  rw [le_div_iff₀ hpos, ← mul_le_mul_iff_left₀ hunit] at hle
  rw [div_lt_iff₀ hpos, ← mul_lt_mul_iff_left₀ hunit] at hlt
  have hlow : (2 : ℚ) ^ floorLog2 num den * den * 2 ^ (t : ℤ) = 2 ^ (52 : ℤ) * den := by
    rw [mul_right_comm, ← zpow_add₀ two_ne_zero, ht]
  have hhigh : (2 : ℚ) ^ (floorLog2 num den + 1) * den * 2 ^ (t : ℤ) = 2 ^ (53 : ℤ) * den := by
    rw [mul_right_comm, ← zpow_add₀ two_ne_zero]
    congr 2
    omega
  rw [hlow] at hle
  rw [hhigh] at hlt
  exact ⟨by exact_mod_cast hle, by exact_mod_cast hlt⟩

/-- The value of a rounded quotient whose last place is no more than one. -/
theorem ratio?_ofRatio (hnum : num ≠ 0) (hden : den ≠ 0) (ht : floorLog2 num den + t = 52)
    (hleast : t ≤ 1074) : ∃ r : ℤ × ℕ, (ofRatio false num den).ratio? = some r ∧
      (r.1 / r.2 : ℚ) = roundHalfEven (num * 2 ^ t) den / 2 ^ t := by
  obtain ⟨hle, hlt⟩ := bounds_of_floorLog2 hnum hden ht
  have hexponent : exponentFor num den = -t := by
    rw [exponentFor, leastExponent]
    omega
  have hpos := Nat.pos_of_ne_zero hden
  have hge : 2 ^ 52 - 1 < roundHalfEven (num * 2 ^ t) den := lt_roundHalfEven hpos (by omega)
  have hle : roundHalfEven (num * 2 ^ t) den ≤ 2 ^ 53 := roundHalfEven_le hpos hlt.le
  have hround : ofRatio false num den =
      if roundHalfEven (num * 2 ^ t) den < 2 ^ 53 then
        .finite false (roundHalfEven (num * 2 ^ t) den) (-t)
      else .finite false (roundHalfEven (num * 2 ^ t) den / 2) (-t + 1) := by
    rw [ofRatio, if_neg (by simp [hnum, hden]), hexponent]
    simp only [scaled_neg, greatestExponent, Nat.pow_eq]
    rw [if_neg (by omega : ¬ roundHalfEven (num * 2 ^ t) den = 0),
      if_neg (by omega : ¬ (971 : ℤ) < -t), if_neg (by omega : ¬ (971 : ℤ) < -t + 1)]
  rw [hround]
  split
  · refine ⟨_, ratio?_positive _ _, ?_⟩
    simp [scaled_neg]
  · have heq : roundHalfEven (num * 2 ^ t) den = 2 ^ 53 := by omega
    refine ⟨_, ratio?_positive _ _, ?_⟩
    rw [heq, Int.cast_natCast, scaled_eq, zpow_add₀ two_ne_zero, zpow_neg, zpow_natCast]
    norm_num
    ring

end Rounded

theorem floorLog2_lt {num den k : ℕ} (hnum : num ≠ 0) (hden : den ≠ 0) (h : num < 2 ^ k) :
    floorLog2 num den < k := by
  obtain ⟨hle, -⟩ := floorLog2_spec hnum hden
  have hone : (1 : ℚ) ≤ den := by exact_mod_cast Nat.one_le_iff_ne_zero.2 hden
  have hlt : (2 : ℚ) ^ floorLog2 num den < 2 ^ (k : ℤ) :=
    calc (2 : ℚ) ^ floorLog2 num den ≤ num / den := hle
      _ ≤ num := div_le_self (by positivity) hone
      _ < 2 ^ (k : ℤ) := by exact_mod_cast h
  exact (zpow_lt_zpow_iff_right₀ (one_lt_two (α := ℚ))).1 hlt

/-- The quotient of a number that is not too large has a value. -/
theorem isSome_ratio?_ofRatio {num : ℕ} (h : num < 2 ^ 1023) (negative : Bool) (den : ℕ) :
    (ofRatio negative num den).ratio?.isSome := by
  unfold ofRatio
  split
  · rfl
  · next hne =>
    simp only [not_or] at hne
    have hexponent : exponentFor num den + 1 ≤ greatestExponent := by
      have := floorLog2_lt hne.1 hne.2 h
      rw [exponentFor, leastExponent, greatestExponent]
      omega
    simp only
    rw [if_neg (by omega : ¬ greatestExponent < exponentFor num den),
      if_neg (by omega : ¬ greatestExponent < exponentFor num den + 1)]
    split
    · rfl
    · split <;> rfl

end Binary64

/-! ## Pages -/

section Pages

variable {rows size : ℕ}

/-- Rounding does not cross the integer below a quotient with rest. A tie would need a divisor of
two parts of the last place, and then as many rows as can be counted, which have no such rest. -/
theorem roundHalfEven_bounds {m t : ℕ} (hsize : 0 < size) (hrows : rows ≤ 2 ^ 53)
    (hlt : m * size < rows) (hle : rows ≤ (m + 1) * size) (hunit : 2 ^ 52 * size ≤ rows * 2 ^ t) :
    m * 2 ^ t < roundHalfEven (rows * 2 ^ t) size ∧
      roundHalfEven (rows * 2 ^ t) size ≤ (m + 1) * 2 ^ t := by
  have hpos : 0 < 2 ^ t := by positivity
  constructor
  · refine lt_roundHalfEven hsize ?_
    have hcap : size ≤ 2 * 2 ^ t := by
      have : rows * 2 ^ t ≤ 2 ^ 53 * 2 ^ t := Nat.mul_le_mul_right _ hrows
      omega
    rcases hcap.lt_or_eq with hcap | hcap
    · have : (m * size + 1) * 2 ^ t ≤ rows * 2 ^ t := Nat.mul_le_mul_right _ hlt
      nlinarith
    · have hfull : rows = 2 ^ 53 := by
        refine Nat.le_antisymm hrows (Nat.le_of_mul_le_mul_right ?_ hpos)
        omega
      have hrest : m * size + 2 ≤ rows := by
        have heven : m * size = 2 * (m * 2 ^ t) := by rw [hcap]; ring
        omega
      have : (m * size + 2) * 2 ^ t ≤ rows * 2 ^ t := Nat.mul_le_mul_right _ hrest
      nlinarith
  · refine roundHalfEven_le hsize ?_
    have : rows * 2 ^ t ≤ (m + 1) * size * 2 ^ t := Nat.mul_le_mul_right _ hle
    linarith

/-- The exact quotient of rows and a size, rounded up. -/
def pagesOf (rows size : ℕ) : ℕ := (rows + size - 1) / size

theorem le_pagesOf_mul (hsize : 0 < size) (rows : ℕ) : rows ≤ pagesOf rows size * size := by
  have := Nat.lt_div_mul_add hsize (a := rows + size - 1)
  rw [pagesOf]
  omega

theorem pagesOf_mul_lt (hsize : 0 < size) (rows : ℕ) : pagesOf rows size * size < rows + size := by
  have := Nat.div_mul_le_self (rows + size - 1) size
  rw [pagesOf]
  omega

/-- Every page before the last one is whole, and the last one is not empty. -/
theorem mul_lt_of_lt_pagesOf (hsize : 0 < size) {k : ℕ} (hk : k < pagesOf rows size) :
    k * size < rows := by
  have hlt := pagesOf_mul_lt hsize rows
  have hle : (k + 1) * size ≤ pagesOf rows size * size := Nat.mul_le_mul_right _ hk
  rw [Nat.succ_mul] at hle
  omega

open Binary64 in
/-- A quotient of no more rows than can be counted has its last place at the point or behind it,
unless it is the greatest one. -/
theorem exists_places (hpos : 0 < rows) (hrows : rows ≤ 2 ^ 53) (hsize : 0 < size)
    (hlimit : size < 2 ^ 63) :
    (∃ t : ℕ, floorLog2 rows size + t = 52 ∧ t ≤ 1074) ∨ rows = 2 ^ 53 ∧ size = 1 := by
  obtain ⟨hfloor, hnext⟩ := floorLog2_spec hpos.ne' hsize.ne'
  have hrat : (0 : ℚ) < size := by exact_mod_cast hsize
  by_cases hlarge : floorLog2 rows size ≤ 52
  · obtain ⟨t, ht⟩ := Int.eq_ofNat_of_zero_le (by omega : 0 ≤ 52 - floorLog2 rows size)
    refine .inl ⟨t, by omega, ?_⟩
    have hone : (2 : ℚ) ^ (-63 : ℤ) < rows / size := by
      rw [lt_div_iff₀ hrat, zpow_neg, inv_mul_lt_iff₀ (by positivity)]
      have : (1 : ℚ) ≤ rows := by exact_mod_cast hpos
      have : (size : ℚ) < 2 ^ (63 : ℤ) := by exact_mod_cast hlimit
      linarith
    have := (zpow_lt_zpow_iff_right₀ (one_lt_two (α := ℚ))).1 (hone.trans hnext)
    omega
  · have hfull : 2 ^ 53 * size ≤ rows := by
      have hpower : (2 : ℚ) ^ (53 : ℤ) ≤ rows / size :=
        (zpow_le_zpow_right₀ one_le_two (by omega)).trans hfloor
      rw [le_div_iff₀ hrat] at hpower
      exact_mod_cast hpower
    exact .inr (by omega)

open Binary64 in
/-- As many pages as the exact quotient says, rounded up. -/
theorem pageCount?_eq (hrows : rows ≤ 2 ^ 53) (hsize : 0 < size) (hlimit : size < 2 ^ 63) :
    pageCount? rows size = some (pagesOf rows size : ℤ) := by
  rcases Nat.eq_zero_or_pos rows with rfl | hpos
  · have hzero : pagesOf 0 size = 0 := Nat.div_eq_of_lt (by omega)
    rw [hzero]
    rfl
  obtain ⟨m, hm⟩ : ∃ m, pagesOf rows size = m + 1 :=
    Nat.exists_eq_succ_of_ne_zero (Nat.div_pos (by omega) hsize).ne'
  have hlt : m * size < rows := mul_lt_of_lt_pagesOf hsize (by omega)
  have hle : rows ≤ (m + 1) * size := hm ▸ le_pagesOf_mul hsize rows
  rw [hm]
  rcases exists_places hpos hrows hsize hlimit with ⟨t, ht, hleast⟩ | ⟨rfl, rfl⟩
  · obtain ⟨hunit, -⟩ := bounds_of_floorLog2 hpos.ne' hsize.ne' ht
    obtain ⟨hbelow, habove⟩ := roundHalfEven_bounds hsize hrows hlt hle hunit
    obtain ⟨r, hr, hvalue⟩ := ratio?_ofRatio hpos.ne' hsize.ne' ht hleast
    have hceil : ceiling r = ((m + 1 : ℕ) : ℤ) := by
      have hpow : (0 : ℚ) < 2 ^ t := by positivity
      rw [ceiling_eq, hvalue, Int.ceil_eq_iff, lt_div_iff₀ hpow, div_le_iff₀ hpow]
      push_cast
      rw [add_sub_cancel_right]
      exact ⟨by exact_mod_cast hbelow, by exact_mod_cast habove⟩
    have hsign : decide ((rows : ℤ) < 0) = false := by simp
    rw [pageCount?, hsign, Int.natAbs_natCast, hr, Option.map_some, hceil]
  · obtain rfl : m = 2 ^ 53 - 1 := by omega
    decide +kernel

theorem isSome_pageCount? (hrows : rows < 2 ^ 1023) (size : ℕ) : (pageCount? rows size).isSome := by
  rw [pageCount?, Option.isSome_map, Int.natAbs_natCast]
  exact Binary64.isSome_ratio?_ofRatio hrows _ size

end Pages

end ResourceQuery
