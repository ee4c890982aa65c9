import ResourceQuery.Number.Decimal
import ResourceQuery.Proofs.Number.Rounding

/-!
# Ranges of numbers

A text may be long and its exponent large. What is read from it is a number of its kind: its parts
are within the limits, or it is an infinity.

* `Binary64.IsValid`, `Decimal.IsValid`: whether the parts of a finite number are within the limits;
* `Binary64.isValid_ofRatio`: a rounded quotient is within them;
* `Binary64.isValid_of_readBinary64?`, `Decimal.isValid_of_read?`: so is every number that is read.
-/

namespace ResourceQuery

/-! ## Floating-point numbers -/

namespace Binary64

/-- Whether a finite number has the significand and the exponent of a floating-point number. -/
def IsValid : Binary64 → Prop
  | finite _ significand exponent => InRange significand exponent
  | _ => True

theorem isValid_zero (negative : Bool) : (zero negative).IsValid := by
  show InRange 0 0
  decide

/-- The quotient in units of its last place is below the least number of more than 53 bits, so the
nearest integer is not above it. -/
theorem roundHalfEven_exponentFor_le {num den : ℕ} (hnum : num ≠ 0) (hden : den ≠ 0) :
    roundHalfEven (num * (scaled den (exponentFor num den)).2)
      (scaled den (exponentFor num den)).1 ≤ 2 ^ 53 := by
  obtain ⟨-, hlt⟩ := floorLog2_spec hnum hden
  have hscaled := scaled_eq den (exponentFor num den)
  have hexponent : floorLog2 num den + 1 ≤ 53 + exponentFor num den := by
    have := le_max_left (floorLog2 num den - 52) leastExponent
    rw [exponentFor]
    omega
  generalize exponentFor num den = e at hscaled hexponent ⊢
  have hpos : (0 : ℚ) < den := by positivity
  have hparts : (0 : ℚ) < (scaled den e).2 := by exact_mod_cast scaled_den_pos den e
  have hunit : (0 : ℚ) < (scaled den e).1 := by
    refine (div_pos_iff_of_pos_right hparts).1 ?_
    rw [hscaled]
    positivity
  refine roundHalfEven_le (by exact_mod_cast hunit) ?_
  have hbound : (num : ℚ) < 2 ^ (53 : ℤ) * ((scaled den e).1 / (scaled den e).2) :=
    calc (num : ℚ) < 2 ^ (floorLog2 num den + 1) * den := (div_lt_iff₀ hpos).1 hlt
      _ ≤ 2 ^ (53 + e) * den := by gcongr; exact one_le_two
      _ = 2 ^ (53 : ℤ) * ((scaled den e).1 / (scaled den e).2) := by
        rw [hscaled, zpow_add₀ two_ne_zero]
        ring
  rw [← mul_div_assoc, lt_div_iff₀ hparts] at hbound
  exact_mod_cast hbound.le

/-- A rounded quotient is a floating-point number. -/
theorem isValid_ofRatio (negative : Bool) (num den : ℕ) : (ofRatio negative num den).IsValid := by
  have hsmall : ∀ {significand : ℕ} {e : ℤ}, significand < 2 ^ 53 → leastExponent ≤ e →
      ¬greatestExponent < e → (finite negative significand e).IsValid := by
    intro significand e hbits hleast hgreatest
    refine ⟨?_, hleast, not_lt.1 hgreatest⟩
    rw [Nat.abs_cast]
    exact_mod_cast hbits
  unfold ofRatio
  split
  · exact isValid_zero negative
  · next hne =>
    rw [not_or] at hne
    have hle := roundHalfEven_exponentFor_le hne.1 hne.2
    have hleast : leastExponent ≤ exponentFor num den := le_max_right ..
    dsimp only
    split
    · exact isValid_zero negative
    · split
      · next hbits =>
        split
        · trivial
        · next hgreatest => exact hsmall hbits hleast hgreatest
      · split
        · trivial
        · next hgreatest => exact hsmall (by omega) (by omega) hgreatest

theorem isValid_ofDecimal (negative : Bool) (coefficient : ℕ) (exponent : ℤ) :
    (ofDecimal negative coefficient exponent).IsValid := by
  unfold ofDecimal
  dsimp only
  split
  · exact isValid_zero negative
  · split
    · trivial
    · split <;> exact isValid_ofRatio ..

theorem isValid_of_readBinary64? {text : String} {x : Binary64} (h : readBinary64? text = some x) :
    x.IsValid := by
  unfold readBinary64? at h
  obtain ⟨plain, -, h⟩ := Option.bind_eq_some_iff.1 h
  dsimp only at h
  split at h
  · cases h
    trivial
  · split at h
    · cases h
      trivial
    · split at h
      · cases h
        exact isValid_ofDecimal ..
      · cases h

end Binary64

/-! ## Decimal numbers -/

namespace Decimal

/-- Whether a number is within the limits of decimal numbers. -/
def IsValid : Decimal → Prop
  | finite _ coefficient exponent => inRange coefficient exponent
  | _ => True

theorem isValid_of_readNan? {negative : Bool} {chars : List Char} {d : Decimal}
    (h : readNan? negative chars = some d) : d.IsValid := by
  unfold readNan? at h
  split at h
  · obtain ⟨n, -, rfl⟩ := Option.map_eq_some_iff.1 h
    trivial
  · split at h
    · obtain ⟨n, -, rfl⟩ := Option.map_eq_some_iff.1 h
      trivial
    · cases h

theorem isValid_of_read? {text : String} {d : Decimal} (h : read? text = some d) : d.IsValid := by
  unfold read? at h
  dsimp only at h
  split at h
  · cases h
    trivial
  · split at h
    · split at h
      · next hrange =>
        cases h
        exact hrange
      · cases h
    · exact isValid_of_readNan? h

end Decimal

end ResourceQuery
