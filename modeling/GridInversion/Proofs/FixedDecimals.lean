import GridInversion.Proofs.DecimalNumerals
import GridInversion.Proofs.NearestValues

namespace GridInversion.Decimal

open Binary (Format Value)

namespace Numeral

variable {n : ℕ} {e : ℤ}

theorem toRat_numeral (n : ℕ) (e : ℤ) : ((Fraction.whole n).timesTen e).toRat = n * 10 ^ e := by
  rw [Fraction.toRat_timesTen, Fraction.toRat_whole]

theorem den_numeral_pos (n : ℕ) (e : ℤ) : 0 < ((Fraction.whole n).timesTen e).den :=
  Fraction.den_timesTen_pos Nat.one_pos e

theorem num_numeral_pos (hn : 0 < n) (e : ℤ) : 0 < ((Fraction.whole n).timesTen e).num := by
  refine Nat.pos_of_ne_zero fun hzero => ?_
  have hpos : (0 : ℚ) < n * 10 ^ e := by positivity
  rw [← toRat_numeral, Fraction.toRat, hzero, Nat.cast_zero, zero_div] at hpos
  exact lt_irrefl _ hpos

theorem num_numeral_zero (e : ℤ) : ((Fraction.whole 0).timesTen e).num = 0 := by
  unfold Fraction.timesTen
  split
  · exact Nat.zero_mul _
  · rfl

theorem toRat_numeral_lt {k : ℕ} (h : ((digits n).length : ℤ) + e ≤ -k) :
    ((Fraction.whole n).timesTen e).toRat < 2 ^ (-(k : ℤ)) := by
  have hdigits : (n : ℚ) < 10 ^ (digits n).length := by
    rw [← cast_powTen]
    exact_mod_cast lt_powTen_length n
  rw [toRat_numeral]
  calc (n : ℚ) * 10 ^ e < 10 ^ (digits n).length * 10 ^ e := by gcongr
    _ = 10 ^ (((digits n).length : ℤ) + e) := by
        rw [← zpow_natCast, ← zpow_add₀ (by norm_num)]
    _ ≤ 10 ^ (-(k : ℤ)) := zpow_le_zpow_right₀ (by norm_num) h
    _ ≤ 2 ^ (-(k : ℤ)) := by
        rw [zpow_neg, zpow_neg, zpow_natCast, zpow_natCast]
        gcongr
        norm_num

theorem le_toRat_numeral (hn : 0 < n) {k : ℕ} (h : (k : ℤ) < (digits n).length + e) :
    2 ^ (k : ℤ) ≤ ((Fraction.whole n).timesTen e).toRat := by
  have hlength : 0 < (digits n).length := Nat.length_toDigits_pos
  have hdigits : (10 : ℚ) ^ ((digits n).length - 1) ≤ n := by
    rw [← cast_powTen]
    exact_mod_cast powTen_length_le hn
  rw [toRat_numeral]
  calc (2 : ℚ) ^ (k : ℤ) ≤ 10 ^ (k : ℤ) := by
        rw [zpow_natCast, zpow_natCast]
        gcongr
        norm_num
    _ ≤ 10 ^ (((digits n).length - 1 : ℕ) + e) :=
        zpow_le_zpow_right₀ (by norm_num) (by omega)
    _ = 10 ^ ((digits n).length - 1) * 10 ^ e := by
        rw [zpow_add₀ (by norm_num), zpow_natCast]
    _ ≤ n * 10 ^ e := by gcongr

/-- Reading is rounding to the nearest value: the numerals that are not rounded lie so far out
that the nearest value is zero or infinity. -/
theorem round_finite {fmt : Format} (hformat : fmt.Regular) (negative : Bool) (n : ℕ) (e : ℤ) :
    Numeral.round fmt (.finite negative n e) =
      fmt.nearest negative ((Fraction.whole n).timesTen e) := by
  rcases Nat.eq_zero_or_pos n with rfl | hn
  · rw [Format.nearest, if_pos (num_numeral_zero e), Numeral.round, if_pos (Or.inl rfl)]
  have htop := fmt.topField_add_one
  have hhalf : powTwo (fmt.exponentBits - 1) ≤ powTwo fmt.exponentBits :=
    Nat.pow_le_pow_right two_pos (Nat.sub_le _ _)
  have hmax : fmt.maxExponent = fmt.minExponent + fmt.topField - 2 := rfl
  have hmin : fmt.minExponent = 2 - (powTwo (fmt.exponentBits - 1) : ℤ) - fmt.fractionBits := rfl
  rw [Numeral.round]
  split_ifs with hsmall hlarge
  · refine (Format.nearest_of_small hformat negative (num_numeral_pos hn e)
      (den_numeral_pos n e) ?_).symm
    have hvalue := toRat_numeral_lt (n := n) (e := e)
      (k := fmt.fractionBits + powTwo fmt.exponentBits + 1) (by omega)
    calc ((Fraction.whole n).timesTen e).toRat * 2
        < 2 ^ (-((fmt.fractionBits + powTwo fmt.exponentBits + 1 : ℕ) : ℤ)) * 2 := by gcongr
      _ = 2 ^ (-((fmt.fractionBits + powTwo fmt.exponentBits + 1 : ℕ) : ℤ) + 1) :=
          (zpow_add_one₀ two_ne_zero _).symm
      _ ≤ 2 ^ fmt.minExponent := zpow_le_zpow_right₀ one_le_two (by omega)
  · refine (Format.nearest_of_large negative (num_numeral_pos hn e) (den_numeral_pos n e)
      ?_).symm
    calc (2 : ℚ) ^ (fmt.maxExponent + fmt.fractionBits + 1)
        ≤ 2 ^ ((fmt.fractionBits + powTwo fmt.exponentBits : ℕ) : ℤ) :=
          zpow_le_zpow_right₀ one_le_two (by omega)
      _ ≤ ((Fraction.whole n).timesTen e).toRat := le_toRat_numeral hn (by omega)
  · rfl

end Numeral

theorem isRounding_places (places m : ℕ) (q : ℤ) :
    IsRounding (m * 2 ^ q * 10 ^ (places : ℤ)) ((Binary.size m q).timesTen places).round := by
  rw [← Binary.toRat_size, ← Fraction.toRat_timesTen]
  exact Fraction.isRounding_round (Fraction.den_timesTen_pos (Binary.den_size_pos m q) _)

theorem abs_toRat_numeral_sub (places n : ℕ) (w : ℚ) :
    |((Fraction.whole n).timesTen (-places)).toRat - w| =
      |w * 10 ^ (places : ℤ) - n| * 10 ^ (-(places : ℤ)) := by
  rw [Numeral.toRat_numeral, abs_sub_comm, abs_sub_mul_zpow (by norm_num), neg_neg]

/-- The value nearest to a printed number is as close to it as the value that was printed, so it
is printed the same way. -/
theorem round_places_nearest {fmt : Format} (hformat : fmt.Regular) (negative : Bool)
    (places : ℕ) {m : ℕ} {q : ℤ} (h : fmt.Canonical m q) :
    ∃ m' q', fmt.Canonical m' q' ∧
      fmt.nearest negative ((Fraction.whole ((Binary.size m q).timesTen places).round).timesTen
        (-places)) = .finite negative m' q' ∧
      ((Binary.size m' q').timesTen places).round =
        ((Binary.size m q).timesTen places).round := by
  set n := ((Binary.size m q).timesTen places).round
  have hround : IsRounding (m * 2 ^ q * 10 ^ (places : ℤ)) n := isRounding_places places m q
  have hpower : (0 : ℚ) < 10 ^ (-(places : ℤ)) := by positivity
  have hnear : |((Fraction.whole n).timesTen (-places)).toRat - m * 2 ^ q| ≤ 1 / 2 := by
    have hsmall : (10 : ℚ) ^ (-(places : ℤ)) ≤ 1 :=
      zpow_le_one_of_nonpos₀ (by norm_num) (by omega)
    rw [abs_toRat_numeral_sub]
    calc |(m : ℚ) * 2 ^ q * 10 ^ (places : ℤ) - n| * 10 ^ (-(places : ℤ))
        ≤ 1 / 2 * 1 := by gcongr; exact hround.near
      _ = 1 / 2 := mul_one _
  obtain ⟨m', q', hnearest, hcanonical, hclose⟩ :=
    Format.nearest_eq_finite hformat negative (Numeral.den_numeral_pos n _) h hnear
  -- the two distances in units of the last decimal place, where the printed number is whole
  rw [abs_toRat_numeral_sub, abs_toRat_numeral_sub] at hclose
  have hround' := hround.of_abs_sub_le (le_of_mul_le_mul_right hclose hpower)
  exact ⟨m', q', hcanonical, hnearest, (isRounding_places places m' q').unique hround'⟩

/-- A printed value is read as a value that is printed the same way. -/
theorem fixedChars_round {fmt : Format} (hformat : fmt.Regular) (places : ℕ) {v : Value}
    (h : fmt.Contains v) :
    ∃ numeral, Numeral.ofChars? (fixedChars places v) = some numeral ∧
      fmt.Contains (numeral.round fmt) ∧
      fixedChars places (numeral.round fmt) = fixedChars places v := by
  cases v with
  | nan => exact ⟨.nan, rfl, trivial, rfl⟩
  | infinite negative =>
      refine ⟨.infinite negative, ?_, trivial, rfl⟩
      cases negative <;> rfl
  | finite negative m q =>
      obtain ⟨m', q', hcanonical, hnearest, hsame⟩ :=
        round_places_nearest hformat negative places h
      refine ⟨_, Numeral.ofChars?_pointed negative places _, ?_, ?_⟩
      · rw [Numeral.round_finite hformat, hnearest]
        exact hcanonical
      · rw [Numeral.round_finite hformat, hnearest, fixedChars, hsame, fixedChars]

end GridInversion.Decimal
