import GridInversion.Binary.Value
import GridInversion.Proofs.RoundedFractions

namespace GridInversion.Binary

theorem toRat_size (m : ℕ) (q : ℤ) : (size m q).toRat = m * 2 ^ q := by
  rw [size, Fraction.toRat_timesTwo, Fraction.toRat_whole]

theorem den_size_pos (m : ℕ) (q : ℤ) : 0 < (size m q).den :=
  Fraction.den_timesTwo_pos Nat.one_pos q

namespace Format

variable {fmt : Format} {m m' : ℕ} {q q' : ℤ} {f : Fraction}

/-- A multiple of a power of two that a format has digits for, however large it is. -/
structure Holds (fmt : Format) (m : ℕ) (q : ℤ) : Prop where
  minExponent_le : fmt.minExponent ≤ q
  lt : m < 2 * fmt.hiddenBit

/-- The significand and the exponent of a finite value of the format: no smaller exponent
would do. -/
structure Canonical (fmt : Format) (m : ℕ) (q : ℤ) : Prop extends fmt.Holds m q where
  le_maxExponent : q ≤ fmt.maxExponent
  hiddenBit_le : fmt.minExponent < q → fmt.hiddenBit ≤ m

def Contains (fmt : Format) : Value → Prop
  | .finite _ m q => fmt.Canonical m q
  | _ => True

theorem hiddenBit_pos (fmt : Format) : 0 < fmt.hiddenBit := powTwo_pos _

theorem topField_add_one (fmt : Format) : fmt.topField + 1 = powTwo fmt.exponentBits :=
  Nat.sub_add_cancel (powTwo_pos _)

theorem cast_hiddenBit (fmt : Format) : (fmt.hiddenBit : ℚ) = 2 ^ fmt.fractionBits :=
  cast_powTwo _

/-- Multiples of a smaller power of two stay below the hidden bit of a larger one. -/
theorem Holds.lt_hiddenBit (h : fmt.Holds m q) (hq : q < q') :
    (m : ℚ) * 2 ^ q < fmt.hiddenBit * 2 ^ q' := by
  have hm : (m : ℚ) < 2 * fmt.hiddenBit := by exact_mod_cast h.lt
  have hstep : (2 : ℚ) ^ (q + 1) ≤ 2 ^ q' := zpow_le_zpow_right₀ one_le_two (by omega)
  calc (m : ℚ) * 2 ^ q < 2 * fmt.hiddenBit * 2 ^ q := by gcongr
    _ = fmt.hiddenBit * 2 ^ (q + 1) := by rw [zpow_add_one₀ two_ne_zero]; ring
    _ ≤ fmt.hiddenBit * 2 ^ q' := by gcongr

theorem Canonical.exponent_le (h : fmt.Canonical m q) (h' : fmt.Canonical m' q')
    (heq : (m : ℚ) * 2 ^ q = m' * 2 ^ q') : q' ≤ q := by
  by_contra hlt
  have hbelow := h.toHolds.lt_hiddenBit (not_le.mp hlt)
  have hhidden : (fmt.hiddenBit : ℚ) ≤ m' := by
    exact_mod_cast h'.hiddenBit_le (lt_of_le_of_lt h.minExponent_le (by omega))
  have habove : (fmt.hiddenBit : ℚ) * 2 ^ q' ≤ m' * 2 ^ q' := by gcongr
  linarith

theorem Canonical.unique (h : fmt.Canonical m q) (h' : fmt.Canonical m' q')
    (heq : (m : ℚ) * 2 ^ q = m' * 2 ^ q') : m = m' ∧ q = q' := by
  obtain rfl : q = q' := le_antisymm (h'.exponent_le h heq.symm) (h.exponent_le h' heq)
  have hpower : (2 : ℚ) ^ q ≠ 0 := by positivity
  exact ⟨by exact_mod_cast mul_right_cancel₀ hpower heq, rfl⟩

/-- The exponent of the last place of the value nearest to a fraction. -/
def lastPlace (fmt : Format) (f : Fraction) : ℤ :=
  max fmt.minExponent (f.log2 - fmt.fractionBits)

def roundedUnits (fmt : Format) (f : Fraction) : ℕ := (f.timesTwo (-fmt.lastPlace f)).round

theorem nearest_of_pos (negative : Bool) (hnum : 0 < f.num) :
    fmt.nearest negative f = fmt.ofRounded negative (fmt.roundedUnits f) (fmt.lastPlace f) := by
  rw [nearest, if_neg hnum.ne']
  rfl

theorem minExponent_le_lastPlace (fmt : Format) (f : Fraction) :
    fmt.minExponent ≤ fmt.lastPlace f := le_max_left _ _

theorem isRounding_roundedUnits (fmt : Format) (hden : 0 < f.den) :
    IsRounding (f.toRat * 2 ^ (-fmt.lastPlace f)) (fmt.roundedUnits f) := by
  rw [← Fraction.toRat_timesTwo]
  exact Fraction.isRounding_round (Fraction.den_timesTwo_pos hden _)

theorem toRat_lt_lastPlace (hnum : 0 < f.num) (hden : 0 < f.den) :
    f.toRat < (2 * fmt.hiddenBit : ℕ) * 2 ^ fmt.lastPlace f := by
  have hroom : f.log2 + 1 ≤ fmt.lastPlace f + fmt.fractionBits + 1 := by
    have := le_max_right fmt.minExponent (f.log2 - fmt.fractionBits)
    rw [lastPlace]
    omega
  calc f.toRat < 2 ^ (f.log2 + 1) := (Fraction.log2_bounds hnum hden).2
    _ ≤ 2 ^ (fmt.lastPlace f + fmt.fractionBits + 1) := zpow_le_zpow_right₀ one_le_two hroom
    _ = (2 * fmt.hiddenBit : ℕ) * 2 ^ fmt.lastPlace f := by
        rw [Nat.cast_mul, cast_hiddenBit, zpow_add_one₀ two_ne_zero, zpow_add₀ two_ne_zero,
          zpow_natCast]
        push_cast
        ring

theorem hiddenBit_le_toRat (hnum : 0 < f.num) (hden : 0 < f.den)
    (hplace : fmt.minExponent < fmt.lastPlace f) :
    (fmt.hiddenBit : ℚ) * 2 ^ fmt.lastPlace f ≤ f.toRat := by
  have hlog : fmt.lastPlace f = f.log2 - fmt.fractionBits := by
    rw [lastPlace] at hplace ⊢
    omega
  calc (fmt.hiddenBit : ℚ) * 2 ^ fmt.lastPlace f = 2 ^ f.log2 := by
        rw [cast_hiddenBit, hlog, ← zpow_natCast, ← zpow_add₀ two_ne_zero]
        congr 1
        ring
    _ ≤ f.toRat := (Fraction.log2_bounds hnum hden).1

theorem roundedUnits_le (hnum : 0 < f.num) (hden : 0 < f.den) :
    fmt.roundedUnits f ≤ 2 * fmt.hiddenBit := by
  refine (fmt.isRounding_roundedUnits hden).le_of_lt ?_
  rw [zpow_neg, ← div_eq_mul_inv, div_lt_iff₀ (by positivity)]
  exact toRat_lt_lastPlace hnum hden

theorem hiddenBit_le_roundedUnits (hnum : 0 < f.num) (hden : 0 < f.den)
    (hplace : fmt.minExponent < fmt.lastPlace f) : fmt.hiddenBit ≤ fmt.roundedUnits f := by
  refine (fmt.isRounding_roundedUnits hden).le_of_le ?_
  rw [zpow_neg, ← div_eq_mul_inv, le_div_iff₀ (by positivity)]
  exact hiddenBit_le_toRat hnum hden hplace

/-- Rounding in the last place comes as close to a fraction as any value does that the format
has digits for. -/
theorem abs_sub_roundedUnits_le (hnum : 0 < f.num) (hden : 0 < f.den) (h : fmt.Holds m q) :
    |f.toRat - fmt.roundedUnits f * 2 ^ fmt.lastPlace f| ≤ |f.toRat - m * 2 ^ q| := by
  set place := fmt.lastPlace f with hplace
  set x := f.toRat * 2 ^ (-place) with hx
  have hpower : (0 : ℚ) < 2 ^ place := by positivity
  have hround : IsRounding x (fmt.roundedUnits f) := fmt.isRounding_roundedUnits hden
  have hscale : ∀ n : ℕ, |f.toRat - n * 2 ^ place| = |x - n| * 2 ^ place :=
    fun n => abs_sub_mul_zpow two_pos place f.toRat n
  rw [hscale]
  rcases le_or_gt place q with hle | hlt
  · -- the value is a whole number of last places
    obtain ⟨k, hk⟩ := Int.le.dest hle
    have hvalue : (m : ℚ) * 2 ^ q = (m * 2 ^ k : ℕ) * 2 ^ place := by
      rw [← hk, zpow_add₀ two_ne_zero, zpow_natCast]
      push_cast
      ring
    rw [hvalue, hscale]
    exact mul_le_mul_of_nonneg_right (hround.abs_sub_le_abs_sub _) hpower.le
  · -- the hidden bit at the last place lies between the value and the fraction
    have hbelow := h.lt_hiddenBit hlt
    have habove : (fmt.hiddenBit : ℚ) * 2 ^ place ≤ f.toRat :=
      hiddenBit_le_toRat hnum hden (lt_of_le_of_lt h.minExponent_le hlt)
    calc |x - fmt.roundedUnits f| * 2 ^ place ≤ |x - fmt.hiddenBit| * 2 ^ place :=
          mul_le_mul_of_nonneg_right (hround.abs_sub_le_abs_sub _) hpower.le
      _ = |f.toRat - fmt.hiddenBit * 2 ^ place| := (hscale _).symm
      _ ≤ |f.toRat - m * 2 ^ q| := by
          rw [abs_of_nonneg (by linarith), abs_of_nonneg (by linarith)]
          linarith

/-- The format has units and halves among its values. -/
structure Regular (fmt : Format) : Prop where
  minExponent_neg : fmt.minExponent < 0
  maxExponent_pos : 0 < fmt.maxExponent

theorem regular_double : double.Regular := ⟨by decide +kernel, by decide +kernel⟩

theorem canonical_zero (hformat : fmt.Regular) : fmt.Canonical 0 fmt.minExponent where
  minExponent_le := le_rfl
  lt := Nat.mul_pos two_pos fmt.hiddenBit_pos
  le_maxExponent := (hformat.minExponent_neg.trans hformat.maxExponent_pos).le
  hiddenBit_le h := absurd h (lt_irrefl _)

/-- A rounded number of last places that is not too large is a value of the format, and has not
changed. -/
theorem ofRounded_eq_finite (negative : Bool) (hm : m ≤ 2 * fmt.hiddenBit)
    (hmin : fmt.minExponent ≤ q) (hhidden : fmt.minExponent < q → fmt.hiddenBit ≤ m)
    (hrange : (m : ℚ) * 2 ^ q < (2 * fmt.hiddenBit : ℕ) * 2 ^ fmt.maxExponent)
    (hexponents : fmt.minExponent ≤ fmt.maxExponent) :
    ∃ m' q', fmt.ofRounded negative m q = .finite negative m' q' ∧ fmt.Canonical m' q' ∧
      (m' : ℚ) * 2 ^ q' = m * 2 ^ q := by
  have hpos := fmt.hiddenBit_pos
  unfold ofRounded
  dsimp only
  by_cases hcarried : m = 2 * fmt.hiddenBit
  · have hq : q < fmt.maxExponent := by
      by_contra hlarge
      have hpower : (2 : ℚ) ^ fmt.maxExponent ≤ 2 ^ q :=
        zpow_le_zpow_right₀ one_le_two (by omega)
      have hmore : (m : ℚ) * 2 ^ fmt.maxExponent ≤ m * 2 ^ q := by gcongr
      rw [← hcarried] at hrange
      linarith
    rw [if_pos hcarried, if_pos hcarried, if_neg (by omega)]
    refine ⟨_, _, rfl, ⟨⟨by omega, by omega⟩, by omega, fun _ => le_rfl⟩, ?_⟩
    rw [hcarried, zpow_add_one₀ two_ne_zero]
    push_cast
    ring
  · have hq : q ≤ fmt.maxExponent := by
      by_contra hlarge
      have hpower : (2 : ℚ) ^ (fmt.maxExponent + 1) ≤ 2 ^ q :=
        zpow_le_zpow_right₀ one_le_two (by omega)
      have hhiddenq : (fmt.hiddenBit : ℚ) ≤ m := by exact_mod_cast hhidden (by omega)
      have hmore : (2 * fmt.hiddenBit : ℕ) * 2 ^ fmt.maxExponent ≤ (m : ℚ) * 2 ^ q :=
        calc ((2 * fmt.hiddenBit : ℕ) : ℚ) * 2 ^ fmt.maxExponent
            = fmt.hiddenBit * 2 ^ (fmt.maxExponent + 1) := by
              rw [zpow_add_one₀ two_ne_zero]
              push_cast
              ring
          _ ≤ m * 2 ^ q := by gcongr
      linarith
    rw [if_neg hcarried, if_neg hcarried, if_neg (by omega)]
    exact ⟨_, _, rfl, ⟨⟨hmin, by omega⟩, hq, hhidden⟩, rfl⟩

/-- The nearest value to a fraction that lies close to some value of the format is finite, and no
further away than that one. -/
theorem nearest_eq_finite (hformat : fmt.Regular) (negative : Bool) (hden : 0 < f.den)
    (h : fmt.Canonical m q) (hnear : |f.toRat - m * 2 ^ q| ≤ 1 / 2) :
    ∃ m' q', fmt.nearest negative f = .finite negative m' q' ∧ fmt.Canonical m' q' ∧
      |f.toRat - m' * 2 ^ q'| ≤ |f.toRat - m * 2 ^ q| := by
  have hexponents := (canonical_zero hformat).le_maxExponent
  rcases Nat.eq_zero_or_pos f.num with hzero | hnum
  · refine ⟨0, fmt.minExponent, by rw [nearest, if_pos hzero], canonical_zero hformat, ?_⟩
    rw [Fraction.toRat, hzero, Nat.cast_zero, zero_div, zero_mul, sub_zero, abs_zero]
    exact abs_nonneg _
  have hclose := abs_sub_roundedUnits_le hnum hden h.toHolds
  have hrange : (fmt.roundedUnits f : ℚ) * 2 ^ fmt.lastPlace f <
      (2 * fmt.hiddenBit : ℕ) * 2 ^ fmt.maxExponent := by
    have hlargest : (m : ℚ) * 2 ^ q ≤ ((2 * fmt.hiddenBit : ℕ) - 1) * 2 ^ fmt.maxExponent := by
      have hm : (m : ℚ) ≤ (2 * fmt.hiddenBit : ℕ) - 1 := by
        have hlt := h.lt
        rw [le_sub_iff_add_le]
        exact_mod_cast hlt
      have hpower : (2 : ℚ) ^ q ≤ 2 ^ fmt.maxExponent :=
        zpow_le_zpow_right₀ one_le_two h.le_maxExponent
      exact mul_le_mul hm hpower (by positivity) ((Nat.cast_nonneg m).trans hm)
    have hunit : (1 : ℚ) < 2 ^ fmt.maxExponent :=
      one_lt_zpow₀ one_lt_two hformat.maxExponent_pos
    have := abs_le.mp (hclose.trans hnear)
    have := abs_le.mp hnear
    linarith
  obtain ⟨m', q', hrounded, hcanonical, hvalue⟩ := ofRounded_eq_finite negative
    (roundedUnits_le hnum hden) (fmt.minExponent_le_lastPlace f)
    (hiddenBit_le_roundedUnits hnum hden) hrange hexponents
  refine ⟨m', q', (nearest_of_pos negative hnum).trans hrounded, hcanonical, ?_⟩
  rw [hvalue]
  exact hclose

theorem nearest_size (hformat : fmt.Regular) (negative : Bool) (h : fmt.Canonical m q) :
    fmt.nearest negative (size m q) = .finite negative m q := by
  have hexact : |(size m q).toRat - m * 2 ^ q| = 0 := by rw [toRat_size, sub_self, abs_zero]
  obtain ⟨m', q', hnearest, hcanonical, hclose⟩ :=
    nearest_eq_finite hformat negative (den_size_pos m q) h (hexact.trans_le (by norm_num))
  have hsame : (m : ℚ) * 2 ^ q = m' * 2 ^ q' := by
    rw [hexact, toRat_size] at hclose
    exact sub_eq_zero.mp (abs_nonpos_iff.mp hclose)
  obtain ⟨rfl, rfl⟩ := h.unique hcanonical hsame
  exact hnearest

theorem convert_of_contains (hformat : fmt.Regular) {v : Value} (h : fmt.Contains v) :
    fmt.convert v = v := by
  cases v with
  | nan => rfl
  | infinite negative => rfl
  | finite negative m q => exact nearest_size hformat negative h

theorem nearest_of_small (hformat : fmt.Regular) (negative : Bool) (hnum : 0 < f.num)
    (hden : 0 < f.den) (hsmall : f.toRat * 2 < 2 ^ fmt.minExponent) :
    fmt.nearest negative f = .finite negative 0 fmt.minExponent := by
  have hplace : fmt.lastPlace f = fmt.minExponent := by
    by_contra hne
    have hlt : fmt.minExponent < fmt.lastPlace f :=
      lt_of_le_of_ne (fmt.minExponent_le_lastPlace f) (Ne.symm hne)
    have hhidden : (1 : ℚ) ≤ fmt.hiddenBit := by exact_mod_cast fmt.hiddenBit_pos
    have hlarge : (2 : ℚ) ^ fmt.minExponent ≤ f.toRat :=
      calc (2 : ℚ) ^ fmt.minExponent ≤ 1 * 2 ^ fmt.lastPlace f := by
            rw [one_mul]
            exact zpow_le_zpow_right₀ one_le_two hlt.le
        _ ≤ fmt.hiddenBit * 2 ^ fmt.lastPlace f := by gcongr
        _ ≤ f.toRat := hiddenBit_le_toRat hnum hden hlt
    have hpos : (0 : ℚ) < 2 ^ fmt.minExponent := by positivity
    linarith
  have hunits : fmt.roundedUnits f = 0 := by
    have hnear := (abs_le.mp (fmt.isRounding_roundedUnits hden).near).1
    have hx : f.toRat * 2 ^ (-fmt.lastPlace f) < 1 / 2 := by
      rw [hplace, zpow_neg, ← div_eq_mul_inv, div_lt_iff₀ (by positivity)]
      linarith
    have hlt : (fmt.roundedUnits f : ℚ) < 1 := by linarith
    exact Nat.lt_one_iff.mp (by exact_mod_cast hlt)
  have hhidden := fmt.hiddenBit_pos
  have hexponents := (canonical_zero hformat).le_maxExponent
  rw [nearest_of_pos negative hnum, hunits, hplace, ofRounded]
  rw [if_neg (by omega), if_neg (by omega), if_neg (by omega)]

theorem nearest_of_large (negative : Bool) (hnum : 0 < f.num) (hden : 0 < f.den)
    (hlarge : (2 : ℚ) ^ (fmt.maxExponent + fmt.fractionBits + 1) ≤ f.toRat) :
    fmt.nearest negative f = .infinite negative := by
  have hlog : fmt.maxExponent + fmt.fractionBits + 1 < f.log2 + 1 :=
    (zpow_lt_zpow_iff_right₀ one_lt_two).mp
      (hlarge.trans_lt (Fraction.log2_bounds hnum hden).2)
  have hplace := le_max_right fmt.minExponent (f.log2 - fmt.fractionBits)
  rw [nearest_of_pos negative hnum, ofRounded, if_pos]
  rw [lastPlace]
  split_ifs <;> omega

end Format

end GridInversion.Binary
