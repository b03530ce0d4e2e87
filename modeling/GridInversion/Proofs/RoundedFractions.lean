import GridInversion.Fraction
import Mathlib.Algebra.Order.Field.Power
import Mathlib.Algebra.Order.Ring.Rat
import Mathlib.Algebra.Ring.Parity
import Mathlib.Tactic.FieldSimp
import Mathlib.Tactic.Linarith
import Mathlib.Tactic.Positivity
import Mathlib.Tactic.Ring

namespace GridInversion

theorem powTwo_add (a b : ℕ) : powTwo (a + b) = powTwo a * powTwo b := Nat.pow_add 2 a b

theorem cast_powTwo (k : ℕ) : (powTwo k : ℚ) = 2 ^ k := by
  rw [powTwo]
  exact Nat.cast_pow 2 k

theorem cast_powTen (k : ℕ) : (powTen k : ℚ) = 10 ^ k := by
  rw [powTen]
  exact Nat.cast_pow 10 k

theorem abs_sub_mul_zpow {base : ℚ} (hbase : 0 < base) (e : ℤ) (x n : ℚ) :
    |x - n * base ^ e| = |x * base ^ (-e) - n| * base ^ e := by
  have hpower : 0 < base ^ e := zpow_pos hbase e
  have hunit : base ^ (-e) * base ^ e = 1 := by
    rw [← zpow_add₀ hbase.ne', neg_add_cancel, zpow_zero]
  rw [← abs_of_pos hpower, ← abs_mul, abs_of_pos hpower, sub_mul, mul_assoc, hunit, mul_one]

/-- A whole number nearest to `x`, the even one if two are equally near. -/
structure IsRounding (x : ℚ) (n : ℕ) : Prop where
  near : |x - n| ≤ 1 / 2
  even_of_tie : |x - n| = 1 / 2 → Even n

namespace IsRounding

variable {x y : ℚ} {n k : ℕ}

private theorem one_le_abs_add_abs (hne : n ≠ k) (x : ℚ) : 1 ≤ |x - n| + |x - k| := by
  have hapart : (1 : ℚ) ≤ |(n : ℚ) - k| := by
    exact_mod_cast Int.one_le_abs (show (n : ℤ) - k ≠ 0 by omega)
  calc (1 : ℚ) ≤ |(n : ℚ) - k| := hapart
    _ ≤ |(n : ℚ) - x| + |x - k| := abs_sub_le _ _ _
    _ = |x - n| + |x - k| := by rw [abs_sub_comm]

theorem abs_sub_le_abs_sub (h : IsRounding x n) (k : ℕ) : |x - n| ≤ |x - k| := by
  rcases eq_or_ne n k with rfl | hne
  · exact le_rfl
  · linarith [one_le_abs_add_abs hne x, h.near]

/-- A number no further from `n` than one that rounds to `n` rounds to `n` too: if it lies half
way between two, so does the other. -/
theorem of_abs_sub_le (h : IsRounding x n) (hy : |y - n| ≤ |x - n|) : IsRounding y n where
  near := hy.trans h.near
  even_of_tie htie := h.even_of_tie (le_antisymm h.near (htie ▸ hy))

theorem unique (h : IsRounding x n) (h' : IsRounding x k) : n = k := by
  by_contra hne
  have hsum := one_le_abs_add_abs hne x
  have heven : Even n := h.even_of_tie (by linarith [h.near, h'.near])
  have heven' : Even k := h'.even_of_tie (by linarith [h.near, h'.near])
  have hclose : |(n : ℤ) - k| ≤ 1 := by
    have hthrough : |(n : ℚ) - k| ≤ |(n : ℚ) - x| + |x - k| := abs_sub_le _ _ _
    rw [abs_sub_comm (n : ℚ) x] at hthrough
    have hrat : |(n : ℚ) - k| ≤ 1 := by linarith [h.near, h'.near]
    exact_mod_cast hrat
  obtain ⟨hlow, hhigh⟩ := abs_le.mp hclose
  rw [Nat.even_iff] at heven heven'
  omega

theorem le_of_lt (h : IsRounding x n) (hx : x < k) : n ≤ k := by
  have hnear := (abs_le.mp h.near).1
  have hlt : (n : ℚ) < k + 1 := by linarith
  exact Nat.lt_succ_iff.mp (by exact_mod_cast hlt)

theorem le_of_le (h : IsRounding x n) (hx : (k : ℚ) ≤ x) : k ≤ n := by
  have hnear := (abs_le.mp h.near).2
  have hlt : (k : ℚ) < n + 1 := by linarith
  exact Nat.lt_succ_iff.mp (by exact_mod_cast hlt)

end IsRounding

theorem even_roundHalfEven {num den : ℕ} (h : 0 < den)
    (htie : 2 * (den * roundHalfEven num den) = 2 * num + den ∨
      2 * num = 2 * (den * roundHalfEven num den) + den) :
    Even (roundHalfEven num den) := by
  have hdiv := Nat.div_add_mod num den
  have hmod := Nat.mod_lt num h
  rw [Nat.even_iff]
  unfold roundHalfEven at htie ⊢
  dsimp only at htie ⊢
  split_ifs at htie ⊢
  · omega
  · rw [Nat.mul_add] at htie; omega
  · assumption
  · omega

namespace Fraction

variable {f : Fraction}

def toRat (f : Fraction) : ℚ := f.num / f.den

theorem toRat_whole (n : ℕ) : (whole n).toRat = n := by
  rw [toRat, whole, Nat.cast_one, div_one]

private theorem toRat_times {power : ℕ → ℕ} {base : ℚ} (hpower : ∀ k, (power k : ℚ) = base ^ k)
    (f : Fraction) (e : ℤ) :
    (if 0 ≤ e then (⟨f.num * power e.toNat, f.den⟩ : Fraction)
      else ⟨f.num, f.den * power (-e).toNat⟩).toRat = f.toRat * base ^ e := by
  split
  · rename_i hpos
    obtain ⟨k, rfl⟩ := Int.eq_ofNat_of_zero_le hpos
    rw [toRat, toRat, Int.toNat_natCast, Nat.cast_mul, hpower, zpow_natCast]
    ring
  · rename_i hneg
    obtain ⟨k, hk⟩ := Int.eq_ofNat_of_zero_le (show 0 ≤ -e by omega)
    obtain rfl : e = -(k : ℤ) := by omega
    rw [toRat, toRat, neg_neg, Int.toNat_natCast, Nat.cast_mul, hpower, zpow_neg, zpow_natCast,
      div_mul_eq_div_div, div_eq_mul_inv]

theorem toRat_timesTwo (f : Fraction) (e : ℤ) : (f.timesTwo e).toRat = f.toRat * 2 ^ e :=
  toRat_times cast_powTwo f e

theorem toRat_timesTen (f : Fraction) (e : ℤ) : (f.timesTen e).toRat = f.toRat * 10 ^ e :=
  toRat_times cast_powTen f e

theorem isRounding_round (hden : 0 < f.den) : IsRounding f.toRat f.round := by
  have hposq : (0 : ℚ) < f.den := by exact_mod_cast hden
  have hle : (2 * (f.den * f.round) : ℚ) ≤ 2 * f.num + f.den := by
    exact_mod_cast two_mul_roundHalfEven_le f.num f.den
  have hge : (2 * f.num : ℚ) ≤ 2 * (f.den * f.round) + f.den := by
    exact_mod_cast two_mul_le_roundHalfEven hden f.num
  have hdist : f.toRat - f.round = (f.num - f.den * f.round) / f.den := by
    rw [toRat]
    field_simp
  constructor
  · rw [hdist, abs_le]
    constructor
    · rw [le_div_iff₀ hposq]; linarith
    · rw [div_le_iff₀ hposq]; linarith
  · intro htie
    rw [hdist, abs_eq (by norm_num), div_eq_iff hposq.ne', div_eq_iff hposq.ne'] at htie
    refine even_roundHalfEven hden (htie.symm.imp (fun h => ?_) fun h => ?_)
    · have hrat : (2 * (f.den * f.round) : ℚ) = 2 * f.num + f.den := by linarith
      exact_mod_cast hrat
    · have hrat : (2 * f.num : ℚ) = 2 * (f.den * f.round) + f.den := by linarith
      exact_mod_cast hrat

theorem isLarge_iff (hden : 0 < f.den) : f.isLarge = true ↔ 1 ≤ f.toRat := by
  rw [isLarge, decide_eq_true_iff, toRat, one_le_div (by exact_mod_cast hden), Nat.cast_le]

theorem log2_bounds (hnum : 0 < f.num) (hden : 0 < f.den) :
    (2 : ℚ) ^ f.log2 ≤ f.toRat ∧ f.toRat < 2 ^ (f.log2 + 1) := by
  have hnumq : (0 : ℚ) < f.num := by exact_mod_cast hnum
  have hdenq : (0 : ℚ) < f.den := by exact_mod_cast hden
  have hnumlow : (2 : ℚ) ^ f.num.log2 ≤ f.num := by
    exact_mod_cast Nat.log2_self_le hnum.ne'
  have hnumhigh : (f.num : ℚ) < 2 ^ (f.num.log2 + 1) := by exact_mod_cast Nat.lt_log2_self
  have hdenlow : (2 : ℚ) ^ f.den.log2 ≤ f.den := by
    exact_mod_cast Nat.log2_self_le hden.ne'
  have hdenhigh : (f.den : ℚ) < 2 ^ (f.den.log2 + 1) := by exact_mod_cast Nat.lt_log2_self
  -- the estimate from the two lengths is right or one too large
  have hlow : (2 : ℚ) ^ ((f.num.log2 : ℤ) - f.den.log2 - 1) ≤ f.toRat := by
    rw [toRat, le_div_iff₀ hdenq]
    calc (2 : ℚ) ^ ((f.num.log2 : ℤ) - f.den.log2 - 1) * f.den
        ≤ 2 ^ ((f.num.log2 : ℤ) - f.den.log2 - 1) * 2 ^ (f.den.log2 + 1) :=
          mul_le_mul_of_nonneg_left hdenhigh.le (by positivity)
      _ = 2 ^ f.num.log2 := by
          rw [← zpow_natCast, ← zpow_natCast, ← zpow_add₀ two_ne_zero]
          congr 1
          push_cast
          ring
      _ ≤ f.num := hnumlow
  have hhigh : f.toRat < 2 ^ ((f.num.log2 : ℤ) - f.den.log2 + 1) := by
    rw [toRat, div_lt_iff₀ hdenq]
    calc (f.num : ℚ) < 2 ^ (f.num.log2 + 1) := hnumhigh
      _ = 2 ^ ((f.num.log2 : ℤ) - f.den.log2 + 1) * 2 ^ f.den.log2 := by
          rw [← zpow_natCast, ← zpow_natCast, ← zpow_add₀ two_ne_zero]
          congr 1
          push_cast
          ring
      _ ≤ 2 ^ ((f.num.log2 : ℤ) - f.den.log2 + 1) * f.den :=
          mul_le_mul_of_nonneg_left hdenlow (by positivity)
  have hpower : (0 : ℚ) < 2 ^ ((f.num.log2 : ℤ) - f.den.log2) := by positivity
  have hlarge := isLarge_iff (den_timesTwo_pos hden (-((f.num.log2 : ℤ) - f.den.log2)))
  rw [toRat_timesTwo, zpow_neg, ← div_eq_mul_inv, one_le_div hpower] at hlarge
  unfold log2
  dsimp only
  split
  · rename_i h
    exact ⟨hlarge.mp h, hhigh⟩
  · rename_i h
    rw [sub_add_cancel]
    exact ⟨hlow, lt_of_not_ge fun hle => h (hlarge.mpr hle)⟩

end Fraction

end GridInversion
