import Mathlib.Algebra.BigOperators.Field
import Mathlib.Algebra.BigOperators.Intervals
import Mathlib.Tactic.Ring
import GridInversion.Proofs.MatrixCells

namespace GridInversion.Cells

variable {K : Type} [Field K] {a b : Cells K} {n r : ℕ}

/-- Over a field, `b` comes from `a` by dividing row `r` by its diagonal cell,
which is not zero, and by clearing column `r` in all other rows. -/
structure Pivoted (a b : Cells K) (r : ℕ) : Prop where
  pivot_ne_zero : a r r ≠ 0
  pivot_row : ∀ x, b r x = a r x / a r r
  other_row : ∀ {y : ℕ}, y ≠ r → ∀ x, b y x = a y x - a y r / a r r * a r x

/-- The columns before `k` are those of the identity, as far down as row `n`. -/
def UnitColumns (n k : ℕ) (a : Cells K) : Prop :=
  ∀ y < n, ∀ x < k, a y x = if y = x then 1 else 0

/-- Every row before `n`, cut to `width` columns, is orthogonal to `z`. -/
def Annihilates (n width : ℕ) (a : Cells K) (z : ℕ → K) : Prop :=
  ∀ y < n, ∑ x ∈ Finset.range width, a y x * z x = 0

theorem unitColumns_zero (n : ℕ) (a : Cells K) : UnitColumns n 0 a := by
  intro y _ x hx
  exact absurd hx (Nat.not_lt_zero x)

namespace Pivoted

theorem pivot_column (h : Pivoted a b r) (y : ℕ) : b y r = if y = r then 1 else 0 := by
  split
  · rename_i hy
    rw [hy, h.pivot_row, div_self h.pivot_ne_zero]
  · rename_i hy
    rw [h.other_row hy, div_mul_cancel₀ _ h.pivot_ne_zero, sub_self]

theorem column_eq (h : Pivoted a b r) {x : ℕ} (hx : a r x = 0) (y : ℕ) : b y x = a y x := by
  by_cases hy : y = r
  · rw [hy, h.pivot_row, hx, zero_div]
  · rw [h.other_row hy, hx, mul_zero, sub_zero]

theorem unitColumns_succ (h : Pivoted a b r) (hr : r < n) (ha : UnitColumns n r a) :
    UnitColumns n (r + 1) b := by
  intro y hy x hx
  rcases Nat.lt_succ_iff_lt_or_eq.mp hx with hlt | rfl
  · have hzero : a r x = 0 := by
      rw [ha r hr x hlt, if_neg (Nat.ne_of_gt hlt)]
    rw [h.column_eq hzero, ha y hy x hlt]
  · exact h.pivot_column y

theorem sum_pivot_row (h : Pivoted a b r) (width : ℕ) (z : ℕ → K) :
    ∑ x ∈ Finset.range width, b r x * z x =
      (∑ x ∈ Finset.range width, a r x * z x) / a r r := by
  rw [Finset.sum_div]
  apply Finset.sum_congr rfl
  intro x _
  rw [h.pivot_row]
  ring

theorem sum_other_row (h : Pivoted a b r) {y : ℕ} (hy : y ≠ r) (width : ℕ) (z : ℕ → K) :
    ∑ x ∈ Finset.range width, b y x * z x =
      ∑ x ∈ Finset.range width, a y x * z x -
        a y r / a r r * ∑ x ∈ Finset.range width, a r x * z x := by
  rw [Finset.mul_sum, ← Finset.sum_sub_distrib]
  apply Finset.sum_congr rfl
  intro x _
  rw [h.other_row hy]
  ring

/-- The rows change, but what is orthogonal to all of them does not. -/
theorem annihilates_iff (h : Pivoted a b r) (hr : r < n) (width : ℕ) (z : ℕ → K) :
    Annihilates n width b z ↔ Annihilates n width a z := by
  constructor
  · intro hb
    have hpivot : ∑ x ∈ Finset.range width, a r x * z x = 0 := by
      have hrow := hb r hr
      rw [h.sum_pivot_row, div_eq_zero_iff] at hrow
      exact hrow.resolve_right h.pivot_ne_zero
    intro y hy
    by_cases hyr : y = r
    · rw [hyr, hpivot]
    · have hrow := hb y hy
      rwa [h.sum_other_row hyr, hpivot, mul_zero, sub_zero] at hrow
  · intro ha y hy
    by_cases hyr : y = r
    · rw [hyr, h.sum_pivot_row, ha r hr, zero_div]
    · rw [h.sum_other_row hyr, ha y hy, ha r hr, mul_zero, sub_zero]

end Pivoted

/-- A matrix `[A | B]` and a matrix `[I | Y]` that are orthogonal to the same
columns satisfy `A * Y = B`: the columns of `Y`, continued by those of `-I`, are
orthogonal to the second one. -/
theorem sum_mul_eq_of_unitColumns (hb : UnitColumns n n b)
    (hab : ∀ z, Annihilates n (n + n) b z → Annihilates n (n + n) a z) {y c : ℕ}
    (hy : y < n) (hc : c < n) :
    ∑ x ∈ Finset.range n, a y x * b x (n + c) = a y (n + c) := by
  let z : ℕ → K := fun x => if x < n then b x (n + c) else if x = n + c then -1 else 0
  have hleft : ∀ d : Cells K, ∀ y, ∑ x ∈ Finset.range (n + n), d y x * z x =
      ∑ x ∈ Finset.range n, d y x * b x (n + c) - d y (n + c) := by
    intro d y
    have hlow : ∑ x ∈ Finset.range n, d y x * z x =
        ∑ x ∈ Finset.range n, d y x * b x (n + c) := by
      apply Finset.sum_congr rfl
      intro x hx
      simp only [z, if_pos (Finset.mem_range.mp hx)]
    have hhigh : ∑ x ∈ Finset.range n, d y (n + x) * z (n + x) = -d y (n + c) := by
      rw [Finset.sum_eq_single_of_mem c (Finset.mem_range.mpr hc)]
      · simp [z]
      · intro x _ hx
        simp [z, hx]
    rw [Finset.sum_range_add, hlow, hhigh, sub_eq_add_neg]
  have hannihilates : Annihilates n (n + n) b z := by
    intro y hy
    have hrow : ∑ x ∈ Finset.range n, b y x * b x (n + c) = b y (n + c) := by
      rw [Finset.sum_eq_single_of_mem y (Finset.mem_range.mpr hy)]
      · rw [hb y hy y hy, if_pos rfl, one_mul]
      · intro x hx hxy
        rw [hb y hy x (Finset.mem_range.mp hx), if_neg (Ne.symm hxy), zero_mul]
    rw [hleft, hrow, sub_self]
  have hzero := hab z hannihilates y hy
  rw [hleft] at hzero
  exact sub_eq_zero.mp hzero

end GridInversion.Cells
