import Mathlib.Algebra.BigOperators.GroupWithZero.Action
import Mathlib.Algebra.Module.Pi
import Mathlib.LinearAlgebra.Span.Basic
import GridInversion.Proofs.PivotSteps

namespace GridInversion.Cells

variable {K : Type} [Field K] {a b c : Cells K} {r : ℕ} {s : Finset ℕ}

/-- The combinations of the rows with a number in `s`. -/
def rowSpan (s : Finset ℕ) (a : Cells K) : Submodule K (ℕ → K) := Submodule.span K (a '' s)

/-- The columns with a number in `s` are those of the identity, in all rows. -/
def UnitOn (s : Finset ℕ) (a : Cells K) : Prop :=
  ∀ x ∈ s, ∀ y, a y x = if y = x then 1 else 0

theorem row_mem_rowSpan (a : Cells K) (hr : r ∈ s) : a r ∈ rowSpan s a :=
  Submodule.subset_span ⟨r, hr, rfl⟩

namespace Pivoted

theorem row_eq_smul (h : Pivoted a b r) : b r = (a r r)⁻¹ • a r := by
  funext x
  rw [h.pivot_row, Pi.smul_apply, smul_eq_mul, div_eq_inv_mul]

theorem row_eq_sub (h : Pivoted a b r) {y : ℕ} (hy : y ≠ r) :
    b y = a y - (a y r / a r r) • a r := by
  funext x
  rw [h.other_row hy, Pi.sub_apply, Pi.smul_apply, smul_eq_mul]

/-- A step at a pivot of `s` changes each row by a combination of the rows of `s`. -/
theorem sub_mem_rowSpan (h : Pivoted a b r) (hr : r ∈ s) (y : ℕ) : b y - a y ∈ rowSpan s a := by
  have hpivot : a r ∈ rowSpan s a := row_mem_rowSpan a hr
  by_cases hy : y = r
  · subst hy
    rw [h.row_eq_smul]
    exact sub_mem (Submodule.smul_mem _ _ hpivot) hpivot
  · rw [h.row_eq_sub hy, sub_sub_cancel_left]
    exact neg_mem (Submodule.smul_mem _ _ hpivot)

theorem rowSpan_eq (h : Pivoted a b r) (hr : r ∈ s) : rowSpan s b = rowSpan s a := by
  apply le_antisymm
  · apply Submodule.span_le.mpr
    rintro _ ⟨y, hy, rfl⟩
    rw [← sub_add_cancel (b y) (a y)]
    exact add_mem (h.sub_mem_rowSpan hr y) (row_mem_rowSpan a hy)
  · have hpivot : a r ∈ rowSpan s b := by
      have hrow : a r = a r r • b r := by
        rw [h.row_eq_smul, smul_inv_smul₀ h.pivot_ne_zero]
      rw [hrow]
      exact Submodule.smul_mem _ _ (row_mem_rowSpan b hr)
    apply Submodule.span_le.mpr
    rintro _ ⟨y, hy, rfl⟩
    by_cases hyr : y = r
    · rw [hyr]
      exact hpivot
    · have hrow : a y = b y + (a y r / a r r) • a r := by
        rw [h.row_eq_sub hyr, sub_add_cancel]
      rw [hrow]
      exact add_mem (row_mem_rowSpan b hy) (Submodule.smul_mem _ _ hpivot)

theorem unitOn_insert (h : Pivoted a b r) (ha : UnitOn s a) : UnitOn (insert r s) b := by
  intro x hx y
  by_cases hxr : x = r
  · subst hxr
    exact h.pivot_column y
  · have hunit := ha x (Finset.mem_of_mem_insert_of_ne hx hxr)
    rw [h.column_eq ((hunit r).trans (if_neg (Ne.symm hxr))), hunit]

end Pivoted

/-- Where the columns of `s` are unit columns, a combination of the rows of `s` is the one with its
own cells in these columns for coefficients. -/
theorem UnitOn.eq_sum_of_mem_rowSpan (h : UnitOn s b) {d : ℕ → K} (hd : d ∈ rowSpan s b) :
    d = ∑ t ∈ s, d t • b t := by
  induction hd using Submodule.span_induction with
  | mem d hd =>
      obtain ⟨r, hr, rfl⟩ := hd
      rw [Finset.sum_eq_single_of_mem r hr]
      · rw [h r hr, if_pos rfl, one_smul]
      · intro t ht htr
        rw [h t ht, if_neg (Ne.symm htr), zero_smul]
  | zero => simp only [Pi.zero_apply, zero_smul, Finset.sum_const_zero]
  | add d e _ _ hd he =>
      simp only [Pi.add_apply, add_smul, Finset.sum_add_distrib]
      rw [← hd, ← he]
  | smul k d _ hd =>
      simp only [Pi.smul_apply, smul_eq_mul, mul_smul, ← Finset.smul_sum]
      rw [← hd]

/-- Two matrices with unit columns in `s` whose rows differ by combinations of the rows of `s`
are the same. -/
theorem UnitOn.eq_of_sub_mem_rowSpan (hb : UnitOn s b) (hc : UnitOn s c)
    (hspan : ∀ y, c y - b y ∈ rowSpan s b) : c = b := by
  funext y
  have hsum := hb.eq_sum_of_mem_rowSpan (hspan y)
  have hzero : ∀ t ∈ s, (c y - b y) t • b t = 0 := by
    intro t ht
    rw [Pi.sub_apply, hc t ht, hb t ht, sub_self, zero_smul]
  rw [Finset.sum_eq_zero hzero] at hsum
  exact sub_eq_zero.mp hsum

end GridInversion.Cells
