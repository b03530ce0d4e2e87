import Mathlib.LinearAlgebra.Matrix.Block
import GridInversion.Proofs.BlockSystem

namespace GridInversion

namespace Cells

section Field

variable {K : Type} [Field K] {a b : Cells K} {k r : ℕ}

/-- A pivot step divides the determinant of every leading block that holds the
pivot by the pivot. -/
theorem Pivoted.det_block (h : Pivoted a b r) (hr : r < k) :
    (block k a).det = a r r * (block k b).det := by
  let i₀ : Fin k := ⟨r, hr⟩
  -- In between stands `b` with row `r` scaled back: all other rows of `a` differ from
  -- its rows by multiples of that one row.
  let scaled := Matrix.updateRow (block k b) i₀ (a r r • block k b i₀)
  have hscaled : ∀ j, scaled i₀ j = a r j := by
    intro j
    have hrow : b r j = a r j / a r r := h.pivot_row j
    simp [scaled, block, i₀, hrow, mul_div_cancel₀ _ h.pivot_ne_zero]
  have hdet : (block k a).det = scaled.det := by
    apply Matrix.det_eq_of_forall_row_eq_smul_add_const
      (fun i => if i = i₀ then 0 else a i r / a r r) i₀ (if_pos rfl)
    intro i j
    by_cases hi : i = i₀
    · subst hi
      rw [if_pos rfl, zero_mul, add_zero, hscaled]
      rfl
    · have hir : (i : ℕ) ≠ r := fun heq => hi (Fin.ext heq)
      have hrow : scaled i j = b i j := by
        simp [scaled, block, Matrix.updateRow_ne hi]
      rw [if_neg hi, hscaled, hrow, h.other_row hir, sub_add_cancel]
      rfl
  rw [hdet, Matrix.det_updateRow_smul, Matrix.updateRow_eq_self]

/-- With the columns before `r` settled, the leading block of size `r + 1` is upper
triangular, and its last diagonal cell is the only one that need not be one. -/
theorem UnitColumns.det_block_succ (h : UnitColumns (r + 1) r a) :
    (block (r + 1) a).det = a r r := by
  have htriangular : (block (r + 1) a).IsUpperTriangular := by
    intro i j hij
    have hlt : (j : ℕ) < i := hij
    have hj : (j : ℕ) < r := by omega
    have hcell := h i i.isLt j hj
    rwa [if_neg (Nat.ne_of_gt hlt)] at hcell
  rw [Matrix.det_of_isUpperTriangular htriangular, Fin.prod_univ_castSucc]
  have hones : ∀ i : Fin r, block (r + 1) a i.castSucc i.castSucc = 1 := by
    intro i
    have hcell := h i (Nat.lt_succ_of_lt i.isLt) i i.isLt
    rwa [if_pos rfl] at hcell
  simp only [hones, Finset.prod_const_one, one_mul]
  rfl

end Field

section Exact

variable {K : Type} [ExactField K] {a : Cells K} {k n r : ℕ}

theorem det_block_eq_prod_mul (hk : k ≤ n) (hpivots : ∀ i < k, a.pivot i ≠ 0) :
    (block n a).det = (∏ i ∈ Finset.range k, a.pivot i) * (block n (a.settled k)).det := by
  induction k with
  | zero => simp [settled]
  | succ k ih =>
      have hstep := pivoted_settle (hpivots k (Nat.lt_succ_self k))
      rw [ih (Nat.le_of_succ_le hk) fun i hi => hpivots i (Nat.lt_succ_of_lt hi),
        hstep.det_block hk, Finset.prod_range_succ, mul_assoc]
      rfl

theorem det_block_eq_prod (hpivots : ∀ i < r, a.pivot i ≠ 0) :
    (block r a).det = ∏ i ∈ Finset.range r, a.pivot i := by
  have hone : block r (a.settled r) = 1 := by
    ext i j
    have hcell := unitColumns_settled (Nat.le_refl r) hpivots i i.isLt j j.isLt
    rw [Matrix.one_apply]
    simpa [Fin.ext_iff] using hcell
  rw [det_block_eq_prod_mul (Nat.le_refl r) hpivots, hone, Matrix.det_one, mul_one]

theorem det_block_ne_zero (hpivots : ∀ i < r, a.pivot i ≠ 0) : (block r a).det ≠ 0 := by
  rw [det_block_eq_prod hpivots, Finset.prod_ne_zero_iff]
  intro i hi
  exact hpivots i (Finset.mem_range.mp hi)

/-- Each pivot is the quotient of two consecutive leading minors, also when it is
zero itself. -/
theorem det_block_succ (hpivots : ∀ i < r, a.pivot i ≠ 0) :
    (block (r + 1) a).det = (block r a).det * a.pivot r := by
  have hunit := unitColumns_settled (Nat.le_succ r) hpivots
  rw [det_block_eq_prod_mul (Nat.le_succ r) hpivots, hunit.det_block_succ,
    det_block_eq_prod hpivots]
  rfl

theorem block_augmented (hk : k ≤ n) (a : Cells K) : block k (a.augmented n) = block k a := by
  ext i j
  have hj : (j : ℕ) < n := Nat.lt_of_lt_of_le j.isLt hk
  exact if_pos hj

end Exact

end Cells

def Matrix.leadingMinor {K : Type} [ExactField K] (m : Matrix K) (k : ℕ) : K :=
  (Cells.block k m.cells).det

@[simp] theorem Matrix.leadingMinor_zero {K : Type} [ExactField K] (m : Matrix K) :
    m.leadingMinor 0 = 1 :=
  Matrix.det_fin_zero

namespace Inverter

variable {K : Type} [ExactOrderedField K] {v : Inverter K} {a : Cells K} {n r : ℕ}

theorem refuses_pivot_iff (hr : r < n) (hpivots : ∀ i < r, (a.augmented n).pivot i ≠ 0) :
    v.refuses ((a.augmented n).pivot r) = true ↔
      |(Cells.block (r + 1) a).det| ≤ v.epsilon * |(Cells.block r a).det| := by
  have hminor := Cells.det_block_ne_zero hpivots
  have hnext := Cells.det_block_succ hpivots
  rw [Cells.block_augmented (Nat.le_of_lt hr)] at hminor hnext
  rw [Cells.block_augmented hr] at hnext
  rw [refuses_eq_true_iff, hnext, abs_mul, mul_comm v.epsilon,
    mul_le_mul_iff_right₀ (abs_pos.mpr hminor)]

theorem accepts_iff (hepsilon : 0 ≤ v.epsilon) (hr : r ≤ n) :
    v.Accepts (a.augmented n) r ↔
      ∀ i < r, ¬ |(Cells.block (i + 1) a).det| ≤ v.epsilon * |(Cells.block i a).det| :=
  accepts_iff_forall (fun _ hi haccepts _ =>
    refuses_pivot_iff hi (haccepts.pivot_ne_zero hepsilon)) hr

theorem refusesFirst_iff_isLeast (hepsilon : 0 ≤ v.epsilon) :
    r < n ∧ v.RefusesFirst (a.augmented n) r ↔
      IsLeast {i | i < n ∧
        |(Cells.block (i + 1) a).det| ≤ v.epsilon * |(Cells.block i a).det|} r :=
  refusesFirst_iff_isLeast_setOf fun _ hi haccepts _ =>
    refuses_pivot_iff hi (haccepts.pivot_ne_zero hepsilon)

/-- The verdict of an inversion over an exact ordered field, on a faithful engine.
With `D k` for the leading minor of size `k`, the pivot refused is the least `r`
with `|D (r + 1)| ≤ ε * |D r|`, and an inverse is handed out if there is none.  For
`ε = 0` that is the first leading minor to vanish. -/
theorem invert_verdict (contract : v.engine.Faithful) (hepsilon : 0 ≤ v.epsilon)
    (hn : 1 ≤ n) {m : Matrix K} (hwell : m.WellFormed) (hshape : m.shape = ⟨n, n⟩)
    (s : v.engine.State) :
    (∀ r, (v.invert m s).result = .error (.error (.uninvertible r)) ↔
      IsLeast {i | i < n ∧ |m.leadingMinor (i + 1)| ≤ v.epsilon * |m.leadingMinor i|} r) ∧
    ((∃ x, (v.invert m s).result = .ok x) ↔
      ∀ i < n, ¬ |m.leadingMinor (i + 1)| ≤ v.epsilon * |m.leadingMinor i|) ∧
    (v.epsilon = 0 →
      ((∃ x, (v.invert m s).result = .ok x) ↔ ∀ i < n, m.leadingMinor (i + 1) ≠ 0) ∧
      ∀ r, (v.invert m s).result = .error (.error (.uninvertible r)) ↔
        IsLeast {i | i < n ∧ m.leadingMinor (i + 1) = 0} r) := by
  have hm := (hwell.fits hshape).hasCells
  have hne : n ≠ 0 := Nat.ne_of_gt hn
  have hrefused : ∀ r, (v.invert m s).result = .error (.error (.uninvertible r)) ↔
      IsLeast {i | i < n ∧ |m.leadingMinor (i + 1)| ≤ v.epsilon * |m.leadingMinor i|} r := fun r =>
    (invert_uninvertible_iff contract hm hne s r).trans (refusesFirst_iff_isLeast hepsilon)
  have hreturned : (∃ x, (v.invert m s).result = .ok x) ↔
      ∀ i < n, ¬ |m.leadingMinor (i + 1)| ≤ v.epsilon * |m.leadingMinor i| :=
    (exists_invert_eq_ok_iff contract hm hne s).trans (accepts_iff hepsilon (Nat.le_refl n))
  refine ⟨hrefused, hreturned, fun hzero => ?_⟩
  have hvanish : ∀ i, |m.leadingMinor (i + 1)| ≤ v.epsilon * |m.leadingMinor i| ↔
      m.leadingMinor (i + 1) = 0 := by
    intro i
    rw [hzero, zero_mul, abs_nonpos_iff]
  simp only [hvanish] at hrefused hreturned
  exact ⟨hreturned, hrefused⟩

theorem invert_verdict_two_by_two :
    (serialExact.invert ⟨2, 2, #[1, 2, 2, 4]⟩ ()).result =
        .error (.error (.uninvertible 1)) ∧
      IsLeast {i | i < 2 ∧
        (⟨2, 2, #[1, 2, 2, 4]⟩ : Matrix ℚ).leadingMinor (i + 1) = 0} 1 := by
  have hresult : (serialExact.invert ⟨2, 2, #[1, 2, 2, 4]⟩ ()).result =
      .error (.error (.uninvertible 1)) := by cbv
  obtain ⟨-, -, hexact⟩ := invert_verdict (v := serialExact) Engine.faithful_serial
    (le_refl (0 : ℚ)) (n := 2) (by decide) (m := ⟨2, 2, #[1, 2, 2, 4]⟩) rfl rfl ()
  exact ⟨hresult, ((hexact rfl).2 1).mp hresult⟩

end Inverter

end GridInversion
