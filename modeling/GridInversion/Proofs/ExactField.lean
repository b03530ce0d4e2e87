import Mathlib.Algebra.Order.Field.Rat
import GridInversion.Proofs.InversionVerdict
import GridInversion.Proofs.PivotSteps
import GridInversion.Proofs.ProductCells

namespace GridInversion

/-- Scalars whose arithmetic is that of a ring: nothing is rounded and every
value is finite. -/
class ExactRing (K : Type) extends Scalar K, Ring K where
  isFinite_eq_true : ∀ x : K, Scalar.isFinite x = true
  beq_iff_eq : ∀ x y : K, (x == y) = true ↔ x = y

/-- Exact scalars that can be divided. -/
class ExactField (K : Type) extends ExactRing K, Field K

/-- An exact field whose comparisons are those of a linear order. -/
class ExactOrderedField (K : Type) extends ExactField K, LinearOrder K, IsStrictOrderedRing K

instance : ExactOrderedField ℚ :=
  { (inferInstance : Field ℚ), (inferInstance : LinearOrder ℚ),
    (inferInstance : IsStrictOrderedRing ℚ) with
    beq := (· == ·)
    isFinite := fun _ => true
    decidableLT := inferInstance
    decidableLE := inferInstance
    isFinite_eq_true := fun _ => rfl
    beq_iff_eq := fun _ _ => beq_iff_eq }

theorem Matrix.isFinite_eq_true {K : Type} [ExactRing K] (m : Matrix K) :
    m.isFinite = true := by
  rw [isFinite, Array.all_eq_true]
  intro i hi
  exact ExactRing.isFinite_eq_true _

theorem Cells.skippingDot_eq_sum {K : Type} [ExactRing K] (a b : Cells K) (r c n : ℕ) :
    skippingDot a b r c n = ∑ k ∈ Finset.range n, a r k * b k c := by
  induction n with
  | zero => rfl
  | succ n ih =>
      rw [Finset.sum_range_succ, ← ih, skippingDot]
      split
      · rename_i hzero
        rw [(ExactRing.beq_iff_eq _ _).mp hzero, zero_mul, add_zero]
      · rfl

theorem Matrix.product_hasCells_sum {K : Type} [ExactRing K] {left right : Matrix K}
    {p q t : ℕ} {a b : Cells K} (hleft : left.HasCells ⟨p, q⟩ a)
    (hright : right.HasCells ⟨q, t⟩ b) :
    ∃ m, left.product right = .ok m ∧
      m.HasCells ⟨p, t⟩ fun r c => ∑ k ∈ Finset.range q, a r k * b k c := by
  obtain ⟨m, hm, hcells⟩ := product_hasCells hleft hright
  exact ⟨m, hm, hcells.congr fun r c _ _ => Cells.skippingDot_eq_sum a b r c q⟩

namespace Cells

theorem pivoted_settle {K : Type} [ExactField K] {a : Cells K} {r : ℕ} (h : a r r ≠ 0) :
    Pivoted a (a.settle r) r := by
  have hpivot : ¬ (a r r == 0) = true := fun hzero => h ((ExactRing.beq_iff_eq _ _).mp hzero)
  refine ⟨h, fun x => ?_, fun {y} hy x => ?_⟩
  · rw [settle, if_neg hpivot, if_pos rfl]
  · rw [settle]
    by_cases hzero : (a y r == 0) = true
    · have hyr : a y r = 0 := (ExactRing.beq_iff_eq _ _).mp hzero
      rw [if_pos hzero, hyr, zero_div, zero_mul, sub_zero]
    · rw [if_neg hzero, if_neg hy]
      ring

section Settled

variable {K : Type} [ExactField K] {a : Cells K} {n k : ℕ}

/-- As long as no pivot vanishes, each settled column is a unit column. -/
theorem unitColumns_settled (hk : k ≤ n) (hpivots : ∀ i < k, a.pivot i ≠ 0) :
    UnitColumns n k (a.settled k) := by
  induction k with
  | zero => exact unitColumns_zero n _
  | succ k ih =>
      have hstep := pivoted_settle (hpivots k (Nat.lt_succ_self k))
      exact hstep.unitColumns_succ hk
        (ih (Nat.le_of_succ_le hk) fun i hi => hpivots i (Nat.lt_succ_of_lt hi))

theorem annihilates_settled_iff (hk : k ≤ n) (hpivots : ∀ i < k, a.pivot i ≠ 0)
    (width : ℕ) (z : ℕ → K) :
    Annihilates n width (a.settled k) z ↔ Annihilates n width a z := by
  induction k with
  | zero => rfl
  | succ k ih =>
      have hstep := pivoted_settle (hpivots k (Nat.lt_succ_self k))
      exact (hstep.annihilates_iff hk width z).trans
        (ih (Nat.le_of_succ_le hk) fun i hi => hpivots i (Nat.lt_succ_of_lt hi))

theorem sum_mul_settled (hpivots : ∀ i < n, a.pivot i ≠ 0) {y c : ℕ} (hy : y < n)
    (hc : c < n) :
    ∑ x ∈ Finset.range n, a y x * a.settled n x (n + c) = a y (n + c) :=
  sum_mul_eq_of_unitColumns (unitColumns_settled (Nat.le_refl n) hpivots)
    (fun z => (annihilates_settled_iff (Nat.le_refl n) hpivots (n + n) z).mp) hy hc

end Settled

end Cells

section Ordered

variable {K : Type} [ExactOrderedField K]

theorem Scalar.abs_eq_abs (x : K) : Scalar.abs x = |x| := by
  unfold Scalar.abs
  split
  · rename_i hx
    exact (abs_of_neg hx).symm
  · rename_i hx
    exact (abs_of_nonneg (not_lt.mp hx)).symm

namespace Inverter

variable {v : Inverter K}

theorem refuses_eq_true_iff {p : K} : v.refuses p = true ↔ |p| ≤ v.epsilon := by
  simp [refuses, ExactRing.isFinite_eq_true, Scalar.abs_eq_abs]

theorem refuses_eq_false_iff {p : K} : v.refuses p = false ↔ v.epsilon < |p| := by
  rw [Bool.eq_false_iff, Ne, refuses_eq_true_iff, not_le]

theorem Accepts.pivot_ne_zero {a : Cells K} {k : ℕ} (h : v.Accepts a k)
    (hepsilon : 0 ≤ v.epsilon) : ∀ i < k, a.pivot i ≠ 0 := by
  intro i hi hzero
  have hlt := refuses_eq_false_iff.mp (h i hi)
  rw [hzero, abs_zero] at hlt
  exact absurd hepsilon (not_le.mpr hlt)

/-- With exact arithmetic no result can overflow, so inversion succeeds as soon as
all pivots are accepted. -/
theorem exists_invert_eq_ok_iff (contract : v.engine.Faithful) {n : ℕ} {a : Cells K}
    {m : Matrix K} (hm : m.HasCells ⟨n, n⟩ a) (hn : n ≠ 0) (s : v.engine.State) :
    (∃ x, (v.invert m s).result = .ok x) ↔ v.Accepts (a.augmented n) n := by
  have hends := ends_invert contract hm hn
  constructor
  · rintro ⟨x, hx⟩
    exact (hends.of_result_ok hx).1
  · intro haccepts
    rcases h : (v.invert m s).result with fault | x
    · rcases hends.of_result_error h with ⟨r, hr, -, hrefuses⟩ | ⟨-, -, x, -, hinfinite⟩
      · exact absurd hrefuses (haccepts.not_refusesFirst hr)
      · rw [x.isFinite_eq_true] at hinfinite
        cases hinfinite
    · exact ⟨x, rfl⟩

end Inverter

end Ordered

end GridInversion
