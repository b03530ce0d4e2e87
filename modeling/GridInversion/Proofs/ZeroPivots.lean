import Mathlib.Algebra.Group.Ext
import GridInversion.Proofs.LeadingMinors
import GridInversion.Proofs.ScalarLaws

namespace GridInversion.Inverter

section Compared

variable {α : Type} [Scalar α] [ComparesZeros α] {v : Inverter α}

theorem refuses_zero_iff {pivot : α} (h : (pivot == 0) = true) :
    v.refuses pivot = true ↔ 0 ≤ v.epsilon := by
  have hfinite := FiniteZeros.finite_of_beq_zero pivot h
  have habs : Scalar.abs pivot = pivot := if_neg (ComparesZeros.not_lt_zero pivot h)
  rw [refuses, hfinite, habs, Bool.not_true, Bool.false_or, decide_eq_true_iff]
  exact ComparesZeros.le_iff pivot h v.epsilon

/-- A zero in the place of the next pivot is refused by the thresholds that are at least
zero, and by no others: a negative one and one that is not a number let it pass. -/
theorem zero_pivot_refused_iff (contract : v.engine.Faithful) {n r : Nat} (hr : r < n)
    (s : v.engine.State) :
    (∀ m : Matrix α, m.WellFormed → m.shape = ⟨n, n⟩ → v.Accepts (m.cells.augmented n) r →
      ((m.cells.augmented n).pivot r == 0) = true →
        ((v.invert m s).result = .error (.error (.uninvertible r)) ↔ 0 ≤ v.epsilon)) ∧
    ∀ aug : Matrix α, aug.WellFormed → aug.shape = Stage.augmentedShape n →
      v.Accepts aug.cells r → (aug.cells.pivot r == 0) = true →
        ((v.eliminate aug n s).result = .error (.error (.uninvertible r)) ↔ 0 ≤ v.epsilon) := by
  constructor
  · intro m hwell hshape haccepts hzero
    have hm := (hwell.fits hshape).hasCells
    rw [invert_uninvertible_iff contract hm (Nat.ne_zero_of_lt hr), ← refuses_zero_iff hzero]
    exact ⟨fun h => h.2.1, fun h => ⟨hr, h, haccepts⟩⟩
  · intro aug hwell hshape haccepts hzero
    have haug := (hwell.fits hshape).hasCells
    rw [eliminate_uninvertible_iff contract haug, ← refuses_zero_iff hzero]
    exact ⟨fun h => h.2.1, fun h => ⟨hr, h, haccepts⟩⟩

end Compared

/-- The matrix of one zero in double precision, with three thresholds. -/
theorem zero_pivot_refused_iff_double :
    ((⟨.serial, 1e-12⟩ : Inverter Float).invert ⟨1, 1, #[0]⟩ ()).result =
        .error (.error (.uninvertible 0)) ∧
      ((⟨.serial, -1⟩ : Inverter Float).invert ⟨1, 1, #[0]⟩ ()).result ≠
        .error (.error (.uninvertible 0)) ∧
      ((⟨.serial, 0 / 0⟩ : Inverter Float).invert ⟨1, 1, #[0]⟩ ()).result ≠
        .error (.error (.uninvertible 0)) := by
  have hrefused : ∀ epsilon : Float,
      ((⟨.serial, epsilon⟩ : Inverter Float).invert ⟨1, 1, #[0]⟩ ()).result =
        .error (.error (.uninvertible 0)) ↔ 0 ≤ epsilon := by
    intro epsilon
    refine (zero_pivot_refused_iff (v := ⟨.serial, epsilon⟩) Engine.faithful_serial
      (n := 1) (r := 0) (by decide) ()).1 ⟨1, 1, #[0]⟩ rfl rfl ?_ (by decide +kernel)
    exact fun i hi => absurd hi (Nat.not_lt_zero i)
  rw [Ne, Ne, hrefused, hrefused, hrefused]
  decide +kernel

/-- With a negative threshold a zero is not only accepted but answered. -/
theorem zero_answered_with_one :
    ((⟨.serial, -1⟩ : Inverter ℚ).invert ⟨1, 1, #[0]⟩ ()).result = .ok ⟨1, 1, #[1]⟩ := by
  cbv

section Exact

variable {K : Type} [ExactOrderedField K] {v : Inverter K} {n : ℕ}

theorem leadingMinor_zeros (hn : 1 ≤ n) :
    (Matrix.zeros ⟨n, n⟩ : Matrix K).leadingMinor n = 0 := by
  apply Matrix.det_eq_zero_of_row_eq_zero (⟨0, hn⟩ : Fin n)
  intro j
  rw [Cells.block_apply, Matrix.cells, Matrix.read?, Matrix.zeros, Array.getElem?_replicate]
  split <;> rfl

theorem accepts_of_epsilon_neg (hepsilon : v.epsilon < 0) (a : Cells K) (k : ℕ) :
    v.Accepts a k := by
  intro i _
  rw [refuses_eq_false_iff]
  exact hepsilon.trans_le (abs_nonneg _)

/-- With exact arithmetic no singular matrix is answered with an inverse, provided that the
threshold is not negative.  A negative one refuses nothing, so that every matrix is. -/
theorem singular_refused_iff (contract : v.engine.Faithful) (hn : 1 ≤ n)
    (s : v.engine.State) :
    (∀ m : Matrix K, m.WellFormed → m.shape = ⟨n, n⟩ → m.leadingMinor n = 0 →
      ¬ ∃ x, (v.invert m s).result = .ok x) ↔ 0 ≤ v.epsilon := by
  have hne : n ≠ 0 := Nat.ne_of_gt hn
  constructor
  · intro hrefused
    by_contra hnegative
    have hwell : (Matrix.zeros ⟨n, n⟩ : Matrix K).WellFormed := Matrix.wellFormed_zeros _
    have hcells := (hwell.fits rfl).hasCells
    refine hrefused _ hwell rfl (leadingMinor_zeros hn) ?_
    rw [exists_invert_eq_ok_iff contract hcells hne]
    exact accepts_of_epsilon_neg (not_le.mp hnegative) _ _
  · intro hepsilon m hwell hshape hsingular
    rw [exists_invert_eq_ok_iff contract (hwell.fits hshape).hasCells hne]
    intro haccepts
    have hminor := Cells.det_block_ne_zero (haccepts.pivot_ne_zero hepsilon)
    rw [Cells.block_augmented (Nat.le_refl n)] at hminor
    exact hminor hsingular

end Exact

end GridInversion.Inverter
