import GridInversion.Proofs.MachineBits
import GridInversion.Proofs.ResidualCells

namespace GridInversion

variable {α : Type} [Scalar α] [KeepsNonFinite α] {n : Nat} {a b : Cells α} {m m' : Matrix α}

namespace Cells

/-- A cell of the left factor that is not finite is no zero, so its term is not left out, and
the terms after it cannot make the sum finite again. -/
theorem finite_of_skippingDot {r c k : Nat} (hk : k < n)
    (h : Scalar.isFinite (skippingDot a b r c n) = true) : Scalar.isFinite (a r k) = true := by
  induction n with
  | zero => exact absurd hk (Nat.not_lt_zero k)
  | succ n ih =>
      unfold skippingDot at h
      rcases Nat.lt_succ_iff_lt_or_eq.mp hk with hlt | rfl
      · split at h
        · exact ih hlt h
        · exact ih hlt (SumsNonFinite.finite_of_add _ _ h).1
      · split at h
        · rename_i hzero
          exact FiniteZeros.finite_of_beq_zero _ hzero
        · have hterm := (SumsNonFinite.finite_of_add _ _ h).2
          exact (SpreadsNonFinite.finite_of_mul _ _ hterm).1

/-- A product that misses the identity by finite values only has no other cells than finite ones
in its left factor.  Of the right factor nothing follows: its rows may have been left out. -/
theorem FinitelyOff.finite_left (h : (a.product n b).FinitelyOff n) :
    ∀ y < n, ∀ x < n, Scalar.isFinite (a y x) = true := by
  intro y hy x hx
  have hdifference := h y hy x hx
  exact finite_of_skippingDot hx (SpreadsNonFinite.finite_of_sub _ _ hdifference).1

end Cells

namespace Matrix

/-- Whichever of two square matrices has a cell that is not finite, the product with that
matrix on the left exposes it, and the residual is the error for such values. -/
theorem residual_of_nonFinite (hm : m.WellFormed) (hshape : m.shape = ⟨n, n⟩)
    (hm' : m'.WellFormed) (hshape' : m'.shape = ⟨n, n⟩)
    (hbad : (∃ c ∈ m.data, Scalar.isFinite c = false) ∨
      ∃ c ∈ m'.data, Scalar.isFinite c = false) :
    m.residual m' = .error (.error .nonFinite) := by
  have hcells := (hm.fits hshape).hasCells
  have hcells' := (hm'.fits hshape').hasCells
  obtain ⟨left, right, -, -, hleft, hright, hresidual⟩ := residual_eq hcells hcells'
  rw [hresidual, if_neg]
  rintro ⟨hleftFinite, hrightFinite⟩
  have hdata : ∀ c ∈ m.data, Scalar.isFinite c = true :=
    hcells.forall_mem_data_iff.mpr (hleft.finitelyOff hleftFinite).finite_left
  have hdata' : ∀ c ∈ m'.data, Scalar.isFinite c = true :=
    hcells'.forall_mem_data_iff.mpr (hright.finitelyOff hrightFinite).finite_left
  rcases hbad with ⟨c, hc, hinfinite⟩ | ⟨c, hc, hinfinite⟩
  · simp [hdata c hc] at hinfinite
  · simp [hdata' c hc] at hinfinite

/-- The product with zeros on the left leaves out every row of the right factor and has finite
cells only; it is the other product that shows the cell that is not a number. -/
theorem residual_of_nonFinite_behind_zeros :
    (∃ c ∈ (⟨2, 2, #[1, 0 / 0, 0, 1]⟩ : Matrix Float).data, Scalar.isFinite c = false) ∧
    (∃ p, (⟨2, 2, #[0, 0, -0, 0]⟩ : Matrix Float).product ⟨2, 2, #[1, 0 / 0, 0, 1]⟩ = .ok p ∧
      p.isFinite = true) ∧
    (⟨2, 2, #[0, 0, -0, 0]⟩ : Matrix Float).residual ⟨2, 2, #[1, 0 / 0, 0, 1]⟩ =
      .error (.error .nonFinite) := by
  have hcell : ∃ c ∈ (⟨2, 2, #[1, 0 / 0, 0, 1]⟩ : Matrix Float).data,
      Scalar.isFinite c = false := ⟨0 / 0, by simp, by decide +kernel⟩
  refine ⟨hcell, ⟨zeros ⟨2, 2⟩, ?_, by decide +kernel⟩, ?_⟩
  · rfl
  · exact residual_of_nonFinite (n := 2) rfl rfl rfl rfl (.inr hcell)

end Matrix

end GridInversion
