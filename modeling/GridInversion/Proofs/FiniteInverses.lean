import GridInversion.Proofs.ScalarLaws

namespace GridInversion

variable {α : Type} [Scalar α]

namespace Cells

variable {a : Cells α} {r y x k n : Nat}

section Propagates

variable [PropagatesNonFinite α]

/-- A pass leaves no cell finite that was not finite before it. -/
theorem finite_of_finite_settle (h : Scalar.isFinite (a.settle r y x) = true) :
    Scalar.isFinite (a y x) = true := by
  unfold settle at h
  split at h
  · exact h
  · split at h
    · exact PropagatesNonFinite.finite_of_div _ _ h
    · exact (SpreadsNonFinite.finite_of_sub _ _ h).1

theorem finite_of_finite_settled (hk : k ≤ n)
    (h : Scalar.isFinite (a.settled n y x) = true) :
    Scalar.isFinite (a.settled k y x) = true := by
  induction n, hk using Nat.le_induction with
  | base => exact h
  | succ n hk ih => exact ih (finite_of_finite_settle h)

/-- In the pivot column a cell that is not finite spoils the whole of its row, unless it
is the pivot itself. -/
theorem finite_factor_of_finite_settle (hy : y ≠ r) (hzero : (a y r == 0) = false)
    (h : Scalar.isFinite (a.settle r y x) = true) : Scalar.isFinite (a y r) = true := by
  rw [settle, if_neg (Bool.eq_false_iff.mp hzero), if_neg hy] at h
  have hquotient := (SpreadsNonFinite.finite_of_sub _ _ h).2
  have hproduct := PropagatesNonFinite.finite_of_div _ _ hquotient
  exact (SpreadsNonFinite.finite_of_mul _ _ hproduct).1

end Propagates

variable [AbsorbsNonFinite α]

theorem finite_pivot_column_of_finite_settle (hy : y ≠ r)
    (h : Scalar.isFinite (a.settle r y x) = true) : Scalar.isFinite (a y r) = true := by
  by_cases hzero : (a y r == 0) = true
  · exact FiniteZeros.finite_of_beq_zero _ hzero
  · exact finite_factor_of_finite_settle hy (Bool.eq_false_iff.mpr hzero) h

/-- If all pivots and one column of the outcome are finite, then so was every cell in
the columns of the pivots: below or above its pivot, a cell that is not finite spoils its
row no later than at that pivot. -/
theorem finite_of_finite_outcome (hx : x < n)
    (hpivot : Scalar.isFinite (a.pivot x) = true) {c : Nat}
    (houtcome : Scalar.isFinite (a.settled n y c) = true) :
    Scalar.isFinite (a y x) = true := by
  have hreached : Scalar.isFinite (a.settled x y x) = true := by
    by_cases hy : y = x
    · rw [hy]
      exact hpivot
    · exact finite_pivot_column_of_finite_settle hy (finite_of_finite_settled hx houtcome)
  exact finite_of_finite_settled (Nat.zero_le x) hreached

end Cells

namespace Inverter

variable [AbsorbsNonFinite α] {v : Inverter α} {a : Cells α} {k n : Nat}

omit [AbsorbsNonFinite α] in
theorem Accepts.isFinite_pivot (h : v.Accepts a k) {i : Nat} (hi : i < k) :
    Scalar.isFinite (a.pivot i) = true := by
  have hrefuses := h i hi
  rw [refuses, Bool.or_eq_false_iff, Bool.not_eq_false'] at hrefuses
  exact hrefuses.1

/-- On a faithful engine and with any threshold, an inverse is handed out only if all
its cells and all cells of the matrix are finite.  A matrix with a cell that is not
finite ends in a refused pivot or in an overflow. -/
theorem finite_of_invert (contract : v.engine.Faithful) (hn : 1 ≤ n) {m : Matrix α}
    (hwell : m.WellFormed) (hshape : m.shape = ⟨n, n⟩) (s : v.engine.State) :
    (∀ x, (v.invert m s).result = .ok x →
      (∀ c ∈ m.data, Scalar.isFinite c = true) ∧ ∀ c ∈ x.data, Scalar.isFinite c = true) ∧
    ((∃ c ∈ m.data, Scalar.isFinite c = false) →
      (∃ r < n, (v.invert m s).result = .error (.error (.uninvertible r))) ∨
        (v.invert m s).result = .error (.error .nonFinite)) := by
  have hm := (hwell.fits hshape).hasCells
  have hends := ends_invert contract hm (Nat.ne_of_gt hn)
  have hfinite : ∀ x, (v.invert m s).result = .ok x →
      (∀ c ∈ m.data, Scalar.isFinite c = true) ∧ ∀ c ∈ x.data, Scalar.isFinite c = true := by
    intro x hresult
    obtain ⟨haccepts, hx, hxfinite⟩ := hends.of_result_ok hresult
    have hxdata := Array.all_eq_true_iff_forall_mem.mp hxfinite
    refine ⟨hm.forall_mem_data_iff.mpr fun y hy c hc => ?_, hxdata⟩
    -- Any column of the inverse will do, and there is one.
    have houtcome := hx.forall_mem_data_iff.mp hxdata y hy 0 hn
    have hcell := Cells.finite_of_finite_outcome hc (haccepts.isFinite_pivot hc) houtcome
    rwa [Cells.augmented, if_pos hc] at hcell
  refine ⟨hfinite, ?_⟩
  rintro ⟨c, hc, hcinfinite⟩
  rcases hresult : (v.invert m s).result with fault | x
  · rcases hends.of_result_error hresult with ⟨r, hr, rfl, -⟩ | ⟨rfl, -⟩
    · exact Or.inl ⟨r, hr, rfl⟩
    · exact Or.inr rfl
  · rw [(hfinite x hresult).1 c hc] at hcinfinite
    cases hcinfinite

/-- In double precision and with a threshold that is not a number: one matrix that is
inverted, and one with a cell that is not a number above the diagonal. -/
theorem finite_of_invert_double :
    (∃ x, ((⟨.serial, 0 / 0⟩ : Inverter Float).invert ⟨2, 2, #[1, 2, 3, 4]⟩ ()).result = .ok x ∧
      ∀ c ∈ x.data, Scalar.isFinite c = true) ∧
    (∃ c ∈ (⟨2, 2, #[1, 0 / 0, 0, 1]⟩ : Matrix Float).data, Scalar.isFinite c = false) ∧
    ((∃ r < 2, ((⟨.serial, 0 / 0⟩ : Inverter Float).invert ⟨2, 2, #[1, 0 / 0, 0, 1]⟩ ()).result =
        .error (.error (.uninvertible r))) ∨
      ((⟨.serial, 0 / 0⟩ : Inverter Float).invert ⟨2, 2, #[1, 0 / 0, 0, 1]⟩ ()).result =
        .error (.error .nonFinite)) := by
  have hgood := finite_of_invert (v := (⟨.serial, 0 / 0⟩ : Inverter Float))
    Engine.faithful_serial (n := 2) (by decide) (m := ⟨2, 2, #[1, 2, 3, 4]⟩) rfl rfl ()
  have hbad := finite_of_invert (v := (⟨.serial, 0 / 0⟩ : Inverter Float))
    Engine.faithful_serial (n := 2) (by decide) (m := ⟨2, 2, #[1, 0 / 0, 0, 1]⟩) rfl rfl ()
  have hinverted : ((⟨.serial, 0 / 0⟩ : Inverter Float).invert
      ⟨2, 2, #[1, 2, 3, 4]⟩ ()).result.toBool = true := by decide +kernel
  have hcell : ∃ c ∈ (⟨2, 2, #[1, 0 / 0, 0, 1]⟩ : Matrix Float).data,
      Scalar.isFinite c = false := ⟨0 / 0, by simp, by decide +kernel⟩
  refine ⟨?_, hcell, hbad.2 hcell⟩
  rcases hresult : ((⟨.serial, 0 / 0⟩ : Inverter Float).invert
      ⟨2, 2, #[1, 2, 3, 4]⟩ ()).result with fault | x
  · rw [hresult] at hinverted
    cases hinverted
  · exact ⟨x, rfl, (hgood.1 x hresult).2⟩

end Inverter

end GridInversion
