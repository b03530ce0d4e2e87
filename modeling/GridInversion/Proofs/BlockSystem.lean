import Mathlib.Algebra.Group.Ext
import Mathlib.LinearAlgebra.Matrix.NonsingularInverse
import GridInversion.Proofs.ExactField

namespace GridInversion

namespace Cells

variable {K : Type} [Field K] {n : ℕ} {a b : Cells K}

def block (n : ℕ) (a : Cells K) := Matrix.of fun i j : Fin n => a i j

omit [Field K] in
@[simp] theorem block_apply (n : ℕ) (a : Cells K) (i j : Fin n) : block n a i j = a i j := rfl

theorem block_mul_block (n : ℕ) (a b : Cells K) (i j : Fin n) :
    (block n a * block n b) i j = ∑ k ∈ Finset.range n, a i k * b k j := by
  rw [Matrix.mul_apply]
  exact Fin.sum_univ_eq_sum_range (fun k => a i k * b k j) n

theorem block_mul_block_eq_one_iff :
    block n a * block n b = 1 ↔
      ∀ y < n, ∀ c < n, ∑ k ∈ Finset.range n, a y k * b k c = if y = c then 1 else 0 := by
  constructor
  · intro h y hy c hc
    rw [← block_mul_block n a b ⟨y, hy⟩ ⟨c, hc⟩, h, Matrix.one_apply]
    simp [Fin.ext_iff]
  · intro h
    ext i j
    rw [block_mul_block, h i i.isLt j j.isLt, Matrix.one_apply]
    simp [Fin.ext_iff]

theorem sum_mul_comm (h : ∀ y < n, ∀ c < n,
      ∑ k ∈ Finset.range n, a y k * b k c = if y = c then 1 else 0) :
    ∀ y < n, ∀ c < n, ∑ k ∈ Finset.range n, b y k * a k c = if y = c then 1 else 0 :=
  block_mul_block_eq_one_iff.mp (mul_eq_one_comm.mp (block_mul_block_eq_one_iff.mpr h))

end Cells

namespace Matrix

variable {K : Type} [ExactField K] {n : ℕ} {m x : Matrix K} {a b : Cells K}

theorem product_eq_identity (hm : m.HasCells ⟨n, n⟩ a) (hx : x.HasCells ⟨n, n⟩ b)
    (h : ∀ y < n, ∀ c < n, ∑ k ∈ Finset.range n, a y k * b k c = if y = c then 1 else 0) :
    m.product x = .ok (identity n) := by
  obtain ⟨p, hp, hcells⟩ := product_hasCells_sum hm hx
  rw [hp, hcells.ext (hasCells_identity n) fun y c hy hc => h y hy c hc]

end Matrix

namespace Cells

variable {K : Type} [ExactField K] {n : ℕ} {a : Cells K}

/-- Whatever settles all columns of `[A | I]` and is orthogonal to no more columns than its rows
has the inverse in its right half. -/
theorem sum_mul_of_augmented {b : Cells K} (hunit : UnitColumns n n b)
    (hrows : ∀ z, Annihilates n (n + n) b z → Annihilates n (n + n) (a.augmented n) z) :
    ∀ y < n, ∀ c < n,
      ∑ k ∈ Finset.range n, a y k * b k (c + n) = if y = c then 1 else 0 := by
  intro y hy c hc
  have hsolved := sum_mul_eq_of_unitColumns hunit hrows hy hc
  have hright : a.augmented n y (n + c) = if y = c then 1 else 0 := by
    simp [augmented, eq_comm]
  rw [hright] at hsolved
  rw [← hsolved]
  apply Finset.sum_congr rfl
  intro k hk
  rw [augmented, if_pos (Finset.mem_range.mp hk), Nat.add_comm c n]

theorem sum_mul_inverse (hpivots : ∀ i < n, (a.augmented n).pivot i ≠ 0) :
    ∀ y < n, ∀ c < n,
      ∑ k ∈ Finset.range n, a y k * a.inverse n k c = if y = c then 1 else 0 :=
  sum_mul_of_augmented (unitColumns_settled (Nat.le_refl n) hpivots)
    fun z => (annihilates_settled_iff (Nat.le_refl n) hpivots (n + n) z).mp

end Cells

namespace Inverter

variable {K : Type} [ExactOrderedField K] {v : Inverter K}

def serialExact : Inverter ℚ := ⟨.serial, 0⟩

/-- Over an exact ordered field and on a faithful engine, whatever is handed out as
an inverse is a two-sided inverse. -/
theorem products_eq_identity_of_invert (contract : v.engine.Faithful)
    (hepsilon : 0 ≤ v.epsilon) {m x : Matrix K} {s : v.engine.State}
    (h : (v.invert m s).result = .ok x) :
    x.WellFormed ∧ x.shape = ⟨m.rows, m.rows⟩ ∧
      m.product x = .ok (Matrix.identity m.rows) ∧
      x.product m = .ok (Matrix.identity m.rows) := by
  obtain ⟨hrows, hsquare, hwell⟩ := admissible_of_invert_eq_ok h
  have hshape : m.shape = ⟨m.rows, m.rows⟩ := by
    rw [Matrix.shape, ← hsquare]
  have hm := (hwell.fits hshape).hasCells
  obtain ⟨haccepts, hx, -⟩ := (ends_invert contract hm hrows).of_result_ok h
  have hmx := Cells.sum_mul_inverse (haccepts.pivot_ne_zero hepsilon)
  exact ⟨hx.toFits.wellFormed, hx.shape, Matrix.product_eq_identity hm hx hmx,
    Matrix.product_eq_identity hx hm (Cells.sum_mul_comm hmx)⟩

theorem products_eq_identity_of_invert_two_by_two :
    serialExact.engine.Faithful ∧ 0 ≤ serialExact.epsilon ∧
      (serialExact.invert ⟨2, 2, #[2, 1, 4, 3]⟩ ()).result =
        .ok ⟨2, 2, #[3 / 2, -1 / 2, -2, 1]⟩ ∧
      (⟨2, 2, #[2, 1, 4, 3]⟩ : Matrix ℚ).product ⟨2, 2, #[3 / 2, -1 / 2, -2, 1]⟩ =
        .ok (Matrix.identity 2) ∧
      (⟨2, 2, #[3 / 2, -1 / 2, -2, 1]⟩ : Matrix ℚ).product ⟨2, 2, #[2, 1, 4, 3]⟩ =
        .ok (Matrix.identity 2) := by
  have hinvert : (serialExact.invert ⟨2, 2, #[2, 1, 4, 3]⟩ ()).result =
      .ok ⟨2, 2, #[3 / 2, -1 / 2, -2, 1]⟩ := by cbv
  obtain ⟨-, -, hright, hleft⟩ := products_eq_identity_of_invert
    Engine.faithful_serial (le_refl (0 : ℚ)) hinvert
  exact ⟨Engine.faithful_serial, le_refl (0 : ℚ), hinvert, hright, hleft⟩

/-- Over an exact ordered field and on a faithful engine, elimination turns
`[A | B]` into `[I | Y]` with `A * Y = B`, or refuses a pivot. -/
theorem eliminate_solves (contract : v.engine.Faithful) (hepsilon : 0 ≤ v.epsilon)
    {n : ℕ} {aug : Matrix K} (hwell : aug.WellFormed)
    (hshape : aug.shape = Stage.augmentedShape n) (s : v.engine.State) :
    (∃ done, (v.eliminate aug n s).result = .ok done ∧
      done.WellFormed ∧ done.shape = Stage.augmentedShape n ∧
      done.columns 0 n = Matrix.identity n ∧
      (aug.columns 0 n).product (done.columns n n) = .ok (aug.columns n n)) ∨
    ∃ r < n, (v.eliminate aug n s).result = .error (.error (.uninvertible r)) := by
  have haug := (hwell.fits hshape).hasCells
  have hends := ends_eliminate contract haug
  have hright : n + n ≤ (Stage.augmentedShape n).cols :=
    Nat.le_of_eq (Stage.augmentedShape_cols n).symm
  have hleft : 0 + n ≤ (Stage.augmentedShape n).cols := by omega
  rcases hresult : (v.eliminate aug n s).result with fault | done
  · obtain ⟨r, hr, hfault, -⟩ := hends.of_result_error hresult
    exact Or.inr ⟨r, hr, by rw [hfault]⟩
  · obtain ⟨haccepts, hdone⟩ := hends.of_result_ok hresult
    have hpivots := haccepts.pivot_ne_zero hepsilon
    refine Or.inl ⟨done, rfl, hdone.toFits.wellFormed, hdone.shape, ?_, ?_⟩
    · refine (hdone.columns hleft).ext (Matrix.hasCells_identity n) ?_
      intro y x hy hx
      rw [Nat.zero_add]
      exact Cells.unitColumns_settled (Nat.le_refl n) hpivots y hy x hx
    · obtain ⟨p, hp, hcells⟩ :=
        Matrix.product_hasCells_sum (haug.columns hleft) (hdone.columns hright)
      rw [hp, hcells.ext (haug.columns hright)]
      intro y c hy hc
      simp only [Nat.zero_add]
      exact Cells.sum_mul_settled hpivots hy hc

theorem eliminate_solves_two_by_four :
    (⟨2, 4, #[2, 1, 3, 1, 4, 3, 7, 1]⟩ : Matrix ℚ).WellFormed ∧
      ∃ done, (serialExact.eliminate ⟨2, 4, #[2, 1, 3, 1, 4, 3, 7, 1]⟩ 2 ()).result = .ok done ∧
        done.columns 0 2 = Matrix.identity 2 ∧
        ((⟨2, 4, #[2, 1, 3, 1, 4, 3, 7, 1]⟩ : Matrix ℚ).columns 0 2).product
            (done.columns 2 2) =
          .ok ((⟨2, 4, #[2, 1, 3, 1, 4, 3, 7, 1]⟩ : Matrix ℚ).columns 2 2) := by
  have hwell : (⟨2, 4, #[2, 1, 3, 1, 4, 3, 7, 1]⟩ : Matrix ℚ).WellFormed := rfl
  have hresult : (serialExact.eliminate ⟨2, 4, #[2, 1, 3, 1, 4, 3, 7, 1]⟩ 2 ()).result =
      .ok ⟨2, 4, #[1, 0, 1, 1, 0, 1, 1, -1]⟩ := by cbv
  rcases eliminate_solves (v := serialExact) Engine.faithful_serial (le_refl (0 : ℚ))
    hwell (n := 2) rfl () with ⟨done, hdone, -, -, hleft, hright⟩ | ⟨r, -, hrefused⟩
  · exact ⟨hwell, done, hdone, hleft, hright⟩
  · rw [hresult] at hrefused
    cases hrefused

end Inverter

end GridInversion
