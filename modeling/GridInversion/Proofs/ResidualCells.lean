import GridInversion.Matrix.Arithmetic
import GridInversion.Proofs.ProductCells
import GridInversion.Proofs.ScalarLaws

namespace GridInversion

variable {α : Type} [Scalar α] {n : Nat} {s : Shape} {a b : Cells α} {m m' : Matrix α}

namespace Cells

/-- The cells of the product of two matrices of size `n`, as it is computed. -/
def product (n : Nat) (a b : Cells α) : Cells α := fun y x => skippingDot a b y x n

/-- Each of the first `n` rows and columns misses the identity by finite values only. -/
def FinitelyOff (n : Nat) (a : Cells α) : Prop :=
  ∀ y < n, ∀ x < n, Scalar.isFinite (a y x - if y = x then 1 else 0) = true

end Cells

namespace Matrix

omit [Scalar α] in
/-- Two matrices of one shape pair up their cells position by position. -/
theorem HasCells.zip_eq (h : m.HasCells s a) (h' : m'.HasCells s b) :
    m.data.toList.zip m'.data.toList = s.rowMajor.map fun p => (a p.y p.x, b p.y p.x) := by
  rw [h.toList_data, h'.toList_data, List.zip_map']

omit [Scalar α] in
theorem HasCells.forall_mem_zip_iff (h : m.HasCells s a) (h' : m'.HasCells s b)
    {P : α × α → Prop} :
    (∀ p ∈ m.data.toList.zip m'.data.toList, P p) ↔
      ∀ y < s.rows, ∀ x < s.cols, P (a y x, b y x) := by
  rw [h.zip_eq h', List.forall_mem_map]
  constructor
  · intro hpairs y hy x hx
    exact hpairs ⟨x, y⟩ (Shape.mem_rowMajor.mpr ⟨hx, hy⟩)
  · intro hcells p hp
    obtain ⟨hx, hy⟩ := Shape.mem_rowMajor.mp hp
    exact hcells p.y hy p.x hx

/-- The distance of a matrix from the identity of size `n`, as far as their cells pair up. -/
def deviation (m : Matrix α) (n : Nat) : α :=
  worstDifference 0 (m.data.toList.zip (identity n : Matrix α).data.toList)

theorem Fits.identityDistance_eq (h : m.Fits ⟨n, n⟩) :
    m.identityDistance n =
      if Scalar.isFinite (m.deviation n) = true then .ok (m.deviation n)
      else .error .nonFinite := by
  have hshape : m.shape = (identity n : Matrix α).shape :=
    h.shape.trans (hasCells_identity n).toFits.shape.symm
  rw [identityDistance, maxAbsDiff, if_pos hshape]
  rfl

/-- The residual of two square matrices of one size compares the distances of both products from
the identity; it is an error as soon as one of them is not finite. -/
theorem residual_eq (h : m.HasCells ⟨n, n⟩ a) (h' : m'.HasCells ⟨n, n⟩ b) :
    ∃ left right, m.product m' = .ok left ∧ m'.product m = .ok right ∧
      left.HasCells ⟨n, n⟩ (a.product n b) ∧ right.HasCells ⟨n, n⟩ (b.product n a) ∧
      m.residual m' =
        if Scalar.isFinite (left.deviation n) = true ∧ Scalar.isFinite (right.deviation n) = true
        then .ok (larger (larger 0 (left.deviation n)) (right.deviation n))
        else .error (.error .nonFinite) := by
  have hrows : m.rows = n := h.rows
  have hsquare : m.isSquare ∧ m.shape = m'.shape :=
    ⟨beq_iff_eq.mpr (h.rows.trans h.cols.symm), h.toFits.shape.trans h'.toFits.shape.symm⟩
  obtain ⟨left, hleft, hleftCells⟩ := product_hasCells h h'
  obtain ⟨right, hright, hrightCells⟩ := product_hasCells h' h
  refine ⟨left, right, hleft, hright, hleftCells, hrightCells, ?_⟩
  rw [residual, if_pos hsquare, hleft, hright, hrows]
  dsimp only [bind, Except.bind]
  rw [hleftCells.toFits.identityDistance_eq, hrightCells.toFits.identityDistance_eq]
  by_cases hboth : Scalar.isFinite (left.deviation n) = true ∧
      Scalar.isFinite (right.deviation n) = true
  · rw [if_pos hboth, if_pos hboth.1, if_pos hboth.2]
    rfl
  · rw [if_neg hboth]
    by_cases hd : Scalar.isFinite (left.deviation n) = true
    · rw [if_pos hd, if_neg fun he => hboth ⟨hd, he⟩]
      rfl
    · rw [if_neg hd]
      rfl

/-- A comparison that ends with a finite value has met finite differences only. -/
theorem finite_of_worstDifference [NegatesNonFinite α] {worst : α} {pairs : List (α × α)}
    (h : Scalar.isFinite (worstDifference worst pairs) = true) :
    ∀ p ∈ pairs, Scalar.isFinite (p.1 - p.2) = true := by
  induction pairs generalizing worst with
  | nil => simp
  | cons p rest ih =>
      obtain ⟨c, d⟩ := p
      rw [worstDifference] at h
      split at h
      · rename_i hfinite
        exact List.forall_mem_cons.mpr ⟨Scalar.finite_of_abs hfinite, ih h⟩
      · rename_i hinfinite
        exact absurd h hinfinite

theorem HasCells.finitelyOff [NegatesNonFinite α] (h : m.HasCells ⟨n, n⟩ a)
    (hfinite : Scalar.isFinite (m.deviation n) = true) : a.FinitelyOff n :=
  (h.forall_mem_zip_iff (hasCells_identity n)).mp (finite_of_worstDifference hfinite)

section Finite

variable [NegatesFinite α]

theorem isFinite_worstDifference_iff {worst : α} (hworst : Scalar.isFinite worst = true)
    (pairs : List (α × α)) :
    Scalar.isFinite (worstDifference worst pairs) = true ↔
      ∀ p ∈ pairs, Scalar.isFinite (p.1 - p.2) = true := by
  refine ⟨finite_of_worstDifference, fun hpairs => ?_⟩
  induction pairs generalizing worst with
  | nil => exact hworst
  | cons p rest ih =>
      obtain ⟨c, d⟩ := p
      obtain ⟨hfinite, hrest⟩ := List.forall_mem_cons.mp hpairs
      have habs : Scalar.isFinite (Scalar.abs (c - d)) = true := by
        rwa [Scalar.isFinite_abs]
      rw [worstDifference, if_pos habs]
      refine ih ?_ hrest
      split
      · exact habs
      · exact hworst

theorem HasCells.isFinite_deviation_iff (h : m.HasCells ⟨n, n⟩ a) :
    Scalar.isFinite (m.deviation n) = true ↔ a.FinitelyOff n := by
  refine ⟨h.finitelyOff, fun hoff => ?_⟩
  exact (isFinite_worstDifference_iff NegatesFinite.isFinite_zero _).mpr
    ((h.forall_mem_zip_iff (hasCells_identity n)).mpr hoff)

/-- The residual of two square matrices is a number if their products, both as they are
computed, miss the identity by finite values only; otherwise it is the error for values
that are not finite. -/
theorem residual_cases (h : m.HasCells ⟨n, n⟩ a) (h' : m'.HasCells ⟨n, n⟩ b) :
    ((a.product n b).FinitelyOff n ∧ (b.product n a).FinitelyOff n ∧
      ∃ r, m.residual m' = .ok r) ∨
    ¬ ((a.product n b).FinitelyOff n ∧ (b.product n a).FinitelyOff n) ∧
      m.residual m' = .error (.error .nonFinite) := by
  obtain ⟨left, right, -, -, hleft, hright, hresidual⟩ := residual_eq h h'
  have hfinite := and_congr hleft.isFinite_deviation_iff hright.isFinite_deviation_iff
  rw [hresidual]
  split
  · rename_i hnear
    exact .inl ⟨(hfinite.mp hnear).1, (hfinite.mp hnear).2, _, rfl⟩
  · rename_i hfar
    exact .inr ⟨fun hnear => hfar (hfinite.mpr hnear), rfl⟩

end Finite

end Matrix

end GridInversion
