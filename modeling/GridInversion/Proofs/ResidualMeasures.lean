import GridInversion.Proofs.BlockSystem
import GridInversion.Proofs.FiniteOrders
import GridInversion.Proofs.ResidualCells

namespace GridInversion

variable {α : Type} [Scalar α]

/-- `d` is the largest of the finite values with `P`, none of which is below zero.  Of no value at
all the largest is zero, and a zero of one sign may stand for one of the other. -/
structure IsLargest (P : α → Prop) (d : α) : Prop where
  finite : ∀ v, P v → Scalar.isFinite v = true
  nonneg : ∀ v, P v → 0 ≤ v
  le : ∀ v, P v → v ≤ d
  attained : P d ∨ d = 0

namespace IsLargest

theorem congr {P Q : α → Prop} {d : α} (hPQ : ∀ v, P v ↔ Q v) (h : IsLargest P d) :
    IsLargest Q d := by
  obtain rfl : P = Q := funext fun v => propext (hPQ v)
  exact h

theorem none : IsLargest (fun _ : α => False) 0 :=
  ⟨fun _ h => h.elim, fun _ h => h.elim, fun _ h => h.elim, .inr rfl⟩

variable [OrdersFinite α] {P Q : α → Prop} {d e v : α}

theorem isFinite (h : IsLargest P d) : Scalar.isFinite d = true := by
  rcases h.attained with hd | rfl
  · exact h.finite d hd
  · exact OrdersFinite.isFinite_zero

theorem zero_le (h : IsLargest P d) : 0 ≤ d := by
  rcases h.attained with hd | rfl
  · exact h.nonneg d hd
  · exact OrdersFinite.le_refl OrdersFinite.isFinite_zero

/-- One more value is the largest if the largest so far is below it. -/
theorem larger (h : IsLargest P d) (hv : Scalar.isFinite v = true) (hnonneg : 0 ≤ v) :
    IsLargest (fun u => P u ∨ u = v) (Matrix.larger d v) := by
  have hd := h.isFinite
  unfold Matrix.larger
  refine ⟨?_, ?_, ?_, ?_⟩
  · rintro u (hu | rfl)
    · exact h.finite u hu
    · exact hv
  · rintro u (hu | rfl)
    · exact h.nonneg u hu
    · exact hnonneg
  · rintro u (hu | rfl)
    · split
      · rename_i hlt
        have hle := OrdersFinite.le_of_lt hd hv hlt
        exact OrdersFinite.le_trans u d v (h.finite u hu) hd hv (h.le u hu) hle
      · exact h.le u hu
    · split
      · exact OrdersFinite.le_refl hv
      · rename_i hlt
        exact OrdersFinite.le_of_not_lt hd hv hlt
  · split
    · exact .inl (.inr rfl)
    · exact h.attained.imp_left .inl

/-- The larger of two largest values is the largest of all. -/
theorem union (hP : IsLargest P d) (hQ : IsLargest Q e) :
    IsLargest (fun v => P v ∨ Q v) (Matrix.larger (Matrix.larger 0 d) e) := by
  have hboth := (none.larger hP.isFinite hP.zero_le).larger hQ.isFinite hQ.zero_le
  refine ⟨?_, ?_, ?_, ?_⟩
  · rintro v (hv | hv)
    · exact hP.finite v hv
    · exact hQ.finite v hv
  · rintro v (hv | hv)
    · exact hP.nonneg v hv
    · exact hQ.nonneg v hv
  · rintro v (hv | hv)
    · exact OrdersFinite.le_trans v d _ (hP.finite v hv) hP.isFinite hboth.isFinite (hP.le v hv)
        (hboth.le d (.inl (.inr rfl)))
    · exact OrdersFinite.le_trans v e _ (hQ.finite v hv) hQ.isFinite hboth.isFinite (hQ.le v hv)
        (hboth.le e (.inr rfl))
  · rcases hboth.attained with ((hfalse | hd) | he) | hzero
    · exact hfalse.elim
    · rw [hd]
      exact hP.attained.imp_left .inl
    · rw [he]
      exact hQ.attained.imp_left .inr
    · exact .inr hzero

end IsLargest

/-- Which of two finite values comes first does not matter to the largest of both and zero. -/
theorem larger_right_comm [OrdersFinite α] {x y : α} (hx : Scalar.isFinite x = true)
    (hy : Scalar.isFinite y = true) :
    Matrix.larger (Matrix.larger 0 x) y = Matrix.larger (Matrix.larger 0 y) x := by
  -- Either one value is below the other, or they are the same, or both share the place of zero and
  -- neither of them counts.
  have hzero : Scalar.isFinite (0 : α) = true := OrdersFinite.isFinite_zero
  have hle := OrdersFinite.le_trans (α := α)
  have hlt := OrdersFinite.lt_iff (α := α)
  have htotal := OrdersFinite.le_total (α := α)
  have heq := OrdersFinite.eq_or_zero (α := α)
  unfold Matrix.larger
  grind

/-- One of the first `n` rows and columns misses the identity by `e`. -/
def Cells.Misses (n : Nat) (a : Cells α) (e : α) : Prop :=
  ∃ y < n, ∃ x < n, (a y x - if y = x then 1 else 0) = e

theorem Cells.finitelyOff_iff {n : Nat} {a : Cells α} :
    a.FinitelyOff n ↔ ∀ e, a.Misses n e → Scalar.isFinite e = true := by
  constructor
  · rintro h e ⟨y, hy, x, hx, rfl⟩
    exact h y hy x hx
  · intro h y hy x hx
    exact h _ ⟨y, hy, x, hx, rfl⟩

namespace Matrix

variable {n : Nat} {a b : Cells α} {m m' : Matrix α}

theorem isLargest_worstDifference [OrdersSizes α] {pairs : List (α × α)}
    (hpairs : ∀ p ∈ pairs, Scalar.isFinite (p.1 - p.2) = true) {P : α → Prop} {worst : α}
    (hworst : IsLargest P worst) :
    IsLargest (fun v => P v ∨ ∃ p ∈ pairs, v = Scalar.abs (p.1 - p.2))
      (worstDifference worst pairs) := by
  induction pairs generalizing P worst with
  | nil => exact hworst.congr (by simp)
  | cons p rest ih =>
      obtain ⟨c, d⟩ := p
      obtain ⟨hfinite, hrest⟩ := List.forall_mem_cons.mp hpairs
      have habs : Scalar.isFinite (Scalar.abs (c - d)) = true := by
        rwa [Scalar.isFinite_abs]
      have hnext := hworst.larger habs (OrdersSizes.abs_nonneg hfinite)
      rw [worstDifference, if_pos habs]
      exact (ih hrest hnext).congr (by simp [or_assoc])

theorem HasCells.isLargest_deviation [OrdersSizes α] (h : m.HasCells ⟨n, n⟩ a)
    (hoff : a.FinitelyOff n) :
    IsLargest (fun v => ∃ e, a.Misses n e ∧ v = Scalar.abs e) (m.deviation n) := by
  have hidentity : (identity n : Matrix α).HasCells ⟨n, n⟩ _ := hasCells_identity n
  have hpairs : ∀ p ∈ m.data.toList.zip (identity n : Matrix α).data.toList,
      Scalar.isFinite (p.1 - p.2) = true := (h.forall_mem_zip_iff hidentity).mpr hoff
  refine (isLargest_worstDifference hpairs IsLargest.none).congr fun v => ?_
  have hcells := h.forall_mem_zip_iff hidentity (P := fun p => ¬ v = Scalar.abs (p.1 - p.2))
  simpa [Cells.Misses] using not_congr hcells

theorem residual_of_mismatch (h : ¬ (m.rows = m.cols ∧ m.shape = m'.shape)) :
    m.residual m' = .error (.error (.shapeMismatch m.shape m'.shape)) := by
  rw [residual, if_neg]
  rintro ⟨hsquare, hshape⟩
  exact h ⟨beq_iff_eq.mp hsquare, hshape⟩

/-- The residual of two matrices that are not of one square shape is the error that names their
shapes, and no other matrices have this error. -/
theorem residual_shapeMismatch_iff (hm : m.WellFormed) (hm' : m'.WellFormed) (s s' : Shape) :
    m.residual m' = .error (.error (.shapeMismatch s s')) ↔
      ¬ (m.rows = m.cols ∧ m.shape = m'.shape) ∧ s = m.shape ∧ s' = m'.shape := by
  by_cases hsame : m.rows = m.cols ∧ m.shape = m'.shape
  · have hshape : m.shape = ⟨m.rows, m.rows⟩ := by
      rw [shape, ← hsame.1]
    have hcells := (hm.fits hshape).hasCells
    have hcells' := (hm'.fits (hsame.2.symm.trans hshape)).hasCells
    obtain ⟨left, right, -, -, -, -, hresidual⟩ := residual_eq hcells hcells'
    rw [hresidual]
    refine iff_of_false ?_ fun h => h.1 hsame
    split <;> rintro ⟨⟩
  · rw [residual_of_mismatch hsame]
    simp [hsame, eq_comm]

theorem HasCells.misses_iff (h : m.HasCells ⟨n, n⟩ a) (e : α) :
    m.cells.Misses n e ↔ a.Misses n e := by
  constructor
  · rintro ⟨y, hy, x, hx, rfl⟩
    exact ⟨y, hy, x, hx, by rw [h.cells_eq hy hx]⟩
  · rintro ⟨y, hy, x, hx, rfl⟩
    exact ⟨y, hy, x, hx, by rw [h.cells_eq hy hx]⟩

/-- The residual is the error for values that are not finite if and only if one of the products
misses the identity by such a value. -/
theorem residual_nonFinite_iff [NegatesFinite α] (h : m.HasCells ⟨n, n⟩ a)
    (h' : m'.HasCells ⟨n, n⟩ b) :
    m.residual m' = .error (.error .nonFinite) ↔
      ∃ e, ((a.product n b).Misses n e ∨ (b.product n a).Misses n e) ∧
        Scalar.isFinite e = false := by
  have hfar : (∃ e, ((a.product n b).Misses n e ∨ (b.product n a).Misses n e) ∧
      Scalar.isFinite e = false) ↔
        ¬ ((a.product n b).FinitelyOff n ∧ (b.product n a).FinitelyOff n) := by
    simp [Cells.finitelyOff_iff, ← forall_and, ← or_imp]
  rw [hfar]
  rcases residual_cases h h' with ⟨hleft, hright, d, hd⟩ | ⟨hnot, herror⟩
  · simp [hd, hleft, hright]
  · simp [herror, hnot]

/-- If both products miss the identity by finite values only, the residual is the largest absolute
value among these. -/
theorem residual_isLargest [OrdersSizes α] (h : m.HasCells ⟨n, n⟩ a) (h' : m'.HasCells ⟨n, n⟩ b)
    (hleft : (a.product n b).FinitelyOff n) (hright : (b.product n a).FinitelyOff n) :
    ∃ d, m.residual m' = .ok d ∧
      IsLargest (fun v => ∃ e, ((a.product n b).Misses n e ∨ (b.product n a).Misses n e) ∧
        v = Scalar.abs e) d := by
  obtain ⟨left, right, -, -, hleftCells, hrightCells, hresidual⟩ := residual_eq h h'
  have hfinite := And.intro (hleftCells.isFinite_deviation_iff.mpr hleft)
    (hrightCells.isFinite_deviation_iff.mpr hright)
  refine ⟨_, hresidual.trans (if_pos hfinite), ?_⟩
  have hboth := (hleftCells.isLargest_deviation hleft).union
    (hrightCells.isLargest_deviation hright)
  exact hboth.congr fun v => by simp only [or_and_right, exists_or]

theorem residual_comm [OrdersFinite α] (h : m.HasCells ⟨n, n⟩ a) (h' : m'.HasCells ⟨n, n⟩ b) :
    m.residual m' = m'.residual m := by
  obtain ⟨left, right, hleft, hright, -, -, hresidual⟩ := residual_eq h h'
  obtain ⟨right', left', hright', hleft', -, -, hresidual'⟩ := residual_eq h' h
  cases hleft.symm.trans hleft'
  cases hright.symm.trans hright'
  rw [hresidual, hresidual']
  by_cases hfinite : Scalar.isFinite (left.deviation n) = true ∧
      Scalar.isFinite (right.deviation n) = true
  · rw [if_pos hfinite, if_pos hfinite.symm, larger_right_comm hfinite.1 hfinite.2]
  · rw [if_neg hfinite, if_neg fun h => hfinite h.symm]

end Matrix

section Exact

variable {K : Type} [ExactOrderedField K] {n p q : ℕ}

theorem IsLargest.eq_zero_iff {P : K → Prop} {d : K}
    (h : IsLargest (fun v => ∃ e, P e ∧ v = Scalar.abs e) d) : d = 0 ↔ ∀ e, P e → e = 0 := by
  constructor
  · rintro rfl e he
    have hle := h.le _ ⟨e, he, rfl⟩
    rwa [Scalar.abs_eq_abs, abs_nonpos_iff] at hle
  · intro hzero
    rcases h.attained with ⟨e, he, rfl⟩ | hd
    · rw [hzero e he, Scalar.abs_eq_abs, abs_zero]
    · exact hd

namespace Cells

theorem misses_eq_zero_iff {a : Cells K} :
    (∀ e, a.Misses n e → e = 0) ↔ ∀ y < n, ∀ x < n, a y x = if y = x then 1 else 0 := by
  constructor
  · intro h y hy x hx
    exact sub_eq_zero.mp (h _ ⟨y, hy, x, hx, rfl⟩)
  · rintro h e ⟨y, hy, x, hx, rfl⟩
    exact sub_eq_zero.mpr (h y hy x hx)

/-- Two products with ones on the diagonal have one trace, which counts their rows. -/
theorem rows_eq_of_products {a b : Cells K}
    (hab : ∀ y < p, ∑ k ∈ Finset.range q, a y k * b k y = 1)
    (hba : ∀ k < q, ∑ y ∈ Finset.range p, b k y * a y k = 1) : p = q := by
  have htrace : (p : K) = q :=
    calc (p : K) = ∑ y ∈ Finset.range p, ∑ k ∈ Finset.range q, a y k * b k y := by
          rw [Finset.sum_congr rfl fun y hy => hab y (Finset.mem_range.mp hy)]
          simp
      _ = ∑ k ∈ Finset.range q, ∑ y ∈ Finset.range p, b k y * a y k := by
          rw [Finset.sum_comm]
          simp only [mul_comm]
      _ = q := by
          rw [Finset.sum_congr rfl fun k hk => hba k (Finset.mem_range.mp hk)]
          simp
  exact_mod_cast htrace

end Cells

namespace Matrix

variable {a b : Matrix K}

theorem cols_eq_rows_of_product {α : Type} [Scalar α] {a b p : Matrix α}
    (h : a.product b = .ok p) : a.cols = b.rows := by
  by_contra hne
  rw [product, if_neg hne] at h
  cases h

theorem square_of_products (ha : a.WellFormed) (hb : b.WellFormed)
    (hab : a.product b = .ok (identity a.rows)) (hba : b.product a = .ok (identity b.rows)) :
    a.rows = a.cols ∧ a.shape = b.shape := by
  have hinner := cols_eq_rows_of_product hab
  have houter := cols_eq_rows_of_product hba
  have hacells : a.HasCells ⟨a.rows, b.rows⟩ a.cells :=
    (ha.fits (by rw [shape, hinner])).hasCells
  have hbcells : b.HasCells ⟨b.rows, a.rows⟩ b.cells :=
    (hb.fits (by rw [shape, houter])).hasCells
  obtain ⟨left, hleft, hleftCells⟩ := product_hasCells_sum hacells hbcells
  obtain ⟨right, hright, hrightCells⟩ := product_hasCells_sum hbcells hacells
  cases hab.symm.trans hleft
  cases hba.symm.trans hright
  have hrows : a.rows = b.rows := by
    refine Cells.rows_eq_of_products (a := a.cells) (b := b.cells) (fun y hy => ?_) fun k hk => ?_
    · rw [← hleftCells.cells_eq hy hy, (hasCells_identity _).cells_eq hy hy, if_pos rfl]
    · rw [← hrightCells.cells_eq hk hk, (hasCells_identity _).cells_eq hk hk, if_pos rfl]
  exact ⟨hrows.trans hinner.symm, by rw [shape, shape, hinner, houter, hrows]⟩

theorem product_eq_identity_iff {c d : Cells K} (ha : a.HasCells ⟨n, n⟩ c)
    (hb : b.HasCells ⟨n, n⟩ d) :
    a.product b = .ok (identity n) ↔ ∀ e, (c.product n d).Misses n e → e = 0 := by
  obtain ⟨p, hp, hcells⟩ := product_hasCells ha hb
  rw [Cells.misses_eq_zero_iff, hp]
  constructor
  · intro h y hy x hx
    cases h
    rw [← (hasCells_identity n).cells_eq hy hx]
    exact (hcells.cells_eq hy hx).symm
  · intro h
    rw [hcells.ext (hasCells_identity n) fun y x hy hx => h y hy x hx]

/-- Over an exact field two matrices have the residual zero if and only if they are inverse to
each other. -/
theorem residual_eq_zero_iff (ha : a.WellFormed) (hb : b.WellFormed) :
    a.residual b = .ok 0 ↔
      a.product b = .ok (identity a.rows) ∧ b.product a = .ok (identity b.rows) := by
  by_cases hsame : a.rows = a.cols ∧ a.shape = b.shape
  · have hshape : a.shape = ⟨a.rows, a.rows⟩ := by
      rw [shape, ← hsame.1]
    have hrows : b.rows = a.rows := (congrArg Shape.rows hsame.2).symm
    have hacells := (ha.fits hshape).hasCells
    have hbcells := (hb.fits (hsame.2.symm.trans hshape)).hasCells
    have hoff : ∀ c : Cells K, c.FinitelyOff a.rows :=
      fun c y _ x _ => ExactRing.isFinite_eq_true _
    obtain ⟨d, hd, hlargest⟩ := residual_isLargest hacells hbcells (hoff _) (hoff _)
    rw [hrows, product_eq_identity_iff hacells hbcells, product_eq_identity_iff hbcells hacells,
      hd, Except.ok.injEq, hlargest.eq_zero_iff]
    simp only [or_imp, forall_and]
  · rw [residual_of_mismatch hsame]
    refine iff_of_false ?_ fun h => hsame (square_of_products ha hb h.1 h.2)
    rintro ⟨⟩

/-- What inversion hands out leaves no residual. -/
theorem residual_of_invert {v : Inverter K} (contract : v.engine.Faithful)
    (hepsilon : 0 ≤ v.epsilon) {m x : Matrix K} {s : v.engine.State}
    (h : (v.invert m s).result = .ok x) : m.residual x = .ok 0 := by
  obtain ⟨hrows, hsquare, hwell⟩ := Inverter.admissible_of_invert_eq_ok h
  have hshape : m.shape = ⟨m.rows, m.rows⟩ := by
    rw [shape, ← hsquare]
  have hm := (hwell.fits hshape).hasCells
  obtain ⟨haccepts, hx, -⟩ := (Inverter.ends_invert contract hm hrows).of_result_ok h
  have hmx := Cells.sum_mul_inverse (haccepts.pivot_ne_zero hepsilon)
  rw [residual_eq_zero_iff hwell hx.toFits.wellFormed, hx.rows]
  exact ⟨product_eq_identity hm hx hmx, product_eq_identity hx hm (Cells.sum_mul_comm hmx)⟩

end Matrix

end Exact

/-- Two matrices have a residual if they are of one square shape, and the error for their shapes
otherwise.  It is the largest absolute value by which a cell of one of the products misses the
identity, or the error for values that are not finite if one of these is not, and does not depend
on which matrix comes first.  In exact arithmetic it is zero for inverse matrices and for no
others, and so for what inversion hands out. -/
theorem residual_measures {α K : Type} [Scalar α] [ExactOrderedField K] :
    (∀ a b : Matrix α, a.WellFormed → b.WellFormed →
      (∀ s s', a.residual b = .error (.error (.shapeMismatch s s')) ↔
        ¬ (a.rows = a.cols ∧ a.shape = b.shape) ∧ s = a.shape ∧ s' = b.shape) ∧
      ∀ n, a.shape = ⟨n, n⟩ → b.shape = ⟨n, n⟩ →
        ∃ left right, a.product b = .ok left ∧ b.product a = .ok right ∧
          left.Fits ⟨n, n⟩ ∧ right.Fits ⟨n, n⟩ ∧
          (∀ [NegatesFinite α], a.residual b = .error (.error .nonFinite) ↔
            ∃ e, (left.cells.Misses n e ∨ right.cells.Misses n e) ∧
              Scalar.isFinite e = false) ∧
          (∀ [OrdersSizes α],
            (∀ e, left.cells.Misses n e ∨ right.cells.Misses n e → Scalar.isFinite e = true) →
            ∃ d, a.residual b = .ok d ∧
              IsLargest (fun v => ∃ e, (left.cells.Misses n e ∨ right.cells.Misses n e) ∧
                v = Scalar.abs e) d) ∧
          ∀ [OrdersFinite α], a.residual b = b.residual a) ∧
    (∀ a b : Matrix K, a.WellFormed → b.WellFormed →
      (a.residual b = .ok 0 ↔ a.product b = .ok (Matrix.identity a.rows) ∧
        b.product a = .ok (Matrix.identity b.rows))) ∧
    ∀ (v : Inverter K) (s : v.engine.State) (m x : Matrix K), v.engine.Faithful →
      0 ≤ v.epsilon → (v.invert m s).result = .ok x → m.residual x = .ok 0 := by
  refine ⟨fun a b ha hb => ⟨Matrix.residual_shapeMismatch_iff ha hb, ?_⟩,
    fun a b => Matrix.residual_eq_zero_iff,
    fun v s m x contract hepsilon h => Matrix.residual_of_invert contract hepsilon h⟩
  intro n hashape hbshape
  have hacells := (ha.fits hashape).hasCells
  have hbcells := (hb.fits hbshape).hasCells
  obtain ⟨left, right, hleft, hright, hleftCells, hrightCells, -⟩ :=
    Matrix.residual_eq hacells hbcells
  refine ⟨left, right, hleft, hright, hleftCells.toFits, hrightCells.toFits, ?_, ?_,
    Matrix.residual_comm hacells hbcells⟩
  · simp only [hleftCells.misses_iff, hrightCells.misses_iff]
    exact Matrix.residual_nonFinite_iff hacells hbcells
  · simp only [hleftCells.misses_iff, hrightCells.misses_iff]
    intro _ hfinite
    refine Matrix.residual_isLargest hacells hbcells ?_ ?_
    · exact Cells.finitelyOff_iff.mpr fun e he => hfinite e (.inl he)
    · exact Cells.finitelyOff_iff.mpr fun e he => hfinite e (.inr he)

/-- Matrices of two shapes, in double precision two matrices whose products miss the identity by
up to eight, and two that are inverse to each other in exact arithmetic. -/
theorem residual_measures_two_by_two :
    (⟨1, 2, #[2, 1]⟩ : Matrix Float).residual ⟨2, 2, #[2, 1, 4, 3]⟩ =
      .error (.error (.shapeMismatch ⟨1, 2⟩ ⟨2, 2⟩)) ∧
    (∃ left right, (⟨2, 2, #[2, 1, 4, 3]⟩ : Matrix Float).product ⟨2, 2, #[2, -1, 0, 1]⟩ =
        .ok left ∧
      (⟨2, 2, #[2, -1, 0, 1]⟩ : Matrix Float).product ⟨2, 2, #[2, 1, 4, 3]⟩ = .ok right ∧
      IsLargest (fun v => ∃ e, (left.cells.Misses 2 e ∨ right.cells.Misses 2 e) ∧
        v = Scalar.abs e) 8 ∧
      (⟨2, 2, #[2, -1, 0, 1]⟩ : Matrix Float).residual ⟨2, 2, #[2, 1, 4, 3]⟩ = .ok 8) ∧
    (⟨2, 2, #[2, 1, 4, 3]⟩ : Matrix ℚ).residual ⟨2, 2, #[3 / 2, -1 / 2, -2, 1]⟩ = .ok 0 := by
  obtain ⟨hmeasures, -, hinverse⟩ := residual_measures (α := Float) (K := ℚ)
  refine ⟨?_, ?_, ?_⟩
  · have hwell : (⟨1, 2, #[2, 1]⟩ : Matrix Float).WellFormed := rfl
    have hwell' : (⟨2, 2, #[2, 1, 4, 3]⟩ : Matrix Float).WellFormed := rfl
    exact ((hmeasures _ _ hwell hwell').1 _ _).mpr ⟨by decide, rfl, rfl⟩
  · have hresidual : (⟨2, 2, #[2, 1, 4, 3]⟩ : Matrix Float).residual ⟨2, 2, #[2, -1, 0, 1]⟩ =
        .ok 8 := by decide +kernel
    obtain ⟨left, right, hleft, hright, -, -, hnonFinite, hlargest, hcomm⟩ :=
      (hmeasures ⟨2, 2, #[2, 1, 4, 3]⟩ ⟨2, 2, #[2, -1, 0, 1]⟩ rfl rfl).2 2 rfl rfl
    rw [hresidual] at hnonFinite hlargest hcomm
    have hfinite : ∀ e, left.cells.Misses 2 e ∨ right.cells.Misses 2 e →
        Scalar.isFinite e = true := by
      intro e he
      by_contra hinfinite
      have herror := hnonFinite.mpr ⟨e, he, Bool.eq_false_iff.mpr hinfinite⟩
      cases herror
    obtain ⟨d, hd, hd'⟩ := hlargest hfinite
    cases hd
    exact ⟨left, right, hleft, hright, hd', hcomm.symm⟩
  · have hinvert : (Inverter.serialExact.invert ⟨2, 2, #[2, 1, 4, 3]⟩ ()).result =
        .ok ⟨2, 2, #[3 / 2, -1 / 2, -2, 1]⟩ := by cbv
    exact hinverse _ _ _ _ Engine.faithful_serial (le_refl (0 : ℚ)) hinvert

end GridInversion
