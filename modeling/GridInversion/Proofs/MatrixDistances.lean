import GridInversion.Proofs.MirroredDifferences
import GridInversion.Proofs.ResidualMeasures
import GridInversion.Proofs.CellAddresses
import GridInversion.Proofs.FirstEntries

/-!
The distance of two matrices. It goes through the cells in row-major order with the largest
difference so far, and stops at a difference that is not finite.
-/

namespace GridInversion.Matrix

variable {α : Type} [Scalar α]

/-- By what the cells of two matrices differ at one position. -/
def difference (a b : Matrix α) (p : Position) : α := a.cells p.y p.x - b.cells p.y p.x

/-- The cells at some position inside the shape differ by `e`. -/
def DiffersBy (a b : Matrix α) (e : α) : Prop :=
  ∃ p, a.shape.Contains p ∧ a.difference b p = e

section Pairs

variable {pairs : List (α × α)} {worst : α}

/-- The difference of the pair is not finite. -/
def FarApart (p : α × α) : Prop := Scalar.isFinite (p.1 - p.2) = false

/-- The first difference that is not finite ends the comparison. -/
theorem worstDifference_of_firstAt [NegatesFinite α] {k : ℕ} {p : α × α}
    (h : FirstAt FarApart pairs k p) :
    worstDifference worst pairs = Scalar.abs (p.1 - p.2) := by
  induction pairs generalizing k worst with
  | nil => cases h.mem
  | cons q rest ih =>
      rw [worstDifference, Scalar.isFinite_abs]
      cases hq : Scalar.isFinite (q.1 - q.2) with
      | false =>
          obtain ⟨-, rfl⟩ := (FirstAt.cons_iff_of_holds (P := FarApart) hq).mp h
          rfl
      | true =>
          have hq' : ¬ FarApart q := fun h => Bool.noConfusion (hq.symm.trans h)
          obtain ⟨j, -, hrest⟩ := (FirstAt.cons_iff_of_not hq').mp h
          exact ih hrest

/-- A zero is never larger than what is not below zero. -/
theorem not_lt_of_beq_zero [OrdersFinite α] [ComparesZeros α] {z : α}
    (hfinite : Scalar.isFinite worst = true) (hworst : 0 ≤ worst) (hz : (z == 0) = true) :
    ¬ worst < z := by
  rw [OrdersFinite.lt_iff _ _ hfinite (FiniteZeros.finite_of_beq_zero z hz), not_not]
  exact (ComparesZeros.le_iff z hz worst).mpr hworst

theorem abs_of_beq_zero [ComparesZeros α] {z : α} (hz : (z == 0) = true) : Scalar.abs z = z :=
  if_neg (ComparesZeros.not_lt_zero z hz)

/-- Which matrix comes first does not matter: two differences that are not mirrored are zeros, and
these do not displace the largest difference so far. -/
theorem worstDifference_swap [OrdersFinite α] [ComparesZeros α] [MirrorsDifferences α]
    (hfinite : Scalar.isFinite worst = true) (hworst : 0 ≤ worst) :
    worstDifference worst (pairs.map Prod.swap) = worstDifference worst pairs := by
  induction pairs generalizing worst with
  | nil => rfl
  | cons p rest ih =>
      obtain ⟨x, y⟩ := p
      rw [List.map_cons, Prod.swap_prod_mk, worstDifference, worstDifference]
      rcases MirrorsDifferences.abs_sub_swap x y with habs | ⟨hz, hz'⟩
      · rw [habs]
        split
        -- The largest difference so far stays finite and is never below zero.
        · rename_i hd
          split
          · rename_i hlt
            refine ih hd ?_
            exact OrdersFinite.le_trans 0 worst _ OrdersFinite.isFinite_zero hfinite hd hworst
              (OrdersFinite.le_of_lt hfinite hd hlt)
          · exact ih hfinite hworst
        · rfl
      · rw [abs_of_beq_zero hz, abs_of_beq_zero hz', if_neg (not_lt_of_beq_zero hfinite hworst hz),
          if_neg (not_lt_of_beq_zero hfinite hworst hz'),
          if_pos (FiniteZeros.finite_of_beq_zero _ hz),
          if_pos (FiniteZeros.finite_of_beq_zero _ hz')]
        exact ih hfinite hworst

end Pairs

section Distances

variable {a b c : Matrix α} {d tolerance : α}

/-- The pairs of cells of two matrices of one shape, in row-major order. -/
theorem zip_data_eq (ha : a.WellFormed) (hb : b.WellFormed) (hshape : a.shape = b.shape) :
    a.data.toList.zip b.data.toList =
      a.shape.rowMajor.map fun p => (a.cells p.y p.x, b.cells p.y p.x) :=
  ha.hasCells.zip_eq (hshape ▸ hb.hasCells)

theorem maxAbsDiff_of_shape_eq (hshape : a.shape = b.shape) :
    a.maxAbsDiff b = some (worstDifference 0 (a.data.toList.zip b.data.toList)) := if_pos hshape

theorem maxAbsDiff_eq_none_iff : a.maxAbsDiff b = none ↔ a.shape ≠ b.shape := by
  rw [maxAbsDiff]
  split
  · rename_i hshape
    exact iff_of_false (Option.some_ne_none _) (not_not.mpr hshape)
  · rename_i hshape
    exact iff_of_true rfl hshape

theorem shape_eq_of_maxAbsDiff (h : a.maxAbsDiff b = some d) : a.shape = b.shape := by
  by_contra hne
  cases h.symm.trans (maxAbsDiff_eq_none_iff.mpr hne)

theorem maxAbsDiff_of_firstAt [NegatesFinite α] (ha : a.WellFormed) (hb : b.WellFormed)
    (hshape : a.shape = b.shape) {k : ℕ} {p : Position}
    (h : FirstAt (fun p => Scalar.isFinite (a.difference b p) = false) a.shape.rowMajor k p) :
    a.maxAbsDiff b = some (Scalar.abs (a.difference b p)) := by
  rw [maxAbsDiff_of_shape_eq hshape, zip_data_eq ha hb hshape]
  exact congrArg some (worstDifference_of_firstAt (FirstAt.map (P := FarApart) h))

/-- If there is a difference that is not finite, the first one in row-major order is the answer. -/
theorem exists_firstAt_maxAbsDiff [NegatesFinite α] (ha : a.WellFormed) (hb : b.WellFormed)
    (hshape : a.shape = b.shape) {e : α} (he : a.DiffersBy b e)
    (hinfinite : Scalar.isFinite e = false) :
    ∃ k p, FirstAt (fun p => Scalar.isFinite (a.difference b p) = false) a.shape.rowMajor k p ∧
      a.maxAbsDiff b = some (Scalar.abs (a.difference b p)) := by
  obtain ⟨q, hq, rfl⟩ := he
  obtain ⟨k, p, hp⟩ := FirstAt.exists_of_mem
    (P := fun p => Scalar.isFinite (a.difference b p) = false) (Shape.mem_rowMajor.mpr hq) hinfinite
  exact ⟨k, p, hp, maxAbsDiff_of_firstAt ha hb hshape hp⟩

/-- No difference that is not finite hides behind a finite answer. -/
theorem finite_of_maxAbsDiff [NegatesNonFinite α] (ha : a.WellFormed) (hb : b.WellFormed)
    (h : a.maxAbsDiff b = some d) (hd : Scalar.isFinite d = true) (e : α)
    (he : a.DiffersBy b e) : Scalar.isFinite e = true := by
  have hshape := shape_eq_of_maxAbsDiff h
  rw [maxAbsDiff_of_shape_eq hshape, zip_data_eq ha hb hshape] at h
  obtain rfl := Option.some_inj.mp h
  obtain ⟨p, hp, rfl⟩ := he
  exact List.forall_mem_map.mp (finite_of_worstDifference hd) p (Shape.mem_rowMajor.mpr hp)

/-- Of finite differences the largest absolute value is the answer. -/
theorem exists_isLargest_maxAbsDiff [OrdersSizes α] (ha : a.WellFormed) (hb : b.WellFormed)
    (hshape : a.shape = b.shape) (hfinite : ∀ e, a.DiffersBy b e → Scalar.isFinite e = true) :
    ∃ d, a.maxAbsDiff b = some d ∧
      IsLargest (fun v => ∃ e, a.DiffersBy b e ∧ v = Scalar.abs e) d := by
  refine ⟨_, maxAbsDiff_of_shape_eq hshape, ?_⟩
  rw [zip_data_eq ha hb hshape]
  refine (isLargest_worstDifference ?_ IsLargest.none).congr fun v => ?_
  · exact List.forall_mem_map.mpr fun p hp => hfinite _ ⟨p, Shape.mem_rowMajor.mp hp, rfl⟩
  · simp [DiffersBy, difference]

theorem maxAbsDiff_of_no_cells (ha : a.WellFormed) (hshape : a.shape = b.shape)
    (hcells : a.shape.cells = 0) : a.maxAbsDiff b = some 0 := by
  have hdata : a.data = #[] := Array.eq_empty_of_size_eq_zero (ha.trans hcells)
  rw [maxAbsDiff_of_shape_eq hshape, hdata]
  rfl

theorem maxAbsDiff_comm [OrdersFinite α] [ComparesZeros α] [MirrorsDifferences α] (a b : Matrix α) :
    a.maxAbsDiff b = b.maxAbsDiff a := by
  rw [maxAbsDiff, maxAbsDiff]
  by_cases hshape : a.shape = b.shape
  · have hzero := OrdersFinite.isFinite_zero (α := α)
    rw [if_pos hshape, if_pos hshape.symm, ← List.zip_swap,
      worstDifference_swap hzero (OrdersFinite.le_refl hzero)]
  · rw [if_neg hshape, if_neg (Ne.symm hshape)]

theorem approxEq_iff_exists : a.approxEq b tolerance = true ↔
    ∃ d, a.maxAbsDiff b = some d ∧ Scalar.isFinite d = true ∧ d ≤ tolerance := by
  rw [approxEq]
  cases a.maxAbsDiff b <;> simp

/-- Two matrices are close to each other if all of their cells are. -/
theorem approxEq_iff [OrdersSizes α] [IsTrans α (· ≤ ·)] (ha : a.WellFormed) (hb : b.WellFormed)
    (htolerance : 0 ≤ tolerance) :
    a.approxEq b tolerance = true ↔ a.shape = b.shape ∧
      ∀ e, a.DiffersBy b e → Scalar.isFinite e = true ∧ Scalar.abs e ≤ tolerance := by
  rw [approxEq_iff_exists]
  constructor
  · rintro ⟨d, hd, hfinite, hle⟩
    have hshape := shape_eq_of_maxAbsDiff hd
    have hcells := finite_of_maxAbsDiff ha hb hd hfinite
    obtain ⟨d', hd', hlargest⟩ := exists_isLargest_maxAbsDiff ha hb hshape hcells
    cases hd.symm.trans hd'
    exact ⟨hshape, fun e he =>
      ⟨hcells e he, IsTrans.trans _ _ _ (hlargest.le _ ⟨e, he, rfl⟩) hle⟩⟩
  · rintro ⟨hshape, hcells⟩
    obtain ⟨d, hd, hlargest⟩ := exists_isLargest_maxAbsDiff ha hb hshape fun e he => (hcells e he).1
    refine ⟨d, hd, hlargest.isFinite, ?_⟩
    rcases hlargest.attained with ⟨e, he, rfl⟩ | rfl
    · exact (hcells e he).2
    · exact htolerance

end Distances

section Exact

variable {K : Type} [ExactOrderedField K] {a b c : Matrix K}

theorem exists_maxAbsDiff_exact (ha : a.WellFormed) (hb : b.WellFormed)
    (hshape : a.shape = b.shape) : ∃ d, a.maxAbsDiff b = some d ∧
      IsLargest (fun v => ∃ e, a.DiffersBy b e ∧ v = Scalar.abs e) d :=
  exists_isLargest_maxAbsDiff ha hb hshape fun e _ => ExactRing.isFinite_eq_true e

theorem maxAbsDiff_triangle (ha : a.WellFormed) (hb : b.WellFormed) (hc : c.WellFormed)
    (hab : a.shape = b.shape) (hbc : b.shape = c.shape) :
    ∃ x y z, a.maxAbsDiff b = some x ∧ b.maxAbsDiff c = some y ∧ a.maxAbsDiff c = some z ∧
      z ≤ x + y := by
  obtain ⟨x, hx, hxLargest⟩ := exists_maxAbsDiff_exact ha hb hab
  obtain ⟨y, hy, hyLargest⟩ := exists_maxAbsDiff_exact hb hc hbc
  obtain ⟨z, hz, hzLargest⟩ := exists_maxAbsDiff_exact ha hc (hab.trans hbc)
  refine ⟨x, y, z, hx, hy, hz, ?_⟩
  rcases hzLargest.attained with ⟨e, ⟨p, hp, rfl⟩, rfl⟩ | rfl
  · have hfirst := hxLargest.le _ ⟨_, ⟨p, hp, rfl⟩, rfl⟩
    have hsecond := hyLargest.le _ ⟨_, ⟨p, hab ▸ hp, rfl⟩, rfl⟩
    rw [Scalar.abs_eq_abs] at hfirst hsecond ⊢
    calc |a.difference c p| = |a.difference b p + b.difference c p| :=
          congrArg _ (sub_add_sub_cancel _ _ _).symm
      _ ≤ |a.difference b p| + |b.difference c p| := abs_add_le _ _
      _ ≤ x + y := add_le_add hfirst hsecond
  · exact add_nonneg hxLargest.zero_le hyLargest.zero_le

/-- In exact arithmetic no two different matrices have the distance zero. -/
theorem maxAbsDiff_eq_zero_iff (ha : a.WellFormed) (hb : b.WellFormed) :
    a.maxAbsDiff b = some 0 ↔ a = b := by
  constructor
  · intro h
    have hshape := shape_eq_of_maxAbsDiff h
    obtain ⟨d, hd, hlargest⟩ := exists_maxAbsDiff_exact ha hb hshape
    have hzero := hlargest.eq_zero_iff.mp (Option.some_inj.mp (hd.symm.trans h))
    refine ha.hasCells.ext (hshape ▸ hb.hasCells) fun r c hr hc => ?_
    exact sub_eq_zero.mp (hzero _ ⟨⟨c, r⟩, ⟨hc, hr⟩, rfl⟩)
  · rintro rfl
    obtain ⟨d, hd, hlargest⟩ := exists_maxAbsDiff_exact ha ha rfl
    have hzero : d = 0 := by
      refine hlargest.eq_zero_iff.mpr ?_
      rintro e ⟨p, -, rfl⟩
      exact sub_self _
    rw [hd, hzero]

end Exact

/-- Two well-formed matrices have a distance if they are of one shape.  It is the absolute value of
the first difference of two cells, in row-major order, that is not finite, and the largest absolute
value of a difference if there is none; without cells it is zero.  So it does not depend on which
matrix comes first, and the matrices are close to each other exactly if they are of one shape and
all cells are.  In exact arithmetic no detour is shorter, and only equal matrices have the distance
zero. -/
theorem distance_laws {K : Type} [ExactOrderedField K] :
    (∀ a b : Matrix α, a.WellFormed → b.WellFormed →
      (a.maxAbsDiff b = none ↔ a.shape ≠ b.shape) ∧
      (a.shape = b.shape →
        (∀ [NegatesFinite α] (e : α), a.DiffersBy b e → Scalar.isFinite e = false →
          ∃ k p, FirstAt (fun p => Scalar.isFinite (a.difference b p) = false)
              a.shape.rowMajor k p ∧
            a.maxAbsDiff b = some (Scalar.abs (a.difference b p))) ∧
        (∀ [OrdersSizes α], (∀ e, a.DiffersBy b e → Scalar.isFinite e = true) →
          ∃ d, a.maxAbsDiff b = some d ∧
            IsLargest (fun v => ∃ e, a.DiffersBy b e ∧ v = Scalar.abs e) d) ∧
        (a.shape.cells = 0 → a.maxAbsDiff b = some 0)) ∧
      (∀ [OrdersFinite α] [ComparesZeros α] [MirrorsDifferences α],
        a.maxAbsDiff b = b.maxAbsDiff a) ∧
      ∀ [OrdersSizes α] [IsTrans α (· ≤ ·)] (tolerance : α), 0 ≤ tolerance →
        (a.approxEq b tolerance = true ↔ a.shape = b.shape ∧
          ∀ e, a.DiffersBy b e → Scalar.isFinite e = true ∧ Scalar.abs e ≤ tolerance)) ∧
    (∀ a b c : Matrix K, a.WellFormed → b.WellFormed → c.WellFormed →
      a.shape = b.shape → b.shape = c.shape →
      ∃ x y z, a.maxAbsDiff b = some x ∧ b.maxAbsDiff c = some y ∧ a.maxAbsDiff c = some z ∧
        z ≤ x + y) ∧
    ∀ a b : Matrix K, a.WellFormed → b.WellFormed → (a.maxAbsDiff b = some 0 ↔ a = b) := by
  refine ⟨fun a b ha hb => ⟨maxAbsDiff_eq_none_iff, fun hshape => ⟨?_, ?_, ?_⟩,
    maxAbsDiff_comm a b, fun _ htolerance => approxEq_iff ha hb htolerance⟩,
    fun _ _ _ => maxAbsDiff_triangle, fun _ _ => maxAbsDiff_eq_zero_iff⟩
  · exact fun e => exists_firstAt_maxAbsDiff ha hb hshape
  · exact exists_isLargest_maxAbsDiff ha hb hshape
  · exact maxAbsDiff_of_no_cells ha hshape

/-- Double precision with an infinite difference in front of one that is not a number, and with
finite differences only; and three matrices of fractions. -/
theorem distance_laws_one_by_three :
    let bad : Matrix Float := ⟨1, 3, #[1, 1 / 0, 0 / 0]⟩
    let up : Matrix Float := ⟨1, 3, #[1, 2, 3]⟩
    let down : Matrix Float := ⟨1, 3, #[3, 2, 1]⟩
    (∃ k p, FirstAt (fun p => Scalar.isFinite (up.difference bad p) = false)
        up.shape.rowMajor k p ∧ some (Scalar.abs (up.difference bad p)) = some (1 / 0)) ∧
      IsLargest (fun v => ∃ e, up.DiffersBy down e ∧ v = Scalar.abs e) 2 ∧
      down.maxAbsDiff up = some 2 ∧ up.approxEq down (1 / 0) = true ∧
      up.approxEq bad (1 / 0) = false ∧
      (∃ x y z, (⟨1, 1, #[0]⟩ : Matrix ℚ).maxAbsDiff ⟨1, 1, #[1]⟩ = some x ∧
        (⟨1, 1, #[1]⟩ : Matrix ℚ).maxAbsDiff ⟨1, 1, #[1 / 2]⟩ = some y ∧
        (⟨1, 1, #[0]⟩ : Matrix ℚ).maxAbsDiff ⟨1, 1, #[1 / 2]⟩ = some z ∧ z ≤ x + y) ∧
      (⟨1, 1, #[2 / 4]⟩ : Matrix ℚ).maxAbsDiff ⟨1, 1, #[1 / 2]⟩ = some 0 := by
  intro bad up down
  obtain ⟨hlaws, htriangle, hzero⟩ := distance_laws (α := Float) (K := ℚ)
  obtain ⟨-, hbad, -, hbadClose⟩ := hlaws up bad rfl rfl
  obtain ⟨-, hgood, hcomm, hclose⟩ := hlaws up down rfl rfl
  have hshape : up.shape = down.shape := by decide
  have hlast : up.DiffersBy bad (up.difference bad ⟨2, 0⟩) := ⟨⟨2, 0⟩, by decide, rfl⟩
  have hnan : Scalar.isFinite (up.difference bad ⟨2, 0⟩) = false := by decide +kernel
  have hinfinity : up.maxAbsDiff bad = some (1 / 0) := by decide +kernel
  have hdistance : up.maxAbsDiff down = some 2 := by decide +kernel
  have hcells : ∀ e, up.DiffersBy down e →
      Scalar.isFinite e = true ∧ Scalar.abs e ≤ 1 / 0 := by
    rintro e ⟨p, hp, rfl⟩
    have hall : ∀ p ∈ up.shape.rowMajor, Scalar.isFinite (up.difference down p) = true ∧
        Scalar.abs (up.difference down p) ≤ 1 / 0 := by decide +kernel
    exact hall p (Shape.mem_rowMajor.mpr hp)
  have htolerance : (0 : Float) ≤ 1 / 0 := by decide +kernel
  refine ⟨?_, ?_, hcomm.symm.trans hdistance, (hclose _ htolerance).mpr ⟨hshape, hcells⟩, ?_,
    htriangle _ _ _ rfl rfl rfl rfl rfl, (hzero ⟨1, 1, #[2 / 4]⟩ ⟨1, 1, #[1 / 2]⟩ rfl rfl).mpr ?_⟩
  · obtain ⟨k, p, hp, hmax⟩ := (hbad (by decide)).1 _ hlast hnan
    exact ⟨k, p, hp, hmax.symm.trans hinfinity⟩
  · obtain ⟨d, hd, hlargest⟩ := (hgood hshape).2.1 fun e he => (hcells e he).1
    cases hdistance.symm.trans hd
    exact hlargest
  · rw [← Bool.not_eq_true, hbadClose _ htolerance]
    rintro ⟨-, h⟩
    cases hnan.symm.trans (h _ hlast).1
  · norm_num

end GridInversion.Matrix
