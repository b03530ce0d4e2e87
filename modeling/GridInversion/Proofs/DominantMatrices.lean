import Mathlib.Algebra.BigOperators.Group.Finset.Basic
import Mathlib.Algebra.Order.BigOperators.Group.Finset
import Mathlib.Algebra.Order.Field.Basic
import Mathlib.Tactic.Linarith
import GridInversion.Random.Dominant
import GridInversion.Proofs.BlockSystem
import GridInversion.Proofs.RowLists

namespace GridInversion

section Margins

variable {K : Type} [ExactOrderedField K]

/-- By how much a cell of a row outweighs the others of the columns `s`. -/
def margin (row : ℕ → K) (s : Finset ℕ) (y : ℕ) : K := |row y| - ∑ x ∈ s.erase y, |row x|

theorem margin_le_abs (row : ℕ → K) (s : Finset ℕ) (y : ℕ) : margin row s y ≤ |row y| :=
  sub_le_self _ (Finset.sum_nonneg fun _ _ => abs_nonneg _)

theorem margin_congr {row row' : ℕ → K} {s : Finset ℕ} {y : ℕ} (hy : y ∈ s)
    (h : ∀ x ∈ s, row x = row' x) : margin row s y = margin row' s y := by
  rw [margin, margin, h y hy]
  congr 1
  exact Finset.sum_congr rfl fun x hx => by rw [h x (Finset.mem_of_mem_erase hx)]

namespace Cells

variable {a b : Cells K} {δ : K} {s : Finset ℕ} {k n : ℕ}

/-- In each of the rows `s` the diagonal cell outweighs the others of the columns `s` by more
than `δ`. -/
def Dominant (δ : K) (s : Finset ℕ) (a : Cells K) : Prop := ∀ y ∈ s, δ < margin (a y) s y

/-- A step takes from the diagonal cell of a row what it takes from the row's margin, and the
pivot row gives back no more than was in the pivot's column. -/
theorem Pivoted.margin_le (h : Pivoted a b k) (hk : k ∈ s) (hpivot : 0 ≤ margin (a k) s k)
    {y : ℕ} (hy : y ∈ s) (hyk : y ≠ k) : margin (a y) s y ≤ margin (b y) (s.erase k) y := by
  have hrow : ∀ x, b y x = a y x - a y k / a k k * a k x := h.other_row hyk
  have hfactor : |a y k / a k k| * |a k k| = |a y k| := by
    rw [← abs_mul, div_mul_cancel₀ _ h.pivot_ne_zero]
  have hscaled := mul_le_mul_of_nonneg_left (sub_nonneg.mp hpivot) (abs_nonneg (a y k / a k k))
  rw [hfactor, ← Finset.add_sum_erase _ _ (Finset.mem_erase.mpr ⟨hyk, hy⟩), mul_add] at hscaled
  have hdiagonal : |a y y| ≤ |b y y| + |a y k / a k k| * |a k y| := by
    rw [← abs_mul, ← sub_add_cancel (a y y) (a y k / a k k * a k y), ← hrow y]
    exact abs_add_le _ _
  have hothers : ∑ x ∈ (s.erase k).erase y, |b y x| ≤
      ∑ x ∈ (s.erase k).erase y, |a y x| +
        |a y k / a k k| * ∑ x ∈ (s.erase k).erase y, |a k x| := by
    rw [Finset.mul_sum, ← Finset.sum_add_distrib]
    apply Finset.sum_le_sum
    intro x _
    rw [hrow, ← abs_mul]
    exact abs_sub _ _
  have hsplit : ∑ x ∈ s.erase y, |a y x| = |a y k| + ∑ x ∈ (s.erase k).erase y, |a y x| := by
    rw [Finset.erase_right_comm,
      Finset.add_sum_erase _ (fun x => |a y x|) (Finset.mem_erase.mpr ⟨hyk.symm, hk⟩)]
  rw [margin, margin, hsplit]
  linarith

namespace Dominant

theorem pivoted (h : Dominant δ s a) (hδ : 0 ≤ δ) (hk : k ∈ s) (hstep : Pivoted a b k) :
    Dominant δ (s.erase k) b := by
  intro y hy
  obtain ⟨hyk, hys⟩ := Finset.mem_erase.mp hy
  have hpivot : 0 ≤ margin (a k) s k := hδ.trans (h k hk).le
  exact (h y hys).trans_le (hstep.margin_le hk hpivot hys hyk)

theorem lt_abs (h : Dominant δ s a) {y : ℕ} (hy : y ∈ s) : δ < |a y y| :=
  (h y hy).trans_le (margin_le_abs _ _ _)

theorem settled (h : Dominant δ (Finset.range n) a) (hδ : 0 ≤ δ) (hk : k ≤ n) :
    Dominant δ (Finset.Ico k n) (a.settled k) := by
  induction k with
  | zero =>
      rw [← Finset.range_eq_Ico]
      exact h
  | succ k ih =>
      have hearlier := ih (Nat.le_of_succ_le hk)
      have hmem : k ∈ Finset.Ico k n := Finset.left_mem_Ico.mpr hk
      have hne : a.settled k k k ≠ 0 := by
        rw [← abs_pos]
        exact hδ.trans_lt (hearlier.lt_abs hmem)
      have hrest : (Finset.Ico k n).erase k = Finset.Ico (k + 1) n := by
        ext x
        simp only [Finset.mem_erase, Finset.mem_Ico]
        omega
      rw [← hrest]
      exact hearlier.pivoted hδ hmem (pivoted_settle hne)

theorem lt_abs_pivot (h : Dominant δ (Finset.range n) a) (hδ : 0 ≤ δ) {i : ℕ} (hi : i < n) :
    δ < |a.pivot i| :=
  (h.settled hδ (Nat.le_of_lt hi)).lt_abs (Finset.left_mem_Ico.mpr hi)

theorem congr (h : Dominant δ (Finset.range n) a)
    (hab : ∀ y < n, ∀ x < n, b y x = a y x) : Dominant δ (Finset.range n) b := by
  intro y hy
  rw [margin_congr hy fun x hx => hab y (Finset.mem_range.mp hy) x (Finset.mem_range.mp hx)]
  exact h y hy

end Dominant

end Cells

theorem Inverter.exists_invert_of_dominant {v : Inverter K} (contract : v.engine.Faithful)
    {δ : K} (hδ : 0 ≤ δ) (hepsilon : v.epsilon ≤ δ) {n : ℕ} (hn : n ≠ 0) {m : Matrix K}
    {a : Cells K} (hm : m.HasCells ⟨n, n⟩ a) (h : Cells.Dominant δ (Finset.range n) a)
    (s : v.engine.State) : ∃ x, (v.invert m s).result = .ok x := by
  rw [exists_invert_eq_ok_iff contract hm hn]
  intro i hi
  have haugmented : Cells.Dominant δ (Finset.range n) (a.augmented n) :=
    h.congr fun y _ x hx => by rw [Cells.augmented, if_pos hx]
  exact refuses_eq_false_iff.mpr (hepsilon.trans_lt (haugmented.lt_abs_pivot hδ hi))

end Margins

namespace Random

section Rows

variable {α : Type} [Scalar α] (source : Source α)

omit [Scalar α] in
theorem Source.length_cells (n : ℕ) (s : source.State) : (source.cells n s).1.length = n := by
  induction n generalizing s with
  | zero => rfl
  | succ n ih => simp [Source.cells, ih]

theorem Source.length_rowsFrom (n count r : ℕ) (s : source.State) :
    (source.rowsFrom n count r s).length = count := by
  induction count generalizing r s with
  | zero => rfl
  | succ count ih => simp [Source.rowsFrom, ih]

theorem Source.exists_getElem?_rowsFrom (n count r : ℕ) (s : source.State) {i : ℕ}
    (hi : i < count) :
    ∃ t, (source.rowsFrom n count r s)[i]? =
      some (dominantRow (r + i) (source.cells n t).1 (source.bonus (source.cells n t).2).1) := by
  induction count generalizing r s i with
  | zero => exact absurd hi (Nat.not_lt_zero i)
  | succ count ih =>
      cases i with
      | zero => exact ⟨s, rfl⟩
      | succ i =>
          obtain ⟨t, ht⟩ := ih (r + 1) (source.row n r s).2 (Nat.lt_of_succ_lt_succ hi)
          refine ⟨t, ?_⟩
          rw [Nat.add_right_comm] at ht
          simpa [Source.rowsFrom, Nat.add_assoc] using ht

theorem Source.exists_getElem_rows (n : ℕ) (s : source.State) {r : ℕ}
    (hr : r < (source.rows n s).length) :
    ∃ t, (source.rows n s)[r] =
      dominantRow r (source.cells n t).1 (source.bonus (source.cells n t).2).1 := by
  have hlt : r < n := by rwa [Source.rows, source.length_rowsFrom] at hr
  obtain ⟨t, ht⟩ := source.exists_getElem?_rowsFrom n n 0 s hlt
  rw [Nat.zero_add] at ht
  exact ⟨t, Option.some_inj.mp ((List.getElem?_eq_getElem hr).symm.trans ht)⟩

theorem length_dominantRow (r : ℕ) (draws : List α) (bonus : α) :
    (dominantRow r draws bonus).length = draws.length :=
  List.length_set ..

end Rows

section Exact

variable {K : Type} [ExactOrderedField K]

theorem foldl_abs_eq_sum (draws : List K) :
    (draws.map Scalar.abs).foldl (· + ·) 0 =
      ∑ x ∈ Finset.range draws.length, |draws.getD x 0| := by
  rw [← List.sum_eq_foldl]
  induction draws with
  | nil => rfl
  | cons x rest ih =>
      rw [List.map_cons, List.sum_cons, ih, List.length_cons, Finset.sum_range_succ',
        add_comm, Scalar.abs_eq_abs]
      rfl

/-- The draw that the diagonal cell replaces is counted in its place: it remains as margin,
together with the bonus. -/
theorem margin_dominantRow {draws : List K} {bonus : K} (hbonus : 0 ≤ bonus) {r : ℕ}
    (hr : r < draws.length) :
    margin (fun x => (dominantRow r draws bonus).getD x 0) (Finset.range draws.length) r =
      |draws.getD r 0| + bonus := by
  have hdiagonal : (dominantRow r draws bonus).getD r 0 =
      ∑ x ∈ Finset.range draws.length, |draws.getD x 0| + bonus := by
    rw [dominantRow, foldl_abs_eq_sum]
    simp [hr]
  have hothers : ∑ x ∈ (Finset.range draws.length).erase r,
      |(dominantRow r draws bonus).getD x 0| =
        ∑ x ∈ (Finset.range draws.length).erase r, |draws.getD x 0| := by
    apply Finset.sum_congr rfl
    intro x hx
    have hne : r ≠ x := (Finset.ne_of_mem_erase hx).symm
    simp [dominantRow, hne]
  have hsum : 0 ≤ ∑ x ∈ Finset.range draws.length, |draws.getD x 0| :=
    Finset.sum_nonneg fun _ _ => abs_nonneg _
  rw [margin, hothers, hdiagonal, abs_of_nonneg (add_nonneg hsum hbonus),
    ← Finset.add_sum_erase _ (fun x => |draws.getD x 0|) (Finset.mem_range.mpr hr)]
  ring

/-- Rows from a source whose bonuses are above `δ` make up a matrix that is dominant by more
than `δ`, whatever the cells drawn are. -/
theorem Source.exists_matrix (source : Source K) {δ : K} (hδ : 0 ≤ δ)
    (hbonus : ∀ t, δ < (source.bonus t).1) {n : ℕ} (hn : n ≠ 0) (s : source.State) :
    ∃ m a, Matrix.ofRows ((source.rows n s).map List.toArray) = .ok m ∧
      m.HasCells ⟨n, n⟩ a ∧ Cells.Dominant δ (Finset.range n) a := by
  have hlength : (source.rows n s).length = n := source.length_rowsFrom n n 0 s
  have hnonempty : source.rows n s ≠ [] := by
    rw [← List.length_pos_iff, hlength]
    exact Nat.pos_of_ne_zero hn
  have hwidth : ∀ row ∈ source.rows n s, row.length = n := by
    intro row hrow
    obtain ⟨r, hr, rfl⟩ := List.mem_iff_getElem.mp hrow
    obtain ⟨t, ht⟩ := source.exists_getElem_rows n s hr
    rw [ht, length_dominantRow, source.length_cells]
  obtain ⟨m, hm, hcells⟩ := Matrix.exists_ofRows_toArray 0 hnonempty hn hwidth
  rw [hlength] at hcells
  refine ⟨m, _, hm, hcells, fun y hy => ?_⟩
  have hy' : y < (source.rows n s).length := by rwa [hlength, ← Finset.mem_range]
  obtain ⟨t, ht⟩ := source.exists_getElem_rows n s hy'
  have hdraws := source.length_cells n t
  have hlt : y < (source.cells n t).1.length := hdraws.symm ▸ Finset.mem_range.mp hy
  have hmargin := margin_dominantRow (hδ.trans (hbonus (source.cells n t).2).le) hlt
  rw [hdraws, ← ht] at hmargin
  have hrow : (source.rows n s).getD y [] = (source.rows n s)[y] := by
    rw [List.getD_eq_getElem?_getD, List.getElem?_eq_getElem hy', Option.getD_some]
  simp only [hrow, hmargin]
  exact lt_add_of_nonneg_of_lt (abs_nonneg _) (hbonus _)

end Exact

end Random

namespace Inverter

variable {K : Type} [ExactOrderedField K] {v : Inverter K}

/-- A matrix whose diagonal outweighs the rest of each row by more than the threshold for pivots
is inverted.  Random matrices are among them for every threshold below the least bonus. -/
theorem invert_dominant (contract : v.engine.Faithful) {n : ℕ} (hn : 1 ≤ n) :
    (0 ≤ v.epsilon → ∀ m : Matrix K, m.WellFormed → m.shape = ⟨n, n⟩ →
      (∀ i < n, v.epsilon < |m.cells i i| - ∑ j ∈ (Finset.range n).erase i, |m.cells i j|) →
        ∀ s, ∃ x, (v.invert m s).result = .ok x) ∧
    (v.epsilon < 1 / 2 → ∀ source : Random.Source K, (∀ t, 1 / 2 ≤ (source.bonus t).1) →
      ∀ start, ∃ m, Matrix.ofRows ((source.rows n start).map List.toArray) = .ok m ∧
        ∀ s, ∃ x, (v.invert m s).result = .ok x) := by
  have hne : n ≠ 0 := Nat.ne_of_gt hn
  constructor
  · intro hepsilon m hwell hshape hmargin
    have hm := (hwell.fits hshape).hasCells
    exact exists_invert_of_dominant contract hepsilon le_rfl hne hm fun y hy =>
      hmargin y (Finset.mem_range.mp hy)
  · intro hepsilon source hbonus start
    -- The threshold may be negative, but zero pivots have to be kept out all the same.
    have hhalf : max v.epsilon 0 < 1 / 2 := max_lt hepsilon one_half_pos
    obtain ⟨m, a, hrows, hm, hdominant⟩ := source.exists_matrix (le_max_right v.epsilon 0)
      (fun t => hhalf.trans_le (hbonus t)) hne start
    exact ⟨m, hrows, exists_invert_of_dominant contract (le_max_right v.epsilon 0)
      (le_max_left v.epsilon 0) hne hm hdominant⟩

theorem invert_dominant_two_by_two :
    let v : Inverter ℚ := ⟨.serial, 1 / 4⟩
    let m : Matrix ℚ := ⟨2, 2, #[1, -1 / 2, 0, 1 / 3]⟩
    let source : Random.Source ℚ := ⟨ℕ, fun t => (-1 / (t + 1), t + 1), fun t => (1 / 2, t + 1)⟩
    v.engine.Faithful ∧ m.WellFormed ∧
      (∀ i < 2, v.epsilon < |m.cells i i| - ∑ j ∈ (Finset.range 2).erase i, |m.cells i j|) ∧
      (∃ x, (v.invert m ()).result = .ok x) ∧
      (∀ t, 1 / 2 ≤ (source.bonus t).1) ∧
      ∃ m, Matrix.ofRows ((source.rows 2 0).map List.toArray) = .ok m ∧
        ∃ x, (v.invert m ()).result = .ok x := by
  intro v m source
  have contract : v.engine.Faithful := Engine.faithful_serial
  have hmargin : ∀ i < 2,
      v.epsilon < |m.cells i i| - ∑ j ∈ (Finset.range 2).erase i, |m.cells i j| := by
    decide +kernel
  have hbonus : ∀ t, 1 / 2 ≤ (source.bonus t).1 := fun _ => le_rfl
  obtain ⟨hdominant, hrandom⟩ := invert_dominant contract (n := 2) (by decide)
  obtain ⟨drawn, hdrawn, hinverted⟩ := hrandom (by decide +kernel) source hbonus (0 : ℕ)
  exact ⟨contract, rfl, hmargin, hdominant (by decide +kernel) m rfl rfl hmargin (), hbonus,
    drawn, hdrawn, hinverted ()⟩

end Inverter

end GridInversion
