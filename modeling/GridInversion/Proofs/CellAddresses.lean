import GridInversion.MachineScalar
import GridInversion.Proofs.MatrixRows
import GridInversion.Proofs.ProductCells

/-!
The ways to read a cell of a matrix and the one way to write it. All of them go by the same places
in the data, and no two positions inside the shape share a place.
-/

namespace GridInversion.Matrix

variable {α : Type} {m : Matrix α} {s : Shape} {a : Cells α} {r c : Nat} {v : α}

theorem HasCells.read_eq (h : m.HasCells s a) (hr : r < s.rows) (hc : c < s.cols) :
    m.read r c = .ok (a r c) := by
  rw [Matrix.read, h.read hr hc, boundsChecked_some]

theorem get_of_outside (h : ¬ (r < m.rows ∧ c < m.cols)) : m.get r c = .ok none := if_neg h

theorem HasCells.get_eq (h : m.HasCells s a) (hr : r < s.rows) (hc : c < s.cols) :
    m.get r c = .ok (some (a r c)) := by
  rw [Matrix.get, if_pos ⟨h.rows ▸ hr, h.cols ▸ hc⟩, h.read_eq hr hc]
  rfl

theorem HasCells.exists_row (h : m.HasCells s a) (hr : r < s.rows) :
    ∃ cells, m.row r = .ok cells ∧ cells.size = s.cols ∧
      ∀ c < s.cols, cells[c]? = some (a r c) := by
  obtain ⟨cells, hcells, hsize, hread⟩ := h.row? hr
  exact ⟨cells, by rw [Matrix.row, hcells, boundsChecked_some], hsize, hread⟩

theorem HasCells.getElem?_toRows (h : m.HasCells s a) (hr : r < s.rows) (hc : c < s.cols) :
    m.toRows[r]?.bind (·[c]?) = some (a r c) := by
  rw [h.toRows_eq]
  simp [hr, hc]

theorem set_of_outside (h : ¬ (r < m.rows ∧ c < m.cols)) : m.set r c v = .ok m := if_neg h

/-- Writing changes the cell it is meant for and no other, since two positions inside the shape
have two places. -/
theorem HasCells.exists_set (h : m.HasCells s a) (hr : r < s.rows) (hc : c < s.cols) (v : α) :
    ∃ m', m.set r c v = .ok m' ∧
      m'.HasCells s fun r' c' => if r' = r ∧ c' = c then v else a r' c' := by
  have hrows : m.rows = s.rows := h.rows
  have hcols : m.cols = s.cols := h.cols
  have hplace : r * s.cols + c < m.data.size := by
    rw [h.size]
    exact Shape.offset_lt (p := ⟨c, r⟩) ⟨hc, hr⟩
  refine ⟨{ m with data := m.data.setIfInBounds (r * s.cols + c) v }, ?_, ⟨h.shape, ?_⟩, ?_⟩
  · rw [Matrix.set, hrows, hcols, if_pos ⟨hr, hc⟩, if_pos hplace]
  · rw [Array.size_setIfInBounds, h.size]
  · intro r' c' hr' hc'
    have hread := h.read hr' hc'
    rw [read?, hcols] at hread
    rw [read?, hcols, Array.getElem?_setIfInBounds]
    by_cases hsame : r' = r ∧ c' = c
    · obtain ⟨rfl, rfl⟩ := hsame
      rw [if_pos rfl, if_pos hplace, if_pos ⟨rfl, rfl⟩]
    · have hne : r * s.cols + c ≠ r' * s.cols + c' := by
        intro hoffset
        have hposition := Shape.eq_of_offset_eq (p := ⟨c, r⟩) (q := ⟨c', r'⟩) ⟨hc, hr⟩ ⟨hc', hr'⟩
          hoffset
        cases hposition
        exact hsame ⟨rfl, rfl⟩
      rw [if_neg hne, if_neg hsame, hread]

section Scalar

variable [Scalar α]

theorem WellFormed.hasCells (h : m.WellFormed) : m.HasCells m.shape m.cells :=
  (h.fits rfl).hasCells

theorem get_of_hasCells {m' : Matrix α} (h : m.WellFormed) (hr : r < m.rows) (hc : c < m.cols)
    (h' : m'.HasCells m.shape fun r' c' => if r' = r ∧ c' = c then v else m.cells r' c')
    (r' c' : Nat) :
    m'.get r' c' = if r' = r ∧ c' = c then .ok (some v) else m.get r' c' := by
  by_cases hinside : r' < m.rows ∧ c' < m.cols
  · rw [h'.get_eq hinside.1 hinside.2, h.hasCells.get_eq hinside.1 hinside.2]
    split <;> rfl
  · have houtside : ¬ (r' < m'.rows ∧ c' < m'.cols) := by
      rw [h'.rows, h'.cols]
      exact hinside
    rw [get_of_outside houtside, get_of_outside hinside, if_neg]
    rintro ⟨rfl, rfl⟩
    exact hinside ⟨hr, hc⟩

/-- Writing into a well-formed matrix keeps its shape and the amount of its data, and is seen at
the position that was written, if it is inside the shape, and at no other. -/
theorem WellFormed.exists_set (h : m.WellFormed) (r c : Nat) (v : α) :
    ∃ m', m.set r c v = .ok m' ∧ m'.shape = m.shape ∧ m'.data.size = m.data.size ∧
      (∀ r' c', m'.get r' c' =
        if (r' = r ∧ c' = c) ∧ r < m.rows ∧ c < m.cols then .ok (some v) else m.get r' c') ∧
      (¬ (r < m.rows ∧ c < m.cols) → m' = m) := by
  by_cases hinside : r < m.rows ∧ c < m.cols
  · obtain ⟨m', hset, hcells⟩ := h.hasCells.exists_set hinside.1 hinside.2 v
    refine ⟨m', hset, hcells.shape, hcells.size.trans h.symm, fun r' c' => ?_, absurd hinside⟩
    simp only [hinside, and_true]
    exact get_of_hasCells h hinside.1 hinside.2 hcells r' c'
  · refine ⟨m, set_of_outside hinside, rfl, rfl, fun r' c' => ?_, fun _ => rfl⟩
    rw [if_neg fun hsame => hinside hsame.2]

/-- In a well-formed matrix a write is seen where it is meant and nowhere else, and a write outside
the shape changes nothing.  All reads of a position inside the shape agree: with a look at the
shape and without one, in the row, and in the list of all rows. -/
theorem cell_access_laws (h : m.WellFormed) :
    (∀ r c v, ∃ m', m.set r c v = .ok m' ∧ m'.shape = m.shape ∧ m'.data.size = m.data.size ∧
      (∀ r' c', m'.get r' c' =
        if (r' = r ∧ c' = c) ∧ r < m.rows ∧ c < m.cols then .ok (some v) else m.get r' c') ∧
      (¬ (r < m.rows ∧ c < m.cols) → m' = m)) ∧
    ∀ r < m.rows, ∀ c < m.cols, ∃ x,
      m.get r c = .ok (some x) ∧ m.read r c = .ok x ∧
      (∃ row, m.row r = .ok row ∧ row[c]? = some x) ∧
      ∃ row, m.toRows[r]? = some row ∧ row[c]? = some x := by
  refine ⟨h.exists_set, fun r hr c hc => ⟨m.cells r c, ?_⟩⟩
  obtain ⟨row, hrow, -, hcells⟩ := h.hasCells.exists_row hr
  exact ⟨h.hasCells.get_eq hr hc, h.hasCells.read_eq hr hc, ⟨row, hrow, hcells c hc⟩,
    Option.bind_eq_some_iff.mp (h.hasCells.getElem?_toRows hr hc)⟩

/-- The place of row 1 and column 0 is written, and would be read at row 0 and column 3, too, if
the shape had such a column. -/
theorem cell_access_laws_two_by_three :
    let m : Matrix Float := ⟨2, 3, #[1, 2, 3, 4, 5, 6]⟩
    m.WellFormed ∧
      (∃ m', m.set 1 0 9 = .ok m' ∧ m'.get 1 0 = .ok (some 9) ∧ m'.get 0 3 = m.get 0 3) ∧
      m.set 0 3 9 = .ok m ∧
      ∃ x, m.get 1 0 = .ok (some x) ∧ ∃ row, m.toRows[1]? = some row ∧ row[0]? = some x := by
  intro m
  have hm : m.WellFormed := rfl
  obtain ⟨hset, hreads⟩ := cell_access_laws hm
  refine ⟨hm, ?_, ?_, ?_⟩
  · obtain ⟨m', hm', -, -, hget, -⟩ := hset 1 0 9
    exact ⟨m', hm', (hget 1 0).trans (if_pos (by decide)), (hget 0 3).trans (if_neg (by decide))⟩
  · obtain ⟨m', hm', -, -, -, hsame⟩ := hset 0 3 9
    rw [hm', hsame (by decide)]
  · obtain ⟨x, hget, -, -, hrows⟩ := hreads 1 (by decide) 0 (by decide)
    exact ⟨x, hget, hrows⟩

end Scalar

end GridInversion.Matrix
