import GridInversion.Matrix.Basic

namespace GridInversion

abbrev Cells (α : Type) := Nat → Nat → α

namespace Matrix

variable {α : Type} {m m' : Matrix α} {s : Shape} {a b : Cells α}

/-- The matrix has the shape `s` and one cell for each position of it. -/
structure Fits (m : Matrix α) (s : Shape) : Prop where
  shape : m.shape = s
  size : m.data.size = s.cells

/-- The matrix has the shape `s` and its cell in row `r` and column `c` is
`a r c`.  Nothing is said about `a` outside the shape. -/
structure HasCells (m : Matrix α) (s : Shape) (a : Cells α) : Prop
    extends m.Fits s where
  read : ∀ {r c : Nat}, r < s.rows → c < s.cols → m.read? r c = some (a r c)

theorem Fits.rows (h : m.Fits s) : m.rows = s.rows := congrArg Shape.rows h.shape

theorem Fits.cols (h : m.Fits s) : m.cols = s.cols := congrArg Shape.cols h.shape

theorem Fits.wellFormed (h : m.Fits s) : m.WellFormed := by
  rw [WellFormed, h.rows, h.cols]
  exact h.size

theorem WellFormed.fits (h : m.WellFormed) (hs : m.shape = s) : m.Fits s := by
  subst hs
  exact ⟨rfl, h⟩

theorem fits_zeros [Scalar α] (s : Shape) : (zeros s : Matrix α).Fits s :=
  (wellFormed_zeros s).fits (shape_zeros s)

theorem Fits.wipe_eq_zeros [Scalar α] (h : m.Fits s) : m.wipe = zeros s := by
  have hrows := h.rows
  have hcols := h.cols
  have hsize := h.size
  rcases m with ⟨rows, cols, data⟩
  simp only at hrows hcols hsize
  simp [wipe, zeros, hrows, hcols, hsize, Array.map_const']

theorem Fits.exists_place (h : m.Fits s) {i : Nat} (hi : i < m.data.size) :
    ∃ r < s.rows, ∃ c < s.cols, i = r * s.cols + c := by
  have hlt : i < s.rows * s.cols := by rwa [h.size, Shape.cells] at hi
  have hcols : 0 < s.cols := by
    rcases Nat.eq_zero_or_pos s.cols with hzero | hpos
    · simp [hzero] at hlt
    · exact hpos
  exact ⟨i / s.cols, Nat.div_lt_of_lt_mul (Nat.mul_comm _ _ ▸ hlt), i % s.cols,
    Nat.mod_lt _ hcols, (Nat.div_add_mod' i s.cols).symm⟩

theorem HasCells.ext (h : m.HasCells s a) (h' : m'.HasCells s b)
    (hab : ∀ r c, r < s.rows → c < s.cols → a r c = b r c) : m = m' := by
  have hdata : m.data = m'.data := by
    apply Array.ext (h.size.trans h'.size.symm)
    intro i hi hi'
    obtain ⟨r, hr, c, hc, rfl⟩ := h.exists_place hi
    have hread := (h.read hr hc).trans ((hab _ _ hr hc) ▸ (h'.read hr hc).symm)
    simp only [read?, h.cols, h'.cols] at hread
    simpa [hi, hi'] using hread
  have hrows := h.rows.trans h'.rows.symm
  have hcols := h.cols.trans h'.cols.symm
  rcases m with ⟨rows, cols, data⟩
  rcases m' with ⟨rows', cols', data'⟩
  simp_all

theorem HasCells.forall_mem_data_iff (h : m.HasCells s a) {P : α → Prop} :
    (∀ v ∈ m.data, P v) ↔ ∀ r < s.rows, ∀ c < s.cols, P (a r c) := by
  constructor
  · intro hdata r hr c hc
    exact hdata _ (Array.mem_of_getElem? (h.read hr hc))
  · intro hcells v hv
    obtain ⟨i, hi, rfl⟩ := Array.mem_iff_getElem.mp hv
    obtain ⟨r, hr, c, hc, rfl⟩ := h.exists_place hi
    have hread := h.read hr hc
    simp only [read?, h.cols] at hread
    rw [Array.getElem?_eq_getElem hi, Option.some_inj] at hread
    rw [hread]
    exact hcells r hr c hc

theorem HasCells.congr (h : m.HasCells s a)
    (hab : ∀ r c, r < s.rows → c < s.cols → a r c = b r c) : m.HasCells s b :=
  ⟨h.toFits, fun hr hc => hab _ _ hr hc ▸ h.read hr hc⟩

theorem hasCells_ofFn (rows cols : Nat) (f : Cells α) :
    (ofFn rows cols f).HasCells ⟨rows, cols⟩ f := by
  refine ⟨⟨rfl, wellFormed_ofFn rows cols f⟩, ?_⟩
  intro r c hr hc
  have hlt : r * cols + c < rows * cols :=
    Shape.offset_lt (s := ⟨rows, cols⟩) (p := ⟨c, r⟩) ⟨hc, hr⟩
  have hdiv : (r * cols + c) / cols = r := by
    rw [Nat.mul_comm, Nat.mul_add_div (Nat.zero_lt_of_lt hc), Nat.div_eq_of_lt hc, Nat.add_zero]
  have hmod : (r * cols + c) % cols = c := by
    rw [Nat.mul_comm, Nat.mul_add_mod, Nat.mod_eq_of_lt hc]
  simp [read?, ofFn, hlt, hdiv, hmod]

section Scalar

variable [Scalar α]

/-- The cells of a matrix as a function of row and column, zero where there is
nothing to read. -/
def cells (m : Matrix α) : Cells α := fun r c => (m.read? r c).getD 0

theorem HasCells.cells_eq (h : m.HasCells s a) {r c : Nat} (hr : r < s.rows)
    (hc : c < s.cols) : m.cells r c = a r c := by
  rw [cells, h.read hr hc, Option.getD_some]

theorem Fits.hasCells (h : m.Fits s) : m.HasCells s m.cells := by
  refine ⟨h, ?_⟩
  intro r c hr hc
  have hsome := read?_isSome h.wellFormed (h.rows ▸ hr) (h.cols ▸ hc)
  obtain ⟨v, hv⟩ := Option.isSome_iff_exists.mp hsome
  rw [cells, hv, Option.getD_some]

theorem hasCells_identity (n : Nat) :
    (identity n : Matrix α).HasCells ⟨n, n⟩ fun r c => if r = c then 1 else 0 :=
  hasCells_ofFn n n _

def columns (m : Matrix α) (first count : Nat) : Matrix α :=
  ofFn m.rows count fun r c => m.cells r (first + c)

theorem HasCells.columns (h : m.HasCells s a) {first count : Nat}
    (hcount : first + count ≤ s.cols) :
    (m.columns first count).HasCells ⟨s.rows, count⟩ fun r c => a r (first + c) := by
  have hcells := hasCells_ofFn m.rows count fun r c => m.cells r (first + c)
  rw [h.rows] at hcells
  rw [Matrix.columns, h.rows]
  refine hcells.congr fun r c hr hc => h.cells_eq hr ?_
  simp only at hc
  omega

end Scalar

end Matrix

end GridInversion
