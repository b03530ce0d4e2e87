import GridInversion.MachineScalar
import GridInversion.Proofs.CellAddresses
import GridInversion.Proofs.FirstEntries

/-!
Matrices and lists of rows. A list is that of a matrix with cells exactly if its rows are of one
length that is not zero; then each determines the other.
-/

namespace GridInversion

variable {α : Type} {rows : List (Array α)} {width cols : Nat}

/-- There is a row, and all rows are of one length that is not zero. -/
structure Rectangular (rows : List (Array α)) (width : Nat) : Prop where
  ne_nil : rows ≠ []
  width_ne_zero : width ≠ 0
  size_eq : ∀ row ∈ rows, row.size = width

/-- The width that a list of rows is refused for: zero if there is no cell in the first row, and
otherwise that of the first row that is not as long as it. -/
inductive RefusedFor : List (Array α) → Nat → Prop
  | noRows : RefusedFor [] 0
  | noCells (rest : List (Array α)) : RefusedFor (#[] :: rest) 0
  | ragged {first odd : Array α} {rest : List (Array α)} {k : Nat} (hfirst : first ≠ #[])
      (hodd : FirstAt (fun row => row.size ≠ first.size) (first :: rest) k odd) :
      RefusedFor (first :: rest) odd.size

theorem rectangular_or_refusedFor (rows : List (Array α)) :
    (∃ width, Rectangular rows width) ∨ ∃ cols, RefusedFor rows cols := by
  rcases rows with _ | ⟨first, rest⟩
  · exact .inr ⟨0, .noRows⟩
  rcases Decidable.em (first.size = 0) with hzero | hfirst
  · obtain rfl := Array.eq_empty_of_size_eq_zero hzero
    exact .inr ⟨0, .noCells rest⟩
  by_cases hodd : ∃ k odd, FirstAt (fun row => row.size ≠ first.size) (first :: rest) k odd
  · obtain ⟨k, odd, hodd⟩ := hodd
    exact .inr ⟨odd.size, .ragged (fun h => hfirst (congrArg Array.size h)) hodd⟩
  · refine .inl ⟨first.size, List.cons_ne_nil _ _, hfirst, fun row hrow => ?_⟩
    exact Decidable.byContradiction fun hsize => hodd (FirstAt.exists_of_mem hrow hsize)

namespace Matrix

theorem exists_ofRows (h : Rectangular rows width) {a : Cells α}
    (hcells : ∀ r c, r < rows.length → c < width → rows[r]?.bind (·[c]?) = some (a r c)) :
    ∃ m, ofRows rows = .ok m ∧ m.HasCells ⟨rows.length, width⟩ a :=
  ⟨_, ofRows_eq_ok h.ne_nil h.width_ne_zero h.size_eq, hasCells_foldl_append rfl h.size_eq hcells⟩

theorem ofRows_of_refusedFor (h : RefusedFor rows cols) :
    ofRows rows = .error (.invalidShape ⟨rows.length, cols⟩) := by
  cases h with
  | noRows => rfl
  | noCells rest => rfl
  | @ragged first odd rest k hfirst hodd =>
      obtain ⟨width, hwidth⟩ : ∃ width, first.size = width := ⟨_, rfl⟩
      have hpos : width ≠ 0 := hwidth ▸ mt Array.eq_empty_of_size_eq_zero hfirst
      have hfind : (first :: rest).find? (·.size ≠ width) = some odd := by
        subst hwidth
        exact hodd.find?_eq
      simp only [ofRows, List.head?_cons, Option.map_some, Option.getD_some, hwidth, if_neg hpos,
        hfind]

section Scalar

variable [Scalar α] {m : Matrix α}

/-- The cell at row `r` and column `c` of a list of rows, zero where there is none. -/
def rowCells (rows : List (Array α)) : Cells α := fun r c => (rows[r]?.bind (·[c]?)).getD 0

theorem exists_ofRows_rowCells (h : Rectangular rows width) :
    ∃ m, ofRows rows = .ok m ∧ m.HasCells ⟨rows.length, width⟩ (rowCells rows) := by
  refine exists_ofRows h fun r c hr hc => ?_
  have hrow : c < rows[r].size := h.size_eq rows[r] (List.getElem_mem hr) ▸ hc
  simp [rowCells, hr, hrow]

theorem hasCells_of_ofRows (h : ofRows rows = .ok m) :
    ∃ width, Rectangular rows width ∧ m.HasCells ⟨rows.length, width⟩ (rowCells rows) := by
  rcases rectangular_or_refusedFor rows with ⟨width, hrectangular⟩ | ⟨cols, hrefused⟩
  · obtain ⟨m', hm', hcells⟩ := exists_ofRows_rowCells hrectangular
    cases h.symm.trans hm'
    exact ⟨width, hrectangular, hcells⟩
  · cases h.symm.trans (ofRows_of_refusedFor hrefused)

theorem exists_ofRows_eq_ok_iff :
    (∃ m, ofRows rows = .ok m) ↔ ∃ width, Rectangular rows width := by
  constructor
  · rintro ⟨m, hm⟩
    obtain ⟨width, hrectangular, -⟩ := hasCells_of_ofRows hm
    exact ⟨width, hrectangular⟩
  · rintro ⟨width, hrectangular⟩
    obtain ⟨m, hm, -⟩ := exists_ofRows_rowCells hrectangular
    exact ⟨m, hm⟩

theorem ofRows_eq_error_iff {e : GridError} : ofRows rows = .error e ↔
    ∃ cols, RefusedFor rows cols ∧ e = .invalidShape ⟨rows.length, cols⟩ := by
  constructor
  · intro h
    rcases rectangular_or_refusedFor rows with hrectangular | ⟨cols, hrefused⟩
    · obtain ⟨m, hm⟩ := exists_ofRows_eq_ok_iff.mpr hrectangular
      cases h.symm.trans hm
    · exact ⟨cols, hrefused, Except.error.inj (h.symm.trans (ofRows_of_refusedFor hrefused))⟩
  · rintro ⟨cols, hrefused, rfl⟩
    exact ofRows_of_refusedFor hrefused

/-- The rows of a matrix made of rows are these rows. -/
theorem toRows_of_ofRows (h : ofRows rows = .ok m) : m.toRows = rows := by
  obtain ⟨width, hrectangular, hcells⟩ := hasCells_of_ofRows h
  rw [hcells.toRows_eq]
  refine List.ext_getElem (by simp) fun r hr hr' => ?_
  have hsize : rows[r].size = width := hrectangular.size_eq _ (List.getElem_mem hr')
  refine Array.ext (by simp [hsize]) fun c hc hc' => ?_
  simp [rowCells, hr', hc']

theorem get_of_ofRows (h : ofRows rows = .ok m) {i j : Nat} (hi : i < rows.length)
    (hj : j < rows[i].size) : m.get i j = .ok (some rows[i][j]) := by
  obtain ⟨width, hrectangular, hcells⟩ := hasCells_of_ofRows h
  have hsize : rows[i].size = width := hrectangular.size_eq _ (List.getElem_mem hi)
  rw [hcells.get_eq hi (hsize ▸ hj)]
  simp [rowCells, hi, hj]

theorem rectangular_toRows (h : m.WellFormed) (hrows : 1 ≤ m.rows) (hcols : 1 ≤ m.cols) :
    Rectangular m.toRows m.cols := by
  have htoRows := h.hasCells.toRows_eq
  refine ⟨List.ne_nil_of_length_pos ?_, Nat.one_le_iff_ne_zero.mp hcols, ?_⟩
  · rw [htoRows, List.length_map, List.length_range]
    exact hrows
  · rw [htoRows]
    simp

/-- A matrix with cells is made of its rows. -/
theorem ofRows_toRows (h : m.WellFormed) (hrows : 1 ≤ m.rows) (hcols : 1 ≤ m.cols) :
    ofRows m.toRows = .ok m := by
  have hcells := h.hasCells
  have hlength : m.toRows.length = m.rows := by
    rw [hcells.toRows_eq]
    simp
  obtain ⟨m', hm', hcells'⟩ := exists_ofRows (rectangular_toRows h hrows hcols)
    fun r c hr hc => hcells.getElem?_toRows (Nat.lt_of_lt_of_eq hr hlength) hc
  rw [hlength] at hcells'
  rw [hm', hcells'.ext hcells fun _ _ _ _ => rfl]

/-- A matrix can be made of a list of rows if and only if there is a row, the first row has cells
and all rows are as long as it; any other list is refused for its number of rows and the width that
is wrong.  The matrix has the cells of the rows, and its rows are those that it is made of.  Every
matrix with cells comes about in this way. -/
theorem rows_round_trip :
    (∀ rows : List (Array α), (∃ m, ofRows rows = .ok m) ↔ ∃ width, Rectangular rows width) ∧
    (∀ (rows : List (Array α)) (e : GridError), ofRows rows = .error e ↔
      ∃ cols, RefusedFor rows cols ∧ e = .invalidShape ⟨rows.length, cols⟩) ∧
    (∀ (rows : List (Array α)) (m : Matrix α), ofRows rows = .ok m →
      m.WellFormed ∧ m.toRows = rows ∧
        ∀ i j (hi : i < rows.length) (hj : j < rows[i].size),
          m.get i j = .ok (some rows[i][j])) ∧
    ∀ m : Matrix α, m.WellFormed → 1 ≤ m.rows → 1 ≤ m.cols → ofRows m.toRows = .ok m := by
  refine ⟨fun _ => exists_ofRows_eq_ok_iff, fun _ _ => ofRows_eq_error_iff, ?_,
    fun _ => ofRows_toRows⟩
  intro rows m h
  obtain ⟨width, -, hcells⟩ := hasCells_of_ofRows h
  exact ⟨hcells.toFits.wellFormed, toRows_of_ofRows h, fun _ _ hi hj => get_of_ofRows h hi hj⟩

/-- Two rows of three cells there and back, and three rows of which the last one is short. -/
theorem rows_round_trip_examples :
    let m : Matrix Float := ⟨2, 3, #[1, 2, 3, 4, 5, 6]⟩
    ofRows m.toRows = .ok m ∧ m.toRows = [#[1, 2, 3], #[4, 5, 6]] ∧
      m.get 1 0 = .ok (some 4) ∧
      ofRows [#[1, 2], #[3, 4], #[(5 : Float)]] = .error (.invalidShape ⟨3, 1⟩) := by
  intro m
  obtain ⟨-, herror, hmade, hback⟩ := rows_round_trip (α := Float)
  have hm : m.WellFormed := rfl
  have hrows : ofRows [#[1, 2, 3], #[4, 5, 6]] = .ok m := rfl
  obtain ⟨-, htoRows, hget⟩ := hmade _ m hrows
  refine ⟨hback m hm (by decide) (by decide), htoRows, hget 1 0 (by decide) (by decide), ?_⟩
  have hshort : FirstAt (fun row : Array Float => row.size ≠ #[(1 : Float), 2].size)
      [#[1, 2], #[3, 4], #[5]] 2 #[5] := ⟨rfl, by decide, by simp⟩
  exact (herror _ _).mpr ⟨1, .ragged (by simp) hshort, rfl⟩

end Scalar

end Matrix

end GridInversion
