import GridInversion.Proofs.MatrixCells

namespace GridInversion

variable {α : Type} {rows : List (Array α)} {count width : Nat}

theorem getElem?_foldl_append_of_lt (rows : List (Array α)) (acc : Array α) {i : Nat}
    (hi : i < acc.size) : (rows.foldl (· ++ ·) acc)[i]? = acc[i]? := by
  induction rows generalizing acc with
  | nil => rfl
  | cons row rows ih =>
      rw [List.foldl_cons, ih (acc ++ row) (by simp only [Array.size_append]; omega),
        Array.getElem?_append_left hi]

/-- In a concatenation of rows of one width, a row starts after as many widths as
there are rows before it. -/
theorem getElem?_foldl_append (hrows : ∀ row ∈ rows, row.size = width)
    (acc : Array α) (r : Nat) {c : Nat} (hc : c < width) :
    (rows.foldl (· ++ ·) acc)[acc.size + (r * width + c)]? = rows[r]?.bind (·[c]?) := by
  induction rows generalizing acc r with
  | nil => simp
  | cons row rows ih =>
      have hrow : row.size = width := hrows row List.mem_cons_self
      rw [List.foldl_cons]
      cases r with
      | zero =>
          rw [getElem?_foldl_append_of_lt _ _ (by simp only [Array.size_append]; omega)]
          simp [Array.getElem?_append_right]
      | succ r =>
          have hrest := ih (fun row' h => hrows row' (List.mem_cons_of_mem row h)) (acc ++ row) r
          have hindex : acc.size + ((r + 1) * width + c) =
              (acc ++ row).size + (r * width + c) := by
            rw [Array.size_append, hrow, Nat.succ_mul]
            omega
          rw [hindex, hrest]
          simp

theorem size_foldl_append (hrows : ∀ row ∈ rows, row.size = width)
    (acc : Array α) : (rows.foldl (· ++ ·) acc).size = acc.size + rows.length * width := by
  induction rows generalizing acc with
  | nil => simp
  | cons row rows ih =>
      have hrest := ih (fun row' h => hrows row' (List.mem_cons_of_mem row h)) (acc ++ row)
      rw [List.foldl_cons, hrest, Array.size_append, hrows row List.mem_cons_self,
        List.length_cons, Nat.succ_mul]
      omega

theorem toList_foldl_append (rows : List (Array α)) (acc : Array α) :
    (rows.foldl (· ++ ·) acc).toList = acc.toList ++ rows.flatMap Array.toList := by
  induction rows generalizing acc with
  | nil => simp
  | cons row rows ih =>
      rw [List.foldl_cons, ih, Array.toList_append, List.flatMap_cons, List.append_assoc]

namespace Matrix

theorem hasCells_foldl_append {a : Cells α} (hcount : rows.length = count)
    (hwidth : ∀ row ∈ rows, row.size = width)
    (hcells : ∀ r c, r < count → c < width → rows[r]?.bind (·[c]?) = some (a r c)) :
    (⟨count, width, rows.foldl (· ++ ·) #[]⟩ : Matrix α).HasCells ⟨count, width⟩ a := by
  refine ⟨⟨rfl, ?_⟩, ?_⟩
  · simpa [Shape.cells, hcount] using size_foldl_append hwidth #[]
  · intro r c hr hc
    have hread := getElem?_foldl_append hwidth #[] r hc
    simp only [Array.size_empty, Nat.zero_add] at hread
    rw [read?, hread]
    exact hcells r c hr hc

/-- The data holds the cells of all positions in row-major order. -/
theorem HasCells.toList_data {m : Matrix α} {s : Shape} {a : Cells α} (h : m.HasCells s a) :
    m.data.toList = s.rowMajor.map fun p => a p.y p.x := by
  let rows := (List.range s.rows).map fun y => Array.ofFn fun x : Fin s.cols => a y x
  have hrows : (⟨s.rows, s.cols, rows.foldl (· ++ ·) #[]⟩ : Matrix α).HasCells s a := by
    refine hasCells_foldl_append (by simp [rows]) (by simp [rows]) fun r c hr hc => ?_
    simp [rows, hr, hc]
  have hdata : m.data = rows.foldl (· ++ ·) #[] :=
    congrArg Matrix.data (h.ext hrows fun _ _ _ _ => rfl)
  have hrow : ∀ y, (List.ofFn fun x : Fin s.cols => a y x) =
      (List.range s.cols).map fun x => a y x :=
    fun y => List.ext_getElem (by simp) (by simp)
  rw [hdata, toList_foldl_append, Shape.rowMajor, List.map_flatMap]
  simp [rows, List.flatMap_map, hrow, Function.comp_def]

theorem ofRows_eq_ok (hrows : rows ≠ []) (hpos : width ≠ 0)
    (hwidth : ∀ row ∈ rows, row.size = width) :
    ofRows rows = .ok ⟨rows.length, width, rows.foldl (· ++ ·) #[]⟩ := by
  obtain ⟨first, rest, rfl⟩ := List.exists_cons_of_ne_nil hrows
  have hfirst : first.size = width := hwidth first List.mem_cons_self
  have hsame : (first :: rest).find? (·.size ≠ width) = none := by
    simpa using hwidth
  simp only [ofRows, List.head?_cons, Option.map_some, Option.getD_some, hfirst, if_neg hpos,
    hsame]

theorem exists_ofRows_toArray {rows : List (List α)} (d : α) (hrows : rows ≠ [])
    (hpos : width ≠ 0) (hwidth : ∀ row ∈ rows, row.length = width) :
    ∃ m, ofRows (rows.map List.toArray) = .ok m ∧
      m.HasCells ⟨rows.length, width⟩ fun r c => (rows.getD r []).getD c d := by
  have hwidth' : ∀ row ∈ rows.map List.toArray, row.size = width := by
    simpa using hwidth
  refine ⟨_, ofRows_eq_ok (by simpa using hrows) hpos hwidth', ?_⟩
  rw [List.length_map]
  refine hasCells_foldl_append (List.length_map ..) hwidth' fun r c hr hc => ?_
  have hrow : c < rows[r].length := hwidth rows[r] (List.getElem_mem hr) ▸ hc
  simp [hr, hrow]

end Matrix

end GridInversion
