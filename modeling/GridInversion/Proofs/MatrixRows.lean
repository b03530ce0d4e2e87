import GridInversion.MatrixText
import GridInversion.Proofs.MatrixCells

namespace GridInversion.Matrix

variable {α : Type} {m : Matrix α} {s : Shape} {a : Cells α}

/-- The data falls into as many rows as the shape has, none of them short. -/
theorem HasCells.toRows_eq (h : m.HasCells s a) :
    m.toRows = (List.range s.rows).map fun y => Array.ofFn fun x : Fin s.cols => a y x := by
  have hcols : m.cols = s.cols := h.cols
  have hrows : m.rows = s.rows := h.rows
  have hsize : m.data.size = s.rows * s.cols := h.size
  unfold toRows
  split
  · rename_i hzero
    rw [hcols] at hzero
    have hempty : ∀ y ∈ List.range s.rows, (Array.ofFn fun x : Fin s.cols => a y x) = #[] := by
      intro y _
      apply Array.eq_empty_of_size_eq_zero
      rw [Array.size_ofFn, hzero]
    rw [List.map_congr_left hempty, List.map_const', List.length_range, hrows]
  · rename_i hpos
    rw [hcols] at hpos
    have hcount : (m.data.size + m.cols - 1) / m.cols = s.rows := by
      rw [hsize, hcols, Nat.mul_comm, Nat.add_sub_assoc (Nat.one_le_iff_ne_zero.mpr hpos),
        Nat.mul_add_div (Nat.pos_of_ne_zero hpos), Nat.div_eq_of_lt (by omega), Nat.add_zero]
    rw [hcount]
    refine List.map_congr_left fun y hy => ?_
    have hroom : (y + 1) * s.cols ≤ s.rows * s.cols :=
      Nat.mul_le_mul_right _ (List.mem_range.mp hy)
    have hwidth : (y + 1) * s.cols = y * s.cols + s.cols := Nat.succ_mul _ _
    apply Array.ext_getElem?
    intro x
    rw [hcols, Array.getElem?_extract, hsize]
    by_cases hx : x < s.cols
    · have hread := h.read (List.mem_range.mp hy) hx
      rw [read?, hcols] at hread
      rw [if_pos (by omega), hread]
      simp [hx]
    · rw [if_neg (by omega)]
      simp [hx]

/-- A printed matrix is the text of each cell once, in order. -/
theorem HasCells.matrixChars_eq [MachineScalar α] (h : m.HasCells s a) (places : Nat) :
    MatrixText.matrixChars m places =
      ['\n'].intercalate ((List.range s.rows).map fun y =>
        MatrixText.cellSeparator.intercalate ((List.range s.cols).map fun x =>
          MatrixText.cellChars places (a y x))) := by
  have hrow : ∀ y, MatrixText.rowChars places (Array.ofFn fun x : Fin s.cols => a y x) =
      MatrixText.cellSeparator.intercalate ((List.range s.cols).map fun x =>
        MatrixText.cellChars places (a y x)) := by
    intro y
    rw [MatrixText.rowChars]
    refine congrArg _ (List.ext_getElem ?_ fun x hx hx' => ?_)
    · simp
    · simp
  rw [MatrixText.matrixChars, h.toRows_eq, List.map_map]
  congr 1
  exact List.map_congr_left fun y _ => hrow y

end GridInversion.Matrix
