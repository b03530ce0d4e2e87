import Mathlib.Algebra.Group.Ext
import GridInversion.Proofs.VisitOrders

namespace GridInversion

/-- One cell to be written: its place in the buffer, and the position that is evaluated for it. -/
structure CellWrite where
  place : Nat
  position : Position

/-- A list cut into pieces of a given width from the front on.  The last one may be short. -/
def pieces {β : Type} (width : Nat) (l : List β) : List (List β) :=
  (List.range ((l.length + width - 1) / width)).map fun k => (l.drop (k * width)).take width

/-- The places of a buffer cut into pieces as wide as the grid, with a task for each piece.  The
number of a piece is the row of its cells, and the number of a place in its piece the column. -/
def Shape.rowTasks (grid : Shape) : List (List CellWrite) :=
  (pieces grid.cols (List.range grid.cells)).mapIdx fun y piece =>
    piece.mapIdx fun x place => ⟨place, ⟨x, y⟩⟩

/-- The orders in which things can happen when tasks go on step by step, and any task that is
not finished may be the next to go on. -/
inductive Interleaves {β : Type} : List (List β) → List β → Prop
  | done {tasks : List (List β)} (finished : ∀ task ∈ tasks, task = []) : Interleaves tasks []
  | step (before after : List (List β)) {task order : List β} {b : β}
      (next : Interleaves (before ++ task :: after) order) :
      Interleaves (before ++ (b :: task) :: after) (b :: order)

theorem Interleaves.perm_flatten {β : Type} {tasks : List (List β)} {order : List β}
    (h : Interleaves tasks order) : order.Perm tasks.flatten := by
  induction h with
  | done finished => rw [List.flatten_eq_nil_iff.mpr finished]
  | @step before after task order b next ih =>
      have hfront : (b :: (before ++ task :: after).flatten).Perm
          (before ++ (b :: task) :: after).flatten := by
        simpa using List.perm_middle.symm
      exact (ih.cons b).trans hfront

namespace Shape

variable {grid : Shape}

theorem take_drop_range {n start width : Nat} (h : start + width ≤ n) :
    ((List.range n).drop start).take width = (List.range width).map (start + ·) := by
  apply List.ext_getElem
  · simp
    omega
  · intro i hi hi'
    simp

theorem pieces_range_cells (hcols : grid.cols ≠ 0) :
    pieces grid.cols (List.range grid.cells) =
      (List.range grid.rows).map fun y => (List.range grid.cols).map (y * grid.cols + ·) := by
  have hcount : (grid.cells + grid.cols - 1) / grid.cols = grid.rows := by
    rw [cells, Nat.mul_comm, Nat.add_sub_assoc (Nat.one_le_iff_ne_zero.mpr hcols),
      Nat.mul_add_div (Nat.pos_of_ne_zero hcols), Nat.div_eq_of_lt (by omega), Nat.add_zero]
  rw [pieces, List.length_range, hcount]
  refine List.map_congr_left fun y hy => take_drop_range ?_
  have hroom : (y + 1) * grid.cols ≤ grid.rows * grid.cols :=
    Nat.mul_le_mul_right _ (List.mem_range.mp hy)
  rwa [Nat.add_mul, Nat.one_mul] at hroom

theorem rowTasks_eq (hcols : grid.cols ≠ 0) :
    grid.rowTasks = (List.range grid.rows).map fun y =>
      (List.range grid.cols).map fun x => ⟨grid.offset ⟨x, y⟩, ⟨x, y⟩⟩ := by
  rw [rowTasks, pieces_range_cells hcols]
  apply List.ext_getElem
  · simp
  · intro y hy hy'
    apply List.ext_getElem
    · simp
    · intro x hx hx'
      simp [offset]

/-- A grid without columns has no cells, so that nothing is cut into pieces of no width. -/
theorem rowTasks_eq_nil (hcols : grid.cols = 0) : grid.rowTasks = [] := by
  simp [rowTasks, pieces, cells, hcols]

/-- Each task writes the values of its positions where row-major order puts them. -/
theorem place_of_mem_rowTasks {task : List CellWrite} (htask : task ∈ grid.rowTasks)
    {w : CellWrite} (hw : w ∈ task) : w.place = grid.offset w.position := by
  by_cases hcols : grid.cols = 0
  · rw [rowTasks_eq_nil hcols] at htask
    cases htask
  · rw [rowTasks_eq hcols] at htask
    obtain ⟨y, -, rfl⟩ := List.mem_map.mp htask
    obtain ⟨x, -, rfl⟩ := List.mem_map.mp hw
    rfl

/-- One task after the other, the tasks go through the grid row by row. -/
theorem flatten_rowTasks (grid : Shape) :
    (grid.rowTasks.map (·.map CellWrite.position)).flatten = grid.rowMajor := by
  by_cases hcols : grid.cols = 0
  · simp [rowTasks_eq_nil hcols, rowMajor, hcols]
  · simp [rowTasks_eq hcols, rowMajor, List.flatMap_def, Function.comp_def]

theorem count_rowMajor (grid : Shape) (p : Position) :
    grid.rowMajor.count p = if grid.Contains p then 1 else 0 := by
  rw [grid.nodup_rowMajor.count]
  simp only [mem_rowMajor]

end Shape

namespace Engine

variable {α : Type}

/-- What is promised of a dispatch into a bare buffer.  One that does not have the length of the
grid is refused and left alone.  Any other one keeps its length and has the values of all
positions at their places, each of which was evaluated once, and no other. -/
structure FillsExactly (engine : Engine α) (grid : Shape) (buffer : Array α)
    (cell : Position → α) : Prop where
  refuses_iff : ∀ s,
    ((engine.fillBuffer grid buffer (some ∘ cell) s).result =
        .ok ⟨buffer, .error (.shapeMismatch grid ⟨1, buffer.size⟩)⟩ ∧
      (engine.fillBuffer grid buffer (some ∘ cell) s).trace.visits = []) ↔
    buffer.size ≠ grid.cells
  fills : buffer.size = grid.cells → ∀ s, ∃ out,
    (engine.fillBuffer grid buffer (some ∘ cell) s).result = .ok ⟨out, .ok ()⟩ ∧
      out.size = buffer.size ∧
      (∀ p, grid.Contains p → out[p.y * grid.cols + p.x]? = some (cell p)) ∧
      ∀ p, (engine.fillBuffer grid buffer (some ∘ cell) s).trace.visits.count p =
        if grid.Contains p then 1 else 0

theorem visits_fillBuffer (engine : Engine α) (grid : Shape) (buffer : Array α)
    (cell : Position → Option α) (s : engine.State) :
    (engine.fillBuffer grid buffer cell s).trace.visits =
      ((engine.dispatch s grid buffer.toVector).follow cell #[] #[]).visits.toList := by
  rcases hfollow : (engine.dispatch s grid buffer.toVector).follow cell #[] #[] with
    ⟨visits, announced, _ | reply⟩
  · simp [fillBuffer, hfollow, Trace.visits, List.flatMap_map]
  · simp [fillBuffer, hfollow, Trace.visits, List.flatMap_map]

/-- An engine that refuses buffers of a wrong length, and otherwise follows some order of the
positions, keeps the promise. -/
theorem fillsExactly_of_follow {engine : Engine α} {grid : Shape} {buffer : Array α}
    {cell : Position → α} {order : List Position} (horder : order.Perm grid.rowMajor)
    (hrefused : buffer.size ≠ grid.cells → ∀ s, ∃ s',
      (engine.dispatch s grid buffer.toVector).follow (some ∘ cell) #[] #[] =
        ⟨#[], #[], some ⟨s', buffer.toVector, .error (lengthError grid buffer.size)⟩⟩)
    (hfilled : buffer.size = grid.cells → ∀ s, ∃ announced s',
      (engine.dispatch s grid buffer.toVector).follow (some ∘ cell) #[] #[] =
        ⟨order.toArray, announced,
          some ⟨s', Sweep.filled grid cell order buffer.toVector, .ok ()⟩⟩) :
    engine.FillsExactly grid buffer cell := by
  have hmem : ∀ p, p ∈ order ↔ grid.Contains p := fun p =>
    horder.mem_iff.trans Shape.mem_rowMajor
  refine ⟨fun s => ⟨?_, ?_⟩, fun hsize s => ?_⟩
  · rintro ⟨hresult, -⟩ hsize
    obtain ⟨announced, s', hfollow⟩ := hfilled hsize s
    rw [fillBuffer_of_follow hfollow] at hresult
    obtain ⟨-, hverdict⟩ := Written.mk.inj (Except.ok.inj hresult)
    cases hverdict
  · intro hsize
    obtain ⟨s', hfollow⟩ := hrefused hsize s
    rw [visits_fillBuffer, hfollow, fillBuffer_of_follow hfollow]
    exact ⟨rfl, rfl⟩
  · obtain ⟨announced, s', hfollow⟩ := hfilled hsize s
    rw [visits_fillBuffer, hfollow, fillBuffer_of_follow hfollow]
    refine ⟨_, rfl, Vector.size_toArray _, fun p hp => ?_, fun p => ?_⟩
    · exact getElem?_filled_order hmem hsize cell buffer.toVector hp
    · rw [horder.count_eq, Shape.count_rowMajor]

theorem follow_walk_of_size_ne (order : Shape → List Position) {grid : Shape} {n : Nat}
    (hn : n ≠ grid.cells) (cell : Position → Option α) (buffer : Vector α n) :
    (walk order grid buffer).follow cell #[] #[] =
      ⟨#[], #[], some ⟨(), buffer, .error (lengthError grid n)⟩⟩ := by
  rw [walk, if_neg hn]
  rfl

theorem follow_walk_of_perm {order : Shape → List Position} {grid : Shape}
    (horder : (order grid).Perm grid.rowMajor) {n : Nat} (hn : n = grid.cells)
    (cell : Position → α) (buffer : Vector α n) (announced : Array Shape) :
    (walk order grid buffer).follow (some ∘ cell) #[] announced =
      ⟨(order grid).toArray, announced,
        some ⟨(), Sweep.filled grid cell (order grid) buffer, .ok ()⟩⟩ := by
  have hcell : ∀ p, grid.Contains p → (some ∘ cell) p = some (cell p) := fun _ _ => rfl
  rw [follow_walk (fun p => horder.mem_iff.trans Shape.mem_rowMajor) hn hcell,
    Array.empty_append]

variable {grid : Shape}

theorem fillsExactly_visiting (name : String) (workers : Nat) {order : Shape → List Position}
    (horder : (order grid).Perm grid.rowMajor) (buffer : Array α) (cell : Position → α) :
    (visiting name workers order).FillsExactly grid buffer cell := by
  refine fillsExactly_of_follow horder (fun hsize s => ⟨(), ?_⟩) fun hsize s => ⟨#[], (), ?_⟩
  · exact follow_walk_of_size_ne order hsize _ _
  · exact follow_walk_of_perm horder hsize cell _ _

theorem fillsExactly_parallelUnder {schedule : Shape → List Position} (workers : Nat)
    (pinned : Bool) (hschedule : (schedule grid).Perm grid.rowMajor) (buffer : Array α)
    (cell : Position → α) :
    (parallelUnder schedule workers pinned).FillsExactly grid buffer cell := by
  refine fillsExactly_of_follow hschedule (fun hsize s => ⟨(), ?_⟩) fun hsize s => ?_
  · simp only [parallelUnder, hsize, false_and, if_false]
    exact follow_walk_of_size_ne schedule hsize _ _
  · simp only [parallelUnder]
    split
    · exact ⟨_, (), follow_walk_of_perm hschedule hsize cell _ _⟩
    · exact ⟨_, (), follow_walk_of_perm hschedule hsize cell _ _⟩

end Engine

end GridInversion
