import Mathlib.Algebra.Group.Ext
import Mathlib.Data.List.Permutation
import GridInversion.Proofs.BufferConservation
import GridInversion.Proofs.DispatchContract

namespace GridInversion

variable {α : Type} [Scalar α]

theorem Matrix.wipe_eq_zeros_iff {b : Matrix α} {shape : Shape} (hshape : b.shape = shape) :
    b.wipe = Matrix.zeros shape ↔ b.WellFormed := by
  subst hshape
  constructor
  · intro h
    have hsize := congrArg (fun m => m.data.size) h
    simpa [wipe, zeros, WellFormed, Shape.cells] using hsize
  · intro h
    exact (h.fits rfl).wipe_eq_zeros

theorem Matrix.Fits.eq_zeros {m : Matrix α} {shape : Shape} (h : m.Fits shape)
    (hzero : ∀ x ∈ m.data, x = 0) : m = Matrix.zeros shape := by
  have hdata : m.data.map (fun _ => (0 : α)) = m.data := by
    rw [Array.map_congr_left fun x hx => (hzero x hx).symm, Array.map_id']
  rw [← h.wipe_eq_zeros, wipe, hdata]

omit [Scalar α] in
theorem Engine.fillMatrix_of_size_ne (engine : Engine α) {grid : Shape} {out : Matrix α}
    (hshape : out.shape = grid) (hsize : out.data.size ≠ grid.cells)
    (cell : Position → Option α) :
    engine.fillMatrix grid out cell = pure ⟨out, .error (.shapeMismatch grid grid)⟩ := by
  rw [fillMatrix, if_neg fun h => hsize h.2, hshape]

namespace Ledger

variable {plan : List (Nat × Shape)} {i capacity : Nat} {shape : Shape}

theorem nextBuffer_cases (i : Nat) (shape : Shape) (past : List (Transfer α)) :
    Transfer.returned i shape past = [] ∧ nextBuffer i shape past = .zeros shape ∨
      ∃ latest others, Transfer.returned i shape past = latest :: others ∧
        latest.shape = shape ∧ nextBuffer i shape past = latest.wipe := by
  rw [nextBuffer]
  rcases hreturned : Transfer.returned i shape past with _ | ⟨latest, others⟩
  · exact Or.inl ⟨rfl, rfl⟩
  · have hmem : latest ∈ Transfer.returned i shape past := hreturned ▸ List.mem_cons_self
    have hshape := (Transfer.exists_ended_of_mem_returned hmem).1
    exact Or.inr ⟨latest, others, rfl, hshape, rfl⟩

theorem shape_nextBuffer (past : List (Transfer α)) : (nextBuffer i shape past).shape = shape := by
  rcases nextBuffer_cases i shape past with ⟨-, hnext⟩ | ⟨latest, others, -, hshape, hnext⟩
  · rw [hnext, Matrix.shape_zeros]
  · rw [hnext, Matrix.shape_wipe, hshape]

theorem eq_zero_of_mem_nextBuffer (past : List (Transfer α)) {x : α}
    (hx : x ∈ (nextBuffer i shape past).data) : x = 0 := by
  rcases nextBuffer_cases i shape past with ⟨-, hnext⟩ | ⟨latest, others, -, -, hnext⟩
  · rw [hnext] at hx
    exact Matrix.eq_zero_of_mem_zeros hx
  · rw [hnext] at hx
    exact Matrix.eq_zero_of_mem_wipe hx

theorem nextBuffer_eq_zeros_iff (i : Nat) (shape : Shape) (past : List (Transfer α)) :
    nextBuffer i shape past = .zeros shape ↔
      ∀ b ∈ (Transfer.returned i shape past).head?, b.WellFormed := by
  rcases nextBuffer_cases i shape past with
    ⟨hreturned, hnext⟩ | ⟨latest, others, hreturned, hshape, hnext⟩
  · simp [hreturned, hnext]
  · simpa [hreturned, hnext] using Matrix.wipe_eq_zeros_iff hshape

theorem eq_nextBuffer_of_reply (steps : List (Step α)) (hi : plan[i]? = some (capacity, shape))
    {name : String} {m : Matrix α}
    (hm : (((new plan).run steps).step (.alloc i name)).2 = .matrix m ∨
      (((new plan).run steps).step (.lease i name)).2 = .matrix m) :
    m = nextBuffer i shape ((new plan).history steps) := by
  obtain ⟨untouched, haccount⟩ := exists_account plan steps hi
  have hreply (exhausted : Reply α) (hne : exhausted ≠ .matrix m)
      (h : (((new plan).run steps).takeFrom i name exhausted).2 = .matrix m) :
      m = nextBuffer i shape ((new plan).history steps) := by
    rw [takeFrom_reply haccount haccount.pool] at h
    split at h
    · exact absurd h hne
    · exact (Reply.matrix.inj h).symm
  rcases hm with hm | hm
  · exact hreply .nothing (by simp) hm
  · exact hreply (.fault (.error .poolExhausted)) (by simp) hm

/-- Whatever is handed out has the shape of its pool and is zero.  It is a fresh matrix, and fit
to be filled, unless the buffer came back with another number of cells than the pool's. -/
theorem handed_out_fresh_iff (steps : List (Step α)) (hi : plan[i]? = some (capacity, shape))
    {name : String} {m : Matrix α}
    (hm : (((new plan).run steps).step (.alloc i name)).2 = .matrix m ∨
      (((new plan).run steps).step (.lease i name)).2 = .matrix m) :
    m.shape = shape ∧ (∀ x ∈ m.data, x = 0) ∧
      (m = .zeros shape ↔
        ∀ b ∈ (Transfer.returned i shape ((new plan).history steps)).head?, b.WellFormed) ∧
      ((∀ lease, .ended lease ∈ (new plan).history steps → lease.pool = i →
        lease.matrix.shape = shape → lease.matrix.WellFormed) → m = .zeros shape) ∧
      ∀ engine : Engine α,
        (m = .zeros shape → engine.Faithful → ∀ (a : Cells α) (cell : Position → Option α),
          (∀ p, shape.Contains p → cell p = some (a p.y p.x)) →
            (engine.fillMatrix shape m cell).Ends
              (fun w => w.verdict = .ok () ∧ w.out.HasCells shape a) fun _ => False) ∧
        (m ≠ .zeros shape → ∀ cell,
          engine.fillMatrix shape m cell = pure ⟨m, .error (.shapeMismatch shape shape)⟩) := by
  obtain rfl := eq_nextBuffer_of_reply steps hi hm
  have hfresh := nextBuffer_eq_zeros_iff i shape ((new plan).history steps)
  refine ⟨shape_nextBuffer _, fun _ => eq_zero_of_mem_nextBuffer _, hfresh, ?_, ?_⟩
  · intro hended
    rw [hfresh]
    intro b hb
    obtain ⟨hshape, lease, hlease, hpool, rfl⟩ :=
      Transfer.exists_ended_of_mem_returned (List.mem_of_mem_head? hb)
    exact hended lease hlease hpool hshape
  · refine fun engine => ⟨?_, ?_⟩
    · intro hzeros contract a cell hcell
      rw [hzeros]
      exact contract.ends_fillMatrix (Matrix.fits_zeros shape) hcell
    · intro hne cell
      refine engine.fillMatrix_of_size_ne (shape_nextBuffer _) (fun hsize => hne ?_) cell
      exact Matrix.Fits.eq_zeros ⟨shape_nextBuffer _, hsize⟩ fun _ => eq_zero_of_mem_nextBuffer _

theorem handed_out_fresh_iff_after_reshape :
    let plan : List (Nat × Shape) := [(1, ⟨1, 2⟩)]
    let steps : List (Step Float) :=
      [.lease 0 "a", .fill "a" 7, .reshape "a" ⟨2, 1⟩, .reshape "a" ⟨1, 2⟩, .drop "a"]
    plan[0]? = some (1, ⟨1, 2⟩) ∧
      (((new plan).run steps).step (.alloc 0 "b")).2 = .matrix ⟨1, 2, #[0, 0]⟩ ∧
      (⟨1, 2, #[0, 0]⟩ : Matrix Float) = .zeros ⟨1, 2⟩ := by
  intro plan steps
  have hplan : plan[0]? = some (1, ⟨1, 2⟩) := rfl
  have hreply : (((new plan).run steps).step (.alloc 0 "b")).2 = .matrix ⟨1, 2, #[0, 0]⟩ := by
    cbv
  obtain ⟨-, -, hfresh, -⟩ := handed_out_fresh_iff steps hplan (Or.inl hreply)
  have hlast : ∀ b ∈ (Transfer.returned 0 ⟨1, 2⟩ ((new plan).history steps)).head?,
      b.WellFormed := by decide +kernel
  exact ⟨hplan, hreply, hfresh.mpr hlast⟩

/-- A buffer that loses a cell on loan keeps the shape of its pool, and is handed out again with the
cells that are left. -/
theorem resized_buffer_handed_out :
    let plan : List (Nat × Shape) := [(1, ⟨1, 2⟩)]
    let steps : List (Step Float) := [.alloc 0 "a", .resize "a" 1 0, .drop "a"]
    (((new plan).run steps).step (.alloc 0 "b")).2 = .matrix ⟨1, 2, #[0]⟩ ∧
      (⟨1, 2, #[0]⟩ : Matrix Float) ≠ .zeros ⟨1, 2⟩ := by
  intro plan steps
  refine ⟨by cbv, fun h => ?_⟩
  have hsize := congrArg (fun m => m.data.size) h
  cases hsize

end Ledger

end GridInversion
