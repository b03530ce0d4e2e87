import GridInversion.Engine.Choice
import GridInversion.Proofs.MatrixCells
import GridInversion.Proofs.PingPong
import GridInversion.Proofs.RunResults

namespace GridInversion

variable {α : Type}

namespace Sweep

variable {β : Type} {n : Nat} {grid : Shape} {a : Position → α}

/-- The buffer with the values of the listed positions written in that order. -/
def filled (grid : Shape) (a : Position → α) (order : List Position)
    (buffer : Vector α n) : Vector α n :=
  order.foldl (fun b p => b.setIfInBounds (grid.offset p) (a p)) buffer

theorem getElem?_filled {order : List Position} (horder : ∀ p ∈ order, grid.Contains p)
    (room : grid.cells ≤ n) (buffer : Vector α n) {q : Position} (hq : grid.Contains q) :
    (filled grid a order buffer)[grid.offset q]? =
      if q ∈ order then some (a q) else buffer[grid.offset q]? := by
  induction order generalizing buffer with
  | nil => simp [filled]
  | cons p rest ih =>
      have hp := horder p List.mem_cons_self
      have hlt : grid.offset q < n := Nat.lt_of_lt_of_le (Shape.offset_lt hq) room
      have hrest := ih (fun r hr => horder r (List.mem_cons_of_mem p hr))
        (buffer.setIfInBounds (grid.offset p) (a p))
      rw [filled, List.foldl_cons, ← filled, hrest]
      by_cases hpq : p = q
      · subst hpq
        simp [hlt]
      · have hne : grid.offset p ≠ grid.offset q := fun h =>
          hpq (Shape.eq_of_offset_eq hp hq h)
        simp [hne, Ne.symm hpq]

theorem set_eq_setIfInBounds (buffer : Vector α n) {i : Nat} (hi : i < n) (x : α) :
    buffer.set i x hi = buffer.setIfInBounds i x := by
  ext j hj
  simp [Vector.getElem_set, Vector.getElem_setIfInBounds]

/-- Following a fill visits the listed positions in their order and ends in the
buffer with their values. -/
theorem follow_fill {finish : Vector α n → β} {cell : Position → Option α}
    (room : grid.cells ≤ n) {order : List Position}
    (horder : ∀ p ∈ order, grid.Contains p ∧ cell p = some (a p)) (buffer : Vector α n)
    (visits : Array Position) (announced : Array Shape) :
    (fill grid finish order buffer).follow cell visits announced =
      ⟨visits ++ order.toArray, announced, some (finish (filled grid a order buffer))⟩ := by
  induction order generalizing buffer visits with
  | nil => simp [fill, follow, filled]
  | cons p rest ih =>
      obtain ⟨hp, hcell⟩ := horder p List.mem_cons_self
      have hlt : grid.offset p < n := Nat.lt_of_lt_of_le (Shape.offset_lt hp) room
      have hrest := ih (fun q hq => horder q (List.mem_cons_of_mem p hq))
      simp only [fill, follow, hcell, dif_pos hlt, hrest]
      simp [filled, set_eq_setIfInBounds]

end Sweep

namespace Engine

/-- The contract of a dispatch: given a buffer with one place for each cell of
the grid, and a value for each of its positions, the engine succeeds and leaves
every value at the place of its position. -/
def Faithful (engine : Engine α) : Prop :=
  ∀ (grid : Shape) (buffer : Array α) (cell : Position → Option α) (a : Position → α),
    buffer.size = grid.cells → (∀ p, grid.Contains p → cell p = some (a p)) →
      (engine.fillBuffer grid buffer cell).Ends
        (fun w => w.verdict = .ok () ∧
          ∀ p, grid.Contains p → w.out[grid.offset p]? = some (a p))
        fun _ => False

theorem fillBuffer_of_follow {engine : Engine α} {s : engine.State} {grid : Shape}
    {buffer : Array α} {cell : Position → Option α} {visits : Array Position}
    {announced : Array Shape} {reply : Reply engine.State α buffer.size}
    (h : (engine.dispatch s grid buffer.toVector).follow cell #[] #[] =
      ⟨visits, announced, some reply⟩) :
    engine.fillBuffer grid buffer cell s =
      ⟨.dispatched grid visits ::
          announced.toList.map fun shape => .reported (.dispatching shape),
        reply.state, .ok ⟨reply.buffer.toArray, reply.verdict⟩⟩ := by
  rw [fillBuffer, h]

theorem follow_walk {order : Shape → List Position} {grid : Shape}
    (horder : ∀ p, p ∈ order grid ↔ grid.Contains p) {n : Nat} (hn : n = grid.cells)
    {cell : Position → Option α} {a : Position → α}
    (hcell : ∀ p, grid.Contains p → cell p = some (a p)) (buffer : Vector α n)
    (visits : Array Position) (announced : Array Shape) :
    (walk order grid buffer).follow cell visits announced =
      ⟨visits ++ (order grid).toArray, announced,
        some ⟨(), Sweep.filled grid a (order grid) buffer, .ok ()⟩⟩ := by
  rw [walk, if_pos hn, Sweep.follow_fill (Nat.le_of_eq hn.symm)]
  intro p hp
  have hinside := (horder p).mp hp
  exact ⟨hinside, hcell p hinside⟩

theorem getElem?_filled_order {order : List Position} {grid : Shape}
    (horder : ∀ p, p ∈ order ↔ grid.Contains p) {n : Nat} (hn : n = grid.cells)
    (a : Position → α) (buffer : Vector α n) {p : Position} (hp : grid.Contains p) :
    (Sweep.filled grid a order buffer).toArray[grid.offset p]? = some (a p) := by
  have hmem : p ∈ order := (horder p).mpr hp
  have hread := Sweep.getElem?_filled (a := a) (fun q hq => (horder q).mp hq)
    (Nat.le_of_eq hn.symm) buffer hp
  rw [if_pos hmem] at hread
  simpa using hread

/-- Any order of visits will do, as long as it lists the positions of the grid
and no others. -/
theorem faithful_visiting (name : String) (workers : Nat) {order : Shape → List Position}
    (horder : ∀ grid p, p ∈ order grid ↔ grid.Contains p) :
    (visiting name workers order : Engine α).Faithful := by
  intro grid buffer cell a hsize hcell s
  have hfollow := follow_walk (horder grid) hsize hcell buffer.toVector #[] #[]
  rw [fillBuffer_of_follow hfollow]
  refine ⟨rfl, fun p hp => ?_⟩
  exact getElem?_filled_order (horder grid) hsize a buffer.toVector hp

theorem faithful_parallelUnder {schedule : Shape → List Position} (workers : Nat)
    (pinned : Bool) (hschedule : ∀ grid p, p ∈ schedule grid ↔ grid.Contains p) :
    (parallelUnder schedule workers pinned : Engine α).Faithful := by
  intro grid buffer cell a hsize hcell s
  have hwalk := follow_walk (hschedule grid) hsize hcell buffer.toVector #[]
  have hfollow : ∃ announced,
      ((parallelUnder schedule workers pinned).dispatch s grid buffer.toVector).follow
          cell #[] #[] =
        ⟨#[] ++ (schedule grid).toArray, announced,
          some ⟨(), Sweep.filled grid a (schedule grid) buffer.toVector, .ok ()⟩⟩ := by
    simp only [parallelUnder]
    split
    · exact ⟨_, hwalk _⟩
    · exact ⟨_, hwalk _⟩
  obtain ⟨announced, hfollow⟩ := hfollow
  rw [fillBuffer_of_follow hfollow]
  refine ⟨rfl, fun p hp => ?_⟩
  exact getElem?_filled_order (hschedule grid) hsize a buffer.toVector hp

theorem faithful_serial : (serial : Engine α).Faithful :=
  faithful_visiting _ _ fun _ _ => Shape.mem_rowMajor

theorem faithful_backwards : (backwards : Engine α).Faithful :=
  faithful_visiting _ _ fun _ _ => Shape.mem_columnsBackwards

theorem faithful_parallel (workers : Nat) (pinned : Bool) :
    (parallel workers pinned : Engine α).Faithful :=
  faithful_parallelUnder workers pinned fun _ _ => Shape.mem_rowMajor

variable {engine : Engine α} {grid : Shape} {a : Cells α}

theorem Faithful.ends_fillMatrix (h : engine.Faithful) {out : Matrix α} (hout : out.Fits grid)
    {cell : Position → Option α}
    (hcell : ∀ p, grid.Contains p → cell p = some (a p.y p.x)) :
    (engine.fillMatrix grid out cell).Ends
      (fun w => w.verdict = .ok () ∧ w.out.HasCells grid a) fun _ => False := by
  rw [fillMatrix, if_pos ⟨hout.shape, hout.size⟩]
  apply Run.Ends.map
  intro s
  have hfill := h grid out.data cell (fun p => a p.y p.x) hout.size hcell s
  have hsize := engine.ends_fillBuffer_size grid out.data cell s
  rcases hrun : (engine.fillBuffer grid out.data cell s).result with fault | w
  · rw [hrun] at hfill
    exact hfill
  · rw [hrun] at hfill hsize
    obtain ⟨hverdict, hread⟩ := hfill
    refine ⟨hverdict, ⟨hout.shape, hsize.trans hout.size⟩, ?_⟩
    intro r c hr hc
    have hcell := hread ⟨c, r⟩ ⟨hc, hr⟩
    rwa [Shape.offset, ← hout.cols] at hcell

end Engine

/-- On a faithful engine a pass that accepts its input computes each cell of its
grid. -/
theorem Pass.ends_run [Scalar α] {pass : Pass α} {engine : Engine α} {a : Cells α}
    (h : engine.Faithful) (hadmission : pass.admission = .ok ())
    (hcell : ∀ p, pass.grid.Contains p → pass.cell p = some (a p.y p.x)) :
    (pass.run engine).Ends (fun m => m.HasCells pass.grid a) fun _ => False := by
  unfold Pass.run
  rw [runInto, hadmission]
  refine (h.ends_fillMatrix (Matrix.fits_zeros pass.grid) hcell).bind ?_
  rintro w ⟨hverdict, hcells⟩
  rw [Written.accept, hverdict]
  exact Run.ends_pure hcells

end GridInversion
