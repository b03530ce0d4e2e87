import GridInversion.Shape

namespace GridInversion

/-- One walk of an engine over a grid. The engine never sees the function that it evaluates: it asks
for values, so what it asked for is all that it can observe. -/
inductive Sweep (α β : Type) where
  | finished (result : β)
  | outOfBounds
  | evaluate (position : Position) (resume : α → Sweep α β)
  | announce (grid : Shape) (rest : Sweep α β)

namespace Sweep

variable {α β : Type}

structure Record (β : Type) where
  visits : Array Position
  announced : Array Shape
  result? : Option β

def follow (cell : Position → Option α) (visits : Array Position) (announced : Array Shape) :
    Sweep α β → Record β
  | finished result => ⟨visits, announced, some result⟩
  | outOfBounds => ⟨visits, announced, none⟩
  | evaluate p resume =>
      match cell p with
      | some v => (resume v).follow cell (visits.push p) announced
      | none => ⟨visits.push p, announced, none⟩
  | announce grid rest => rest.follow cell visits (announced.push grid)

def fill {n : Nat} (grid : Shape) (finish : Vector α n → β) :
    List Position → Vector α n → Sweep α β
  | [], buffer => .finished (finish buffer)
  | p :: rest, buffer =>
      .evaluate p fun v =>
        if h : grid.offset p < n then fill grid finish rest (buffer.set (grid.offset p) v h)
        else .outOfBounds

inductive StaysInside (grid : Shape) : Sweep α β → Prop where
  | finished (result : β) : StaysInside grid (.finished result)
  | evaluate {p : Position} {resume : α → Sweep α β} (inside : grid.Contains p)
      (rest : ∀ v, StaysInside grid (resume v)) : StaysInside grid (.evaluate p resume)
  | announce {shape : Shape} {rest : Sweep α β} (inside : StaysInside grid rest) :
      StaysInside grid (.announce shape rest)

theorem staysInside_fill {n : Nat} {grid : Shape} {finish : Vector α n → β}
    {order : List Position} (h : ∀ p ∈ order, grid.Contains p) (room : grid.cells ≤ n)
    (buffer : Vector α n) :
    StaysInside grid (fill grid finish order buffer) := by
  induction order generalizing buffer with
  | nil => exact .finished _
  | cons p rest ih =>
      have inside := h p List.mem_cons_self
      refine .evaluate inside fun v => ?_
      rw [dif_pos (Nat.lt_of_lt_of_le (Shape.offset_lt inside) room)]
      exact ih (fun q hq => h q (List.mem_cons_of_mem p hq)) _

end Sweep

end GridInversion
