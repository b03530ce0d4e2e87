import GridInversion.Engine.Sweep
import GridInversion.Matrix.Basic
import GridInversion.Run

namespace GridInversion

structure Reply (σ α : Type) (n : Nat) where
  state : σ
  buffer : Vector α n
  verdict : Except GridError Unit

/-- Nothing is asked of an engine but that the buffer keeps its length: it may fail, leave cells as
they were, or be cut short by a write past the end. -/
structure Engine (α : Type) where
  State : Type
  start : State
  name : String
  workers : Nat
  banner : List (Event α)
  dispatch : {n : Nat} → State → Shape → Vector α n → Sweep α (Reply State α n)

structure Written (β : Type) where
  out : β
  verdict : Except GridError Unit

namespace Written

variable {σ α β : Type}

def accept (w : Written β) : Run σ α β :=
  match w.verdict with
  | .ok () => pure w.out
  | .error e => Run.fail e

end Written

namespace Engine

variable {α : Type}

def fillBuffer (engine : Engine α) (grid : Shape) (buffer : Array α)
    (cell : Position → Option α) : Run engine.State α (Written (Array α)) := fun s =>
  match (engine.dispatch s grid buffer.toVector).follow cell #[] #[] with
  | ⟨visits, announced, reply?⟩ =>
      let trace := .dispatched grid visits ::
        announced.toList.map fun shape => .reported (.dispatching shape)
      match reply? with
      | some reply => ⟨trace, reply.state, .ok ⟨reply.buffer.toArray, reply.verdict⟩⟩
      | none => ⟨trace, s, .error .outOfBounds⟩

def fillMatrix (engine : Engine α) (grid : Shape) (out : Matrix α)
    (cell : Position → Option α) : Run engine.State α (Written (Matrix α)) :=
  if out.shape = grid ∧ out.data.size = grid.cells then
    (fun w => ⟨{ out with data := w.out }, w.verdict⟩) <$>
      engine.fillBuffer grid out.data cell
  else pure ⟨out, .error (.shapeMismatch grid out.shape)⟩

end Engine

end GridInversion
