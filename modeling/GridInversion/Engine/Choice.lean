import GridInversion.Engine.Basic

namespace GridInversion

namespace Engine

variable {α : Type}

/-- The error for a buffer of `n` cells that a grid cannot fill: a bare buffer counts as one
row. -/
def lengthError (grid : Shape) (n : Nat) : GridError := .shapeMismatch grid ⟨1, n⟩

def walk (order : Shape → List Position) {n : Nat} (grid : Shape) (buffer : Vector α n) :
    Sweep α (Reply Unit α n) :=
  if n = grid.cells then
    .fill grid (fun filled => ⟨(), filled, .ok ()⟩) (order grid) buffer
  else .finished ⟨(), buffer, .error (lengthError grid n)⟩

def visiting (name : String) (workers : Nat) (order : Shape → List Position) : Engine α where
  State := Unit
  start := ()
  name := name
  workers := workers
  banner := []
  dispatch := fun _ grid buffer => walk order grid buffer

def serial : Engine α := visiting "SERIAL (CALLER THREAD)" 1 Shape.rowMajor

def backwards : Engine α := visiting "BACKWARDS" 1 Shape.columnsBackwards

/-- A pool of workers that share the rows of a grid, with the order in which their work happens to
fall. It announces each grid that it starts on. -/
def parallelUnder (schedule : Shape → List Position) (workers : Nat) (pinned : Bool) :
    Engine α where
  State := Unit
  start := ()
  name := "RAYON (ROW-PARALLEL)"
  workers := workers
  banner := [.poolReady workers pinned]
  dispatch := fun {n} _ grid buffer =>
    if n = grid.cells ∧ n ≠ 0 then .announce grid (walk schedule grid buffer)
    else walk schedule grid buffer

/-- A pool of workers of which each is done with its row before the next row is begun. -/
def parallel (workers : Nat) (pinned : Bool) : Engine α :=
  parallelUnder Shape.rowMajor workers pinned

theorem staysInside_walk {order : Shape → List Position} {grid : Shape}
    (h : ∀ p ∈ order grid, grid.Contains p) {n : Nat} (buffer : Vector α n) :
    (walk order grid buffer).StaysInside grid := by
  unfold walk
  split
  · exact Sweep.staysInside_fill h (by omega) buffer
  · exact .finished _

/-- The serial engine, except that its dispatch number `k`, from zero, writes nothing and ends in
the given error. -/
def failing (k : Nat) (e : GridError) : Engine α where
  State := Nat
  start := 0
  name := "FAIL"
  workers := 0
  banner := []
  dispatch := fun {n} count grid buffer =>
    if count = k then .finished ⟨count + 1, buffer, .error e⟩
    else if n = grid.cells then
      .fill grid (fun filled => ⟨count + 1, filled, .ok ()⟩) grid.rowMajor buffer
    else .finished ⟨count + 1, buffer, .error (lengthError grid n)⟩

/-- An engine that writes every row but one and never looks at the length of the buffer, so that it
may write past the end. -/
def skippingRow (row : Nat) : Engine α where
  State := Unit
  start := ()
  name := "SKIPROW"
  workers := 1
  banner := []
  dispatch := fun _ grid buffer =>
    .fill grid (fun filled => ⟨(), filled, .ok ()⟩)
      (grid.rowMajor.filter (·.y ≠ row)) buffer

end Engine

inductive EngineChoice where
  | serial
  | parallel (workers : Nat) (pinned : Bool)
  | backwards
  | failing (k : Nat)
  | skippingRow (row : Nat)
deriving DecidableEq

namespace EngineChoice

/-- The error of an engine that fails on purpose names the dispatch, and a size that no matrix of
a run has by accident. -/
def plannedError (k : Nat) : GridError := .pivotOutOfRange k 77

def engine {α : Type} : EngineChoice → Engine α
  | serial => .serial
  | parallel workers pinned => .parallel workers pinned
  | backwards => .backwards
  | failing k => .failing k (plannedError k)
  | skippingRow row => .skippingRow row

end EngineChoice

end GridInversion
