import GridInversion.Engine.Basic
import GridInversion.Stage

namespace GridInversion

structure Pass (α : Type) where
  stage : Stage
  size : Nat
  admission : Except GridError Unit
  cell : Position → Option α

namespace Pass

variable {α : Type}

def grid (pass : Pass α) : Shape := pass.stage.grid pass.size

def requireAugmented (m : Matrix α) (n : Nat) : Except GridError Unit :=
  if m.shape = Stage.augmentedShape n ∧ m.data.size = (Stage.augmentedShape n).cells then .ok ()
  else .error (.shapeMismatch (Stage.augmentedShape n) m.shape)

section Cells

variable [Scalar α]

def augmentCell (input : Matrix α) (n : Nat) (p : Position) : Option α :=
  if p.x < n then input.read? p.y p.x
  else some (if p.x - n = p.y then 1 else 0)

/-- The cell after the pass for pivot `r`. The pivot row is divided by its cell in column `r`.
Every other row loses the multiple of the pivot row, as it was before the pass, that clears its
cell in column `r`. A row that has zero there stays, the pivot row included: whoever runs the pass
has to refuse a zero pivot. -/
def eliminateCell (aug : Matrix α) (r : Nat) (p : Position) : Option α := do
  let v ← aug.read? p.y p.x
  let d ← aug.read? p.y r
  if d == 0 then some v
  else if p.y = r then some (v / d)
  else
    let above ← aug.read? r p.x
    let pivot ← aug.read? r r
    some (v - d * above / pivot)

def extractCell (aug : Matrix α) (n : Nat) (p : Position) : Option α :=
  aug.read? p.y (p.x + n)

def augment (input : Matrix α) (n : Nat) : Pass α where
  stage := .augmentInit
  size := n
  admission :=
    if n = 0 ∨ input.rows ≠ input.cols ∨ input.rows ≠ n then
      .error (.invalidShape input.shape)
    else .ok ()
  cell := augmentCell input n

def eliminate (aug : Matrix α) (n r : Nat) : Pass α where
  stage := .rowEliminate
  size := n
  admission := do
    requireAugmented aug n
    if r < n then .ok () else .error (.pivotOutOfRange r n)
  cell := eliminateCell aug r

def extract (aug : Matrix α) (n : Nat) : Pass α where
  stage := .extractResult
  size := n
  admission := requireAugmented aug n
  cell := extractCell aug n

end Cells

/-- Runs a pass into a given matrix. Unless the input is fit for the pass the matrix stays as it
is. -/
def runInto (pass : Pass α) (engine : Engine α) (out : Matrix α) :
    Run engine.State α (Written (Matrix α)) :=
  match pass.admission with
  | .ok () => engine.fillMatrix pass.grid out pass.cell
  | .error e => pure ⟨out, .error e⟩

def run [Scalar α] (pass : Pass α) (engine : Engine α) : Run engine.State α (Matrix α) := do
  let written ← pass.runInto engine (Matrix.zeros pass.grid)
  written.accept

end Pass

end GridInversion
