import GridInversion.MachineScalar

namespace GridInversion.Random

/-- A row of draws with the cell of column `r` replaced by the sum of all absolute values and a
bonus, so that it is larger than the other cells of the row together. -/
def dominantRow {α : Type} [Scalar α] (r : Nat) (draws : List α) (bonus : α) : List α :=
  draws.set r ((draws.map Scalar.abs).foldl (· + ·) 0 + bonus)

structure Source (α : Type) where
  State : Type
  cell : State → α × State
  bonus : State → α × State

namespace Source

variable {α : Type} (source : Source α)

def cells : (n : Nat) → source.State → List α × source.State
  | 0, s => ([], s)
  | n + 1, s =>
      let (x, s) := source.cell s
      let (rest, s) := cells n s
      (x :: rest, s)

variable [Scalar α]

def row (n r : Nat) (s : source.State) : List α × source.State :=
  let (draws, s) := source.cells n s
  let (bonus, s) := source.bonus s
  (dominantRow r draws bonus, s)

def rowsFrom (n : Nat) : (count r : Nat) → source.State → List (List α)
  | 0, _, _ => []
  | count + 1, r, s =>
      let (first, s) := source.row n r s
      first :: rowsFrom n count (r + 1) s

def rows (n : Nat) (s : source.State) : List (List α) := source.rowsFrom n n 0 s

end Source

/-- A generator of random numbers: `between` draws one from a range, the upper end excluded. -/
structure Generator where
  State : Type
  ofSeed : UInt64 → State
  between : (low high : Float) → State → Float × State

namespace Generator

variable (g : Generator)

def source : Source Float := ⟨g.State, g.between (-1.0) 1.0, g.between 0.5 2.0⟩

def dominantRows (n : Nat) (seed : UInt64) : List (List Float) := g.source.rows n (g.ofSeed seed)

end Generator

def exampleRows : List (List Float) := [[1.0, 2.0], [3.0, 4.0]]

end GridInversion.Random
