import GridInversion.Buffer.Pool
import GridInversion.Pass

/-!
Inversion by Gauss-Jordan elimination without row exchanges.

`Inverter.invert` puts the identity beside the matrix, settles one pivot after another, and takes
the right half. Two buffers from a pool serve all the pivot passes: each pass reads one and writes
the other, and then the one that was read goes back to the pool.
-/

namespace GridInversion

structure Inverter (α : Type) where
  engine : Engine α
  epsilon : α

/-- The buffers of a run: the augmented matrix as far as it is settled, and the pool that it came
from. -/
structure Bench (α : Type) where
  current : Matrix α
  pool : Pool α

namespace Inverter

variable {α : Type} [Scalar α] (v : Inverter α)

def announcement : Event α := .engineChosen v.engine.name v.engine.workers v.epsilon

def refuses (pivot : α) : Bool :=
  !Scalar.isFinite pivot || decide (Scalar.abs pivot ≤ v.epsilon)

theorem refuses_congr {v w : Inverter α} (h : v.epsilon = w.epsilon) (pivot : α) :
    v.refuses pivot = w.refuses pivot := by
  rw [refuses, refuses, h]

def checkPivot (aug : Matrix α) (r : Nat) : Run v.engine.State α Unit := do
  let pivot ← Run.ofExcept (aug.read r r)
  if v.refuses pivot then
    Run.report (.pivotRejected r pivot v.epsilon)
    Run.fail (.uninvertible r)

def lease (pool : Pool α) : Run v.engine.State α (Matrix α × Pool α) :=
  Run.ofExcept (pool.lease.mapError .error)

/-- Settles pivot `r` of a matrix of size `n`. The buffer that was read goes back to the pool
after the other one was taken from it. -/
def settlePivot (n : Nat) (bench : Bench α) (r : Nat) : Run v.engine.State α (Bench α) := do
  v.checkPivot bench.current r
  let (next, pool) ← v.lease bench.pool
  let written ← (Pass.eliminate bench.current n r).runInto v.engine next
  let next ← written.accept
  Run.report (.pivotSettled (r + 1) n)
  pure ⟨next, pool.release bench.current⟩

def settlePivots (n k : Nat) (bench : Bench α) : Run v.engine.State α (Bench α) :=
  (List.range k).foldlM (v.settlePivot n) bench

def freshPool (n : Nat) : Pool α := Pool.new Stage.pingPongBuffers (Stage.augmentedShape n)

def Admissible (m : Matrix α) : Prop := m.rows ≠ 0 ∧ m.rows = m.cols ∧ m.WellFormed

instance (m : Matrix α) : Decidable (Admissible m) :=
  inferInstanceAs (Decidable (_ ∧ _ ∧ _))

def layOut (m : Matrix α) : Run v.engine.State α (Bench α) := do
  let (aug, pool) ← v.lease (freshPool m.rows)
  let written ← (Pass.augment m m.rows).runInto v.engine aug
  let aug ← written.accept
  pure ⟨aug, pool⟩

def deliver (n : Nat) (inverse : Matrix α) : Run v.engine.State α (Matrix α) := do
  if inverse.isFinite then
    Run.report (.inverted n)
    pure inverse
  else
    Run.report (.overflowed n)
    Run.fail .nonFinite

def invert (m : Matrix α) : Run v.engine.State α (Matrix α) :=
  if Admissible m then do
    let bench ← v.layOut m
    let bench ← v.settlePivots m.rows m.rows bench
    let inverse ← (Pass.extract bench.current m.rows).run v.engine
    v.deliver m.rows inverse
  else Run.fail (.invalidShape m.shape)

def eliminate (aug : Matrix α) (n : Nat) : Run v.engine.State α (Matrix α) := do
  Run.ofExcept ((Pass.requireAugmented aug n).mapError .error)
  let (current, pool) ← v.lease (freshPool n)
  let bench ← v.settlePivots n n ⟨{ current with data := aug.data }, pool⟩
  pure bench.current

theorem settlePivots_succ (n k : Nat) (bench : Bench α) :
    v.settlePivots n (k + 1) bench =
      v.settlePivots n k bench >>= fun bench => v.settlePivot n bench k := by
  simp [settlePivots, List.range_succ, List.foldlM_append]

end Inverter

end GridInversion
