import GridInversion.Matrix.Basic

namespace GridInversion

structure Pool (α : Type) where
  shape : Shape
  free : List (Matrix α)

namespace Pool

variable {α : Type} [Scalar α]

def new (capacity : Nat) (shape : Shape) : Pool α :=
  ⟨shape, List.replicate capacity (Matrix.zeros shape)⟩

def available (pool : Pool α) : Nat := pool.free.length

def take? (pool : Pool α) : Option (Matrix α × Pool α) :=
  match pool.free with
  | [] => none
  | buffer :: rest => some (buffer, { pool with free := rest })

def lease (pool : Pool α) : Except GridError (Matrix α × Pool α) :=
  match pool.take? with
  | some taken => .ok taken
  | none => .error .poolExhausted

def release (pool : Pool α) (buffer : Matrix α) : Pool α :=
  if buffer.shape = pool.shape then { pool with free := buffer.wipe :: pool.free } else pool

@[simp] theorem available_new (capacity : Nat) (shape : Shape) :
    (new capacity shape : Pool α).available = capacity := by
  simp [available, new]

@[simp] theorem shape_release (pool : Pool α) (buffer : Matrix α) :
    (pool.release buffer).shape = pool.shape := by
  unfold release
  split <;> rfl

theorem take?_release {pool : Pool α} {buffer : Matrix α} (h : buffer.shape = pool.shape) :
    (pool.release buffer).take? = some (buffer.wipe, pool) := by
  simp [release, take?, h]

omit [Scalar α] in
theorem take?_eq_none_iff {pool : Pool α} : pool.take? = none ↔ pool.available = 0 := by
  unfold take? available
  cases pool.free <;> simp

end Pool

end GridInversion
