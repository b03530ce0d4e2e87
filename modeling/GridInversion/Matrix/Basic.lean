import GridInversion.Error
import GridInversion.Scalar

namespace GridInversion

/-- Cells in row-major order. The fields need not fit each other; `WellFormed` says that they do. -/
structure Matrix (α : Type) where
  rows : Nat
  cols : Nat
  data : Array α
deriving BEq

namespace Matrix

variable {α : Type}

def shape (m : Matrix α) : Shape := ⟨m.rows, m.cols⟩

/-- The data has one cell for each position of the shape. The product is one of natural numbers: it
is taken not to overflow a machine word. -/
def WellFormed (m : Matrix α) : Prop := m.data.size = m.rows * m.cols

instance (m : Matrix α) : Decidable m.WellFormed :=
  inferInstanceAs (Decidable (_ = _))

def isSquare (m : Matrix α) : Bool := m.rows == m.cols

def ofFn (rows cols : Nat) (f : Nat → Nat → α) : Matrix α :=
  ⟨rows, cols, Array.ofFn fun i : Fin (rows * cols) => f (i.val / cols) (i.val % cols)⟩

/-- The cell that row-major order puts at row `r` and column `c`, if the data reaches that far.
A column past the width reads on in the following rows. -/
def read? (m : Matrix α) (r c : Nat) : Option α := m.data[r * m.cols + c]?

def read (m : Matrix α) (r c : Nat) : Except Fault α := boundsChecked (m.read? r c)

def get (m : Matrix α) (r c : Nat) : Except Fault (Option α) :=
  if r < m.rows ∧ c < m.cols then (m.read r c).map some else .ok none

def set (m : Matrix α) (r c : Nat) (v : α) : Except Fault (Matrix α) :=
  if r < m.rows ∧ c < m.cols then
    if r * m.cols + c < m.data.size then
      .ok { m with data := m.data.setIfInBounds (r * m.cols + c) v }
    else .error .outOfBounds
  else .ok m

def row? (m : Matrix α) (r : Nat) : Option (Array α) :=
  if (r + 1) * m.cols ≤ m.data.size then
    some (m.data.extract (r * m.cols) ((r + 1) * m.cols))
  else none

def row (m : Matrix α) (r : Nat) : Except Fault (Array α) := boundsChecked (m.row? r)

def ofArray (rows cols : Nat) (data : Array α) : Except GridError (Matrix α) :=
  if data.size = rows * cols then .ok ⟨rows, cols, data⟩
  else .error (.invalidShape ⟨rows, cols⟩)

/-- The matrix with the given rows. There must be at least one cell, and rows of equal length:
the first row of another length is reported. -/
def ofRows (rows : List (Array α)) : Except GridError (Matrix α) :=
  let width := (rows.head?.map Array.size).getD 0
  if width = 0 then .error (.invalidShape ⟨rows.length, width⟩)
  else
    match rows.find? (·.size ≠ width) with
    | some odd => .error (.invalidShape ⟨rows.length, odd.size⟩)
    | none => .ok ⟨rows.length, width, rows.foldl (· ++ ·) #[]⟩

/-- The data cut into rows of the matrix's width; the last one may be short. A matrix without
columns has as many empty rows as its shape says. -/
def toRows (m : Matrix α) : List (Array α) :=
  if m.cols = 0 then List.replicate m.rows #[]
  else
    (List.range ((m.data.size + m.cols - 1) / m.cols)).map fun r =>
      m.data.extract (r * m.cols) ((r + 1) * m.cols)

def empty : Matrix α := ⟨0, 0, #[]⟩

section Scalar

variable [Scalar α]

def zeros (s : Shape) : Matrix α := ⟨s.rows, s.cols, Array.replicate s.cells 0⟩

def identity (n : Nat) : Matrix α := ofFn n n fun r c => if r = c then 1 else 0

def isFinite (m : Matrix α) : Bool := m.data.all Scalar.isFinite

/-- Every cell becomes the default value of its type, which is the zero that `zeros` and sums start
with. The shape and the amount of data stay. -/
def wipe (m : Matrix α) : Matrix α := { m with data := m.data.map fun _ => 0 }

end Scalar

@[simp] theorem shape_rows (m : Matrix α) : m.shape.rows = m.rows := rfl

@[simp] theorem shape_cols (m : Matrix α) : m.shape.cols = m.cols := rfl

@[simp] theorem shape_zeros [Scalar α] (s : Shape) : (zeros s : Matrix α).shape = s := rfl

@[simp] theorem shape_wipe [Scalar α] (m : Matrix α) : m.wipe.shape = m.shape := rfl

theorem wellFormed_ofFn (rows cols : Nat) (f : Nat → Nat → α) :
    (ofFn rows cols f).WellFormed := by
  simp [WellFormed, ofFn]

theorem wellFormed_zeros [Scalar α] (s : Shape) : (zeros s : Matrix α).WellFormed := by
  simp [WellFormed, zeros, Shape.cells]

theorem wellFormed_identity [Scalar α] (n : Nat) : (identity n : Matrix α).WellFormed :=
  wellFormed_ofFn n n _

theorem wellFormed_wipe [Scalar α] {m : Matrix α} (h : m.WellFormed) : m.wipe.WellFormed := by
  simpa [WellFormed, wipe] using h

theorem read?_isSome {m : Matrix α} (h : m.WellFormed) {r c : Nat} (hr : r < m.rows)
    (hc : c < m.cols) : (m.read? r c).isSome := by
  have hlt : r * m.cols + c < m.data.size := by
    rw [h]
    exact Shape.offset_lt (s := m.shape) (p := ⟨c, r⟩) ⟨hc, hr⟩
  simp [read?, hlt]

end Matrix

end GridInversion
