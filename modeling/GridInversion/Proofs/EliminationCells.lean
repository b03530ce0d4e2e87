import GridInversion.Pass
import GridInversion.Proofs.MatrixCells

namespace GridInversion

theorem Stage.augmentedShape_eq (n : Nat) : augmentedShape n = ⟨n, 2 * n⟩ := by
  rw [augmentedShape, Shape.blocks, augmentFactor, Nat.mul_comm]

theorem Stage.augmentedShape_cols (n : Nat) : (augmentedShape n).cols = n + n :=
  Nat.mul_two n

variable {α : Type} [Scalar α]

namespace Cells

/-- The identity beside the first `n` columns. -/
def augmented (n : Nat) (a : Cells α) : Cells α := fun y x =>
  if x < n then a y x else if x - n = y then 1 else 0

/-- The cells after the pass for pivot `r`. -/
def settle (a : Cells α) (r : Nat) : Cells α := fun y x =>
  if a y r == 0 then a y x
  else if y = r then a y x / a y r
  else a y x - a y r * a r x / a r r

/-- The cells after the passes for the pivots before `k`. -/
def settled (a : Cells α) : Nat → Cells α
  | 0 => a
  | k + 1 => (settled a k).settle k

/-- The diagonal cell that the pass for pivot `r` divides by. -/
def pivot (a : Cells α) (r : Nat) : α := a.settled r r r

/-- The right half of the augmented cells once all `n` pivots are settled. -/
def inverse (n : Nat) (a : Cells α) : Cells α := fun y x =>
  (a.augmented n).settled n y (x + n)

variable {n : Nat} {columns : Nat → Prop} {a b : Cells α}

/-- The first `n` rows hold the same values in the columns of a set. -/
def AgreeOn (n : Nat) (columns : Nat → Prop) (a b : Cells α) : Prop :=
  ∀ y < n, ∀ x, columns x → a y x = b y x

/-- The pass for a pivot reads the column of the pivot and that of the cell, and no
other. -/
theorem AgreeOn.settle (h : AgreeOn n columns a b) {r : Nat} (hr : r < n) (hcolumn : columns r) :
    AgreeOn n columns (a.settle r) (b.settle r) := by
  intro y hy x hx
  rw [Cells.settle, Cells.settle, h y hy x hx, h y hy r hcolumn, h r hr x hx, h r hr r hcolumn]

theorem AgreeOn.settled (h : AgreeOn n columns a b) {k : Nat} (hk : k ≤ n)
    (hcolumns : ∀ r < k, columns r) : AgreeOn n columns (a.settled k) (b.settled k) := by
  induction k with
  | zero => exact h
  | succ k ih =>
      have hearlier := ih (Nat.le_of_succ_le hk) fun r hr => hcolumns r (Nat.lt_succ_of_lt hr)
      exact hearlier.settle hk (hcolumns k (Nat.lt_succ_self k))

end Cells

namespace Pass

variable {m : Matrix α} {n : Nat} {a : Cells α} {p : Position}

theorem augmentCell_eq (h : m.HasCells ⟨n, n⟩ a)
    (hp : (Stage.augmentedShape n).Contains p) :
    augmentCell m n p = some (a.augmented n p.y p.x) := by
  unfold augmentCell Cells.augmented
  split
  · rename_i hx
    exact h.read hp.2 hx
  · rfl

theorem lt_augmentedShape_cols {r : Nat} (hr : r < n) : r < (Stage.augmentedShape n).cols := by
  rw [Stage.augmentedShape_cols]
  omega

theorem eliminateCell_eq {r : Nat} (h : m.HasCells (Stage.augmentedShape n) a) (hr : r < n)
    (hp : (Stage.augmentedShape n).Contains p) :
    eliminateCell m r p = some (a.settle r p.y p.x) := by
  have hcol : r < (Stage.augmentedShape n).cols := lt_augmentedShape_cols hr
  have hv := h.read hp.2 hp.1
  have hd := h.read hp.2 hcol
  have habove := h.read (r := r) hr hp.1
  have hpivot := h.read (r := r) hr hcol
  unfold eliminateCell Cells.settle
  simp only [hv, hd, habove, hpivot, Option.bind_eq_bind, Option.bind_some]
  split
  · rfl
  · split <;> rfl

omit [Scalar α] in
theorem extractCell_eq (h : m.HasCells (Stage.augmentedShape n) a)
    (hp : (Shape.mk n n).Contains p) : extractCell m n p = some (a p.y (p.x + n)) := by
  apply h.read hp.2
  have hx : p.x < n := hp.1
  rw [Stage.augmentedShape_cols]
  omega

end Pass

end GridInversion
