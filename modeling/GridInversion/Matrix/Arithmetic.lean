import GridInversion.Matrix.Basic

namespace GridInversion.Matrix

variable {α : Type} [Scalar α]

def addMultiple (a : α) (acc source : Array α) : Array α :=
  Array.zipWith (fun d s => d + a * s) acc source

/-- A left cell equal to zero is skipped, and the row behind it is not read. -/
def productStep? (right : Matrix α) (acc : Array α) (a : α) (k : Nat) : Option (Array α) :=
  if a == 0 then some acc else (right.row? k).map (addMultiple a acc)

def productRow? (left right : Matrix α) (r : Nat) : Option (Array α) :=
  (List.range left.cols).foldlM
    (fun acc k => (left.read? r k).bind fun a => productStep? right acc a k)
    (Array.replicate right.cols 0)

def product (left right : Matrix α) : Except Fault (Matrix α) :=
  if left.cols = right.rows then
    boundsChecked <|
      ((List.range left.rows).mapM (productRow? left right)).map fun rows =>
        ⟨left.rows, right.cols, rows.foldl (· ++ ·) #[]⟩
  else .error (.error (.shapeMismatch ⟨left.cols, right.cols⟩ right.shape))

/-- The largest of `worst` and the absolute differences of the pairs, or the first of these that
is not finite. -/
def worstDifference (worst : α) : List (α × α) → α
  | [] => worst
  | (a, b) :: rest =>
      let d := Scalar.abs (a - b)
      if Scalar.isFinite d then worstDifference (if worst < d then d else worst) rest else d

def maxAbsDiff (a b : Matrix α) : Option α :=
  if a.shape = b.shape then some (worstDifference 0 (a.data.toList.zip b.data.toList)) else none

def approxEq (a b : Matrix α) (tolerance : α) : Bool :=
  match a.maxAbsDiff b with
  | some d => Scalar.isFinite d && d ≤ tolerance
  | none => false

def identityDistance (product : Matrix α) (n : Nat) : Except GridError α :=
  match product.maxAbsDiff (identity n) with
  | some d => if Scalar.isFinite d then .ok d else .error .nonFinite
  | none => .error (.shapeMismatch ⟨n, n⟩ product.shape)

/-- The larger of two values, the first one if they do not compare. -/
def larger (a b : α) : α := if a < b then b else a

/-- The larger of the distances of `m * inverse` and `inverse * m` from the identity. Both
products are formed before either is looked at. -/
def residual (m inverse : Matrix α) : Except Fault α :=
  if m.isSquare ∧ m.shape = inverse.shape then do
    let left ← m.product inverse
    let right ← inverse.product m
    let l ← (left.identityDistance m.rows).mapError .error
    let r ← (right.identityDistance m.rows).mapError .error
    pure (larger (larger 0 l) r)
  else .error (.error (.shapeMismatch m.shape inverse.shape))

end GridInversion.Matrix
