import GridInversion.Proofs.ExactField
import GridInversion.Proofs.SignedSums

namespace GridInversion

variable {α : Type} [Scalar α]

namespace Cells

variable {a b : Cells α} {r c n : Nat}

/-- The sum of the first `n` products of row `r` of `a` and column `c` of `b`, from left to right
and starting with zero, none of them left out. -/
def plainDot (a b : Cells α) (r c n : Nat) : α :=
  (List.range n).foldl (fun d k => d + a r k * b k c) 0

theorem plainDot_succ : plainDot a b r c (n + 1) = plainDot a b r c n + a r n * b n c := by
  simp only [plainDot, List.range_succ, List.foldl_append, List.foldl_cons, List.foldl_nil]

variable [SumsSignedZeros α]

/-- No partial sum is the negative zero: the first one is not, and a sum is only if its first term
is. -/
theorem skippingDot_ne_neg_zero : skippingDot a b r c n ≠ -0 := by
  induction n with
  | zero => exact SumsSignedZeros.zero_ne_neg_zero
  | succ n ih =>
      unfold skippingDot
      split
      · exact ih
      · intro hsum
        exact ih (SumsSignedZeros.eq_neg_zero_of_add _ _ hsum).1

/-- If the column of the right factor is finite, each product that is left out is a zero, and would
not have changed the sum before it. -/
theorem skippingDot_eq_plainDot (hcolumn : ∀ k < n, Scalar.isFinite (b k c) = true) :
    skippingDot a b r c n = plainDot a b r c n := by
  induction n with
  | zero => rfl
  | succ n ih =>
      have hsum := ih fun k hk => hcolumn k (Nat.lt_succ_of_lt hk)
      rw [skippingDot, plainDot_succ, ← hsum]
      split
      · rename_i hskip
        have hproduct := SumsSignedZeros.zero_mul _ _ hskip (hcolumn n (Nat.lt_succ_self n))
        exact (SumsSignedZeros.add_zero _ _ skippingDot_ne_neg_zero hproduct).symm
      · rfl

end Cells

namespace Matrix

/-- The product of two matrices by three loops: over the rows of the left factor, the columns of
the right one, and the cells between them. -/
def plainProduct (left right : Matrix α) : Matrix α :=
  ofFn left.rows right.cols fun r c => Cells.plainDot left.cells right.cells r c left.cols

theorem WellFormed.exists_product {a b : Matrix α} (ha : a.WellFormed) (hb : b.WellFormed)
    (hinner : a.cols = b.rows) : ∃ p, a.product b = .ok p ∧
      p.HasCells ⟨a.rows, b.cols⟩ fun i j => Cells.skippingDot a.cells b.cells i j a.cols :=
  product_hasCells (ha.fits rfl).hasCells (hb.fits (by rw [shape, hinner])).hasCells

end Matrix

end GridInversion
