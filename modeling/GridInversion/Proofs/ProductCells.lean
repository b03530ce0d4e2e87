import GridInversion.Matrix.Arithmetic
import GridInversion.Proofs.RowLists

namespace GridInversion

variable {α : Type}

variable [Scalar α]

/-- The sum of the first `k` products of row `r` of `a` and column `c` of `b`,
from left to right, without those whose left factor is zero. -/
def Cells.skippingDot (a b : Cells α) (r c : Nat) : Nat → α
  | 0 => 0
  | k + 1 =>
      if a r k == 0 then skippingDot a b r c k else skippingDot a b r c k + a r k * b k c

namespace Matrix

variable {left right : Matrix α} {p q t : Nat} {a b : Cells α}

omit [Scalar α] in
theorem HasCells.row? (h : right.HasCells ⟨q, t⟩ b) {k : Nat} (hk : k < q) :
    ∃ cells, right.row? k = some cells ∧ cells.size = t ∧
      ∀ c < t, cells[c]? = some (b k c) := by
  have hcols : right.cols = t := h.cols
  have hsize : right.data.size = q * t := h.size
  have hroom : (k + 1) * t ≤ q * t := Nat.mul_le_mul_right t hk
  have hwidth : (k + 1) * t = k * t + t := Nat.succ_mul k t
  refine ⟨right.data.extract (k * t) ((k + 1) * t), ?_, ?_, ?_⟩
  · rw [Matrix.row?, hcols, hsize, if_pos hroom]
  · rw [Array.size_extract, hsize]
    omega
  · intro c hc
    have hread := h.read hk hc
    rw [read?, hcols] at hread
    rw [Array.getElem?_extract, if_pos (by omega)]
    exact hread

theorem productStep?_eq (hright : right.HasCells ⟨q, t⟩ b) {acc : Array α} {d : Nat → α}
    (hsize : acc.size = t) (hcells : ∀ c < t, acc[c]? = some (d c)) (x : α) {k : Nat}
    (hk : k < q) :
    ∃ acc', productStep? right acc x k = some acc' ∧ acc'.size = t ∧
      ∀ c < t, acc'[c]? = some (if x == 0 then d c else d c + x * b k c) := by
  unfold productStep?
  split
  · exact ⟨acc, rfl, hsize, hcells⟩
  · obtain ⟨source, hsource, hsourceSize, hsourceCells⟩ := hright.row? hk
    refine ⟨addMultiple x acc source, by rw [hsource, Option.map_some], ?_, ?_⟩
    · simp [addMultiple, hsize, hsourceSize]
    · intro c hc
      simp [addMultiple, Array.getElem?_zipWith, hcells c hc, hsourceCells c hc]

theorem foldlM_productStep (hleft : left.HasCells ⟨p, q⟩ a) (hright : right.HasCells ⟨q, t⟩ b)
    {r : Nat} (hr : r < p) {k : Nat} (hk : k ≤ q) :
    ∃ acc, (List.range k).foldlM
        (fun acc k => (left.read? r k).bind fun a => productStep? right acc a k)
        (Array.replicate right.cols 0) = some acc ∧
      acc.size = t ∧ ∀ c < t, acc[c]? = some (Cells.skippingDot a b r c k) := by
  have hcols : right.cols = t := hright.cols
  induction k with
  | zero =>
      refine ⟨Array.replicate t 0, by simp [hcols], Array.size_replicate, fun c hc => ?_⟩
      simp [Cells.skippingDot, hc]
  | succ k ih =>
      obtain ⟨acc, hacc, hsize, hcells⟩ := ih (Nat.le_of_succ_le hk)
      have hread : left.read? r k = some (a r k) := hleft.read hr hk
      obtain ⟨acc', hacc', hsize', hcells'⟩ := productStep?_eq hright hsize hcells (a r k) hk
      refine ⟨acc', ?_, hsize', hcells'⟩
      rw [List.range_succ, List.foldlM_append, hacc]
      simp [hread, hacc']

theorem productRow?_eq (hleft : left.HasCells ⟨p, q⟩ a) (hright : right.HasCells ⟨q, t⟩ b)
    {r : Nat} (hr : r < p) :
    productRow? left right r =
      some (Array.ofFn fun c : Fin t => Cells.skippingDot a b r c q) := by
  obtain ⟨acc, hacc, hsize, hcells⟩ := foldlM_productStep hleft hright hr (Nat.le_refl q)
  have hcols : left.cols = q := hleft.cols
  rw [productRow?, hcols, hacc]
  congr 1
  apply Array.ext_getElem?
  intro c
  by_cases hc : c < t
  · rw [hcells c hc]
    simp [hc]
  · rw [Array.getElem?_eq_none (by omega), Array.getElem?_eq_none (by simpa using hc)]

/-- Well-formed factors of matching shapes have a product, whose cells are the sums
that skip zeros. -/
theorem product_hasCells (hleft : left.HasCells ⟨p, q⟩ a) (hright : right.HasCells ⟨q, t⟩ b) :
    ∃ m, left.product right = .ok m ∧
      m.HasCells ⟨p, t⟩ fun r c => Cells.skippingDot a b r c q := by
  let row : Nat → Array α := fun r => Array.ofFn fun c : Fin t => Cells.skippingDot a b r c q
  have hrows : ∀ k ≤ p, (List.range k).mapM (productRow? left right) =
      some ((List.range k).map row) := by
    intro k hk
    induction k with
    | zero => rfl
    | succ k ih =>
        simp [List.range_succ, ih (Nat.le_of_succ_le hk), productRow?_eq hleft hright hk, row]
  have hwidth : ∀ cells ∈ (List.range p).map row, cells.size = t := by
    intro cells hmem
    obtain ⟨r, -, rfl⟩ := List.mem_map.mp hmem
    exact Array.size_ofFn
  have hinner : left.cols = right.rows := hleft.cols.trans hright.rows.symm
  have hp : left.rows = p := hleft.rows
  have ht : right.cols = t := hright.cols
  refine ⟨⟨p, t, ((List.range p).map row).foldl (· ++ ·) #[]⟩, ?_, ?_⟩
  · rw [product, if_pos hinner, hp, ht, hrows p (Nat.le_refl p)]
    rfl
  · refine hasCells_foldl_append (by simp) hwidth fun r c hr hc => ?_
    simp [hr, row, hc]

end Matrix

end GridInversion
