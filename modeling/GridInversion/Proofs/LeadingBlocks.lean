import Mathlib.Algebra.Group.Ext
import GridInversion.Proofs.ExactField
import GridInversion.Proofs.InversionVerdict

namespace GridInversion

variable {α : Type} [Scalar α] {a b : Cells α} {k r n n' : Nat}

namespace Cells

def AgreeWithin (k : Nat) (a b : Cells α) : Prop :=
  ∀ y < k, ∀ x < k, a y x = b y x

theorem AgreeWithin.augmented (h : AgreeWithin k a b) (hn : k ≤ n) (hn' : k ≤ n') :
    AgreeWithin k (a.augmented n) (b.augmented n') := by
  intro y hy x hx
  rw [Cells.augmented, Cells.augmented, if_pos (hx.trans_le hn), if_pos (hx.trans_le hn')]
  exact h y hy x hx

/-- The passes for the pivots of the block read no cell outside the block to compute one
inside it. -/
theorem AgreeWithin.settled (h : AgreeWithin k a b) {i : Nat} (hi : i ≤ k) :
    AgreeWithin k (a.settled i) (b.settled i) := by
  have hcolumns : AgreeOn k (· < k) a b := h
  exact hcolumns.settled hi fun _ hr => hr.trans_le hi

theorem AgreeWithin.pivot_eq (h : AgreeWithin k a b) (hr : r < k) : a.pivot r = b.pivot r :=
  h.settled hr.le r hr r hr

end Cells

namespace Inverter

variable {v w : Inverter α}

theorem refusesFirst_congr (hepsilon : v.epsilon = w.epsilon)
    (h : Cells.AgreeWithin (r + 1) a b) : v.RefusesFirst a r ↔ w.RefusesFirst b r := by
  have hrefuses : ∀ i ≤ r, v.refuses (a.pivot i) = w.refuses (b.pivot i) := by
    intro i hi
    rw [h.pivot_eq (Nat.lt_succ_of_le hi), refuses_congr hepsilon]
  unfold RefusesFirst Accepts
  rw [hrefuses r (Nat.le_refl r)]
  refine and_congr_right fun _ => forall₂_congr fun i hi => ?_
  rw [hrefuses i hi.le]

/-- Whether pivot `r` is the first to be refused can be seen from the leading block that
ends at it, in a matrix of any size, and whatever the order in which the engines work. -/
theorem singular_verdict_of_leading_block (contract : v.engine.Faithful)
    (contract' : w.engine.Faithful) (hepsilon : v.epsilon = w.epsilon) {m m' : Matrix α}
    (hwell : m.WellFormed) (hshape : m.shape = ⟨n, n⟩) (hwell' : m'.WellFormed)
    (hshape' : m'.shape = ⟨n', n'⟩) (hr : r < n) (hr' : r < n')
    (hblock : ∀ y ≤ r, ∀ x ≤ r, m.read? y x = m'.read? y x) (s : v.engine.State)
    (t : w.engine.State) :
    (v.invert m s).result = .error (.error (.uninvertible r)) ↔
      (w.invert m' t).result = .error (.error (.uninvertible r)) := by
  have hm := (hwell.fits hshape).hasCells
  have hm' := (hwell'.fits hshape').hasCells
  have hagree : Cells.AgreeWithin (r + 1) m.cells m'.cells := by
    intro y hy x hx
    rw [Matrix.cells, Matrix.cells,
      hblock y (Nat.le_of_lt_succ hy) x (Nat.le_of_lt_succ hx)]
  rw [invert_uninvertible_iff contract hm (Nat.ne_zero_of_lt hr),
    invert_uninvertible_iff contract' hm' (Nat.ne_zero_of_lt hr'),
    refusesFirst_congr hepsilon (hagree.augmented hr hr')]
  exact and_congr_left' (iff_of_true hr hr')

/-- A singular matrix of size two in the corner of one of size three. -/
theorem singular_verdict_of_leading_block_corner :
    (Engine.serial : Engine ℚ).Faithful ∧ (Engine.backwards : Engine ℚ).Faithful ∧
      ((⟨.backwards, 0⟩ : Inverter ℚ).invert ⟨3, 3, #[1, 2, 9, 2, 4, 8, 5, 7, 6]⟩ ()).result =
        .error (.error (.uninvertible 1)) := by
  have hsmall : ((⟨.serial, 0⟩ : Inverter ℚ).invert ⟨2, 2, #[1, 2, 2, 4]⟩ ()).result =
      .error (.error (.uninvertible 1)) := by cbv
  have hblock : ∀ y ≤ 1, ∀ x ≤ 1, (⟨2, 2, #[1, 2, 2, 4]⟩ : Matrix ℚ).read? y x =
      (⟨3, 3, #[1, 2, 9, 2, 4, 8, 5, 7, 6]⟩ : Matrix ℚ).read? y x := by
    intro y hy x hx
    rcases Nat.le_one_iff_eq_zero_or_eq_one.mp hy with rfl | rfl <;>
      rcases Nat.le_one_iff_eq_zero_or_eq_one.mp hx with rfl | rfl <;> rfl
  have hserial : (Engine.serial : Engine ℚ).Faithful := Engine.faithful_serial
  have hbackwards : (Engine.backwards : Engine ℚ).Faithful := Engine.faithful_backwards
  have hwell : (⟨2, 2, #[1, 2, 2, 4]⟩ : Matrix ℚ).WellFormed := rfl
  have hwell' : (⟨3, 3, #[1, 2, 9, 2, 4, 8, 5, 7, 6]⟩ : Matrix ℚ).WellFormed := rfl
  refine ⟨hserial, hbackwards, ?_⟩
  exact (singular_verdict_of_leading_block (v := ⟨.serial, 0⟩) (w := ⟨.backwards, 0⟩)
    hserial hbackwards rfl hwell rfl hwell' rfl (by decide) (by decide) hblock () ()).mp hsmall

end Inverter

end GridInversion
