import GridInversion.Proofs.FiniteInverses
import GridInversion.Proofs.SignedZeros
import GridInversion.Proofs.Thresholds

namespace GridInversion

variable {α : Type} [Scalar α]

/-- The same value, or two that both compare equal to zero. -/
def EqUpToZeros (x y : α) : Prop := x = y ∨ (x == 0) = true ∧ (y == 0) = true

namespace EqUpToZeros

variable {x y z : α}

theorem refl (x : α) : EqUpToZeros x x := .inl rfl

theorem trans (hxy : EqUpToZeros x y) (hyz : EqUpToZeros y z) : EqUpToZeros x z := by
  rcases hxy with rfl | ⟨hx, hy⟩
  · exact hyz
  · rcases hyz with rfl | ⟨-, hz⟩
    · exact .inr ⟨hx, hy⟩
    · exact .inr ⟨hx, hz⟩

theorem beq_zero (h : EqUpToZeros x y) (hy : (y == 0) = true) : (x == 0) = true := by
  rcases h with rfl | ⟨hx, -⟩
  · exact hy
  · exact hx

theorem eq_of_left_ne_zero (h : EqUpToZeros x y) (hx : (x == 0) = false) : x = y := by
  rcases h with rfl | ⟨hzero, -⟩
  · rfl
  · rw [hx] at hzero
    cases hzero

theorem eq_of_right_ne_zero (h : EqUpToZeros x y) (hy : (y == 0) = false) : x = y := by
  rcases h with rfl | ⟨-, hzero⟩
  · rfl
  · rw [hy] at hzero
    cases hzero

theorem div [SignedZeros α] (h : EqUpToZeros x y) (hz : Scalar.isFinite z = true)
    (hnonzero : (z == 0) = false) : EqUpToZeros (x / z) (y / z) := by
  rcases h with rfl | ⟨hx, hy⟩
  · exact refl _
  · exact .inr ⟨SignedZeros.zero_div x z hx hz hnonzero, SignedZeros.zero_div y z hy hz hnonzero⟩

end EqUpToZeros

/-- Where there is anything but zeros, the zeros are finite: to subtract one changes nothing. -/
theorem SignedZeros.finite_of_beq_zero [SignedZeros α] {x z : α}
    (hx : Scalar.isFinite x = true) (hnonzero : (x == 0) = false) (hz : (z == 0) = true) :
    Scalar.isFinite z = true := by
  have hsame : Scalar.isFinite (x - z) = true := by rwa [SignedZeros.sub_zero x z hnonzero hz]
  exact (SpreadsNonFinite.finite_of_sub x z hsame).2

namespace Cells

variable {a : Cells α} {n k r y x : Nat}

/-- Below the diagonal all cells compare equal to zero. -/
def UpperTriangular (n : Nat) (a : Cells α) : Prop := ∀ y < n, ∀ x < y, (a y x == 0) = true

def LowerTriangular (n : Nat) (a : Cells α) : Prop := ∀ x < n, ∀ y < x, (a y x == 0) = true

instance (n : Nat) (a : Cells α) : Decidable (a.UpperTriangular n) :=
  inferInstanceAs (Decidable (∀ y < n, ∀ x < y, (a y x == 0) = true))

instance (n : Nat) (a : Cells α) : Decidable (a.LowerTriangular n) :=
  inferInstanceAs (Decidable (∀ x < n, ∀ y < x, (a y x == 0) = true))

/-- The cells of the identity, each divided by the diagonal cell of its row. -/
def identityOver (a : Cells α) : Cells α := fun y x => (if x = y then 1 else 0) / a y y

theorem augmented_add (n : Nat) (a : Cells α) (y x : Nat) :
    a.augmented n y (x + n) = if x = y then 1 else 0 := by
  rw [augmented, if_neg (Nat.not_lt.mpr (Nat.le_add_left n x)), Nat.add_sub_cancel]

theorem settle_of_beq_zero (h : (a y r == 0) = true) (x : Nat) : a.settle r y x = a y x :=
  if_pos h

theorem settle_pivot_row (h : (a r r == 0) = false) (x : Nat) :
    a.settle r r x = a r x / a r r := by
  rw [settle, if_neg (Bool.eq_false_iff.mp h), if_pos rfl]

section Upper

variable (h : a.UpperTriangular n)
include h

/-- A row stays as it is up to the pass for its own pivot. -/
theorem settled_of_upper (hk : k ≤ y) (hy : y < n) (x : Nat) :
    (a.augmented n).settled k y x = a.augmented n y x := by
  induction k generalizing x with
  | zero => rfl
  | succ k ih =>
      have hearlier := ih (Nat.le_of_succ_le hk)
      have hzero : ((a.augmented n).settled k y k == 0) = true := by
        rw [hearlier, augmented, if_pos (Nat.lt_trans hk hy)]
        exact h y hy k hk
      rw [settled, settle_of_beq_zero hzero, hearlier]

theorem pivot_of_upper (hr : r < n) : (a.augmented n).pivot r = a r r := by
  rw [pivot, settled_of_upper h (Nat.le_refl r) hr, augmented, if_pos hr]

theorem settled_succ_of_upper (hr : r < n) (hpivot : (a r r == 0) = false) (x : Nat) :
    (a.augmented n).settled (r + 1) r (x + n) = a.identityOver r x := by
  have hsame : (a.augmented n).settled r r r = a r r := pivot_of_upper h hr
  rw [settled, settle_pivot_row (hsame ▸ hpivot), hsame, settled_of_upper h (Nat.le_refl r) hr,
    augmented_add, identityOver]

end Upper

variable [SignedZeros α]

/-- Where the pivot row holds a zero, a pass changes no cell but by the sign of a zero. -/
theorem settle_eqUpToZeros (hpivot : Scalar.isFinite (a r r) = true)
    (hnonzero : (a r r == 0) = false)
    (hfactor : (a y r == 0) = false → Scalar.isFinite (a y r) = true)
    (hzero : (a r x == 0) = true) : EqUpToZeros (a.settle r y x) (a y x) := by
  by_cases hskip : (a y r == 0) = true
  · rw [settle_of_beq_zero hskip]
    exact .refl _
  by_cases hy : y = r
  · subst hy
    rw [settle_pivot_row hnonzero]
    exact .inr ⟨SignedZeros.zero_div _ _ hzero hpivot hnonzero, hzero⟩
  · rw [settle, if_neg hskip, if_neg hy]
    have hproduct := SignedZeros.mul_zero _ _ (hfactor (Bool.eq_false_iff.mpr hskip)) hzero
    have hquotient := SignedZeros.zero_div _ _ hproduct hpivot hnonzero
    by_cases hcell : (a y x == 0) = true
    · exact .inr ⟨SignedZeros.zero_sub_zero _ _ hcell hquotient, hcell⟩
    · exact .inl (SignedZeros.sub_zero _ _ (Bool.eq_false_iff.mpr hcell) hquotient)

/-- Later passes reach a row through cells on or above the diagonal only, and there they
subtract multiples of the zeros that stand left of the diagonal. -/
theorem inverse_of_upper (h : a.UpperTriangular n)
    (hdiagonal : ∀ i < n, Scalar.isFinite (a i i) = true ∧ (a i i == 0) = false)
    {c : Nat} (houtcome : Scalar.isFinite (a.inverse n y c) = true) (hy : y < n) (hx : x ≤ y) :
    EqUpToZeros (a.inverse n y x) (a.identityOver y x) := by
  have hlater : ∀ k, y + 1 ≤ k → k ≤ n →
      EqUpToZeros ((a.augmented n).settled k y (x + n)) (a.identityOver y x) := by
    intro k hk
    induction k, hk using Nat.le_induction with
    | base =>
        intro _
        rw [settled_succ_of_upper h hy (hdiagonal y hy).2]
        exact .refl _
    | succ k hk ih =>
        intro hn
        have hpivot : (a.augmented n).settled k k k = a k k := pivot_of_upper h hn
        have hrow : ((a.augmented n).settled k k (x + n) == 0) = true := by
          rw [settled_of_upper h (Nat.le_refl k) hn, augmented_add, if_neg (by omega)]
          exact SignedZeros.zero_beq_zero
        refine (settle_eqUpToZeros ?_ ?_ (fun hfactor => ?_) hrow).trans
          (ih (Nat.le_of_succ_le hn))
        · exact hpivot.symm ▸ (hdiagonal k hn).1
        · exact hpivot.symm ▸ (hdiagonal k hn).2
        · exact finite_factor_of_finite_settle (Nat.ne_of_lt hk) hfactor
            (finite_of_finite_settled hn houtcome)
  exact hlater n hy (Nat.le_refl n)

section Lower

variable (h : a.LowerTriangular n)
  (hfinite : ∀ y < n, ∀ x < n, Scalar.isFinite (a y x) = true)
include h hfinite

/-- A column stays as it is, but for the signs of its zeros, up to the pass for its pivot. -/
theorem settled_of_lower (hk : k ≤ n) (hdiagonal : ∀ i < k, (a i i == 0) = false) (hy : y < n)
    (hkx : k ≤ x) (hx : x < n) : EqUpToZeros ((a.augmented n).settled k y x) (a y x) := by
  induction k generalizing y x with
  | zero =>
      rw [settled, augmented, if_pos hx]
      exact .refl _
  | succ k ih =>
      have hearlier : ∀ {y x : Nat}, y < n → k ≤ x → x < n →
          EqUpToZeros ((a.augmented n).settled k y x) (a y x) :=
        ih (Nat.le_of_succ_le hk) fun i hi => hdiagonal i (Nat.lt_succ_of_lt hi)
      have hpivot : (a.augmented n).settled k k k = a k k :=
        (hearlier hk (Nat.le_refl k) hk).eq_of_right_ne_zero (hdiagonal k (Nat.lt_succ_self k))
      refine (settle_eqUpToZeros ?_ ?_ (fun hfactor => ?_) ?_).trans
        (hearlier hy (Nat.le_of_succ_le hkx) hx)
      · exact hpivot.symm ▸ hfinite k hk k hk
      · exact hpivot.symm ▸ hdiagonal k (Nat.lt_succ_self k)
      · rw [(hearlier hy (Nat.le_refl k) hk).eq_of_left_ne_zero hfactor]
        exact hfinite y hy k hk
      · exact (hearlier hk (Nat.le_of_succ_le hkx) hx).beq_zero (h x hx k hkx)

theorem pivot_of_lower (hr : r < n) (hdiagonal : ∀ i < r, (a i i == 0) = false) :
    EqUpToZeros ((a.augmented n).pivot r) (a r r) :=
  settled_of_lower h hfinite (Nat.le_of_lt hr) hdiagonal hr (Nat.le_refl r) hr

variable (hdiagonal : ∀ i < n, (a i i == 0) = false)
include hdiagonal

theorem pivot_eq_of_lower (hr : r < n) : (a.augmented n).settled r r r = a r r :=
  (pivot_of_lower h hfinite hr fun i hi => hdiagonal i (Nat.lt_trans hi hr)).eq_of_right_ne_zero
    (hdiagonal r hr)

/-- On and above the diagonal the right half of a row stays the identity up to the pass for the
pivot of the row. -/
theorem settled_right_of_lower (hk : k ≤ y) (hy : y < n) (hx : y ≤ x) :
    EqUpToZeros ((a.augmented n).settled k y (x + n)) (if x = y then 1 else 0) := by
  induction k generalizing y x with
  | zero =>
      rw [settled, augmented_add]
      exact .refl _
  | succ k ih =>
      have hkn : k < n := Nat.lt_trans hk hy
      have hpivot := pivot_eq_of_lower h hfinite hdiagonal hkn
      have hrow := ih (Nat.le_refl k) hkn (Nat.le_trans (Nat.le_of_succ_le hk) hx)
      rw [if_neg (by omega)] at hrow
      refine (settle_eqUpToZeros ?_ ?_ (fun hfactor => ?_) ?_).trans
        (ih (Nat.le_of_succ_le hk) hy hx)
      · exact hpivot.symm ▸ hfinite k hkn k hkn
      · exact hpivot.symm ▸ hdiagonal k hkn
      · have hleft := settled_of_lower h hfinite (Nat.le_of_lt hkn)
          (fun i hi => hdiagonal i (Nat.lt_trans hi hkn)) hy (Nat.le_refl k) hkn
        rw [hleft.eq_of_left_ne_zero hfactor]
        exact hfinite y hy k hkn
      · exact hrow.beq_zero SignedZeros.zero_beq_zero

/-- Once its own pivot is settled, a row is left alone. -/
theorem settled_eq_of_lower (hk : y + 1 ≤ k) (hkn : k ≤ n) (x : Nat) :
    (a.augmented n).settled k y x = (a.augmented n).settled (y + 1) y x := by
  induction k, hk using Nat.le_induction with
  | base => rfl
  | succ k hk ih =>
      have hleft := settled_of_lower h hfinite (Nat.le_of_succ_le hkn)
        (fun i hi => hdiagonal i (Nat.lt_of_lt_of_le hi (Nat.le_of_succ_le hkn)))
        (Nat.lt_trans hk hkn) (Nat.le_refl k) hkn
      rw [settled, settle_of_beq_zero (hleft.beq_zero (h k hkn y hk)),
        ih (Nat.le_of_succ_le hkn)]

theorem inverse_of_lower (hy : y < n) (hx : y ≤ x) :
    EqUpToZeros (a.inverse n y x) (a.identityOver y x) := by
  have hpivot := pivot_eq_of_lower h hfinite hdiagonal hy
  rw [inverse, settled_eq_of_lower h hfinite hdiagonal hy (Nat.le_refl n), settled,
    settle_pivot_row (hpivot.symm ▸ hdiagonal y hy), hpivot]
  exact (settled_right_of_lower h hfinite hdiagonal (Nat.le_refl y) hy hx).div
    (hfinite y hy y hy) (hdiagonal y hy)

theorem inverse_of_diagonal (hupper : a.UpperTriangular n) (hy : y < n) (x : Nat) :
    a.inverse n y x = a.identityOver y x := by
  rw [inverse, settled_eq_of_lower h hfinite hdiagonal hy (Nat.le_refl n),
    settled_succ_of_upper hupper hy (hdiagonal y hy)]

end Lower

theorem identityOver_beq_zero (hfinite : Scalar.isFinite (a y y) = true)
    (hnonzero : (a y y == 0) = false) (hx : x ≠ y) : (a.identityOver y x == 0) = true := by
  rw [identityOver, if_neg hx]
  exact SignedZeros.zero_div _ _ SignedZeros.zero_beq_zero hfinite hnonzero

end Cells

namespace Inverter

variable [SignedZeros α] {v : Inverter α} {n r : Nat} {a : Cells α}

theorem abs_le_epsilon_of_beq_zero (hepsilon : 0 ≤ v.epsilon) {z : α} (hz : (z == 0) = true) :
    Scalar.abs z ≤ v.epsilon := by
  rw [Scalar.abs, if_neg (SignedZeros.not_lt_zero z hz), SignedZeros.le_iff z hz]
  exact hepsilon

theorem refuses_iff_of_eqUpToZeros (hepsilon : 0 ≤ v.epsilon) {p d : α}
    (hd : Scalar.isFinite d = true) (h : EqUpToZeros p d) :
    v.refuses p = true ↔ Scalar.abs d ≤ v.epsilon := by
  rcases h with rfl | ⟨hp, hzero⟩
  · rw [refuses, hd, Bool.not_true, Bool.false_or, decide_eq_true_iff]
  · have habs := abs_le_epsilon_of_beq_zero hepsilon hp
    rw [refuses, Bool.or_eq_true, decide_eq_true_iff]
    exact ⟨fun _ => abs_le_epsilon_of_beq_zero hepsilon hzero, fun _ => .inr habs⟩

theorem ne_zero_of_not_abs_le (hepsilon : 0 ≤ v.epsilon) {d : α}
    (h : ¬ Scalar.abs d ≤ v.epsilon) : (d == 0) = false :=
  Bool.eq_false_iff.mpr fun hzero => h (abs_le_epsilon_of_beq_zero hepsilon hzero)

theorem refuses_pivot_iff_of_triangular (hepsilon : 0 ≤ v.epsilon)
    (hfinite : ∀ y < n, ∀ x < n, Scalar.isFinite (a y x) = true)
    (htriangular : a.UpperTriangular n ∨ a.LowerTriangular n) (hr : r < n)
    (hearlier : ∀ i < r, ¬ Scalar.abs (a i i) ≤ v.epsilon) :
    v.refuses ((a.augmented n).pivot r) = true ↔ Scalar.abs (a r r) ≤ v.epsilon := by
  refine refuses_iff_of_eqUpToZeros hepsilon (hfinite r hr r hr) ?_
  rcases htriangular with hupper | hlower
  · exact .inl (Cells.pivot_of_upper hupper hr)
  · exact Cells.pivot_of_lower hlower hfinite hr fun i hi =>
      ne_zero_of_not_abs_le hepsilon (hearlier i hi)

theorem accepts_iff_of_triangular (hepsilon : 0 ≤ v.epsilon)
    (hfinite : ∀ y < n, ∀ x < n, Scalar.isFinite (a y x) = true)
    (htriangular : a.UpperTriangular n ∨ a.LowerTriangular n) :
    v.Accepts (a.augmented n) n ↔ ∀ i < n, ¬ Scalar.abs (a i i) ≤ v.epsilon :=
  accepts_iff_forall (fun _ hi _ hearlier =>
    refuses_pivot_iff_of_triangular hepsilon hfinite htriangular hi hearlier) (Nat.le_refl n)

theorem isFinite_identityOver_iff (hfinite : ∀ i < n, Scalar.isFinite (a i i) = true)
    (hnonzero : ∀ i < n, (a i i == 0) = false) :
    (Matrix.ofFn n n a.identityOver).isFinite = true ↔
      ∀ i < n, Scalar.isFinite (1 / a i i) = true := by
  rw [Matrix.isFinite, Array.all_eq_true_iff_forall_mem,
    (Matrix.hasCells_ofFn n n a.identityOver).forall_mem_data_iff]
  constructor
  · intro h i hi
    have hcell := h i hi i hi
    rwa [Cells.identityOver, if_pos rfl] at hcell
  · intro h y hy x _
    by_cases hx : x = y
    · rw [Cells.identityOver, if_pos hx]
      exact h y hy
    · exact SignedZeros.finite_of_beq_zero (hfinite y hy) (hnonzero y hy)
        (Cells.identityOver_beq_zero (hfinite y hy) (hnonzero y hy) hx)

/-- A diagonal matrix is inverted cell by cell, unless a reciprocal overflows. -/
theorem invert_diagonal (contract : v.engine.Faithful) (hepsilon : 0 ≤ v.epsilon) (hn : 1 ≤ n)
    {m : Matrix α} (hm : m.HasCells ⟨n, n⟩ a)
    (hfinite : ∀ y < n, ∀ x < n, Scalar.isFinite (a y x) = true)
    (hupper : a.UpperTriangular n) (hlower : a.LowerTriangular n)
    (hlarge : ∀ i < n, ¬ Scalar.abs (a i i) ≤ v.epsilon) (s : v.engine.State) :
    (v.invert m s).result =
      if ∀ i < n, Scalar.isFinite (1 / a i i) = true then .ok (Matrix.ofFn n n a.identityOver)
      else .error (.error .nonFinite) := by
  have hnonzero : ∀ i < n, (a i i == 0) = false := fun i hi =>
    ne_zero_of_not_abs_le hepsilon (hlarge i hi)
  have haccepts := (accepts_iff_of_triangular hepsilon hfinite (.inl hupper)).mpr hlarge
  have hinverse : Matrix.ofFn n n (a.inverse n) = Matrix.ofFn n n a.identityOver :=
    (Matrix.hasCells_ofFn n n _).ext (Matrix.hasCells_ofFn n n _) fun y x hy _ =>
      Cells.inverse_of_diagonal hlower hfinite hnonzero hupper hy x
  rw [invert_result_of_accepts contract hm (Nat.ne_of_gt hn) haccepts, hinverse]
  exact if_congr (isFinite_identityOver_iff (fun i hi => hfinite i hi i hi) hnonzero) rfl rfl

theorem invert_identity (contract : v.engine.Faithful) (hepsilon : 0 ≤ v.epsilon) (hn : 1 ≤ n)
    (hone : Scalar.isFinite (1 : α) = true) (hlarge : ¬ Scalar.abs (1 : α) ≤ v.epsilon)
    (hreciprocal : Scalar.isFinite ((1 : α) / 1) = true) (s : v.engine.State) :
    (v.invert (Matrix.identity n) s).result =
      .ok (Matrix.ofFn n n fun y x => (if x = y then 1 else 0) / 1) := by
  obtain ⟨a, ha⟩ : ∃ a : Cells α, a = fun y x => if y = x then 1 else 0 := ⟨_, rfl⟩
  have hm : (Matrix.identity n : Matrix α).HasCells ⟨n, n⟩ a := ha ▸ Matrix.hasCells_identity n
  have hdiagonal : ∀ i, a i i = 1 := by
    intro i
    rw [ha]
    exact if_pos rfl
  have hzero : ∀ {y x : Nat}, y ≠ x → (a y x == 0) = true := by
    intro y x hne
    rw [ha]
    simp only [if_neg hne]
    exact SignedZeros.zero_beq_zero
  have hfinite : ∀ y < n, ∀ x < n, Scalar.isFinite (a y x) = true := by
    intro y _ x _
    by_cases hyx : y = x
    · subst hyx
      exact hdiagonal y ▸ hone
    · exact SignedZeros.finite_of_beq_zero hone (ne_zero_of_not_abs_le hepsilon hlarge) (hzero hyx)
  have hresult := invert_diagonal contract hepsilon hn hm hfinite
    (fun y _ x hx => hzero (Nat.ne_of_gt hx)) (fun x _ y hy => hzero (Nat.ne_of_lt hy))
    (fun i _ => (hdiagonal i).symm ▸ hlarge) s
  rw [if_pos fun i _ => (hdiagonal i).symm ▸ hreciprocal] at hresult
  have hcells : a.identityOver = fun y x => (if x = y then 1 else 0) / 1 := by
    funext y x
    rw [Cells.identityOver, hdiagonal]
  rw [hresult, ← hcells]

/-- The inverse of a triangular matrix agrees with the identity over the diagonal of the matrix
on one side of the diagonal and on it. -/
theorem cells_of_invert (contract : v.engine.Faithful) (hepsilon : 0 ≤ v.epsilon) (hn : 1 ≤ n)
    {m x : Matrix α} (hm : m.HasCells ⟨n, n⟩ a)
    (hfinite : ∀ y < n, ∀ x < n, Scalar.isFinite (a y x) = true) {s : v.engine.State}
    (hx : (v.invert m s).result = .ok x) :
    (a.UpperTriangular n → x.cells.UpperTriangular n) ∧
    (a.LowerTriangular n → x.cells.LowerTriangular n) ∧
    (a.UpperTriangular n ∨ a.LowerTriangular n →
      x.Fits ⟨n, n⟩ ∧ ∀ r < n, x.cells r r = 1 / a r r) := by
  obtain ⟨haccepts, hcells, hxfinite⟩ :=
    (ends_invert contract hm (Nat.ne_of_gt hn)).of_result_ok hx
  have hoverflow := hcells.forall_mem_data_iff.mp (Array.all_eq_true_iff_forall_mem.mp hxfinite)
  have hnonzero : a.UpperTriangular n ∨ a.LowerTriangular n → ∀ i < n, (a i i == 0) = false :=
    fun htriangular i hi => ne_zero_of_not_abs_le hepsilon
      ((accepts_iff_of_triangular hepsilon hfinite htriangular).mp haccepts i hi)
  have hupper : a.UpperTriangular n → ∀ y < n, ∀ c ≤ y,
      EqUpToZeros (x.cells y c) (a.identityOver y c) := by
    intro h y hy c hc
    rw [hcells.cells_eq hy (Nat.lt_of_le_of_lt hc hy)]
    exact Cells.inverse_of_upper h
      (fun i hi => ⟨hfinite i hi i hi, hnonzero (.inl h) i hi⟩) (hoverflow y hy 0 hn) hy hc
  have hlower : a.LowerTriangular n → ∀ y < n, ∀ c < n, y ≤ c →
      EqUpToZeros (x.cells y c) (a.identityOver y c) := by
    intro h y hy c hcn hc
    rw [hcells.cells_eq hy hcn]
    exact Cells.inverse_of_lower h hfinite (hnonzero (.inr h)) hy hc
  refine ⟨fun h y hy c hc => ?_, fun h c hc y hy => ?_, fun h => ⟨hcells.toFits, fun r hr => ?_⟩⟩
  · exact (hupper h y hy c (Nat.le_of_lt hc)).beq_zero
      (Cells.identityOver_beq_zero (hfinite y hy y hy) (hnonzero (.inl h) y hy) (Nat.ne_of_lt hc))
  · have hyn := Nat.lt_trans hy hc
    exact (hlower h y hyn c hc (Nat.le_of_lt hy)).beq_zero (Cells.identityOver_beq_zero
      (hfinite y hyn y hyn) (hnonzero (.inr h) y hyn) (Nat.ne_of_gt hy))
  · have heq : EqUpToZeros (x.cells r r) (a.identityOver r r) := by
      rcases h with h | h
      · exact hupper h r hr r (Nat.le_refl r)
      · exact hlower h r hr r hr (Nat.le_refl r)
    rw [Cells.identityOver, if_pos rfl] at heq
    exact heq.eq_of_right_ne_zero
      (SignedZeros.one_div _ (hfinite r hr r hr) (hnonzero h r hr))

/-- Triangular matrices are treated exactly, whatever is rounded: the pivot that is refused is
the first diagonal cell that is too small, and the inverse is triangular with the reciprocals
on its diagonal. -/
theorem invert_triangular (contract : v.engine.Faithful) (hepsilon : 0 ≤ v.epsilon)
    (hn : 1 ≤ n) {m : Matrix α} (hwell : m.WellFormed) (hshape : m.shape = ⟨n, n⟩)
    (hfinite : ∀ c ∈ m.data, Scalar.isFinite c = true) (s : v.engine.State) :
    (m.cells.UpperTriangular n ∨ m.cells.LowerTriangular n → ∀ r,
      (v.invert m s).result = .error (.error (.uninvertible r)) ↔
        IsLeast {i | i < n ∧ Scalar.abs (m.cells i i) ≤ v.epsilon} r) ∧
    (∀ x, (v.invert m s).result = .ok x →
      (m.cells.UpperTriangular n → x.cells.UpperTriangular n) ∧
      (m.cells.LowerTriangular n → x.cells.LowerTriangular n) ∧
      (m.cells.UpperTriangular n ∨ m.cells.LowerTriangular n →
        x.Fits ⟨n, n⟩ ∧ ∀ r < n, x.cells r r = 1 / m.cells r r)) ∧
    (m.cells.UpperTriangular n → m.cells.LowerTriangular n →
      (∀ i < n, ¬ Scalar.abs (m.cells i i) ≤ v.epsilon) →
        (v.invert m s).result =
          if ∀ i < n, Scalar.isFinite (1 / m.cells i i) = true then
            .ok (Matrix.ofFn n n m.cells.identityOver)
          else .error (.error .nonFinite)) ∧
    (Scalar.isFinite (1 : α) = true → ¬ Scalar.abs (1 : α) ≤ v.epsilon →
      Scalar.isFinite ((1 : α) / 1) = true →
        (v.invert (Matrix.identity n) s).result =
          .ok (Matrix.ofFn n n fun y x => (if x = y then 1 else 0) / 1)) := by
  have hm := (hwell.fits hshape).hasCells
  have hcells := hm.forall_mem_data_iff.mp hfinite
  refine ⟨fun htriangular r => ?_, fun x hx => ?_, fun hupper hlower hlarge => ?_,
    fun hone hlarge hreciprocal => ?_⟩
  · rw [invert_uninvertible_iff contract hm (Nat.ne_of_gt hn)]
    exact refusesFirst_iff_isLeast_setOf fun i hi _ hearlier =>
      refuses_pivot_iff_of_triangular hepsilon hcells htriangular hi hearlier
  · exact cells_of_invert contract hepsilon hn hm hcells hx
  · exact invert_diagonal contract hepsilon hn hm hcells hupper hlower hlarge s
  · exact invert_identity contract hepsilon hn hone hlarge hreciprocal s

/-- In double precision: the first row overflows before the last pivot is found to be zero, a
negative zero above the diagonal does no harm, and a reciprocal overflows. -/
theorem invert_triangular_double :
    ((⟨.serial, 0⟩ : Inverter Float).invert
        ⟨3, 3, #[1e-200, 1e200, 1, 0, 1e-200, 1e200, -0, 0, 0]⟩ ()).result =
      .error (.error (.uninvertible 2)) ∧
    (∃ x, ((⟨.serial, 0⟩ : Inverter Float).invert ⟨2, 2, #[3, -0, 1, 7]⟩ ()).result = .ok x ∧
      x.cells.LowerTriangular 2 ∧ ∀ r < 2, x.cells r r =
        1 / (⟨2, 2, #[3, -0, 1, 7]⟩ : Matrix Float).cells r r) ∧
    ((⟨.serial, 0⟩ : Inverter Float).invert ⟨2, 2, #[1e-310, -0, 0, 1]⟩ ()).result =
      .error (.error .nonFinite) := by
  have hepsilon : (0 : Float) ≤ 0 := by decide +kernel
  have hfinite : ∀ m : Matrix Float, m.isFinite = true →
      ∀ c ∈ m.data, Scalar.isFinite c = true := fun _ => Array.all_eq_true_iff_forall_mem.mp
  refine ⟨?_, ?_, ?_⟩
  · obtain ⟨hrefused, -⟩ := invert_triangular (v := ⟨.serial, 0⟩) Engine.faithful_serial hepsilon
      (n := 3) (by decide) (m := ⟨3, 3, #[1e-200, 1e200, 1, 0, 1e-200, 1e200, -0, 0, 0]⟩) rfl rfl
      (hfinite _ (by decide +kernel)) ()
    refine (hrefused (.inl (by decide +kernel)) 2).mpr ⟨⟨by decide, by decide +kernel⟩, ?_⟩
    rintro i ⟨-, hi⟩
    by_contra hlt
    have hlarge : ∀ i < 2, ¬ Scalar.abs ((⟨3, 3, #[1e-200, 1e200, 1, 0, 1e-200, 1e200, -0, 0, 0]⟩ :
        Matrix Float).cells i i) ≤ 0 := by decide +kernel
    exact hlarge i (Nat.lt_of_not_le hlt) hi
  · obtain ⟨-, hok, -⟩ := invert_triangular (v := ⟨.serial, 0⟩) Engine.faithful_serial hepsilon
      (n := 2) (by decide) (m := ⟨2, 2, #[3, -0, 1, 7]⟩) rfl rfl (hfinite _ (by decide +kernel)) ()
    have hlower : (⟨2, 2, #[3, -0, 1, 7]⟩ : Matrix Float).cells.LowerTriangular 2 := by
      decide +kernel
    have hinverted : ((⟨.serial, 0⟩ : Inverter Float).invert
        ⟨2, 2, #[3, -0, 1, 7]⟩ ()).result.toBool = true := by decide +kernel
    rcases hresult : ((⟨.serial, 0⟩ : Inverter Float).invert
        ⟨2, 2, #[3, -0, 1, 7]⟩ ()).result with fault | x
    · rw [hresult] at hinverted
      cases hinverted
    · obtain ⟨-, hxlower, hxdiagonal⟩ := hok x hresult
      exact ⟨x, rfl, hxlower hlower, (hxdiagonal (.inr hlower)).2⟩
  · obtain ⟨-, -, hdiagonal, -⟩ := invert_triangular (v := ⟨.serial, 0⟩) Engine.faithful_serial
      hepsilon (n := 2) (by decide) (m := ⟨2, 2, #[1e-310, -0, 0, 1]⟩) rfl rfl
      (hfinite _ (by decide +kernel)) ()
    refine (hdiagonal (by decide +kernel) (by decide +kernel) (by decide +kernel)).trans
      (if_neg fun hall => ?_)
    have hoverflow : ¬ ∀ i < 2, Scalar.isFinite
        (1 / (⟨2, 2, #[1e-310, -0, 0, 1]⟩ : Matrix Float).cells i i) = true := by decide +kernel
    exact hoverflow hall

end Inverter

end GridInversion
