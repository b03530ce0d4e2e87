import Mathlib.Data.Prod.Lex
import Mathlib.Order.Compare
import GridInversion.MachineScalar
import GridInversion.Proofs.ExactField

namespace GridInversion

/-- Whatever compares equal to zero is finite. -/
class FiniteZeros (α : Type) [Scalar α] : Prop where
  finite_of_beq_zero : ∀ x : α, (x == 0) = true → Scalar.isFinite x = true

/-- A value that is not finite makes every difference and product that it enters not finite. -/
class SpreadsNonFinite (α : Type) [Scalar α] : Prop where
  finite_of_sub : ∀ x y : α,
    Scalar.isFinite (x - y) = true → Scalar.isFinite x = true ∧ Scalar.isFinite y = true
  finite_of_mul : ∀ x y : α,
    Scalar.isFinite (x * y) = true → Scalar.isFinite x = true ∧ Scalar.isFinite y = true

/-- It makes every sum that it enters not finite as well. -/
class SumsNonFinite (α : Type) [Scalar α] : Prop extends SpreadsNonFinite α where
  finite_of_add : ∀ x y : α,
    Scalar.isFinite (x + y) = true → Scalar.isFinite x = true ∧ Scalar.isFinite y = true

/-- It makes every quotient whose numerator it is not finite as well. -/
class PropagatesNonFinite (α : Type) [Scalar α] : Prop extends SpreadsNonFinite α where
  finite_of_div : ∀ x y : α, Scalar.isFinite (x / y) = true → Scalar.isFinite x = true

/-- A value that is not finite makes every sum, difference and product that it enters
not finite, and every quotient whose numerator it is. -/
class AbsorbsNonFinite (α : Type) [Scalar α] : Prop
    extends FiniteZeros α, SumsNonFinite α, PropagatesNonFinite α

/-- Zero is finite, and a change of sign does not change whether a value is. -/
class NegatesFinite (α : Type) [Scalar α] : Prop where
  isFinite_zero : Scalar.isFinite (0 : α) = true
  isFinite_neg : ∀ x : α, Scalar.isFinite (-x) = Scalar.isFinite x

theorem Scalar.isFinite_abs {α : Type} [Scalar α] [NegatesFinite α] (x : α) :
    Scalar.isFinite (Scalar.abs x) = Scalar.isFinite x := by
  unfold Scalar.abs
  split
  · exact NegatesFinite.isFinite_neg x
  · rfl

/-- No value becomes finite by a change of its sign. -/
class NegatesNonFinite (α : Type) [Scalar α] : Prop where
  finite_of_neg : ∀ x : α, Scalar.isFinite (-x) = true → Scalar.isFinite x = true

instance {α : Type} [Scalar α] [NegatesFinite α] : NegatesNonFinite α where
  finite_of_neg := fun x h => by rwa [NegatesFinite.isFinite_neg] at h

theorem Scalar.finite_of_abs {α : Type} [Scalar α] [NegatesNonFinite α] {x : α}
    (h : Scalar.isFinite (Scalar.abs x) = true) : Scalar.isFinite x = true := by
  unfold Scalar.abs at h
  split at h
  · exact NegatesNonFinite.finite_of_neg x h
  · exact h

/-- A value that is not finite makes every sum, difference and product that it enters not finite,
and stays so under a change of sign. -/
class KeepsNonFinite (α : Type) [Scalar α] : Prop
    extends FiniteZeros α, NegatesNonFinite α, SumsNonFinite α

instance {α : Type} [Scalar α] [AbsorbsNonFinite α] [NegatesNonFinite α] : KeepsNonFinite α where

/-- Whatever compares equal to zero compares with other values as zero does, though it
need not be the same value. -/
class ComparesZeros (α : Type) [Scalar α] : Prop extends FiniteZeros α where
  not_lt_zero : ∀ x : α, (x == 0) = true → ¬ x < 0
  le_iff : ∀ x : α, (x == 0) = true → ∀ y : α, x ≤ y ↔ 0 ≤ y

section Exact

instance {K : Type} [ExactRing K] : FiniteZeros K where
  finite_of_beq_zero := fun x _ => ExactRing.isFinite_eq_true x

instance {K : Type} [ExactField K] : AbsorbsNonFinite K where
  finite_of_add := fun x y _ => ⟨ExactRing.isFinite_eq_true x, ExactRing.isFinite_eq_true y⟩
  finite_of_sub := fun x y _ => ⟨ExactRing.isFinite_eq_true x, ExactRing.isFinite_eq_true y⟩
  finite_of_mul := fun x y _ => ⟨ExactRing.isFinite_eq_true x, ExactRing.isFinite_eq_true y⟩
  finite_of_div := fun x _ _ => ExactRing.isFinite_eq_true x

instance {K : Type} [ExactRing K] : NegatesFinite K where
  isFinite_zero := ExactRing.isFinite_eq_true 0
  isFinite_neg := fun x => by rw [ExactRing.isFinite_eq_true, ExactRing.isFinite_eq_true]

instance {K : Type} [ExactOrderedField K] : ComparesZeros K where
  not_lt_zero := fun x hx => by
    rw [(ExactRing.beq_iff_eq x 0).mp hx]
    exact lt_irrefl 0
  le_iff := fun x hx y => by rw [(ExactRing.beq_iff_eq x 0).mp hx]

end Exact

/-! The machine numbers satisfy these laws: their operations round the exact result for
the unpacked operands, and each law can be read off there. -/

namespace MachineScalar

open Float.Model

variable {x y : UnpackedFloat}

theorem finite_of_unpacked_add {format : Format}
    (h : (UnpackedFloat.add format x y).isFinite = true) :
    x.isFinite = true ∧ y.isFinite = true := by
  -- With an operand that is not finite, the sum reduces to a value that is not finite either.
  rcases x with (_ | _) | _ | _ | _ <;> rcases y with (_ | _) | _ | _ | _ <;>
    first | exact ⟨rfl, rfl⟩ | cases h

theorem finite_of_unpacked_sub {format : Format}
    (h : (UnpackedFloat.sub format x y).isFinite = true) :
    x.isFinite = true ∧ y.isFinite = true := by
  rcases x with (_ | _) | _ | _ | _ <;> rcases y with (_ | _) | _ | _ | _ <;>
    first | exact ⟨rfl, rfl⟩ | cases h

theorem finite_of_unpacked_mul {format : Format}
    (h : (UnpackedFloat.mul format x y).isFinite = true) :
    x.isFinite = true ∧ y.isFinite = true := by
  rcases x with (_ | _) | _ | _ | _ <;> rcases y with (_ | _) | _ | _ | _ <;>
    first | exact ⟨rfl, rfl⟩ | cases h

theorem finite_of_unpacked_div {format : Format}
    (h : (UnpackedFloat.div format x y).isFinite = true) : x.isFinite = true := by
  rcases x with (_ | _) | _ | _ | _ <;> rcases y with (_ | _) | _ | _ | _ <;>
    first | rfl | cases h

theorem finite_of_pack_double (h : (Float.Model.pack x).isFinite = true) :
    x.isFinite = true := by
  cases x with
  | notANumber => exact absurd h (by decide)
  | infinity sign => cases sign <;> exact absurd h (by decide)
  | zero sign => rfl
  | finite sign mantissa exponent hpos => rfl

theorem finite_of_pack_single (h : (Float32.Model.pack x).isFinite = true) :
    x.isFinite = true := by
  cases x with
  | notANumber => exact absurd h (by decide)
  | infinity sign => cases sign <;> exact absurd h (by decide)
  | zero sign => rfl
  | finite sign mantissa exponent hpos => rfl

theorem eq_zero_of_unpacked_beq (h : x.beq (.zero .positive) = true) :
    ∃ sign, x = .zero sign := by
  cases x with
  | notANumber => cases h
  | infinity sign => cases sign <;> cases h
  | zero sign => exact ⟨sign, rfl⟩
  | finite sign mantissa exponent hpos => cases sign <;> cases h

theorem isFinite_of_unpacked_beq (h : x.beq (.zero .positive) = true) : x.isFinite = true := by
  obtain ⟨sign, rfl⟩ := eq_zero_of_unpacked_beq h
  rfl

theorem unpacked_lt_eq_false (h : x.beq (.zero .positive) = true) :
    x.lt (.zero .positive) = false := by
  obtain ⟨sign, rfl⟩ := eq_zero_of_unpacked_beq h
  rfl

theorem unpacked_le_eq (h : x.beq (.zero .positive) = true) (y : UnpackedFloat) :
    x.le y = UnpackedFloat.le (.zero .positive) y := by
  obtain ⟨sign, rfl⟩ := eq_zero_of_unpacked_beq h
  cases y with
  | notANumber => rfl
  | infinity sign => cases sign <;> rfl
  | zero sign => rfl
  | finite sign mantissa exponent hpos => cases sign <;> rfl

instance : AbsorbsNonFinite Float where
  finite_of_beq_zero := fun _ h => isFinite_of_unpacked_beq h
  finite_of_add := fun _ _ h => finite_of_unpacked_add (finite_of_pack_double h)
  finite_of_sub := fun _ _ h => finite_of_unpacked_sub (finite_of_pack_double h)
  finite_of_mul := fun _ _ h => finite_of_unpacked_mul (finite_of_pack_double h)
  finite_of_div := fun _ _ h => finite_of_unpacked_div (finite_of_pack_double h)

instance : AbsorbsNonFinite Float32 where
  finite_of_beq_zero := fun _ h => isFinite_of_unpacked_beq h
  finite_of_add := fun _ _ h => finite_of_unpacked_add (finite_of_pack_single h)
  finite_of_sub := fun _ _ h => finite_of_unpacked_sub (finite_of_pack_single h)
  finite_of_mul := fun _ _ h => finite_of_unpacked_mul (finite_of_pack_single h)
  finite_of_div := fun _ _ h => finite_of_unpacked_div (finite_of_pack_single h)

theorem le_iff_unpacked_double (x y : Float) :
    x ≤ y ↔ x.toModel.unpack.le y.toModel.unpack = true := decide_eq_true_iff

theorem le_iff_unpacked_single (x y : Float32) :
    x ≤ y ↔ x.toModel.unpack.le y.toModel.unpack = true := decide_eq_true_iff

instance : ComparesZeros Float where
  finite_of_beq_zero := fun _ h => isFinite_of_unpacked_beq h
  not_lt_zero := fun _ h hlt =>
    Bool.false_ne_true ((unpacked_lt_eq_false h).symm.trans (of_decide_eq_true hlt))
  le_iff := fun x h y => by
    rw [le_iff_unpacked_double, le_iff_unpacked_double, unpacked_le_eq h]
    rfl

instance : ComparesZeros Float32 where
  finite_of_beq_zero := fun _ h => isFinite_of_unpacked_beq h
  not_lt_zero := fun _ h hlt =>
    Bool.false_ne_true ((unpacked_lt_eq_false h).symm.trans (of_decide_eq_true hlt))
  le_iff := fun x h y => by
    rw [le_iff_unpacked_single, le_iff_unpacked_single, unpacked_le_eq h]
    rfl

/-- The place of an unpacked number in the order of the machine numbers: first by kind and
sign, then by exponent and mantissa.  What is not a number has no place. -/
def place : UnpackedFloat → Option (ℤ ×ₗ ℤ ×ₗ ℤ)
  | .notANumber => none
  | .infinity .negative => some (toLex (-2, toLex (0, 0)))
  | .finite .negative mantissa exponent _ => some (toLex (-1, toLex (-exponent, -mantissa)))
  | .zero _ => some (toLex (0, toLex (0, 0)))
  | .finite .positive mantissa exponent _ => some (toLex (1, toLex (exponent, mantissa)))
  | .infinity .positive => some (toLex (2, toLex (0, 0)))

theorem isLE_compare_then_compare {e e' : ℤ} {m m' : ℕ} :
    ((compare e e').then (compare m m')).isLE = true ↔ e < e' ∨ e = e' ∧ m ≤ m' := by
  rcases lt_trichotomy e e' with h | rfl | h
  · simp [compare_lt_iff_lt.mpr h, h]
  · simp [Nat.isLE_compare]
  · simp [compare_gt_iff_gt.mpr h, h.not_gt, h.ne']

theorem isGE_compare_then_compare {e e' : ℤ} {m m' : ℕ} :
    ((compare e e').then (compare m m')).isGE = true ↔ e' < e ∨ e = e' ∧ m' ≤ m := by
  rcases lt_trichotomy e e' with h | rfl | h
  · simp [compare_lt_iff_lt.mpr h, h.not_gt, h.ne]
  · simp [Nat.isGE_compare]
  · simp [compare_gt_iff_gt.mpr h, h]

theorem unpacked_le_iff : x.le y = true ↔ ∃ p q, place x = some p ∧ place y = some q ∧ p ≤ q := by
  -- Both sides depend on the kinds and signs first, and on nothing else unless these agree.
  rcases x with (_ | _) | _ | _ | ⟨_ | _, _, _, _⟩ <;>
    rcases y with (_ | _) | _ | _ | ⟨_ | _, _, _, _⟩ <;>
    dsimp only [UnpackedFloat.le, UnpackedFloat.compare, place] <;>
    simp [Prod.Lex.le_iff, isLE_compare_then_compare, isGE_compare_then_compare] <;>
    rfl

theorem unpacked_le_trans {z : UnpackedFloat} (hxy : x.le y = true) (hyz : y.le z = true) :
    x.le z = true := by
  obtain ⟨p, q, hp, hq, hpq⟩ := unpacked_le_iff.mp hxy
  obtain ⟨q', r, hq', hr, hqr⟩ := unpacked_le_iff.mp hyz
  obtain rfl : q = q' := Option.some_inj.mp (hq.symm.trans hq')
  exact unpacked_le_iff.mpr ⟨p, r, hp, hr, hpq.trans hqr⟩

instance : IsTrans Float (· ≤ ·) where
  trans := by
    intro x y z hxy hyz
    rw [le_iff_unpacked_double] at *
    exact unpacked_le_trans hxy hyz

instance : IsTrans Float32 (· ≤ ·) where
  trans := by
    intro x y z hxy hyz
    rw [le_iff_unpacked_single] at *
    exact unpacked_le_trans hxy hyz

end MachineScalar

end GridInversion
