import GridInversion.Proofs.FiniteOrders
import GridInversion.Proofs.SignedZeros

namespace GridInversion

/-- Scalars whose differences change their sign when the two values change places, and whose
absolute values do not see the sign.  A zero may keep the sign that it has. -/
class MirrorsDifferences (α : Type) [Scalar α] : Prop where
  sub_swap : ∀ x y : α, y - x = -(x - y) ∨ (x - y == 0) = true ∧ (y - x == 0) = true
  abs_neg : ∀ x : α,
    Scalar.abs (-x) = Scalar.abs x ∨ (x == 0) = true ∧ (-x == 0) = true

theorem MirrorsDifferences.abs_sub_swap {α : Type} [Scalar α] [MirrorsDifferences α] (x y : α) :
    Scalar.abs (y - x) = Scalar.abs (x - y) ∨ (x - y == 0) = true ∧ (y - x == 0) = true := by
  rcases sub_swap x y with h | h
  · rw [h]
    exact abs_neg (x - y)
  · exact .inr h

theorem Scalar.abs_neg_of_sign {α : Type} [Scalar α] {x : α} (hneg : - -x = x)
    (hsign : -x = x ∨ (x < 0 ↔ ¬ -x < 0)) : Scalar.abs (-x) = Scalar.abs x := by
  rcases hsign with h | h
  · rw [h]
  · unfold Scalar.abs
    by_cases hx : x < 0
    · rw [if_neg (h.mp hx), if_pos hx]
    · rw [if_pos (not_not.mp (mt h.mpr hx)), if_neg hx, hneg]

instance {K : Type} [ExactOrderedField K] : MirrorsDifferences K where
  sub_swap := fun x y => .inl (neg_sub x y).symm
  abs_neg := fun x => .inl (by rw [Scalar.abs_eq_abs, Scalar.abs_eq_abs, abs_neg])

namespace MachineScalar

open Float.Model
open Float.Model.UnpackedFloat hiding pack unpack

variable {spec : Format} {x y : UnpackedFloat}

theorem neg_neg_sign (sign : Sign) : - -sign = sign := by
  cases sign <;> rfl

theorem neg_neg_unpacked (x : UnpackedFloat) : x.neg.neg = x := by
  cases x with
  | notANumber => rfl
  | infinity sign => exact congrArg _ (neg_neg_sign sign)
  | zero sign => exact congrArg _ (neg_neg_sign sign)
  | finite sign mantissa exponent hpos => exact (finite.injEq ..).mpr ⟨neg_neg_sign sign, rfl, rfl⟩

theorem neg_round (sign : Sign) (mantissa : ℕ) (exponent : ℤ) :
    (UnpackedFloat.round spec sign mantissa exponent).neg =
      UnpackedFloat.round spec (-sign) mantissa exponent := by
  unfold UnpackedFloat.round roundWithAccuracy
  dsimp only
  split_ifs <;> rfl

theorem neg_normalize (mantissa exponent : ℤ) (hmantissa : mantissa ≠ 0) (sign : Sign) :
    (UnpackedFloat.normalize spec mantissa exponent sign).neg =
      UnpackedFloat.normalize spec (-mantissa) exponent sign := by
  rcases lt_or_gt_of_ne hmantissa with hneg | hpos
  · rw [UnpackedFloat.normalize, UnpackedFloat.normalize, Int.compare_eq_lt.mpr hneg,
      Int.compare_eq_gt.mpr (by omega)]
    exact neg_round _ _ _
  · rw [UnpackedFloat.normalize, UnpackedFloat.normalize, Int.compare_eq_gt.mpr hpos,
      Int.compare_eq_lt.mpr (by omega), neg_neg]
    exact neg_round _ _ _

theorem sub_finite_swap (spec : Format) (sign sign' : Sign) (mantissa mantissa' : ℕ)
    (exponent exponent' : ℤ) (hpos : 0 < mantissa) (hpos' : 0 < mantissa') :
    ∃ d e : ℤ, UnpackedFloat.sub spec (.finite sign mantissa exponent hpos)
        (.finite sign' mantissa' exponent' hpos') = UnpackedFloat.normalize spec d e .positive ∧
      UnpackedFloat.sub spec (.finite sign' mantissa' exponent' hpos')
        (.finite sign mantissa exponent hpos) = UnpackedFloat.normalize spec (-d) e .positive := by
  refine ⟨_, _, rfl, ?_⟩
  rw [neg_sub, min_comm]
  rfl

/-- The two differences of two values are negations of each other, or both are zeros. -/
theorem unpacked_sub_swap (spec : Format) (x y : UnpackedFloat) :
    UnpackedFloat.sub spec y x = (UnpackedFloat.sub spec x y).neg ∨
      IsZero (UnpackedFloat.sub spec x y) ∧ IsZero (UnpackedFloat.sub spec y x) := by
  cases x with
  | notANumber => cases y <;> exact .inl rfl
  | infinity sign =>
      cases y with
      | infinity sign' => cases sign <;> cases sign' <;> exact .inl rfl
      | _ => exact .inl rfl
  | zero sign =>
      cases y with
      | notANumber => exact .inl rfl
      | infinity sign' => exact .inl (congrArg _ (neg_neg_sign sign').symm)
      | zero sign' => cases sign <;> cases sign' <;> exact .inr ⟨⟨_, rfl⟩, ⟨_, rfl⟩⟩
      | finite sign' mantissa exponent hpos =>
          exact .inl ((finite.injEq ..).mpr ⟨(neg_neg_sign sign').symm, rfl, rfl⟩)
  | finite sign mantissa exponent hpos =>
      cases y with
      | notANumber => exact .inl rfl
      | infinity sign' => exact .inl (congrArg _ (neg_neg_sign sign').symm)
      | zero sign' => exact .inl rfl
      | finite sign' mantissa' exponent' hpos' =>
          obtain ⟨d, e, hsub, hswap⟩ :=
            sub_finite_swap spec sign sign' mantissa mantissa' exponent exponent' hpos hpos'
          rw [hsub, hswap]
          rcases eq_or_ne d 0 with rfl | hd
          · exact .inr ⟨⟨_, rfl⟩, ⟨_, rfl⟩⟩
          · exact .inl (neg_normalize d e hd .positive).symm

theorem isZero_neg (h : IsZero x) : IsZero x.neg := by
  obtain ⟨sign, rfl⟩ := h
  exact ⟨-sign, rfl⟩

theorem isZero_unpack_pack (h : IsZero x) :
    IsZero (UnpackedFloat.unpack spec (UnpackedFloat.pack spec x)) := by
  obtain ⟨sign, rfl⟩ := h
  exact ⟨sign, unpack_packedZero⟩

/-- The same for differences that are rounded to a format. -/
theorem unpack_sub_swap (hbits : 2 ≤ spec.exponentBits) (x y : UnpackedFloat) :
    UnpackedFloat.unpack spec (UnpackedFloat.pack spec (UnpackedFloat.sub spec y x)) =
        UnpackedFloat.unpack spec (UnpackedFloat.pack spec (UnpackedFloat.unpack spec
          (UnpackedFloat.pack spec (UnpackedFloat.sub spec x y))).neg) ∨
      IsZero (UnpackedFloat.unpack spec
          (UnpackedFloat.pack spec (UnpackedFloat.sub spec x y))) ∧
        IsZero (UnpackedFloat.unpack spec
          (UnpackedFloat.pack spec (UnpackedFloat.sub spec y x))) := by
  rcases unpacked_sub_swap spec x y with h | ⟨hz, hz'⟩
  · refine .inl ?_
    rw [unpack_pack_neg_unpack valid_pack hbits, h, unpack_pack_neg]
  · exact .inr ⟨isZero_unpack_pack hz, isZero_unpack_pack hz'⟩

/-- Of a value and its negation one is below zero, unless they are the same or zeros. -/
theorem neg_eq_or_lt_zero_iff (x : UnpackedFloat) : IsZero x ∨ x.neg = x ∨
    (x.lt (.zero .positive) = true ↔ ¬ x.neg.lt (.zero .positive) = true) := by
  cases x with
  | notANumber => exact .inr (.inl rfl)
  | infinity sign => cases sign <;> exact .inr (.inr (by decide))
  | zero sign => exact .inl ⟨sign, rfl⟩
  | finite sign mantissa exponent hpos =>
      refine .inr (.inr ?_)
      cases sign
      · exact iff_of_true rfl Bool.false_ne_true
      · exact iff_of_false Bool.false_ne_true (not_not.mpr rfl)

instance : MirrorsDifferences Float where
  sub_swap := fun x y => (unpack_sub_swap (by decide) x.toModel.unpack y.toModel.unpack).imp
    eq_of_unpack_double (And.imp isZero_double.mpr isZero_double.mpr)
  abs_neg := fun x => by
    have hneg := unpack_neg_double x
    have hback : - -x = x := eq_of_unpack_double (by
      rw [unpack_neg_double, hneg, neg_neg_unpacked])
    rcases neg_eq_or_lt_zero_iff x.toModel.unpack with hzero | hsign
    · exact .inr ⟨isZero_double.mpr hzero, isZero_double.mpr (hneg ▸ isZero_neg hzero)⟩
    · rw [← hneg] at hsign
      refine .inl (Scalar.abs_neg_of_sign hback (hsign.imp eq_of_unpack_double fun h => ?_))
      rwa [lt_iff_unpacked_double, lt_iff_unpacked_double]

instance : MirrorsDifferences Float32 where
  sub_swap := fun x y => (unpack_sub_swap (by decide) x.toModel.unpack y.toModel.unpack).imp
    eq_of_unpack_single (And.imp isZero_single.mpr isZero_single.mpr)
  abs_neg := fun x => by
    have hneg := unpack_neg_single x
    have hback : - -x = x := eq_of_unpack_single (by
      rw [unpack_neg_single, hneg, neg_neg_unpacked])
    rcases neg_eq_or_lt_zero_iff x.toModel.unpack with hzero | hsign
    · exact .inr ⟨isZero_single.mpr hzero, isZero_single.mpr (hneg ▸ isZero_neg hzero)⟩
    · rw [← hneg] at hsign
      refine .inl (Scalar.abs_neg_of_sign hback (hsign.imp eq_of_unpack_single fun h => ?_))
      rwa [lt_iff_unpacked_single, lt_iff_unpacked_single]

end MachineScalar

end GridInversion
