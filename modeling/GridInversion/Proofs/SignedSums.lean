import GridInversion.Proofs.MachineBits
import GridInversion.Proofs.SignedZeros

namespace GridInversion

/-- Scalars with two zeros, told apart by their signs.  A zero times a finite value is a zero, and
nothing but the negative zero is changed by a zero that is added.  A sum is the negative zero only
when both of its terms are. -/
class SumsSignedZeros (α : Type) [Scalar α] : Prop where
  zero_ne_neg_zero : (0 : α) ≠ -0
  zero_mul : ∀ z x : α, (z == 0) = true → Scalar.isFinite x = true → (z * x == 0) = true
  add_zero : ∀ x z : α, x ≠ -0 → (z == 0) = true → x + z = x
  eq_neg_zero_of_add : ∀ x y : α, x + y = -0 → x = -0 ∧ y = -0

namespace MachineScalar

open Float.Model
open Float.Model.UnpackedFloat hiding pack unpack

variable {spec : Format} {x y : UnpackedFloat} {bits bits' : BitVec spec.numBits}

theorem isZero_mul_left (hx : IsZero x) (hy : y.isFinite = true) :
    IsZero (UnpackedFloat.unpack spec (UnpackedFloat.pack spec (UnpackedFloat.mul spec x y))) := by
  obtain ⟨sign, rfl⟩ := hx
  cases y with
  | notANumber => cases hy
  | infinity sign' => cases hy
  | zero sign' => exact ⟨_, unpack_packedZero⟩
  | finite sign' mantissa exponent hmantissa => exact ⟨_, unpack_packedZero⟩

theorem add_isZero (hx : x ≠ .zero .negative) (hy : IsZero y) : UnpackedFloat.add spec x y = x := by
  obtain ⟨sign, rfl⟩ := hy
  cases x with
  | notANumber => rfl
  | infinity sign' => rfl
  | zero sign' =>
      cases sign' with
      | positive => cases sign <;> rfl
      | negative => exact absurd rfl hx
  | finite sign' mantissa exponent hmantissa => rfl

theorem pack_add_isZero (hvalid : spec.Valid bits) (hbits : 2 ≤ spec.exponentBits)
    (hx : UnpackedFloat.unpack spec bits ≠ .zero .negative) (hy : IsZero y) :
    UnpackedFloat.pack spec (UnpackedFloat.add spec (UnpackedFloat.unpack spec bits) y) = bits := by
  rw [add_isZero hx hy, pack_unpack_of_valid hvalid hbits]

theorem isFinite_of_unpack_pack
    (h : (UnpackedFloat.unpack spec (UnpackedFloat.pack spec x)).isFinite = true) :
    x.isFinite = true := by
  cases x with
  | notANumber => simp [isFinite_unpack, UnpackedFloat.pack, packedNaN] at h
  | infinity sign => simp [isFinite_unpack, UnpackedFloat.pack, packedInfinity] at h
  | zero sign => rfl
  | finite sign mantissa exponent hmantissa => rfl

theorem minExponent_le_of_unpack {sign : Sign} {mantissa : ℕ} {exponent : ℤ}
    {hmantissa : 0 < mantissa}
    (h : UnpackedFloat.unpack spec bits = .finite sign mantissa exponent hmantissa) :
    spec.minExponent ≤ exponent := by
  rw [minExponent_eq]
  unfold UnpackedFloat.unpack at h
  dsimp only at h
  split at h
  · split at h <;> cases h
  · split at h
    · rename_i hzero
      split at h
      · cases h
      · cases h
        omega
    · rename_i hnonzero
      cases h
      have hpos : (unpackExponent bits).toNat ≠ 0 := fun hfield =>
        hnonzero (BitVec.eq_of_toNat_eq (by rw [hfield, BitVec.toNat_zero]))
      omega

theorem unpack_pack_round_shifted_ne_zero (hbits : 2 ≤ spec.exponentBits) {mantissa : ℕ}
    (hmantissa : 0 < mantissa) {exponent : ℤ} (hexponent : spec.minExponent ≤ exponent)
    (sign sign' : Sign) :
    UnpackedFloat.unpack spec (UnpackedFloat.pack spec
      (UnpackedFloat.round spec sign mantissa exponent)) ≠ .zero sign' := by
  unfold UnpackedFloat.round decreaseExponent
  dsimp only
  refine unpack_pack_round_ne_zero hbits ?_ ?_ _ _
  · rw [Nat.shiftLeft_eq]
    exact Nat.mul_pos hmantissa (Nat.two_pow_pos _)
  · dsimp only [Format.targetExponent]
    omega

/-- A sum of finite numbers that cancel is a positive zero, and any other sum is not rounded to
a zero. -/
theorem unpack_pack_normalize_ne (hbits : 2 ≤ spec.exponentBits) (mantissa : ℤ) {exponent : ℤ}
    (hexponent : spec.minExponent ≤ exponent) :
    UnpackedFloat.unpack spec (UnpackedFloat.pack spec
      (UnpackedFloat.normalize spec mantissa exponent .positive)) ≠ .zero .negative := by
  unfold UnpackedFloat.normalize
  split
  · rename_i hneg
    have hlt := Int.compare_eq_lt.mp hneg
    exact unpack_pack_round_shifted_ne_zero hbits (by omega) hexponent _ _
  · intro h
    cases unpack_packedZero.symm.trans h
  · rename_i hpos
    have hlt := Int.compare_eq_gt.mp hpos
    exact unpack_pack_round_shifted_ne_zero hbits (by omega) hexponent _ _

theorem zero_or_finite (hx : x.isFinite = true) :
    (∃ sign, x = .zero sign) ∨ ∃ sign mantissa exponent hmantissa,
      x = .finite sign mantissa exponent hmantissa := by
  cases x with
  | notANumber => cases hx
  | infinity sign => cases hx
  | zero sign => exact .inl ⟨sign, rfl⟩
  | finite sign mantissa exponent hmantissa => exact .inr ⟨_, _, _, _, rfl⟩

theorem eq_negative_zero_of_add (hbits : 2 ≤ spec.exponentBits) (hvalid : spec.Valid bits)
    (hvalid' : spec.Valid bits')
    (h : UnpackedFloat.unpack spec (UnpackedFloat.pack spec (UnpackedFloat.add spec
      (UnpackedFloat.unpack spec bits) (UnpackedFloat.unpack spec bits'))) = .zero .negative) :
    UnpackedFloat.unpack spec bits = .zero .negative ∧
      UnpackedFloat.unpack spec bits' = .zero .negative := by
  have hfinite : (UnpackedFloat.unpack spec (UnpackedFloat.pack spec (UnpackedFloat.add spec
      (UnpackedFloat.unpack spec bits) (UnpackedFloat.unpack spec bits')))).isFinite = true := by
    rw [h]
    rfl
  obtain ⟨hx, hy⟩ := finite_of_unpacked_add (isFinite_of_unpack_pack hfinite)
  rcases zero_or_finite hx with ⟨sign, hu⟩ | ⟨sign, m, e, hm, hu⟩ <;>
    rcases zero_or_finite hy with ⟨sign', hu'⟩ | ⟨sign', m', e', hm', hu'⟩ <;>
    rw [hu, hu'] at h ⊢
  · cases sign <;> cases sign' <;>
      first | exact ⟨rfl, rfl⟩ | cases unpack_packedZero.symm.trans h
  · have hsum : UnpackedFloat.unpack spec bits' = .zero .negative := by
      rw [← pack_unpack_of_valid hvalid' hbits, hu']
      exact h
    cases hu'.symm.trans hsum
  · have hsum : UnpackedFloat.unpack spec bits = .zero .negative := by
      rw [← pack_unpack_of_valid hvalid hbits, hu]
      exact h
    cases hu.symm.trans hsum
  · refine absurd h (unpack_pack_normalize_ne hbits _ (le_min ?_ ?_))
    · exact minExponent_le_of_unpack hu
    · exact minExponent_le_of_unpack hu'

theorem neg_zero_double_iff {x : Float} : x = -0 ↔ x.toModel.unpack = .zero .negative := by
  rw [← Float.toBits_inj, ← UInt64.toBitVec_inj]
  exact (unpack_eq_zero_iff_of_valid x.toModel.valid).symm

theorem neg_zero_single_iff {x : Float32} : x = -0 ↔ x.toModel.unpack = .zero .negative := by
  rw [← Float32.toBits_inj, ← UInt32.toBitVec_inj]
  exact (unpack_eq_zero_iff_of_valid x.toModel.valid).symm

instance : SumsSignedZeros Float where
  zero_ne_neg_zero := fun h => by cases neg_zero_double_iff.mp h
  zero_mul := fun _ _ hz hx => isZero_double.mpr (isZero_mul_left (isZero_double.mp hz) hx)
  add_zero := fun x z hx hz => Float.toBits_inj.mp (UInt64.toBitVec_inj.mp
    (pack_add_isZero x.toModel.valid (by decide) (fun h => hx (neg_zero_double_iff.mpr h))
      (isZero_double.mp hz)))
  eq_neg_zero_of_add := fun x y h => by
    rw [neg_zero_double_iff] at h
    rw [neg_zero_double_iff, neg_zero_double_iff]
    exact eq_negative_zero_of_add (by decide) x.toModel.valid y.toModel.valid h

instance : SumsSignedZeros Float32 where
  zero_ne_neg_zero := fun h => by cases neg_zero_single_iff.mp h
  zero_mul := fun _ _ hz hx => isZero_single.mpr (isZero_mul_left (isZero_single.mp hz) hx)
  add_zero := fun x z hx hz => Float32.toBits_inj.mp (UInt32.toBitVec_inj.mp
    (pack_add_isZero x.toModel.valid (by decide) (fun h => hx (neg_zero_single_iff.mpr h))
      (isZero_single.mp hz)))
  eq_neg_zero_of_add := fun x y h => by
    rw [neg_zero_single_iff] at h
    rw [neg_zero_single_iff, neg_zero_single_iff]
    exact eq_negative_zero_of_add (by decide) x.toModel.valid y.toModel.valid h

end MachineScalar

end GridInversion
