import Mathlib
import GridInversion.Proofs.ScalarLaws

-- Only the whole of Mathlib has the lemmas on packing and unpacking floats.

namespace GridInversion

/-- Scalars whose zeros may differ in their signs.  They compare alike, and differences, products
and quotients carry them along; how other values are rounded is left open. -/
class SignedZeros (α : Type) [Scalar α] : Prop extends PropagatesNonFinite α where
  zero_beq_zero : ((0 : α) == 0) = true
  not_lt_zero : ∀ z : α, (z == 0) = true → ¬ z < 0
  le_iff : ∀ z : α, (z == 0) = true → ∀ y : α, z ≤ y ↔ 0 ≤ y
  mul_zero : ∀ x z : α, Scalar.isFinite x = true → (z == 0) = true → (x * z == 0) = true
  zero_div : ∀ z x : α, (z == 0) = true → Scalar.isFinite x = true → (x == 0) = false →
    (z / x == 0) = true
  one_div : ∀ x : α, Scalar.isFinite x = true → (x == 0) = false → (1 / x == 0) = false
  sub_zero : ∀ x z : α, (x == 0) = false → (z == 0) = true → x - z = x
  zero_sub_zero : ∀ z z' : α, (z == 0) = true → (z' == 0) = true → (z - z' == 0) = true

instance {K : Type} [ExactOrderedField K] : SignedZeros K where
  zero_beq_zero := (ExactRing.beq_iff_eq 0 0).mpr rfl
  not_lt_zero := ComparesZeros.not_lt_zero
  le_iff := ComparesZeros.le_iff
  mul_zero := fun x z _ hz => by
    rw [ExactRing.beq_iff_eq] at hz ⊢
    rw [hz, mul_zero]
  zero_div := fun z x hz _ _ => by
    rw [ExactRing.beq_iff_eq] at hz ⊢
    rw [hz, zero_div]
  one_div := fun x _ hx => by
    rw [← Bool.not_eq_true, ExactRing.beq_iff_eq] at hx ⊢
    exact one_div_ne_zero hx
  sub_zero := fun x z _ hz => by
    rw [(ExactRing.beq_iff_eq z 0).mp hz, sub_zero]
  zero_sub_zero := fun z z' hz hz' => by
    rw [ExactRing.beq_iff_eq] at hz hz' ⊢
    rw [hz, hz', sub_zero]

namespace MachineScalar

open Float.Model
open Float.Model.UnpackedFloat hiding pack unpack

variable {spec : Format} {sign : Sign} {mantissa : ℕ} {exponent : ℤ}

theorem mantissa_shiftRight (m : ExtendedMantissa) (k : ℕ) :
    (m >>> k).mantissa = m.mantissa / 2 ^ k := by
  induction k with
  | zero => exact (Nat.div_one _).symm
  | succ k ih =>
      change (m >>> k).mantissa / 2 = _
      rw [ih, Nat.div_div_eq_div_mul, Nat.pow_succ]

theorem mantissa_ofMantissaAndAccuracy (mantissa : ℕ) (accuracy : Accuracy) :
    (ExtendedMantissa.ofMantissaAndAccuracy mantissa accuracy).mantissa = mantissa := by
  rcases accuracy with _ | (_ | _ | _) <;> rfl

theorem le_roundedMantissa (m : ExtendedMantissa) : m.mantissa ≤ m.roundedMantissa := by
  rcases m with ⟨mantissa, _ | _, _ | _⟩ <;>
    simp [ExtendedMantissa.roundedMantissa, ExtendedMantissa.accuracy,
      Accuracy.roundToNearestEven]

/-- No number is shifted out of its format: what is left of the mantissa is not zero, and has no
more bits than the format has. -/
theorem shiftToTargetExponent_bounds (hmantissa : 0 < mantissa)
    (hexponent : spec.minExponent ≤ exponent) (accuracy : Accuracy) :
    let shifted := shiftToTargetExponent spec mantissa exponent accuracy
    0 < shifted.1.mantissa ∧ shifted.1.mantissa < 2 ^ spec.mantissaBits ∧
      spec.minExponent ≤ shifted.2 := by
  have hbits : spec.mantissaBits = 1 + spec.mantissaBitsWithoutImplicit := rfl
  let k := (spec.targetExponent (totalExponent mantissa exponent) - exponent).toNat
  have hlog : mantissa.log2 < k + spec.mantissaBits ∧ k ≤ mantissa.log2 := by
    dsimp only [k, Format.targetExponent, totalExponent]
    omega
  dsimp only [shiftToTargetExponent, shiftToExponent]
  rw [mantissa_shiftRight, mantissa_ofMantissaAndAccuracy]
  refine ⟨Nat.div_pos ?_ (Nat.two_pow_pos k), Nat.div_lt_of_lt_mul ?_, by omega⟩
  · exact (Nat.pow_le_pow_right Nat.two_pos hlog.2).trans (Nat.log2_self_le hmantissa.ne')
  · rw [← Nat.pow_add]
    exact Nat.lt_log2_self.trans_le (Nat.pow_le_pow_right Nat.two_pos hlog.1)

theorem roundWithAccuracy_eq_finite (hmantissa : 0 < mantissa)
    (hexponent : spec.minExponent ≤ exponent) (sign : Sign) (accuracy : Accuracy) :
    ∃ m e hm, roundWithAccuracy spec sign mantissa exponent accuracy = .finite sign m e hm ∧
      m < 2 ^ spec.mantissaBits ∧ spec.minExponent ≤ e := by
  obtain ⟨hpos, -, he⟩ := shiftToTargetExponent_bounds hmantissa hexponent accuracy
  obtain ⟨hpos', hlt, he'⟩ :=
    shiftToTargetExponent_bounds (hpos.trans_le (le_roundedMantissa _)) he .exact
  exact ⟨_, _, hpos', dif_neg hpos'.ne', hlt, he'⟩

theorem minExponent_eq (spec : Format) :
    spec.minExponent = 1 - (spec.exponentBias : ℤ) - spec.mantissaBitsWithoutImplicit := by
  have hpow : 1 ≤ 2 ^ (spec.exponentBits - 1) := Nat.one_le_two_pow
  rw [Format.minExponent, Format.exponentBias, Format.mantissaBits, Nat.cast_sub hpow]
  push_cast
  ring

theorem two_pow_exponentBits (spec : Format) :
    2 ^ spec.exponentBits = 2 * spec.exponentBias + 2 := by
  have hpow : 1 ≤ 2 ^ (spec.exponentBits - 1) := Nat.one_le_two_pow
  have hhalf : 2 ^ spec.exponentBits = 2 * 2 ^ (spec.exponentBits - 1) := by
    rw [← Nat.pow_succ', Nat.succ_eq_add_one, Nat.sub_add_cancel spec.he]
  rw [Format.exponentBias]
  omega

/-- A number that a format can hold, or that is too large for it, is not stored as a zero. -/
theorem unpack_pack_finite_ne_zero (hbits : 2 ≤ spec.exponentBits) (hmantissa : 0 < mantissa)
    (hlt : mantissa < 2 ^ spec.mantissaBits) (hexponent : spec.minExponent ≤ exponent)
    (sign' : Sign) :
    UnpackedFloat.unpack spec
      (UnpackedFloat.pack spec (.finite sign mantissa exponent hmantissa)) ≠ .zero sign' := by
  rw [Ne, unpack_eq_zero_iff_of_valid valid_pack hbits, UnpackedFloat.pack]
  have hcapacity := two_pow_exponentBits spec
  split
  -- What is too large is stored as an infinity.
  · intro h
    have hfield := congrArg (fun b => (unpackExponent b).toNat) h
    simp only [packedInfinity, packedZero, unpackExponent_packComponents,
      BitVec.neg_one_eq_allOnes, BitVec.toNat_allOnes] at hfield
    change _ = 0 at hfield
    omega
  · rename_i hroom
    split
    -- The exponent field of a normal number is not zero, nor is the fraction of a subnormal one.
    · intro h
      have hfield := congrArg (fun b => (unpackExponent b).toNat) h
      simp only [packedZero, unpackExponent_packComponents, BitVec.toNat_ofNat] at hfield
      change _ = 0 at hfield
      rw [Nat.mod_eq_of_lt (by omega)] at hfield
      rw [minExponent_eq] at hexponent
      omega
    · rename_i hlog
      intro h
      have hfield := congrArg (fun b => (unpackMantissa b).toNat) h
      simp only [packedZero, unpackMantissa_packComponents, BitVec.toNat_ofNat] at hfield
      change _ = 0 at hfield
      have hsmall : mantissa < 2 ^ spec.mantissaBitsWithoutImplicit := by
        rw [← Nat.log2_lt hmantissa.ne'] at hlt ⊢
        rw [Format.mantissaBits] at hlt hlog
        omega
      rw [Nat.mod_eq_of_lt hsmall] at hfield
      exact hmantissa.ne' hfield

theorem bounds_of_unpack (hbits : 2 ≤ spec.exponentBits) {bits : BitVec spec.numBits}
    {hmantissa : 0 < mantissa}
    (h : UnpackedFloat.unpack spec bits = .finite sign mantissa exponent hmantissa) :
    mantissa < 2 ^ spec.mantissaBits ∧
      exponent ≤ (spec.exponentBias : ℤ) - spec.mantissaBitsWithoutImplicit := by
  have hcapacity := two_pow_exponentBits spec
  have hfour : 2 ^ 2 ≤ 2 ^ spec.exponentBits := Nat.pow_le_pow_right Nat.two_pos hbits
  unfold UnpackedFloat.unpack at h
  dsimp only at h
  split at h
  · split at h <;> cases h
  · rename_i htop
    split at h
    · rename_i hzero
      split at h
      · cases h
      · cases h
        refine ⟨?_, ?_⟩
        · exact (unpackMantissa bits).isLt.trans (Nat.pow_lt_pow_right (by decide) (by
            rw [Format.mantissaBits]
            omega))
        · rw [hzero, BitVec.toNat_zero]
          omega
    · cases h
      refine ⟨(1#1 ++ unpackMantissa bits).isLt, ?_⟩
      have hne : (unpackExponent bits).toNat ≠ 2 ^ spec.exponentBits - 1 := by
        intro hfield
        refine htop (BitVec.eq_of_toNat_eq ?_)
        rw [hfield, BitVec.neg_one_eq_allOnes, BitVec.toNat_allOnes]
      have hlt := (unpackExponent bits).isLt
      omega

theorem unpack_pack_round_ne_zero (hbits : 2 ≤ spec.exponentBits) (hmantissa : 0 < mantissa)
    (hexponent : spec.minExponent ≤ exponent) (accuracy : Accuracy) (sign' : Sign) :
    UnpackedFloat.unpack spec (UnpackedFloat.pack spec
      (roundWithAccuracy spec sign mantissa exponent accuracy)) ≠ .zero sign' := by
  obtain ⟨m, e, hm, hround, hlt, he⟩ :=
    roundWithAccuracy_eq_finite hmantissa hexponent sign accuracy
  rw [hround]
  exact unpack_pack_finite_ne_zero hbits hm hlt he sign'

/-- The reciprocal of a finite number may be too large for the format, but it is never rounded
to zero. -/
theorem unpack_pack_div_one_ne_zero (hbits : 2 ≤ spec.exponentBits)
    (hwidth : 2 ≤ spec.mantissaBitsWithoutImplicit) {bits : BitVec spec.numBits}
    {hmantissa : 0 < mantissa}
    (h : UnpackedFloat.unpack spec bits = .finite sign mantissa exponent hmantissa)
    (sign' : Sign) :
    UnpackedFloat.unpack spec (UnpackedFloat.pack spec (UnpackedFloat.div spec
      (.finite .positive (2 ^ spec.mantissaBitsWithoutImplicit)
        (-spec.mantissaBitsWithoutImplicit) (Nat.two_pow_pos _))
      (.finite sign mantissa exponent hmantissa))) ≠ .zero sign' := by
  obtain ⟨hlt, hexponent⟩ := bounds_of_unpack hbits h
  have hlog : mantissa.log2 < 1 + spec.mantissaBitsWithoutImplicit :=
    (Nat.log2_lt hmantissa.ne').mpr hlt
  have hmin := minExponent_eq spec
  have htotal : totalExponent (2 ^ spec.mantissaBitsWithoutImplicit)
      (-spec.mantissaBitsWithoutImplicit) = 1 := by
    rw [totalExponent, Nat.log2_two_pow]
    omega
  let target := min (-(spec.mantissaBitsWithoutImplicit : ℤ) - exponent)
    (spec.targetExponent (1 - totalExponent mantissa exponent))
  let shift := (-(spec.mantissaBitsWithoutImplicit : ℤ) - exponent - target).toNat
  have htarget : spec.minExponent ≤ target := by
    dsimp only [target, Format.targetExponent]
    omega
  -- The dividend is shifted so far that it exceeds the divisor.
  have hshift : mantissa.log2 + 1 ≤ spec.mantissaBitsWithoutImplicit + shift := by
    dsimp only [shift, target, Format.targetExponent, Format.mantissaBits, totalExponent]
    omega
  have hquotient : 0 < 2 ^ spec.mantissaBitsWithoutImplicit <<< shift / mantissa := by
    refine Nat.div_pos ?_ hmantissa
    rw [Nat.shiftLeft_eq, ← Nat.pow_add]
    exact (Nat.lt_log2_self.trans_le (Nat.pow_le_pow_right Nat.two_pos hshift)).le
  rw [UnpackedFloat.div, divCore, htotal]
  exact unpack_pack_round_ne_zero hbits hquotient htarget _ sign'

def IsZero (x : UnpackedFloat) : Prop := ∃ sign, x = .zero sign

variable {x y : UnpackedFloat}

theorem isZero_mul (hx : x.isFinite = true) (hy : IsZero y) :
    IsZero (UnpackedFloat.unpack spec (UnpackedFloat.pack spec (UnpackedFloat.mul spec x y))) := by
  obtain ⟨sign, rfl⟩ := hy
  cases x with
  | notANumber => cases hx
  | infinity sign' => cases hx
  | zero sign' => exact ⟨_, unpack_packedZero⟩
  | finite sign' mantissa exponent hmantissa => exact ⟨_, unpack_packedZero⟩

theorem isZero_div (hx : IsZero x) (hy : y.isFinite = true) (hnonzero : ¬ IsZero y) :
    IsZero (UnpackedFloat.unpack spec (UnpackedFloat.pack spec (UnpackedFloat.div spec x y))) := by
  obtain ⟨sign, rfl⟩ := hx
  cases y with
  | notANumber => cases hy
  | infinity sign' => cases hy
  | zero sign' => exact absurd ⟨sign', rfl⟩ hnonzero
  | finite sign' mantissa exponent hmantissa => exact ⟨_, unpack_packedZero⟩

theorem isZero_sub (hx : IsZero x) (hy : IsZero y) :
    IsZero (UnpackedFloat.unpack spec (UnpackedFloat.pack spec (UnpackedFloat.sub spec x y))) := by
  obtain ⟨sign, rfl⟩ := hx
  obtain ⟨sign', rfl⟩ := hy
  cases sign <;> cases sign' <;> exact ⟨_, unpack_packedZero⟩

theorem pack_sub_zero (hbits : 2 ≤ spec.exponentBits) {bits : BitVec spec.numBits}
    (hvalid : spec.Valid bits) (hnonzero : ¬ IsZero (UnpackedFloat.unpack spec bits))
    (hy : IsZero y) :
    UnpackedFloat.pack spec (UnpackedFloat.sub spec (UnpackedFloat.unpack spec bits) y) = bits := by
  obtain ⟨sign, rfl⟩ := hy
  have hsub : UnpackedFloat.sub spec (UnpackedFloat.unpack spec bits) (.zero sign) =
      UnpackedFloat.unpack spec bits := by
    cases h : UnpackedFloat.unpack spec bits with
    | notANumber => rfl
    | infinity sign' => rfl
    | zero sign' => exact absurd ⟨sign', h⟩ hnonzero
    | finite sign' mantissa exponent hmantissa => rfl
  rw [hsub, pack_unpack_of_valid hvalid hbits]

theorem not_isZero_one_div (hbits : 2 ≤ spec.exponentBits)
    (hwidth : 2 ≤ spec.mantissaBitsWithoutImplicit) {bits : BitVec spec.numBits}
    (hfinite : (UnpackedFloat.unpack spec bits).isFinite = true)
    (hnonzero : ¬ IsZero (UnpackedFloat.unpack spec bits)) :
    ¬ IsZero (UnpackedFloat.unpack spec (UnpackedFloat.pack spec (UnpackedFloat.div spec
      (.finite .positive (2 ^ spec.mantissaBitsWithoutImplicit)
        (-spec.mantissaBitsWithoutImplicit) (Nat.two_pow_pos _))
      (UnpackedFloat.unpack spec bits)))) := by
  rintro ⟨sign', hzero⟩
  cases h : UnpackedFloat.unpack spec bits with
  | notANumber =>
      rw [h] at hfinite
      cases hfinite
  | infinity sign =>
      rw [h] at hfinite
      cases hfinite
  | zero sign => exact hnonzero ⟨sign, h⟩
  | finite sign mantissa exponent hmantissa =>
      rw [h] at hzero
      exact unpack_pack_div_one_ne_zero hbits hwidth h sign' hzero

theorem beq_zero_iff (x : UnpackedFloat) : x.beq (.zero .positive) = true ↔ IsZero x := by
  constructor
  · exact eq_zero_of_unpacked_beq
  · rintro ⟨sign, rfl⟩
    rfl

theorem isZero_double {x : Float} : (x == 0) = true ↔ IsZero x.toModel.unpack := beq_zero_iff _

theorem isZero_single {x : Float32} : (x == 0) = true ↔ IsZero x.toModel.unpack := beq_zero_iff _

theorem not_isZero_double {x : Float} : (x == 0) = false ↔ ¬ IsZero x.toModel.unpack := by
  rw [← isZero_double, Bool.not_eq_true]

theorem not_isZero_single {x : Float32} : (x == 0) = false ↔ ¬ IsZero x.toModel.unpack := by
  rw [← isZero_single, Bool.not_eq_true]

instance : SignedZeros Float where
  zero_beq_zero := isZero_double.mpr ⟨.positive, rfl⟩
  not_lt_zero := ComparesZeros.not_lt_zero
  le_iff := ComparesZeros.le_iff
  mul_zero := fun _ _ hx hz => isZero_double.mpr (isZero_mul hx (isZero_double.mp hz))
  zero_div := fun _ _ hz hx hnonzero => isZero_double.mpr
    (isZero_div (isZero_double.mp hz) hx (not_isZero_double.mp hnonzero))
  one_div := fun _ hx hnonzero => not_isZero_double.mpr
    (not_isZero_one_div (by decide) (by decide) hx (not_isZero_double.mp hnonzero))
  sub_zero := fun x _ hx hz => Float.toBits_inj.mp (UInt64.toBitVec_inj.mp
    (pack_sub_zero (by decide) x.toModel.valid (not_isZero_double.mp hx) (isZero_double.mp hz)))
  zero_sub_zero := fun _ _ hz hz' => isZero_double.mpr
    (isZero_sub (isZero_double.mp hz) (isZero_double.mp hz'))

instance : SignedZeros Float32 where
  zero_beq_zero := isZero_single.mpr ⟨.positive, rfl⟩
  not_lt_zero := ComparesZeros.not_lt_zero
  le_iff := ComparesZeros.le_iff
  mul_zero := fun _ _ hx hz => isZero_single.mpr (isZero_mul hx (isZero_single.mp hz))
  zero_div := fun _ _ hz hx hnonzero => isZero_single.mpr
    (isZero_div (isZero_single.mp hz) hx (not_isZero_single.mp hnonzero))
  one_div := fun _ hx hnonzero => not_isZero_single.mpr
    (not_isZero_one_div (by decide) (by decide) hx (not_isZero_single.mp hnonzero))
  sub_zero := fun x _ hx hz => Float32.toBits_inj.mp (UInt32.toBitVec_inj.mp
    (pack_sub_zero (by decide) x.toModel.valid (not_isZero_single.mp hx) (isZero_single.mp hz)))
  zero_sub_zero := fun _ _ hz hz' => isZero_single.mpr
    (isZero_sub (isZero_single.mp hz) (isZero_single.mp hz'))

end MachineScalar

end GridInversion
