import Mathlib
import GridInversion.Proofs.ScalarLaws

/-!
How a format stores a negation: with the other sign, and with nothing else changed.  Only the whole
of Mathlib has the lemmas on packing and unpacking floats.
-/

namespace GridInversion.MachineScalar

open Float.Model
open Float.Model.UnpackedFloat hiding pack unpack

variable {spec : Format} {x : UnpackedFloat} {bits bits' : BitVec spec.numBits}

/-- A value that is a number and its negation are stored with opposite signs and in the same fields
otherwise. -/
theorem exists_pack_eq (spec : Format) (hx : x ≠ .notANumber) :
    ∃ sign exponent mantissa, UnpackedFloat.pack spec x =
        packComponents spec sign exponent mantissa ∧
      UnpackedFloat.pack spec x.neg = packComponents spec (-sign) exponent mantissa := by
  cases x with
  | notANumber => exact absurd rfl hx
  | infinity sign => exact ⟨_, _, _, rfl, rfl⟩
  | zero sign => exact ⟨_, _, _, rfl, rfl⟩
  | finite sign mantissa exponent hpos =>
      dsimp only [UnpackedFloat.neg, UnpackedFloat.pack]
      split
      · exact ⟨_, _, _, rfl, rfl⟩
      · split <;> exact ⟨_, _, _, rfl, rfl⟩

/-- Patterns that differ in their signs alone are the patterns of a value and its negation. -/
theorem unpack_eq_neg (hexponent : unpackExponent bits' = unpackExponent bits)
    (hmantissa : unpackMantissa bits' = unpackMantissa bits)
    (hsign : Sign.ofBitVec (unpackSign bits') = -Sign.ofBitVec (unpackSign bits)) :
    UnpackedFloat.unpack spec bits' = (UnpackedFloat.unpack spec bits).neg := by
  unfold UnpackedFloat.unpack
  dsimp only
  by_cases htop : unpackExponent bits = -1#_
  · rw [if_pos (hexponent.trans htop), if_pos htop]
    by_cases hfraction : unpackMantissa bits = 0#_
    · rw [if_pos (hmantissa.trans hfraction), if_pos hfraction, hsign]
      rfl
    · rw [if_neg fun h => hfraction (hmantissa.symm.trans h), if_neg hfraction]
      rfl
  · rw [if_neg fun h => htop (hexponent.symm.trans h), if_neg htop]
    by_cases hbottom : unpackExponent bits = 0#_
    · rw [if_pos (hexponent.trans hbottom), if_pos hbottom]
      by_cases hfraction : unpackMantissa bits = 0#_
      · rw [dif_pos (hmantissa.trans hfraction), dif_pos hfraction, hsign]
        rfl
      · rw [dif_neg fun h => hfraction (hmantissa.symm.trans h), dif_neg hfraction]
        exact (finite.injEq ..).mpr ⟨hsign, by rw [hmantissa], by rw [hexponent]⟩
    · rw [if_neg fun h => hbottom (hexponent.symm.trans h), if_neg hbottom]
      exact (finite.injEq ..).mpr ⟨hsign, by rw [hmantissa], by rw [hexponent]⟩

theorem unpack_pack_neg (x : UnpackedFloat) :
    UnpackedFloat.unpack spec (UnpackedFloat.pack spec x.neg) =
      (UnpackedFloat.unpack spec (UnpackedFloat.pack spec x)).neg := by
  rcases eq_or_ne x .notANumber with rfl | hx
  · have hnan : UnpackedFloat.unpack spec (UnpackedFloat.pack spec .notANumber) = .notANumber :=
      unpack_packedNaN
    rw [UnpackedFloat.neg, hnan]
    rfl
  · obtain ⟨sign, exponent, mantissa, hpack, hneg⟩ := exists_pack_eq spec hx
    rw [hpack, hneg]
    refine unpack_eq_neg ?_ ?_ ?_
    · rw [unpackExponent_packComponents, unpackExponent_packComponents]
    · rw [unpackMantissa_packComponents, unpackMantissa_packComponents]
    · rw [unpackSign_packComponents, unpackSign_packComponents, Sign.ofBitVec_toBitVec,
        Sign.ofBitVec_toBitVec]

theorem unpack_pack_neg_unpack (hvalid : spec.Valid bits) (hbits : 2 ≤ spec.exponentBits) :
    UnpackedFloat.unpack spec (UnpackedFloat.pack spec (UnpackedFloat.unpack spec bits).neg) =
      (UnpackedFloat.unpack spec bits).neg := by
  rw [unpack_pack_neg, pack_unpack_of_valid hvalid hbits]

theorem unpack_neg_double (x : Float) : (-x).toModel.unpack = x.toModel.unpack.neg :=
  unpack_pack_neg_unpack x.toModel.valid (by decide)

theorem unpack_neg_single (x : Float32) : (-x).toModel.unpack = x.toModel.unpack.neg :=
  unpack_pack_neg_unpack x.toModel.valid (by decide)

theorem eq_of_unpack_double {x y : Float} (h : x.toModel.unpack = y.toModel.unpack) : x = y :=
  Float.toBits_inj.mp (UInt64.toBitVec_inj.mp
    ((unpack_inj_of_valid x.toModel.valid y.toModel.valid).mp h))

theorem eq_of_unpack_single {x y : Float32} (h : x.toModel.unpack = y.toModel.unpack) : x = y :=
  Float32.toBits_inj.mp (UInt32.toBitVec_inj.mp
    ((unpack_inj_of_valid x.toModel.valid y.toModel.valid).mp h))

theorem isFinite_neg (x : UnpackedFloat) : x.neg.isFinite = x.isFinite := by
  cases x <;> rfl

instance : NegatesFinite Float where
  isFinite_zero := rfl
  isFinite_neg := fun x => (congrArg _ (unpack_neg_double x)).trans (isFinite_neg _)

instance : NegatesFinite Float32 where
  isFinite_zero := rfl
  isFinite_neg := fun x => (congrArg _ (unpack_neg_single x)).trans (isFinite_neg _)

end GridInversion.MachineScalar
