import GridInversion.Proofs.StoredNegations
import GridInversion.Proofs.BitPatterns

namespace GridInversion.MachineScalar

open Float.Model

variable {spec : Format} {bits : BitVec spec.numBits}

theorem isFinite_unpack (bits : BitVec spec.numBits) :
    (UnpackedFloat.unpack spec bits).isFinite =
      decide (UnpackedFloat.unpackExponent bits ≠ -BitVec.ofNat spec.exponentBits 1) := by
  unfold UnpackedFloat.unpack
  dsimp only
  split
  · rename_i htop
    split <;> simp [htop, UnpackedFloat.isFinite]
  · rename_i htop
    split
    · split <;> simp [htop, UnpackedFloat.isFinite]
    · simp [htop, UnpackedFloat.isFinite]

theorem decode_eq_nan {bits : UInt64}
    (hexponent : @UnpackedFloat.unpackExponent .binary64 bits.toBitVec = -1#11)
    (hmantissa : @UnpackedFloat.unpackMantissa .binary64 bits.toBitVec ≠ 0#52) :
    Binary.Format.double.decode bits.toNat = .nan := by
  have hfield : bits.toNat / Binary.Format.double.hiddenBit %
      powTwo Binary.Format.double.exponentBits =
      Binary.Format.double.topField := by
    have := congrArg BitVec.toNat hexponent
    rw [UnpackedFloat.unpackExponent_def, BitVec.extractLsb'_toNat, Nat.shiftRight_eq_div_pow]
      at this
    exact this
  have hfraction : bits.toNat % Binary.Format.double.hiddenBit ≠ 0 := by
    intro hzero
    refine hmantissa (BitVec.eq_of_toNat_eq ?_)
    rw [UnpackedFloat.unpackMantissa_def, BitVec.extractLsb'_toNat, Nat.shiftRight_zero]
    exact hzero
  unfold Binary.Format.decode
  dsimp only
  rw [if_pos hfield, if_neg hfraction]

theorem toBits_ofBits {bits : UInt64}
    (hnan : Binary.Format.double.decode bits.toNat = .nan →
      bits = UInt64.ofNat (Binary.Format.double.encode .nan)) :
    (Float.ofBits bits).toBits = bits := by
  have hvalid : Format.binary64.Valid bits.toBitVec := by
    refine ⟨fun hexponent hmantissa => ?_⟩
    rw [hnan (decode_eq_nan hexponent hmantissa)]
    decide +kernel
  exact UInt64.toBitVec_inj.mp (UnpackedFloat.pack_unpack_of_valid hvalid)

theorem value_ofValue {v : Binary.Value} (h : Binary.Format.double.Contains v) :
    value (ofValue v : Float) = v := by
  have hbits : (UInt64.ofNat (Binary.Format.double.encode v)).toNat =
      Binary.Format.double.encode v := by
    have hlt := Binary.Format.encode_lt (by decide) h
    rw [UInt64.toNat_ofNat']
    exact Nat.mod_eq_of_lt hlt
  have hdecode : Binary.Format.double.decode (Binary.Format.double.encode v) = v :=
    Binary.Format.decode_encode (by decide) h
  have hkept : (Float.ofBits (UInt64.ofNat (Binary.Format.double.encode v))).toBits =
      UInt64.ofNat (Binary.Format.double.encode v) := by
    apply toBits_ofBits
    rw [hbits, hdecode]
    rintro rfl
    rfl
  have hconvert := Binary.Format.convert_of_contains Binary.Format.regular_double h
  show Binary.Format.double.decode (Float.ofBits (UInt64.ofNat
    (Binary.Format.double.encode (Binary.Format.double.convert v)))).toBits.toNat = v
  rw [hconvert, hkept, hbits, hdecode]

theorem contains_value (x : Float) : Binary.Format.double.Contains (value x) :=
  Binary.Format.contains_decode Binary.Format.regular_double _

end GridInversion.MachineScalar
