import GridInversion.Proofs.NearestValues

namespace GridInversion.Binary.Format

variable {fmt : Format} {negative : Bool} {field fraction : ℕ}

def signBit (negative : Bool) : ℕ := if negative then 1 else 0

theorem pattern_eq (fmt : Format) (negative : Bool) (field fraction : ℕ) :
    fmt.pattern negative field fraction =
      (signBit negative * powTwo fmt.exponentBits + field) * fmt.hiddenBit + fraction := by
  have hsign : (if negative then powTwo (fmt.fractionBits + fmt.exponentBits) else 0) =
      signBit negative * powTwo fmt.exponentBits * fmt.hiddenBit := by
    rw [powTwo_add, signBit, hiddenBit]
    split
    · ring
    · ring
  rw [pattern, hsign, Nat.add_mul]

theorem decode_pattern (hfield : field ≤ fmt.topField) (hfraction : fraction < fmt.hiddenBit) :
    fmt.decode (fmt.pattern negative field fraction) =
      if field = fmt.topField then if fraction = 0 then .infinite negative else .nan
      else if field = 0 then .finite negative fraction fmt.minExponent
      else .finite negative (fmt.hiddenBit + fraction) (fmt.minExponent + field - 1) := by
  have htop := fmt.topField_add_one
  have hlow : fmt.pattern negative field fraction % fmt.hiddenBit = fraction := by
    rw [pattern_eq, Nat.mul_add_mod', Nat.mod_eq_of_lt hfraction]
  have hhigh : fmt.pattern negative field fraction / fmt.hiddenBit =
      signBit negative * powTwo fmt.exponentBits + field := by
    rw [pattern_eq, Nat.mul_comm, Nat.mul_add_div fmt.hiddenBit_pos, Nat.div_eq_of_lt hfraction,
      Nat.add_zero]
  have hmiddle : (signBit negative * powTwo fmt.exponentBits + field) %
      powTwo fmt.exponentBits = field := by
    rw [Nat.mul_add_mod', Nat.mod_eq_of_lt (by omega)]
  have hsign : fmt.pattern negative field fraction /
      powTwo (fmt.fractionBits + fmt.exponentBits) = signBit negative := by
    rw [powTwo_add, ← Nat.div_div_eq_div_mul]
    change fmt.pattern negative field fraction / fmt.hiddenBit / _ = _
    rw [hhigh, Nat.mul_comm, Nat.mul_add_div (powTwo_pos _), Nat.div_eq_of_lt (by omega),
      Nat.add_zero]
  have hnegative : (signBit negative % 2 == 1) = negative := by cases negative <;> rfl
  simp only [decode, hlow, hhigh, hmiddle, hsign, hnegative]

theorem contains_decode (hformat : fmt.Regular) (bits : ℕ) : fmt.Contains (fmt.decode bits) := by
  have hfraction : bits % fmt.hiddenBit < fmt.hiddenBit := Nat.mod_lt _ fmt.hiddenBit_pos
  have hfield := Nat.mod_lt (bits / fmt.hiddenBit) (powTwo_pos fmt.exponentBits)
  have htop := fmt.topField_add_one
  unfold decode
  dsimp only
  split_ifs with hspecial hzero hsubnormal
  · trivial
  · trivial
  · exact ⟨⟨le_rfl, by omega⟩, (canonical_zero hformat).le_maxExponent,
      fun h => absurd h (lt_irrefl _)⟩
  · refine ⟨⟨by omega, by omega⟩, ?_, fun _ => by omega⟩
    rw [maxExponent]
    omega

theorem decode_encode (hbits : 1 ≤ fmt.fractionBits) {v : Value} (h : fmt.Contains v) :
    fmt.decode (fmt.encode v) = v := by
  have hpos := fmt.hiddenBit_pos
  cases v with
  | nan =>
      have hquiet : powTwo (fmt.fractionBits - 1) < fmt.hiddenBit :=
        Nat.pow_lt_pow_right one_lt_two (by omega)
      rw [encode, decode_pattern le_rfl hquiet, if_pos rfl, if_neg (powTwo_pos _).ne']
  | infinite negative => rw [encode, decode_pattern le_rfl hpos, if_pos rfl, if_pos rfl]
  | finite negative m q =>
      have hmin := h.minExponent_le
      have hmax := h.le_maxExponent
      have hlt := h.lt
      rw [maxExponent] at hmax
      rw [encode]
      split_ifs with hsmall
      · have hq : q = fmt.minExponent := by
          by_contra hne
          have := h.hiddenBit_le (lt_of_le_of_ne hmin (Ne.symm hne))
          omega
        rw [decode_pattern (Nat.zero_le _) hsmall, if_neg (by omega), if_pos rfl, hq]
      · rw [decode_pattern (by omega) (by omega), if_neg (by omega), if_neg (by omega)]
        congr 1
        · omega
        · omega

theorem pattern_lt (hfield : field ≤ fmt.topField) (hfraction : fraction < fmt.hiddenBit) :
    fmt.pattern negative field fraction < powTwo (fmt.fractionBits + fmt.exponentBits + 1) := by
  have htop := fmt.topField_add_one
  have hsign : signBit negative * powTwo fmt.exponentBits ≤ powTwo fmt.exponentBits := by
    cases negative
    · rw [signBit, if_neg Bool.false_ne_true, Nat.zero_mul]
      exact Nat.zero_le _
    · rw [signBit, if_pos rfl, Nat.one_mul]
  have hroom : signBit negative * powTwo fmt.exponentBits + field + 1 ≤
      powTwo fmt.exponentBits * 2 := by omega
  calc fmt.pattern negative field fraction
      < (signBit negative * powTwo fmt.exponentBits + field + 1) * fmt.hiddenBit := by
        rw [pattern_eq, Nat.add_mul _ 1, Nat.one_mul]
        exact Nat.add_lt_add_left hfraction _
    _ ≤ powTwo fmt.exponentBits * 2 * fmt.hiddenBit := Nat.mul_le_mul_right _ hroom
    _ = powTwo (fmt.fractionBits + fmt.exponentBits + 1) := by
        rw [powTwo_succ, powTwo_add, hiddenBit]
        ring

theorem encode_lt (hbits : 1 ≤ fmt.fractionBits) {v : Value} (h : fmt.Contains v) :
    fmt.encode v < powTwo (fmt.fractionBits + fmt.exponentBits + 1) := by
  cases v with
  | nan => exact pattern_lt le_rfl (Nat.pow_lt_pow_right one_lt_two (by omega))
  | infinite negative => exact pattern_lt le_rfl fmt.hiddenBit_pos
  | finite negative m q =>
      have hmax := h.le_maxExponent
      have hlt := h.lt
      rw [maxExponent] at hmax
      rw [encode]
      split_ifs with hsmall
      · exact pattern_lt (Nat.zero_le _) hsmall
      · exact pattern_lt (by omega) (by omega)

end GridInversion.Binary.Format
