import GridInversion.Decimal.Fixed
import GridInversion.Decimal.Numeral
import Mathlib.Data.List.TakeWhile

namespace GridInversion.Decimal

theorem ofDigits_eq (cs : List Char) : ofDigits cs = Nat.ofDigitChars 10 cs 0 := by
  rw [Nat.ofDigitChars_eq_foldl]
  rfl

theorem ofDigits_paddedDigits (width n : ℕ) : ofDigits (paddedDigits width n) = n := by
  rw [ofDigits_eq, paddedDigits, Nat.ofDigitChars_append, zeros,
    Nat.ofDigitChars_replicate_zero, Nat.mul_zero]
  exact Nat.ofDigitChars_ten_toDigits

theorem isDigit_of_mem_paddedDigits {width n : ℕ} {c : Char} (h : c ∈ paddedDigits width n) :
    c.isDigit = true := by
  rcases List.mem_append.mp h with hzero | hdigit
  · rw [List.eq_of_mem_replicate hzero]
    rfl
  · exact Nat.isDigit_of_mem_toDigits (by decide) (by decide) hdigit

theorem le_length_paddedDigits (width n : ℕ) : width ≤ (paddedDigits width n).length := by
  rw [paddedDigits, List.length_append, zeros, List.length_replicate]
  omega

theorem lt_powTen_length (n : ℕ) : n < powTen (digits n).length :=
  (Nat.length_toDigits_le_iff (by decide) Nat.length_toDigits_pos).mp le_rfl

theorem powTen_length_le {n : ℕ} (hn : 0 < n) : powTen ((digits n).length - 1) ≤ n := by
  rcases Nat.eq_zero_or_pos ((digits n).length - 1) with hzero | hpos
  · rw [hzero]
    exact hn
  · by_contra hlt
    have := (Nat.length_toDigits_le_iff (b := 10) (by decide) hpos).mpr (Nat.lt_of_not_le hlt)
    rw [digits] at hpos this
    omega

/-- Digits around a point, or without one where none follow it. -/
theorem pointed_eq (places n : ℕ) :
    ∃ whole fraction : List Char, whole ≠ [] ∧ (∀ c ∈ whole, c.isDigit = true) ∧
      (∀ c ∈ fraction, c.isDigit = true) ∧ fraction.length = places ∧
      ofDigits (whole ++ fraction) = n ∧
      pointed places n = whole ++ if places = 0 then [] else '.' :: fraction := by
  have hlength := le_length_paddedDigits (places + 1) n
  have hdigit : ∀ c ∈ paddedDigits (places + 1) n, c.isDigit = true :=
    fun c hc => isDigit_of_mem_paddedDigits hc
  refine ⟨(paddedDigits (places + 1) n).take ((paddedDigits (places + 1) n).length - places),
    (paddedDigits (places + 1) n).drop ((paddedDigits (places + 1) n).length - places),
    ?_, ?_, ?_, ?_, ?_, ?_⟩
  · rw [Ne, ← List.length_eq_zero_iff, List.length_take]
    omega
  · exact fun c hc => hdigit c (List.mem_of_mem_take hc)
  · exact fun c hc => hdigit c (List.mem_of_mem_drop hc)
  · rw [List.length_drop]
    omega
  · rw [List.take_append_drop]
    exact ofDigits_paddedDigits _ _
  · unfold pointed
    dsimp only
    split
    · rw [List.append_nil]
    · rfl

namespace Numeral

theorem splitSign_sign (negative : Bool) {c : Char} (hminus : c ≠ '-') (hplus : c ≠ '+')
    (cs : List Char) : splitSign (sign negative ++ c :: cs) = (negative, c :: cs) := by
  cases negative with
  | true => rfl
  | false =>
      rw [sign, if_neg Bool.false_ne_true, List.nil_append, splitSign]
      · exact fun _ h => hminus (List.cons.inj h).1
      · exact fun _ h => hplus (List.cons.inj h).1

theorem toLower_of_isDigit {c : Char} (h : c.isDigit = true) : c.toLower = c := by
  obtain ⟨-, hhigh⟩ := Char.isDigit_iff_toNat.mp h
  exact dif_neg fun hupper => absurd (Nat.le_trans hupper.1 hhigh) (by decide)

theorem word?_of_isDigit (negative : Bool) {c : Char} (h : c.isDigit = true) (cs : List Char) :
    word? negative (c :: cs) = none := by
  have hi : c ≠ 'i' := by rintro rfl; cases h
  have hn : c ≠ 'n' := by rintro rfl; cases h
  simp [word?, toLower_of_isDigit h, hi, hn]

theorem unsigned?_pointed (negative : Bool) (places n : ℕ) :
    unsigned? negative (pointed places n) = some (.finite negative n (-places)) := by
  obtain ⟨whole, fraction, hne, hwhole, hfraction, hlength, hvalue, hpointed⟩ :=
    pointed_eq places n
  have hempty : whole.isEmpty = false := by rwa [List.isEmpty_eq_false_iff]
  rw [hpointed, unsigned?, List.takeWhile_append_of_pos hwhole, List.dropWhile_append_of_pos hwhole]
  split_ifs with hplaces
  · obtain rfl : fraction = [] := List.length_eq_zero_iff.mp (hlength.trans hplaces)
    rw [List.append_nil] at hvalue
    simp [splitFraction, exponent?, hempty, hvalue, hplaces]
  · have hpoint : Char.isDigit '.' = false := rfl
    rw [List.takeWhile_cons, List.dropWhile_cons, hpoint, if_neg Bool.false_ne_true,
      if_neg Bool.false_ne_true, List.append_nil, splitFraction]
    have htake : fraction.takeWhile Char.isDigit = fraction := List.takeWhile_eq_self_iff.mpr hfraction
    have hdrop : fraction.dropWhile Char.isDigit = [] := List.dropWhile_eq_nil_iff.mpr hfraction
    simp [htake, hdrop, exponent?, hempty, hvalue, hlength]

theorem ofChars?_pointed (negative : Bool) (places n : ℕ) :
    ofChars? (sign negative ++ pointed places n) = some (.finite negative n (-places)) := by
  have hunsigned := unsigned?_pointed negative places n
  obtain ⟨whole, fraction, hne, hwhole, -, -, -, hpointed⟩ := pointed_eq places n
  obtain ⟨c, cs, rfl⟩ := List.exists_cons_of_ne_nil hne
  have hc : c.isDigit = true := hwhole c List.mem_cons_self
  rw [hpointed, List.cons_append] at hunsigned ⊢
  rw [ofChars?, splitSign_sign negative (by rintro rfl; cases hc) (by rintro rfl; cases hc)]
  dsimp only
  rw [word?_of_isDigit negative hc, hunsigned, Option.none_or]

end Numeral

end GridInversion.Decimal
