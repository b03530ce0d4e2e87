namespace GridInversion

def roundHalfEven (num den : Nat) : Nat :=
  let q := num / den
  let r := num % den
  if 2 * r < den then q
  else if den < 2 * r then q + 1
  else if q % 2 = 0 then q
  else q + 1

theorem two_mul_roundHalfEven_le (num den : Nat) :
    2 * (den * roundHalfEven num den) ≤ 2 * num + den := by
  have hdiv := Nat.div_add_mod num den
  unfold roundHalfEven
  dsimp only
  split
  · omega
  · split
    · rw [Nat.mul_add]; omega
    · split
      · omega
      · rw [Nat.mul_add]; omega

theorem two_mul_le_roundHalfEven {den : Nat} (h : 0 < den) (num : Nat) :
    2 * num ≤ 2 * (den * roundHalfEven num den) + den := by
  have hdiv := Nat.div_add_mod num den
  have hmod := Nat.mod_lt num h
  unfold roundHalfEven
  dsimp only
  split
  · omega
  · split
    · rw [Nat.mul_add]; omega
    · split
      · omega
      · rw [Nat.mul_add]; omega

def powTwo (k : Nat) : Nat := Nat.pow 2 k

def powTen (k : Nat) : Nat := Nat.pow 10 k

@[simp] theorem powTwo_zero : powTwo 0 = 1 := rfl

@[simp] theorem powTen_zero : powTen 0 = 1 := rfl

theorem powTwo_succ (k : Nat) : powTwo (k + 1) = powTwo k * 2 := rfl

theorem powTen_succ (k : Nat) : powTen (k + 1) = powTen k * 10 := rfl

theorem powTwo_pos (k : Nat) : 0 < powTwo k := by
  induction k with
  | zero => decide
  | succ k ih => rw [powTwo_succ]; omega

theorem powTen_pos (k : Nat) : 0 < powTen k := by
  induction k with
  | zero => decide
  | succ k ih => rw [powTen_succ]; omega

/-- An exponent of ten whose power is above the given power of two: 0.30103 is a little more than
the decimal logarithm of two. -/
def tenAbove (log2 : Int) : Int := log2 * 30103 / 100000 + 1

structure Fraction where
  num : Nat
  den : Nat
deriving DecidableEq

namespace Fraction

def whole (n : Nat) : Fraction := ⟨n, 1⟩

def timesTwo (f : Fraction) (exponent : Int) : Fraction :=
  if 0 ≤ exponent then ⟨f.num * powTwo exponent.toNat, f.den⟩
  else ⟨f.num, f.den * powTwo (-exponent).toNat⟩

def timesTen (f : Fraction) (exponent : Int) : Fraction :=
  if 0 ≤ exponent then ⟨f.num * powTen exponent.toNat, f.den⟩
  else ⟨f.num, f.den * powTen (-exponent).toNat⟩

def isLarge (f : Fraction) : Bool := f.den ≤ f.num

def round (f : Fraction) : Nat := roundHalfEven f.num f.den

def log2 (f : Fraction) : Int :=
  let guess : Int := (f.num.log2 : Int) - (f.den.log2 : Int)
  if (f.timesTwo (-guess)).isLarge then guess else guess - 1

theorem den_timesTwo_pos {f : Fraction} (h : 0 < f.den) (exponent : Int) :
    0 < (f.timesTwo exponent).den := by
  unfold timesTwo
  split
  · exact h
  · exact Nat.mul_pos h (powTwo_pos _)

theorem den_timesTen_pos {f : Fraction} (h : 0 < f.den) (exponent : Int) :
    0 < (f.timesTen exponent).den := by
  unfold timesTen
  split
  · exact h
  · exact Nat.mul_pos h (powTen_pos _)

end Fraction

end GridInversion
