import GridInversion.Fraction

namespace GridInversion.Binary

structure Format where
  fractionBits : Nat
  exponentBits : Nat
deriving DecidableEq

/-- A finite value is the significand times two to the power of the exponent, with a sign. -/
inductive Value where
  | nan
  | infinite (negative : Bool)
  | finite (negative : Bool) (significand : Nat) (exponent : Int)
deriving DecidableEq

def size (significand : Nat) (exponent : Int) : Fraction :=
  (Fraction.whole significand).timesTwo exponent

namespace Format

def double : Format := ⟨52, 11⟩

def single : Format := ⟨23, 8⟩

variable (fmt : Format)

def hiddenBit : Nat := powTwo fmt.fractionBits

/-- The exponent field of infinity and of what is not a number. -/
def topField : Nat := powTwo fmt.exponentBits - 1

def minExponent : Int := 2 - (powTwo (fmt.exponentBits - 1) : Int) - fmt.fractionBits

def maxExponent : Int := fmt.minExponent + fmt.topField - 2

def decode (bits : Nat) : Value :=
  let fraction := bits % fmt.hiddenBit
  let field := bits / fmt.hiddenBit % powTwo fmt.exponentBits
  let negative := bits / powTwo (fmt.fractionBits + fmt.exponentBits) % 2 == 1
  if field = fmt.topField then
    if fraction = 0 then .infinite negative else .nan
  else if field = 0 then .finite negative fraction fmt.minExponent
  else .finite negative (fmt.hiddenBit + fraction) (fmt.minExponent + field - 1)

def pattern (negative : Bool) (field fraction : Nat) : Nat :=
  (if negative then powTwo (fmt.fractionBits + fmt.exponentBits) else 0) +
    field * fmt.hiddenBit + fraction

/-- The bit pattern of a value of the format. A significand without the hidden bit belongs to the
smallest exponent. -/
def encode : Value → Nat
  | .nan => fmt.pattern false fmt.topField (powTwo (fmt.fractionBits - 1))
  | .infinite negative => fmt.pattern negative fmt.topField 0
  | .finite negative m q =>
      if m < fmt.hiddenBit then fmt.pattern negative 0 m
      else fmt.pattern negative (q - fmt.minExponent + 1).toNat (m - fmt.hiddenBit)

/-- The value with a significand that rounding may have carried one place too far. Beyond the
range of the format it is infinite. -/
def ofRounded (negative : Bool) (m : Nat) (q : Int) : Value :=
  let carried := m = 2 * fmt.hiddenBit
  let q := if carried then q + 1 else q
  if fmt.maxExponent < q then .infinite negative
  else .finite negative (if carried then fmt.hiddenBit else m) q

def nearest (negative : Bool) (f : Fraction) : Value :=
  if f.num = 0 then .finite negative 0 fmt.minExponent
  else
    let q := max fmt.minExponent (f.log2 - fmt.fractionBits)
    fmt.ofRounded negative (f.timesTwo (-q)).round q

def convert : Value → Value
  | .finite negative m q => fmt.nearest negative (size m q)
  | other => other

end Format

end GridInversion.Binary
