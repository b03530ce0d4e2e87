import GridInversion.Binary.Value
import GridInversion.Decimal.Numeral

namespace GridInversion.Decimal

open Binary (Value)

def pointed (places n : Nat) : List Char :=
  let ds := paddedDigits (places + 1) n
  let whole := ds.take (ds.length - places)
  if places = 0 then whole else whole ++ '.' :: ds.drop (ds.length - places)

/-- A value with `places` digits after the point. The sign of the value is kept, also where all
digits are zero. -/
def fixedChars (places : Nat) : Value → List Char
  | .nan => ['N', 'a', 'N']
  | .infinite negative => sign negative ++ ['i', 'n', 'f']
  | .finite negative m q =>
      sign negative ++ pointed places ((Binary.size m q).timesTen places).round

/-- The exponent of ten of the first digit of a fraction above zero, found downwards from an
exponent that is not too small. -/
def leadingExponent (f : Fraction) : Nat → Int → Int
  | 0, exponent => exponent
  | fuel + 1, exponent =>
      if (f.timesTen (-exponent)).isLarge then exponent
      else leadingExponent f fuel (exponent - 1)

def significantDigits (places : Nat) (f : Fraction) : Nat × Int :=
  let exponent := leadingExponent f 3 (tenAbove f.log2)
  let n := (f.timesTen (places - exponent)).round
  if n = powTen (places + 1) then (powTen places, exponent + 1) else (n, exponent)

def scientificChars (places : Nat) : Value → List Char
  | .nan => ['N', 'a', 'N']
  | .infinite negative => sign negative ++ ['i', 'n', 'f']
  | .finite negative m q =>
      let (n, exponent) :=
        if m = 0 then (0, 0) else significantDigits places (Binary.size m q)
      sign negative ++ pointed places n ++ 'e' :: signedDigits exponent

def scientificText (places : Nat) (v : Value) : String := String.ofList (scientificChars places v)

end GridInversion.Decimal
