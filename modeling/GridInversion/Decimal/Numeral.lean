import GridInversion.Binary.Value

namespace GridInversion.Decimal

open Binary (Format Value)

def digits (n : Nat) : List Char := Nat.toDigits 10 n

def digitValue (c : Char) : Nat := c.toNat - '0'.toNat

def ofDigits (cs : List Char) : Nat := cs.foldl (fun n c => 10 * n + digitValue c) 0

def zeros (n : Nat) : List Char := List.replicate n '0'

def paddedDigits (width n : Nat) : List Char :=
  let ds := digits n
  zeros (width - ds.length) ++ ds

def sign (negative : Bool) : List Char := if negative then ['-'] else []

def signedDigits (i : Int) : List Char := sign (decide (i < 0)) ++ digits i.natAbs

@[simp] theorem ofDigits_nil : ofDigits [] = 0 := rfl

inductive Numeral where
  | nan
  | infinite (negative : Bool)
  | finite (negative : Bool) (coefficient : Nat) (exponent : Int)
deriving DecidableEq

namespace Numeral

def splitSign : List Char → Bool × List Char
  | '-' :: cs => (true, cs)
  | '+' :: cs => (false, cs)
  | cs => (false, cs)

def wholeNumber? (cs : List Char) : Option Nat :=
  if !cs.isEmpty && cs.all Char.isDigit then some (ofDigits cs) else none

def exponent? : List Char → Option Int
  | [] => some 0
  | c :: cs =>
      if c = 'e' ∨ c = 'E' then
        let (negative, ds) := splitSign cs
        (wholeNumber? ds).map fun n => if negative then -(n : Int) else n
      else none

def splitFraction : List Char → List Char × List Char
  | '.' :: cs => (cs.takeWhile Char.isDigit, cs.dropWhile Char.isDigit)
  | cs => ([], cs)

def unsigned? (negative : Bool) (cs : List Char) : Option Numeral :=
  let whole := cs.takeWhile Char.isDigit
  let (fraction, rest) := splitFraction (cs.dropWhile Char.isDigit)
  if whole.isEmpty && fraction.isEmpty then none
  else
    (exponent? rest).map fun e =>
      .finite negative (ofDigits (whole ++ fraction)) (e - fraction.length)

def word? (negative : Bool) (cs : List Char) : Option Numeral :=
  let lower := cs.map Char.toLower
  if lower = ['i', 'n', 'f'] ∨ lower = ['i', 'n', 'f', 'i', 'n', 'i', 't', 'y'] then
    some (.infinite negative)
  else if lower = ['n', 'a', 'n'] then some .nan
  else none

def ofChars? (cs : List Char) : Option Numeral :=
  let (negative, rest) := splitSign cs
  (word? negative rest).or (unsigned? negative rest)

/-- The value of a format that is nearest to a numeral. A number that starts further from the point
than a format has bits and exponents is beyond its range, or below it, and its power of ten is not
formed. -/
def round (fmt : Format) : Numeral → Value
  | nan => .nan
  | infinite negative => .infinite negative
  | finite negative coefficient exponent =>
      let magnitude := (digits coefficient).length + exponent
      let bound : Int := fmt.fractionBits + powTwo fmt.exponentBits
      if coefficient = 0 ∨ magnitude < -bound then .finite negative 0 fmt.minExponent
      else if bound < magnitude then .infinite negative
      else fmt.nearest negative ((Fraction.whole coefficient).timesTen exponent)

end Numeral

end GridInversion.Decimal
