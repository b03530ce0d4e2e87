import GridInversion.Binary.Value
import GridInversion.Decimal.Numeral

/-!
The shortest decimal text that reads back as the same binary value.

The reals that round to a binary value form an interval around it, whose ends belong to it if the
significand is even. `shortest` tries the grids of the powers of ten from the coarse to the fine:
the first grid with a point in the interval wins, of two such points the one nearer to the value,
and of two equally near ones the upper one. `shortestChars` lays the digits out.
-/

namespace GridInversion.Decimal

open Binary (Format Value)

structure Scaled where
  coefficient : Nat
  exponent : Int
deriving DecidableEq

/-- The reals that round to a value, in units of a quarter of the value's last place, with the
unit as a fraction. -/
structure Interval where
  low : Nat
  value : Nat
  high : Nat
  closed : Bool
  unit : Fraction

/-- The interval of a positive value. Below a power of two the next value is only half as far
away, except at the smallest exponent. -/
def Interval.around (fmt : Format) (m : Nat) (q : Int) : Interval where
  low := if m = fmt.hiddenBit ∧ fmt.minExponent < q then 4 * m - 1 else 4 * m - 2
  value := 4 * m
  high := 4 * m + 2
  closed := m % 2 = 0
  unit := Binary.size 1 (q - 2)

def Interval.holds (i : Interval) (c s : Nat) : Bool :=
  if i.closed then decide (i.low * s ≤ c) && decide (c ≤ i.high * s)
  else decide (i.low * s < c) && decide (c < i.high * s)

/-- The point of a power-of-ten grid in the interval, if there is one: the neighbour of the value
above or below, the nearer one if both are in, the upper one in a tie. -/
def Interval.gridPoint? (i : Interval) (exponent : Int) : Option Nat :=
  -- the unit in grid steps: a point `c` of the grid is `c * den / num` units
  let unit := i.unit.timesTen (-exponent)
  let below := i.value * unit.num / unit.den
  let lowIn := i.holds (below * unit.den) unit.num
  let highIn := i.holds ((below + 1) * unit.den) unit.num
  if lowIn && highIn then
    if 2 * (i.value * unit.num) < (2 * below + 1) * unit.den then some below
    else some (below + 1)
  else if lowIn then some below
  else if highIn then some (below + 1)
  else none

def Interval.coarsest (i : Interval) : Nat → Int → Scaled
  | 0, exponent => ⟨i.value * i.unit.num / i.unit.den, exponent⟩
  | fuel + 1, exponent =>
      match i.gridPoint? exponent with
      | some c => ⟨c, exponent⟩
      | none => i.coarsest fuel (exponent - 1)

/-- The decimal of fewest digits that rounds to a positive value. A grid finer than the value's
last place always has a point, and between it and the first one lie fewer than twenty-four grids
for the formats in use. -/
def shortest (fmt : Format) (m : Nat) (q : Int) : Scaled :=
  (Interval.around fmt m q).coarsest 24 (tenAbove (m.log2 + 1 + q))

def positional (ds : List Char) (point : Int) : List Char :=
  if point ≤ 0 then ['0', '.'] ++ zeros (-point).toNat ++ ds
  else if point.toNat < ds.length then ds.take point.toNat ++ '.' :: ds.drop point.toNat
  else ds ++ zeros (point.toNat - ds.length) ++ ['.', '0']

def exponential (ds : List Char) (point : Int) : List Char :=
  let mantissa := match ds with
    | d :: e :: rest => d :: '.' :: e :: rest
    | _ => ds
  mantissa ++ 'e' :: signedDigits (point - 1)

/-- The text of a value in the fewest digits: positional from 0.0001 up to, but not including,
a one with sixteen zeros, and for zero; with an exponent otherwise. -/
def shortestChars (fmt : Format) : Value → List Char
  | .nan => ['N', 'a', 'N']
  | .infinite negative => sign negative ++ ['i', 'n', 'f']
  | .finite negative m q =>
      sign negative ++
        if m = 0 then ['0', '.', '0']
        else
          let s := shortest fmt m q
          let ds := digits s.coefficient
          let point := ds.length + s.exponent
          if -3 ≤ point ∧ point ≤ 16 then positional ds point else exponential ds point

def shortestText (fmt : Format) (v : Value) : String := String.ofList (shortestChars fmt v)

end GridInversion.Decimal
