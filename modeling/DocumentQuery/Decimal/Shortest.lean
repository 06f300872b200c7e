import DocumentQuery.Decimal.Binary64
import DocumentQuery.Decimal.Numeral

/-!
# The shortest decimal that reads back

Of all decimals that round to a given binary number, those with the fewest digits are taken, and of
these the nearest to the number.  A number is written with these digits, positionally or with an
exponent; the limits between the two and the words for what is no finite number are a `FloatStyle`.
-/

namespace DocumentQuery

namespace Shortest

/-- The decimals that round to a positive number `centre / scale`: those between `low / scale` and
`high / scale`, the ends included if `closed`. -/
structure Interval where
  low : Nat
  centre : Nat
  high : Nat
  scale : Nat
  closed : Bool

/-- The interval of the number `mantissa * 2 ^ exponent`.  It reaches half way to the neighbours;
the neighbour below a power of two is nearer than the one above. -/
def Interval.of (mantissa : Nat) (exponent : Int) : Interval :=
  let factor := Nat.pow 2 (exponent - 2).toNat
  let below := if mantissa = Nat.pow 2 52 ∧ Binary64.leastExponent < exponent then 1 else 2
  { low := (4 * mantissa - below) * factor
    centre := 4 * mantissa * factor
    high := (4 * mantissa + 2) * factor
    scale := Nat.pow 2 (2 - exponent).toNat
    closed := mantissa % 2 = 0 }

/-- `digits * 10 ^ exponent` lies in the interval. -/
def Interval.contains (i : Interval) (digits : Nat) (exponent : Int) : Bool :=
  let up := Nat.pow 10 (-exponent).toNat
  let point := digits * Nat.pow 10 exponent.toNat * i.scale
  if i.closed then i.low * up ≤ point && point ≤ i.high * up
  else i.low * up < point && point < i.high * up

/-- The exponent of the least power of ten that is above the centre of the interval. -/
def Interval.magnitude (i : Interval) : Int :=
  if i.scale ≤ i.centre then (Nat.toDigits 10 (i.centre / i.scale)).length
  else 1 - ((Nat.toDigits 10 ((i.scale - 1) / i.centre)).length : Int)

/-- The multiple of `10 ^ exponent` in the interval that is nearest to its centre: only the two
neighbours of the centre on this grid need to be tested. -/
def Interval.onGrid (i : Interval) (exponent : Int) : Option Nat :=
  let numerator := i.centre * Nat.pow 10 (-exponent).toNat
  let denominator := i.scale * Nat.pow 10 exponent.toNat
  let below := numerator / denominator
  match i.contains below exponent, i.contains (below + 1) exponent with
  | true, true => some (Binary64.roundedQuotient numerator denominator)
  | true, false => some below
  | false, true => some (below + 1)
  | false, false => none

/-- The first grid, from coarse to fine, that has a point in the interval: the point and the
exponent of the grid.  Seventeen digits are always enough. -/
def Interval.shortest (i : Interval) : Nat × Int :=
  let grid := fun count : Nat => i.magnitude - count
  let found := (List.range' 1 17).findSome? fun count =>
    (i.onGrid (grid count)).map fun point => (point, grid count)
  found.getD (0, 0)

end Shortest

/-- How floating-point numbers are written. -/
structure FloatStyle where
  nan : Text
  infinity : Text
  /-- The least exponent of a leading digit that is written positionally. -/
  positionalFrom : Int
  /-- The least exponent of a leading digit that is above those written positionally. -/
  positionalBelow : Int
  /-- The least number of digits of a written exponent. -/
  exponentDigits : Nat

namespace FloatStyle

/-- The significant digits of a positive number, without trailing zeros, and the exponent of the
first of them. -/
def significant (mantissa : Nat) (exponent : Int) : Text × Int :=
  let (point, grid) := (Shortest.Interval.of mantissa exponent).shortest
  let digits := Numeral.ofNat point
  (digits.dropEndWhile (· = .char '0'), grid + digits.length - 1)

/-- Digits whose first has a given exponent, written positionally; at least one digit stands on
each side of the point. -/
def positional (digits : Text) (exponent : Int) : Text :=
  if exponent < 0 then
    "0." ++ Text.repeated (-exponent - 1).toNat '0' ++ digits
  else
    let whole := exponent.toNat + 1
    let front := digits.take whole ++ Text.repeated (whole - digits.length) '0'
    let back := digits.drop whole
    front ++ "." ++ (if back.isEmpty then Text.ofString "0" else back)

/-- Digits whose first has a given exponent, written with that exponent. -/
def scientific (style : FloatStyle) (digits : Text) (exponent : Int) : Text :=
  let mantissa : Text :=
    match digits with
    | first :: second :: rest => first :: .char '.' :: second :: rest
    | digits => digits
  let written := Numeral.ofNat exponent.natAbs
  let padding := Text.repeated (style.exponentDigits - written.length) '0'
  mantissa ++ "e" ++ (if exponent < 0 then "-" else "+") ++ padding ++ written

/-- The text of a number. -/
def render (style : FloatStyle) (x : Binary64) : Text :=
  match x.reading with
  | .nan => style.nan
  | .infinite negative => (if negative then "-" else "") ++ style.infinity
  | .finite negative mantissa exponent =>
      let (digits, leading) : Text × Int :=
        if mantissa = 0 then ("0", 0) else significant mantissa exponent
      let magnitude :=
        if style.positionalFrom ≤ leading ∧ leading < style.positionalBelow then
          positional digits leading
        else style.scientific digits leading
      (if negative then "-" else "") ++ magnitude

end FloatStyle

end DocumentQuery
