import DocumentQuery.Text.Basic

/-!
# Binary floating-point numbers of 64 bits

A number is given by its word: a sign, eleven bits of exponent and 52 bits of fraction.  Decoding
and rounding are exact arithmetic on natural numbers, so that both can be reasoned about.
-/

namespace DocumentQuery

/-- A binary floating-point number, given by its word. -/
structure Binary64 where
  bits : UInt64
  deriving DecidableEq

namespace Binary64

/-- What a word stands for.  A finite number is `mantissa * 2 ^ exponent` with its sign. -/
inductive Reading where
  | nan
  | infinite (negative : Bool)
  | finite (negative : Bool) (mantissa : Nat) (exponent : Int)
  deriving DecidableEq

/-- The exponent of the smallest numbers. -/
def leastExponent : Int := -1074

/-- What the word of a number stands for. -/
def reading (x : Binary64) : Reading :=
  let word := x.bits.toNat
  let negative := decide (Nat.pow 2 63 ≤ word)
  let exponent : Nat := word / Nat.pow 2 52 % Nat.pow 2 11
  let fraction : Nat := word % Nat.pow 2 52
  if exponent = 2047 then
    if fraction = 0 then .infinite negative else .nan
  else if exponent = 0 then .finite negative fraction leastExponent
  else .finite negative (Nat.pow 2 52 + fraction) (leastExponent + ((exponent : Int) - 1))

/-- The word of the given sign and magnitude. -/
def ofWord (negative : Bool) (magnitude : Nat) : Binary64 :=
  ⟨(magnitude + if negative then Nat.pow 2 63 else 0).toUInt64⟩

/-- The word of the magnitude of infinity; every finite magnitude has a smaller one. -/
def infiniteWord : Nat := 2047 * Nat.pow 2 52

/-- Infinity with a sign. -/
def infinity (negative : Bool) : Binary64 :=
  ofWord negative infiniteWord

/-- The number that stands for no number. -/
def nan : Binary64 :=
  ofWord false (infiniteWord + Nat.pow 2 51)

/-- The quotient of two numbers rounded to the nearest integer, a half to the even one. -/
def roundedQuotient (numerator denominator : Nat) : Nat :=
  let quotient := numerator / denominator
  let twice := 2 * (numerator % denominator)
  if twice < denominator then quotient
  else if denominator < twice then quotient + 1
  else quotient + quotient % 2

/-- The exponent of the greatest power of two that is not above a positive quotient. -/
def floorLog2 (numerator denominator : Nat) : Int :=
  let estimate : Int := (numerator.log2 : Int) - denominator.log2
  if denominator * Nat.pow 2 estimate.toNat ≤ numerator * Nat.pow 2 (-estimate).toNat then estimate
  else estimate - 1

/-- The number nearest to a quotient; of two equally near ones the one with an even mantissa. -/
def nearest (negative : Bool) (numerator denominator : Nat) : Binary64 :=
  if numerator = 0 then ofWord negative 0
  else
    let exponent := max (floorLog2 numerator denominator - 52) leastExponent
    let mantissa :=
      roundedQuotient (numerator * Nat.pow 2 (-exponent).toNat)
        (denominator * Nat.pow 2 exponent.toNat)
    ofWord negative
      (min ((exponent - leastExponent).toNat * Nat.pow 2 52 + mantissa) infiniteWord)

/-- The number nearest to `digits * 10 ^ exponent`.  A magnitude beyond the 400th power of ten is
infinite, one below its inverse is zero: no finite number reaches that far. -/
def ofDecimal (negative : Bool) (digits : Nat) (exponent : Int) : Binary64 :=
  if digits = 0 then ofWord negative 0
  else if 400 < exponent then infinity negative
  else if exponent + (digits.log2 + 1) < -400 then ofWord negative 0
  else nearest negative (digits * Nat.pow 10 exponent.toNat) (Nat.pow 10 (-exponent).toNat)

end Binary64

end DocumentQuery
