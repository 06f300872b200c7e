import DocumentQuery.Decimal.Binary64
import DocumentQuery.Decimal.Numeral

/-!
# Number literals

The parts of a number as documents write it: a sign, digits, and perhaps a fraction and an
exponent.  A literal with neither of the last two is an integer, any other a floating-point number.
-/

namespace DocumentQuery

/-- The parts of a number: each is a run of digits; the exponent has a sign of its own. -/
structure NumberLiteral where
  negative : Bool
  whole : Text
  fraction : Option Text
  exponent : Option (Bool × Text)

namespace NumberLiteral

/-- Applies a sign to a magnitude. -/
def signed (negative : Bool) (n : Nat) : Int :=
  if negative then -(n : Int) else n

/-- The literal has neither fraction nor exponent. -/
def isInteger (l : NumberLiteral) : Bool :=
  l.fraction.isNone && l.exponent.isNone

/-- The integer that a literal without fraction and exponent denotes. -/
def toInt (l : NumberLiteral) : Except Numeral.LimitError Int :=
  (Numeral.read l.whole).map (signed l.negative)

/-- The floating-point number nearest to the literal. -/
def toBinary64 (l : NumberLiteral) : Binary64 :=
  let fraction := l.fraction.getD []
  let exponent : Int :=
    match l.exponent with
    | some (negative, digits) => signed negative (Numeral.value digits)
    | none => 0
  .ofDecimal l.negative (Numeral.value (l.whole ++ fraction)) (exponent - fraction.length)

/-- A fraction: a point and at least one digit.  What counts as a run of digits is a parameter; it
yields the digits and what follows them. -/
def readFraction (run : Text → Text × Text) (t : Text) : Option Text × Text :=
  match t with
  | .char '.' :: rest =>
      match run rest with
      | ([], _) => (none, t)
      | (digits, rest) => (some digits, rest)
  | _ => (none, t)

/-- An exponent: the letter `e` of either case, perhaps a sign, and at least one digit. -/
def readExponent (run : Text → Text × Text) (t : Text) : Option (Bool × Text) × Text :=
  match t with
  | .char 'e' :: rest | .char 'E' :: rest =>
      let (negative, digits) : Bool × Text :=
        match rest with
        | .char '-' :: rest => (true, rest)
        | .char '+' :: rest => (false, rest)
        | _ => (false, rest)
      match run digits with
      | ([], _) => (none, t)
      | (digits, rest) => (some (negative, digits), rest)
  | _ => (none, t)

/-- The literal of which sign and leading digits have been read. -/
def readTail (run : Text → Text × Text) (negative : Bool) (whole rest : Text) :
    NumberLiteral × Text :=
  let (fraction, rest) := readFraction run rest
  let (exponent, rest) := readExponent run rest
  (⟨negative, whole, fraction, exponent⟩, rest)

end NumberLiteral

end DocumentQuery
