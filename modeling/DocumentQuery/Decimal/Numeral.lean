import DocumentQuery.Text.Basic

/-!
# Decimal numerals

Integers are written and read in base ten.  A numeral of more than `Numeral.maxDigits` digits is
refused in both directions: its cost grows with the square of its length.
-/

namespace DocumentQuery

namespace Numeral

/-- The most digits that a decimal numeral may have. -/
def maxDigits : Nat := 4300

/-- A numeral with too many digits. -/
inductive LimitError where
  /-- A numeral of so many digits was to be read. -/
  | reading (digits : Nat)
  /-- An integer was to be written whose numeral is too long. -/
  | writing
  deriving DecidableEq

/-- The decimal digits of a number, without leading zeros. -/
def ofNat (n : Nat) : Text :=
  (Nat.toDigits 10 n).map .char

/-- The decimal numeral of an integer. -/
def ofInt (i : Int) : Text :=
  if i < 0 then .char '-' :: ofNat i.natAbs else ofNat i.natAbs

/-- The number with the given decimal digits. -/
def value (digits : Text) : Nat :=
  digits.foldl (fun n c => 10 * n + c.digitValue) 0

/-- The numeral of an integer is short enough to be written. -/
def isWritable (i : Int) : Bool :=
  i.natAbs < Nat.pow 10 maxDigits

/-- The numeral of an integer, unless it is too long. -/
def write (i : Int) : Except LimitError Text :=
  if isWritable i then .ok (ofInt i) else .error .writing

/-- The number with the given decimal digits, unless there are too many. -/
def read (digits : Text) : Except LimitError Nat :=
  if digits.length ≤ maxDigits then .ok (value digits) else .error (.reading digits.length)

/-- What is said about a numeral that is too long. -/
def LimitError.message : LimitError → Text
  | .reading digits =>
      "Exceeds the limit (" ++ ofNat maxDigits ++
        " digits) for integer string conversion: value has " ++ ofNat digits ++
        " digits; use sys.set_int_max_str_digits() to increase the limit"
  | .writing =>
      "Exceeds the limit (" ++ ofNat maxDigits ++
        " digits) for integer string conversion; " ++
        "use sys.set_int_max_str_digits() to increase the limit"

end Numeral

end DocumentQuery
