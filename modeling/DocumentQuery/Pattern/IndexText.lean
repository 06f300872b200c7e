import DocumentQuery.Decimal.Numeral

/-!
# Integers in texts of data

Data may give an index as a text.  A plain numeral is read as it stands.  Any other text is tidied
first: white space around it, a plus sign, a fraction that is zero, leading zeros and single
underscores between digits are removed, and what is left has to be a plain numeral.
-/

namespace DocumentQuery

namespace IndexText

/-- Why a text gives no integer. -/
inductive Fault where
  | noNumeral
  | tooLong
  deriving DecidableEq

/-! ## Plain numerals -/

/-- A text without a minus sign before it, and whether there was one. -/
def splitMinus : Text → Bool × Text
  | .char '-' :: rest => (true, rest)
  | t => (false, t)

/-- An integer by its sign and its magnitude. -/
def signed (negative : Bool) (magnitude : Nat) : Int :=
  if negative then -(magnitude : Int) else magnitude

/-- The code point is a digit other than zero. -/
def isPositiveDigit (c : CodePoint) : Bool :=
  c.isDigit && c ≠ .char '0'

/-- The digits of a plain numeral: a lone zero, or digits of which the first is not zero. -/
def isPlainMagnitude : Text → Bool
  | [] => false
  | first :: rest => (isPositiveDigit first || first = .char '0' && rest.isEmpty) &&
      rest.all CodePoint.isDigit

/-- A text begins with a plain numeral of too many digits. -/
def beginsTooLong (t : Text) : Bool :=
  let digits := (splitMinus t).2.takeWhile CodePoint.isDigit
  digits.head?.any isPositiveDigit && Numeral.maxDigits < digits.length

/-- The integer of a plain numeral. -/
def readPlain (t : Text) : Except Fault Int :=
  if beginsTooLong t then .error .tooLong
  else
    let (negative, magnitude) := splitMinus t
    if isPlainMagnitude magnitude then .ok (signed negative (Numeral.value magnitude))
    else .error .noNumeral

/-! ## Other texts -/

/-- White space of Unicode.  The control characters from U+001C to U+001F are blanks of another
kind and do not belong to it. -/
def isWhiteSpace (c : CodePoint) : Bool :=
  c.isBlank && !(28 ≤ c.toNat && c.toNat ≤ 31)

/-- A text without the white space around it. -/
def trimmed (t : Text) : Text :=
  Text.dropEndWhile isWhiteSpace (t.dropWhile isWhiteSpace)

/-- A text without its fraction, if that consists of zeros; there has to be one at least. -/
def withoutZeroFraction (t : Text) : Text :=
  let whole := t.takeWhile (· ≠ .char '.')
  let fraction := (t.drop whole.length).drop 1
  if !fraction.isEmpty && fraction.all (· = .char '0') then whole else t

/-- The code point may come first when leading zeros are gone. -/
def mayFollowZeros (c : CodePoint) : Bool :=
  isPositiveDigit c || c = .char '-'

/-- A text without leading zeros and the underscores among them.  If nothing else is there, the last
of them stays. -/
def withoutLeadingZeros? : Text → Option Text
  | .char '0' :: rest =>
      match rest.dropWhile fun c => c = .char '0' || c = .char '_' with
      | [] => some [rest.getLastD '0']
      | c :: after => if mayFollowZeros c then some (c :: after) else none
  | c :: rest => if mayFollowZeros c then some (c :: rest) else none
  | [] => none

/-- Two underscores stand side by side. -/
def hasDoubleUnderscore : Text → Bool
  | .char '_' :: .char '_' :: _ => true
  | _ :: rest => hasDoubleUnderscore rest
  | [] => false

/-- A text without underscores; each has to stand alone between other code points. -/
def withoutUnderscores? (t : Text) : Option Text :=
  if t.head? = some (.char '_') || t.getLast? = some (.char '_') || hasDoubleUnderscore t then none
  else some (t.filter (· ≠ .char '_'))

/-- The tidied form of a text that has no sign. -/
def tidyMagnitude? (t : Text) : Option Text := do
  withoutUnderscores? (← withoutLeadingZeros? (withoutZeroFraction t))

/-- The tidied form of a text. -/
def tidy? (t : Text) : Option Text :=
  match trimmed t with
  | .char '+' :: .char '-' :: _ => none
  | .char '+' :: rest => tidyMagnitude? rest
  | .char '-' :: rest => (tidyMagnitude? rest).map (.char '-' :: ·)
  | t => tidyMagnitude? t

/-- The integer that a text gives.  Only the text as it stands can be too long; tidied texts that
are too long count as no numerals. -/
def read (t : Text) : Except Fault Int :=
  match readPlain t with
  | .error .noNumeral =>
      match (tidy? t).map readPlain with
      | some (.ok i) => .ok i
      | _ => .error .noNumeral
  | outcome => outcome

end IndexText

end DocumentQuery
