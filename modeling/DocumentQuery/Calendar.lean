import DocumentQuery.Decimal.Numeral

/-!
# Dates and times

Dates of the Gregorian calendar from year 1 to 9999, times of day to the microsecond and offsets
from universal time in whole minutes.  A value of these types is always one that exists.  The
written form is that of ISO 8601.
-/

namespace DocumentQuery

namespace Calendar

/-- Leap years have a 29th of February. -/
def isLeap (year : Nat) : Bool :=
  year % 4 = 0 && (year % 100 ≠ 0 || year % 400 = 0)

/-- The number of days of a month. -/
def daysIn (year month : Nat) : Nat :=
  if month = 2 then if isLeap year then 29 else 28
  else if month = 4 ∨ month = 6 ∨ month = 9 ∨ month = 11 then 30
  else 31

end Calendar

/-- A day of the calendar. -/
structure Date where
  year : Nat
  month : Nat
  day : Nat
  valid : 1 ≤ year ∧ year ≤ 9999 ∧ 1 ≤ month ∧ month ≤ 12 ∧ 1 ≤ day ∧
    day ≤ Calendar.daysIn year month
  deriving DecidableEq

/-- A time of day. -/
structure Clock where
  hour : Nat
  minute : Nat
  second : Nat
  microsecond : Nat
  valid : hour < 24 ∧ minute < 60 ∧ second < 60 ∧ microsecond < 1000000
  deriving DecidableEq

/-- A distance from universal time in minutes, positive to the east. -/
structure Offset where
  minutes : Int
  valid : minutes.natAbs < 1440
  deriving DecidableEq

/-- A date, a time of day, or both; a time may be bound to an offset. -/
inductive Moment where
  | date (date : Date)
  | time (clock : Clock) (offset : Option Offset)
  | dateTime (date : Date) (clock : Clock) (offset : Option Offset)
  deriving DecidableEq

/-- The day with the given numbers, if there is one. -/
def Date.of? (year month day : Nat) : Option Date :=
  if h : 1 ≤ year ∧ year ≤ 9999 ∧ 1 ≤ month ∧ month ≤ 12 ∧ 1 ≤ day ∧
      day ≤ Calendar.daysIn year month then
    some ⟨year, month, day, h⟩
  else none

/-- The time of day with the given numbers, if there is one. -/
def Clock.of? (hour minute second microsecond : Nat) : Option Clock :=
  if h : hour < 24 ∧ minute < 60 ∧ second < 60 ∧ microsecond < 1000000 then
    some ⟨hour, minute, second, microsecond, h⟩
  else none

/-- The offset of the given number of minutes, if it is less than a day. -/
def Offset.of? (minutes : Int) : Option Offset :=
  if h : minutes.natAbs < 1440 then some ⟨minutes, h⟩ else none

namespace Numeral

/-- The numeral of a number with leading zeros up to the given width. -/
def padded (width n : Nat) : Text :=
  Text.repeated (width - (ofNat n).length) '0' ++ ofNat n

end Numeral

/-- Year, month and day. -/
def Date.render (d : Date) : Text :=
  Numeral.padded 4 d.year ++ "-" ++ Numeral.padded 2 d.month ++ "-" ++ Numeral.padded 2 d.day

/-- Hour, minute and second, without the fraction of the second. -/
def Clock.renderWhole (c : Clock) : Text :=
  Numeral.padded 2 c.hour ++ ":" ++ Numeral.padded 2 c.minute ++ ":" ++ Numeral.padded 2 c.second

/-- Hour, minute and second; a fraction of the second that is not zero has six digits. -/
def Clock.render (c : Clock) : Text :=
  c.renderWhole ++
    if c.microsecond = 0 then [] else .char '.' :: Numeral.padded 6 c.microsecond

/-- The sign, hours and minutes of an offset. -/
def Offset.render (o : Offset) : Text :=
  (if o.minutes < 0 then "-" else "+") ++ Numeral.padded 2 (o.minutes.natAbs / 60) ++ ":" ++
    Numeral.padded 2 (o.minutes.natAbs % 60)

/-- The written form of a moment: date and time are joined by `T`. -/
def Moment.render : Moment → Text
  | .date d => d.render
  | .time c o => c.render ++ (o.map Offset.render).getD []
  | .dateTime d c o => d.render ++ "T" ++ c.render ++ (o.map Offset.render).getD []

namespace Calendar

/-! ## Reading

Each reader takes its form from the beginning of a text and returns what follows it. -/

/-- A number of exactly `count` digits. -/
def readFixed? (count : Nat) (t : Text) : Option (Nat × Text) :=
  let digits := t.take count
  if digits.length = count ∧ digits.all CodePoint.isDigit then
    some (Numeral.value digits, t.drop count)
  else none

/-- One given character. -/
def readChar? (c : Char) : Text → Option Text
  | d :: rest => if d = .char c then some rest else none
  | [] => none

/-- Year, month and day of a date that need not exist: the month is at most 12, the day at most
31. -/
def readDateFields? (t : Text) : Option ((Nat × Nat × Nat) × Text) := do
  let (year, t) ← readFixed? 4 t
  let (month, t) ← readFixed? 2 (← readChar? '-' t)
  let (day, t) ← readFixed? 2 (← readChar? '-' t)
  if 1 ≤ month ∧ month ≤ 12 ∧ 1 ≤ day ∧ day ≤ 31 then some ((year, month, day), t) else none

/-- A fraction of a second in microseconds, further digits cut off; zero if there is none. -/
def readFraction (t : Text) : Nat × Text :=
  match t with
  | .char '.' :: rest =>
      let digits := rest.takeWhile CodePoint.isDigit
      if digits.isEmpty then (0, t)
      else
        let kept := digits.take 6
        (Numeral.value (kept ++ Text.repeated (6 - kept.length) '0'),
          rest.dropWhile CodePoint.isDigit)
  | _ => (0, t)

/-- A time of day. -/
def readClock? (t : Text) : Option (Clock × Text) := do
  let (hour, t) ← readFixed? 2 t
  let (minute, t) ← readFixed? 2 (← readChar? ':' t)
  let (second, t) ← readFixed? 2 (← readChar? ':' t)
  let whole ← Clock.of? hour minute second 0
  let (microsecond, t) := readFraction t
  let clock ← Clock.of? whole.hour whole.minute whole.second microsecond
  return (clock, t)

/-- An offset: the letter `Z` of either case, or a sign with hours and minutes. -/
def readOffset? (t : Text) : Option (Offset × Text) :=
  match t with
  | .char 'Z' :: rest | .char 'z' :: rest => (Offset.of? 0).map (·, rest)
  | .char '+' :: rest => signed 1 rest
  | .char '-' :: rest => signed (-1) rest
  | _ => none
where
  /-- Hours and minutes with a sign. -/
  signed (sign : Int) (t : Text) : Option (Offset × Text) := do
    let (hour, t) ← readFixed? 2 t
    let (minute, t) ← readFixed? 2 (← readChar? ':' t)
    if hour < 24 ∧ minute < 60 then
      let offset ← Offset.of? (sign * (60 * hour + minute))
      return (offset, t)
    else none

end Calendar

open Calendar in
/-- A moment in its written form, nothing following it. -/
def Moment.ofText? (t : Text) : Option Moment :=
  let ended {α : Type} : Option (α × Text) → Option α
    | some (a, []) => some a
    | _ => none
  let withOffset (t : Text) : Option ((Clock × Option Offset) × Text) := do
    let (clock, rest) ← readClock? t
    match readOffset? rest with
    | some (offset, rest) => return ((clock, some offset), rest)
    | none => return ((clock, none), rest)
  match readDateFields? t with
  | none => (ended (withOffset t)).map fun (clock, offset) => .time clock offset
  | some ((year, month, day), rest) => do
      let date ← Date.of? year month day
      match rest with
      | [] => return .date date
      | .char 'T' :: rest =>
          let (clock, offset) ← ended (withOffset rest)
          return .dateTime date clock offset
      | _ => none

end DocumentQuery
