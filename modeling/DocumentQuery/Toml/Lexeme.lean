import DocumentQuery.Calendar
import DocumentQuery.Decimal.Literal
import DocumentQuery.Toml.Fault

/-!
# The lexemes of TOML

Blanks and comments, strings, keys, numbers and moments.  Line endings are newlines alone.  Every
reader takes its form from the beginning of a text and returns what follows it; one that stops says
with which fault and at which end piece of the text.
-/

namespace DocumentQuery

namespace Toml

/-! ## Blanks and comments -/

/-- A blank inside a line. -/
def isBlank (c : CodePoint) : Bool :=
  c = .char ' ' || c = .char '\t'

/-- A blank or a newline. -/
def isSpace (c : CodePoint) : Bool :=
  isBlank c || c = .char '\n'

/-- A text without the blanks before it. -/
def skipBlanks (t : Text) : Text :=
  t.dropWhile isBlank

/-- A control character other than the tab. -/
def isControl (c : CodePoint) : Bool :=
  (c.toNat < 0x20 && c ≠ .char '\t') || c.toNat = 0x7F

/-- The end of the line that a comment runs to. -/
def commentEnd : Text → Except Stop Text
  | [] => .ok []
  | c :: rest =>
      if c = .char '\n' then .ok (c :: rest)
      else if isControl c then .error (.fault (.invalidCharacter c) (c :: rest))
      else commentEnd rest

/-- A text without the comment that it begins with, if any. -/
def skipComment (t : Text) : Except Stop Text :=
  match t with
  | .char '#' :: rest => commentEnd rest
  | _ => .ok t

/-- A text without the blanks, newlines and comments before it; `comment` says that the text begins
inside a comment. -/
def skipFiller (comment : Bool) : Text → Except Stop Text
  | [] => .ok []
  | c :: rest =>
      if comment && c ≠ .char '\n' then
        if isControl c then .error (.fault (.invalidCharacter c) (c :: rest))
        else skipFiller true rest
      else if isSpace c then skipFiller false rest
      else if c = .char '#' then skipFiller true rest
      else .ok (c :: rest)

/-! ## Strings -/

/-- The character that a letter stands for after a backslash. -/
def unescape? : CodePoint → Option CodePoint
  | .char 'b' => some '\x08'
  | .char 't' => some '\t'
  | .char 'n' => some '\n'
  | .char 'f' => some '\x0C'
  | .char 'r' => some '\r'
  | .char '"' => some '"'
  | .char '\\' => some '\\'
  | _ => none

/-- The number of hexadecimal digits, all of which have to be some. -/
def hexValue? (digits : Text) : Option Nat :=
  digits.foldlM (fun n c => c.hexValue?.map (16 * n + ·)) 0

/-- The character of hexadecimal digits that are followed by `after`. -/
def readHex (digits after : Text) : Except Stop CodePoint :=
  match hexValue? digits with
  | none => .error (.fault .invalidHexValue (digits ++ after))
  | some n =>
      if n.isValidChar then .ok (.ofNat n) else .error (.fault .noScalarValue after)

/-- Where a reader stands in a string. -/
inductive StringMode where
  /-- Among the characters of the string. -/
  | text
  /-- In the line whose end has been escaped by a backslash. -/
  | beforeBreak
  /-- Among the blanks and newlines after an escaped line end. -/
  | afterBreak
  deriving DecidableEq

/-- Adds a code point before what has been read. -/
def prepend (c : CodePoint) (found : Except Stop (Text × Text)) : Except Stop (Text × Text) :=
  found.map fun (t, rest) => (c :: t, rest)

/-- A string with escapes whose opening quotes have been read. -/
def readBasic (multiline : Bool) (mode : StringMode) : Text → Except Stop (Text × Text)
  | [] => .error (.fault .unterminatedString [])
  | c :: rest =>
      if mode = .afterBreak ∧ isSpace c then readBasic multiline .afterBreak rest
      else if mode = .beforeBreak then
        if c = .char '\n' then readBasic multiline .afterBreak rest
        else if isBlank c then readBasic multiline .beforeBreak rest
        else .error (.fault .unescapedBackslash (c :: rest))
      else if c = .char '"' then
        if multiline then
          match rest with
          | .char '"' :: .char '"' :: after => .ok ([], after)
          | _ => prepend c (readBasic multiline .text rest)
        else .ok ([], rest)
      else if c = .char '\\' then
        match rest with
        | [] => .error (.fault .unescapedBackslash [])
        | .char 'u' :: h1 :: h2 :: h3 :: h4 :: after =>
            match readHex [h1, h2, h3, h4] after with
            | .error stop => .error stop
            | .ok meant => prepend meant (readBasic multiline .text after)
        | .char 'U' :: h1 :: h2 :: h3 :: h4 :: h5 :: h6 :: h7 :: h8 :: after =>
            match readHex [h1, h2, h3, h4, h5, h6, h7, h8] after with
            | .error stop => .error stop
            | .ok meant => prepend meant (readBasic multiline .text after)
        | e :: after =>
            if e = .char 'u' ∨ e = .char 'U' then .error (.fault .invalidHexValue after)
            else if multiline ∧ e = .char '\n' then readBasic multiline .afterBreak after
            else if multiline ∧ isBlank e then readBasic multiline .beforeBreak after
            else
              match unescape? e with
              | none => .error (.fault .unescapedBackslash after)
              | some meant => prepend meant (readBasic multiline .text after)
      else if isControl c && !(multiline && c = .char '\n') then
        .error (.fault (.illegalCharacter c) (c :: rest))
      else prepend c (readBasic multiline .text rest)

/-- The text before a delimiter and the text after it, if the delimiter occurs. -/
def splitAt? (delimiter : Text) : Text → Option (Text × Text)
  | [] => if delimiter.isEmpty then some ([], []) else none
  | c :: rest =>
      if delimiter.isPrefixOf (c :: rest) then some ([], (c :: rest).drop delimiter.length)
      else (splitAt? delimiter rest).map fun (before, after) => (c :: before, after)

/-- A string without escapes whose opening quotes have been read. -/
def readLiteral (multiline : Bool) (t : Text) : Except Stop (Text × Text) :=
  let delimiter : Text := if multiline then "'''" else "'"
  match splitAt? delimiter t with
  | none => .error (.fault (.missingDelimiter delimiter) [])
  | some (body, after) =>
      let forbidden := fun c => isControl c && !(multiline && c = .char '\n')
      match body.dropWhile fun c => !forbidden c with
      | [] => .ok (body, after)
      | c :: unread =>
          .error (.fault (.invalidCharacter c) (c :: unread ++ delimiter ++ after))

/-- At most two quotes that stand right after the closing quotes still belong to the string. -/
def extraQuotes (quote : Char) (found : Text × Text) : Text × Text :=
  match found with
  | (t, .char c :: .char d :: rest) =>
      if c = quote then
        if d = quote then (t ++ [.char c, .char d], rest) else (t ++ [.char c], .char d :: rest)
      else found
  | (t, .char c :: rest) => if c = quote then (t ++ [.char c], rest) else found
  | _ => found

/-- A text without the newline that it begins with, if any. -/
def skipNewline : Text → Text
  | .char '\n' :: rest => rest
  | t => t

/-- A string, if the text begins with a quote. -/
def readString? (t : Text) : Option (Except Stop (Text × Text)) :=
  match t with
  | .char '"' :: .char '"' :: .char '"' :: rest =>
      some ((readBasic true .text (skipNewline rest)).map (extraQuotes '"'))
  | .char '"' :: rest => some (readBasic false .text rest)
  | .char '\'' :: .char '\'' :: .char '\'' :: rest =>
      some ((readLiteral true (skipNewline rest)).map (extraQuotes '\''))
  | .char '\'' :: rest => some (readLiteral false rest)
  | _ => none

/-! ## Keys -/

/-- One part of a dotted key: bare, or a string of one line. -/
def readKeyPart (t : Text) : Except Stop (Text × Text) :=
  match t with
  | .char '"' :: rest => readBasic false .text rest
  | .char '\'' :: rest => readLiteral false rest
  | _ =>
      let part := t.takeWhile CodePoint.isBare
      if part.isEmpty then .error (.fault .invalidKeyPart t)
      else .ok (part, t.dropWhile CodePoint.isBare)

/-- The parts of a dotted key, of which there are at most as many as the first argument says. -/
def readKeyParts : Nat → Text → Except Stop (Path × Text)
  | 0, t => .error (.fault .invalidKeyPart t)
  | count + 1, t => do
      let (part, rest) ← readKeyPart t
      match skipBlanks rest with
      | .char '.' :: rest =>
          let (parts, rest) ← readKeyParts count (skipBlanks rest)
          return (part :: parts, rest)
      | rest => return ([part], rest)

/-- A dotted key and the blanks after it. -/
def readKey (t : Text) : Except Stop (Path × Text) :=
  readKeyParts (t.length + 1) t

/-! ## Numbers -/

/-- The rest of a run of digits; single underscores may stand between them and are left out. -/
def digitTail (isDigit : CodePoint → Bool) : Text → Text × Text
  | [] => ([], [])
  | c :: rest =>
      if isDigit c then
        let (digits, after) := digitTail isDigit rest
        (c :: digits, after)
      else if c = .char '_' then
        match rest with
        | d :: more =>
            if isDigit d then
              let (digits, after) := digitTail isDigit more
              (d :: digits, after)
            else ([], c :: d :: more)
        | [] => ([], [c])
      else ([], c :: rest)

/-- A run of digits in which single underscores may stand between digits. -/
def digitRun (isDigit : CodePoint → Bool) (t : Text) : Text × Text :=
  match t with
  | c :: _ => if isDigit c then digitTail isDigit t else ([], t)
  | [] => ([], [])

/-- The number of digits of a base. -/
def valueInBase (base : Nat) (digits : Text) : Nat :=
  digits.foldl (fun n c => base * n + c.hexValue?.getD 0) 0

/-- The code point is a digit of a base, which is at most sixteen. -/
def isDigitOf (base : Nat) (c : CodePoint) : Bool :=
  c.hexValue?.any (· < base)

/-- The base that a letter announces after a zero. -/
def baseOf? : CodePoint → Option Nat
  | .char 'x' => some 16
  | .char 'o' => some 8
  | .char 'b' => some 2
  | _ => none

/-- A number in another base than ten, if the text begins with one. -/
def readBased? (t : Text) : Option (Nat × Text) :=
  match t with
  | .char '0' :: letter :: rest => do
      let base ← baseOf? letter
      match digitRun (isDigitOf base) rest with
      | ([], _) => none
      | (digits, after) => some (valueInBase base digits, after)
  | _ => none

/-- A decimal number, if the text begins with one. -/
def readDecimal? (t : Text) : Option (NumberLiteral × Text) :=
  let (negative, magnitude) : Bool × Text :=
    match t with
    | .char '-' :: rest => (true, rest)
    | .char '+' :: rest => (false, rest)
    | _ => (false, t)
  let run := digitRun CodePoint.isDigit
  match magnitude with
  | .char '0' :: rest => some (NumberLiteral.readTail run negative [.char '0'] rest)
  | _ =>
      match run magnitude with
      | ([], _) => none
      | (whole, rest) => some (NumberLiteral.readTail run negative whole rest)

/-- The words for what is no finite number. -/
def specialFloats : List (Text × Binary64) :=
  [("inf", .infinity false), ("nan", .nan), ("-inf", .infinity true), ("+inf", .infinity false),
    ("-nan", .nan), ("+nan", .nan)]

/-- A word for what is no finite number, if the text begins with one. -/
def readSpecialFloat? (t : Text) : Option (Binary64 × Text) :=
  (specialFloats.find? fun (word, _) => word.isPrefixOf t).map fun (word, x) =>
    (x, t.drop word.length)

/-! ## Moments -/

/-- A moment, if the text begins with the form of one.  A date is joined to a time by `T`, `t` or a
blank; without a time after it that character is left. -/
def readMoment? (t : Text) : Option (Except Stop (Moment × Text)) :=
  match Calendar.readDateFields? t with
  | none => (Calendar.readClock? t).map fun (clock, rest) => .ok (.time clock none, rest)
  | some ((year, month, day), rest) =>
      match Date.of? year month day with
      | none => some (.error (.fault .invalidMoment t))
      | some date =>
          let clock :=
            match rest with
            | .char 'T' :: after | .char 't' :: after | .char ' ' :: after =>
                Calendar.readClock? after
            | _ => none
          match clock with
          | none => some (.ok (.date date, rest))
          | some (clock, after) =>
              match Calendar.readOffset? after with
              | none => some (.ok (.dateTime date clock none, after))
              | some (offset, after) => some (.ok (.dateTime date clock (some offset), after))

end Toml

end DocumentQuery
