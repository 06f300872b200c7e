import DocumentQuery.Decimal.Literal
import DocumentQuery.Value.Basic

/-!
# Reading JSON

The grammar is that of RFC 8259, and in addition the numbers `NaN`, `Infinity` and `-Infinity`.  An
escaped surrogate without a partner is kept as it is.  Of equal keys in an object the first gives
the place and the last gives the value.

Every reader takes its form from the beginning of a text and returns what follows it; one that
stops says with which fault and at which end piece of the text.

Arrays and objects may be nested to any depth: a limit that an interpreter sets to the depth of its
calls is left out.
-/

namespace DocumentQuery

namespace Json

/-- What can be wrong with a JSON text. -/
inductive Fault where
  | byteOrderMark
  | expectingValue
  | expectingName
  | expectingColon
  | expectingComma
  | extraData
  | unterminatedString
  | controlCharacter
  | invalidEscape
  | invalidHexEscape
  deriving DecidableEq

/-- The name of a fault in messages. -/
def Fault.name : Fault → Text
  | .byteOrderMark => "Unexpected UTF-8 BOM (decode using utf-8-sig)"
  | .expectingValue => "Expecting value"
  | .expectingName => "Expecting property name enclosed in double quotes"
  | .expectingColon => "Expecting ':' delimiter"
  | .expectingComma => "Expecting ',' delimiter"
  | .extraData => "Extra data"
  | .unterminatedString => "Unterminated string starting at"
  | .controlCharacter => "Invalid control character at"
  | .invalidEscape => "Invalid \\escape"
  | .invalidHexEscape => "Invalid \\uXXXX escape"

/-- A text that is no JSON: the fault and its place. -/
structure SyntaxError where
  fault : Fault
  place : Position
  deriving DecidableEq

/-- What is said about a text that is no JSON. -/
def SyntaxError.message (e : SyntaxError) : Text :=
  e.fault.name ++ ": line " ++ Numeral.ofNat e.place.line ++ " column " ++
    Numeral.ofNat e.place.column ++ " (char " ++ Numeral.ofNat e.place.offset ++ ")"

/-- Why a text yields no value. -/
inductive ReadError where
  | malformed (e : SyntaxError)
  | limit (e : Numeral.LimitError)
  deriving DecidableEq

/-- Why a reader stops. -/
inductive Stop where
  /-- A fault at the first of the given code points. -/
  | fault (fault : Fault) (unread : Text)
  /-- A numeral that is too long. -/
  | limit (e : Numeral.LimitError)

/-- The white space of JSON. -/
def isSpace (c : CodePoint) : Bool :=
  c = .char ' ' || c = .char '\t' || c = .char '\n' || c = .char '\r'

/-- A text without the white space before it. -/
def skipSpace (t : Text) : Text :=
  t.dropWhile isSpace

/-! ## Strings -/

/-- The character that a letter stands for after a backslash. -/
def unescape? : CodePoint → Option CodePoint
  | .char '"' => some '"'
  | .char '\\' => some '\\'
  | .char '/' => some '/'
  | .char 'b' => some '\x08'
  | .char 'f' => some '\x0C'
  | .char 'n' => some '\n'
  | .char 'r' => some '\r'
  | .char 't' => some '\t'
  | _ => none

/-- The number of four hexadecimal digits. -/
def hexValue? (a b c d : CodePoint) : Option Nat := do
  return 4096 * (← a.hexValue?) + 256 * (← b.hexValue?) + 16 * (← c.hexValue?) + (← d.hexValue?)

/-- The number is that of a surrogate which needs a second one after it. -/
def isLeading (n : Nat) : Bool :=
  0xD800 ≤ n && n < 0xDC00

/-- The number is that of a surrogate which needs another one before it. -/
def isTrailing (n : Nat) : Bool :=
  0xDC00 ≤ n && n < 0xE000

/-- The code point of a pair of surrogates. -/
def paired (leading trailing : Nat) : CodePoint :=
  .ofNat (0x10000 + (leading - 0xD800) * 0x400 + (trailing - 0xDC00))

/-- A string whose opening quote has been read; `whole` is the text with that quote. -/
def readChars (whole : Text) : Text → Except Stop (Text × Text)
  | [] => .error (.fault .unterminatedString whole)
  | .char '"' :: rest => .ok ([], rest)
  | [.char '\\'] => .error (.fault .unterminatedString whole)
  | .char '\\' :: .char 'u' :: a :: b :: c :: d :: rest =>
      match if rest.isEmpty then none else hexValue? a b c d with
      | none => .error (.fault .invalidHexEscape (.char 'u' :: a :: b :: c :: d :: rest))
      | some n =>
          let alone : Except Stop (Text × Text) := do
            let (t, after) ← readChars whole rest
            return (.ofNat n :: t, after)
          match rest with
          | .char '\\' :: .char 'u' :: e :: f :: g :: h :: rest =>
              match if rest.isEmpty then none else hexValue? e f g h with
              | none => alone
              | some m =>
                  if isLeading n && isTrailing m then do
                    let (t, after) ← readChars whole rest
                    return (paired n m :: t, after)
                  else alone
          | _ => alone
  | .char '\\' :: .char 'u' :: rest => .error (.fault .invalidHexEscape (.char 'u' :: rest))
  | .char '\\' :: c :: rest =>
      match unescape? c with
      | none => .error (.fault .invalidEscape (.char '\\' :: c :: rest))
      | some meant => do
          let (t, after) ← readChars whole rest
          return (meant :: t, after)
  | c :: rest =>
      if c.toNat < 0x20 then .error (.fault .controlCharacter (c :: rest))
      else do
        let (t, after) ← readChars whole rest
        return (c :: t, after)

/-! ## Numbers and words -/

/-- A run of digits and what follows it. -/
def digitRun (t : Text) : Text × Text :=
  (t.takeWhile CodePoint.isDigit, t.dropWhile CodePoint.isDigit)

/-- A number, if the text begins with one. -/
def readNumber? (t : Text) : Option (NumberLiteral × Text) :=
  let (negative, magnitude) : Bool × Text :=
    match t with
    | .char '-' :: rest => (true, rest)
    | _ => (false, t)
  match magnitude with
  | .char '0' :: rest => some (NumberLiteral.readTail digitRun negative [.char '0'] rest)
  | c :: _ =>
      if c.isDigit then
        let (whole, rest) := digitRun magnitude
        some (NumberLiteral.readTail digitRun negative whole rest)
      else none
  | [] => none

/-- The words that are values. -/
def words : List (Text × Value) :=
  [("null", .null), ("true", .boolean true), ("false", .boolean false),
    ("NaN", .float .nan), ("Infinity", .float (.infinity false)),
    ("-Infinity", .float (.infinity true))]

/-- A word, if the text begins with one. -/
def readWord? (t : Text) : Option (Value × Text) :=
  (words.find? fun (word, _) => word.isPrefixOf t).map fun (word, value) =>
    (value, t.drop word.length)

/-- A word or a number. -/
def readAtom (t : Text) : Except Stop (Value × Text) :=
  match readWord? t with
  | some found => .ok found
  | none =>
      match readNumber? t with
      | none => .error (.fault .expectingValue t)
      | some (literal, rest) =>
          if literal.isInteger then
            match literal.toInt with
            | .ok i => .ok (.integer i, rest)
            | .error e => .error (.limit e)
          else .ok (.float literal.toBinary64, rest)

/-! ## Values

The first argument bounds the number of nested or consecutive readings; twice the length of the
text is always enough, because a value takes at least one character and an item is one value. -/

mutual

/-- A value. -/
def readValue : Nat → Text → Except Stop (Value × Text)
  | 0, t => .error (.fault .expectingValue t)
  | fuel + 1, t =>
      match t with
      | .char '"' :: rest => do
          let (s, after) ← readChars t rest
          return (.string s, after)
      | .char '[' :: rest =>
          match skipSpace rest with
          | .char ']' :: after => .ok (.array .list [], after)
          | inner => do
              let (items, after) ← readItems fuel inner
              return (.array .list items, after)
      | .char '{' :: rest =>
          match skipSpace rest with
          | .char '}' :: after => .ok (.table [], after)
          | inner => do
              let (entries, after) ← readMembers fuel [] inner
              return (.table entries, after)
      | _ => readAtom t

/-- The items of an array from one item on, up to the closing bracket. -/
def readItems : Nat → Text → Except Stop (List Value × Text)
  | 0, t => .error (.fault .expectingValue t)
  | fuel + 1, t => do
      let (item, rest) ← readValue fuel t
      match skipSpace rest with
      | .char ']' :: after => return ([item], after)
      | .char ',' :: after =>
          let (items, after) ← readItems fuel (skipSpace after)
          return (item :: items, after)
      | unread => .error (.fault .expectingComma unread)

/-- The members of an object from one member on, up to the closing brace; `before` holds those
already read. -/
def readMembers : Nat → Entries → Text → Except Stop (Entries × Text)
  | 0, _, t => .error (.fault .expectingName t)
  | fuel + 1, before, t =>
      match t with
      | .char '"' :: rest => do
          let (key, rest) ← readChars t rest
          match skipSpace rest with
          | .char ':' :: rest =>
              let (value, rest) ← readValue fuel (skipSpace rest)
              let entries := before.put key value
              match skipSpace rest with
              | .char '}' :: after => return (entries, after)
              | .char ',' :: after => readMembers fuel entries (skipSpace after)
              | unread => .error (.fault .expectingComma unread)
          | unread => .error (.fault .expectingColon unread)
      | _ => .error (.fault .expectingName t)

end

/-- A value with nothing but white space around it. -/
def readWhole (t : Text) : Except Stop Value :=
  match t with
  | .char '\uFEFF' :: _ => .error (.fault .byteOrderMark t)
  | _ => do
      let (value, rest) ← readValue (2 * t.length + 2) (skipSpace t)
      match skipSpace rest with
      | [] => return value
      | unread => .error (.fault .extraData unread)

/-- The value that a text denotes. -/
def read (t : Text) : Except ReadError Value :=
  match readWhole t with
  | .ok value => .ok value
  | .error (.limit e) => .error (.limit e)
  | .error (.fault fault unread) =>
      .error (.malformed ⟨fault, .after (t.consumed unread)⟩)

end Json

end DocumentQuery
