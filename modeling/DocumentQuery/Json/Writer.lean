import DocumentQuery.Decimal.Shortest
import DocumentQuery.Value.Kind

/-!
# Writing JSON

Values are written either in one line without blanks, or with every item and member on a line of
its own.  Characters outside ASCII stand for themselves; moments become strings.
-/

namespace DocumentQuery

namespace Json

/-- Why a value has no JSON text. -/
inductive WriteError where
  | unsupported (type : ForeignType)
  | limit (e : Numeral.LimitError)
  deriving DecidableEq

/-- Floating-point numbers are positional from 0.0001 up to below 10 ^ 16; an exponent has a sign
and at least two digits.  The words for what is no finite number are those of the reader. -/
def floatStyle : FloatStyle where
  nan := "NaN"
  infinity := "Infinity"
  positionalFrom := -4
  positionalBelow := 16
  exponentDigits := 2

/-- A code point inside a string. -/
def escaped (c : CodePoint) : Text :=
  if c = .char '"' then "\\\""
  else if c = .char '\\' then "\\\\"
  else if c = .char '\n' then "\\n"
  else if c = .char '\r' then "\\r"
  else if c = .char '\t' then "\\t"
  else if c = .char '\x0C' then "\\f"
  else if c = .char '\x08' then "\\b"
  else if c.toNat < 0x20 then "\\u" ++ Text.hex 4 c.toNat
  else [c]

/-- The text of a string. -/
def writeString (t : Text) : Text :=
  .char '"' :: t.flatMap escaped ++ [.char '"']

/-- The two ways in which the parts of a container are set out. -/
inductive Layout where
  | compact
  | indented
  deriving DecidableEq

namespace Layout

/-- What stands between a name and its value. -/
def colon : Layout → Text
  | .compact => ":"
  | .indented => ": "

/-- A line break before something at the given depth. -/
def lineBreak : Layout → Nat → Text
  | .compact, _ => []
  | .indented, depth => .char '\n' :: Text.repeated (2 * depth) ' '

/-- The parts of a container at the given depth, between brackets. -/
def container (layout : Layout) (depth : Nat) (opening closing : Char) (parts : List Text) : Text :=
  if parts.isEmpty then [.char opening, .char closing]
  else
    let inner := layout.lineBreak (depth + 1)
    .char opening :: inner ++ Text.joined (.char ',' :: inner) parts ++ layout.lineBreak depth ++
      [.char closing]

end Layout

mutual

/-- The text of a value at the given depth. -/
def writeAt (layout : Layout) (depth : Nat) : Value → Except WriteError Text
  | .string t => .ok (writeString t)
  | .integer i =>
      match Numeral.write i with
      | .ok t => .ok t
      | .error e => .error (.limit e)
  | .float x => .ok (floatStyle.render x)
  | .boolean b => .ok (if b then "true" else "false")
  | .moment m => .ok (writeString m.render)
  | .null => .ok "null"
  | .foreign type => .error (.unsupported type)
  | .array _ items => do
      return layout.container depth '[' ']' (← writeItems layout (depth + 1) items)
  | .table entries => do
      return layout.container depth '{' '}' (← writeMembers layout (depth + 1) entries)

/-- The texts of the items of an array. -/
def writeItems (layout : Layout) (depth : Nat) : List Value → Except WriteError (List Text)
  | [] => .ok []
  | item :: rest => do
      let text ← writeAt layout depth item
      let texts ← writeItems layout depth rest
      return text :: texts

/-- The texts of the members of an object. -/
def writeMembers (layout : Layout) (depth : Nat) :
    List (Text × Value) → Except WriteError (List Text)
  | [] => .ok []
  | (key, value) :: rest => do
      let text ← writeAt layout depth value
      let texts ← writeMembers layout depth rest
      return (writeString key ++ layout.colon ++ text) :: texts

end

/-- The JSON text of a value. -/
def write (layout : Layout) (v : Value) : Except WriteError Text :=
  writeAt layout 0 v

end Json

end DocumentQuery
