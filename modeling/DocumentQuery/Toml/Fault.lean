import DocumentQuery.Decimal.Numeral
import DocumentQuery.Text.Quoted

/-!
# Faults in TOML documents
-/

namespace DocumentQuery

namespace Toml

/-- A key with its dots resolved: the names from the outermost table inwards. -/
abbrev Path := List Text

/-- What can be wrong with a TOML document. -/
inductive Fault where
  | invalidStatement
  | expectedLineEnd
  | invalidKeyPart
  | expectedEquals
  | expectedTableEnd
  | expectedArrayEnd
  | unclosedArray
  | unclosedInlineTable
  | invalidValue
  | invalidMoment
  | unterminatedString
  | unescapedBackslash
  | invalidHexValue
  | noScalarValue
  /-- A character that a string may not hold. -/
  | illegalCharacter (c : CodePoint)
  /-- A character that a comment or a literal string may not hold. -/
  | invalidCharacter (c : CodePoint)
  /-- A literal string without its closing quotes. -/
  | missingDelimiter (delimiter : Text)
  | declaredTwice (path : Path)
  | immutableNamespace (path : Path)
  | redefinedNamespace (path : Path)
  | overwrittenValue
  | duplicateInlineKey (key : Text)
  deriving DecidableEq

/-- What is said about a fault. -/
def Fault.message : Fault → Text
  | .invalidStatement => "Invalid statement"
  | .expectedLineEnd => "Expected newline or end of document after a statement"
  | .invalidKeyPart => "Invalid initial character for a key part"
  | .expectedEquals => "Expected '=' after a key in a key/value pair"
  | .expectedTableEnd => "Expected ']' at the end of a table declaration"
  | .expectedArrayEnd => "Expected ']]' at the end of an array declaration"
  | .unclosedArray => "Unclosed array"
  | .unclosedInlineTable => "Unclosed inline table"
  | .invalidValue => "Invalid value"
  | .invalidMoment => "Invalid date or datetime"
  | .unterminatedString => "Unterminated string"
  | .unescapedBackslash => "Unescaped '\\' in a string"
  | .invalidHexValue => "Invalid hex value"
  | .noScalarValue => "Escaped character is not a Unicode scalar value"
  | .illegalCharacter c => "Illegal character " ++ Text.quoted [c]
  | .invalidCharacter c => "Found invalid character " ++ Text.quoted [c]
  | .missingDelimiter delimiter => "Expected " ++ delimiter.quoted
  | .declaredTwice path => "Cannot declare " ++ Text.quotedTuple path ++ " twice"
  | .immutableNamespace path => "Cannot mutate immutable namespace " ++ Text.quotedTuple path
  | .redefinedNamespace path => "Cannot redefine namespace " ++ Text.quotedTuple path
  | .overwrittenValue => "Cannot overwrite a value"
  | .duplicateInlineKey key => "Duplicate inline table key " ++ key.quoted

/-- A text that is no TOML: the fault and its place, which is none at the end of the text. -/
structure SyntaxError where
  fault : Fault
  place : Option Position
  deriving DecidableEq

/-- What is said about a text that is no TOML. -/
def SyntaxError.message (e : SyntaxError) : Text :=
  e.fault.message ++ " (at " ++
    (match e.place with
    | none => Text.ofString "end of document"
    | some place =>
        "line " ++ Numeral.ofNat place.line ++ ", column " ++ Numeral.ofNat place.column) ++
    ")"

/-- Why a text yields no document. -/
inductive ReadError where
  | malformed (e : SyntaxError)
  | limit (e : Numeral.LimitError)
  deriving DecidableEq

/-- Why a reader stops. -/
inductive Stop where
  /-- A fault at the first of the given code points. -/
  | fault (fault : Fault) (unread : Text)
  /-- A numeral that is too long. -/
  | limit (e : Numeral.LimitError)

end Toml

end DocumentQuery
