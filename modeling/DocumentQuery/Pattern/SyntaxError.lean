import DocumentQuery.Pattern.Basic
import DocumentQuery.Text.Quoted
import DocumentQuery.Text.Utf8

/-!
# Faults in pattern texts

A fault has a place.  Messages count it in bytes of the text that was typed; the caret stands below
the character at fault when the text is shown.
-/

namespace DocumentQuery

namespace Pattern

/-- What can be wrong with the text of a pattern. -/
inductive Fault where
  | emptyIdentifier
  | unexpectedCharacter
  | unterminatedQuote
  | unterminatedBracket
  | invalidIndex
  | trailingDot
  deriving DecidableEq

/-- The name of a fault in messages. -/
def Fault.name : Fault → Text
  | .emptyIdentifier => "empty identifier"
  | .unexpectedCharacter => "unexpected character"
  | .unterminatedQuote => "unterminated quote"
  | .unterminatedBracket => "unterminated bracket"
  | .invalidIndex => "invalid index"
  | .trailingDot => "trailing dot"

/-- A text that is no pattern: the text as it was given, the fault, and its place in code points
from the beginning of the text. -/
structure SyntaxError where
  fault : Fault
  place : Nat
  text : Text
  deriving DecidableEq

namespace SyntaxError

/-- The place of the fault in bytes. -/
def offset (e : SyntaxError) : Nat :=
  (Text.restoredBytes (e.text.take e.place)).length

/-- What is said about the fault. -/
def message (e : SyntaxError) : Text :=
  "invalid pattern " ++ e.text.quoted ++ ": " ++ e.fault.name ++ " at byte " ++
    Numeral.ofNat e.offset

/-- The text as it is shown: bytes that are no UTF-8 appear as replacement characters. -/
def shown (e : SyntaxError) : Text :=
  Utf8.decodeLossy e.text.restoredBytes

/-- The number of blanks before the caret. -/
def column (e : SyntaxError) : Nat :=
  (Utf8.decodeLossy (e.text.restoredBytes.take e.offset)).length

/-- The text with a caret below the character at fault. -/
def caret (e : SyntaxError) : Text :=
  e.shown ++ "\n" ++ Text.repeated e.column ' ' ++ "^ " ++ e.fault.name

end SyntaxError

/-- Why a text yields no pattern. -/
inductive ParseError where
  | malformed (e : SyntaxError)
  | limit (e : Numeral.LimitError)
  deriving DecidableEq

/-- What is said about a text that yields no pattern. -/
def ParseError.message : ParseError → Text
  | .malformed e => e.message
  | .limit e => e.message

end Pattern

end DocumentQuery
