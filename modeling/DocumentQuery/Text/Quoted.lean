import DocumentQuery.Text.Printable

/-!
# Quoted texts

The form in which messages show a text: between quotes, with escapes for what would not be seen.
The quotes are apostrophes, unless the text holds an apostrophe and no double quote.
-/

namespace DocumentQuery

namespace Text

/-- A code point between quotes of the given kind. -/
def escapedFor (quote : Char) (c : CodePoint) : Text :=
  if c = .char '\\' ∨ c = .char quote then ['\\', c]
  else if c = .char '\t' then ['\\', 't']
  else if c = .char '\n' then ['\\', 'n']
  else if c = .char '\r' then ['\\', 'r']
  else if c.isPrintable then [c]
  else if c.toNat < 0x100 then .char '\\' :: .char 'x' :: hex 2 c.toNat
  else if c.toNat < 0x10000 then .char '\\' :: .char 'u' :: hex 4 c.toNat
  else .char '\\' :: .char 'U' :: hex 8 c.toNat

/-- The quotes that a text is shown in. -/
def quoteOf (t : Text) : Char :=
  if t.contains (.char '\'') && !t.contains (.char '"') then '"' else '\''

/-- A text between quotes. -/
def quoted (t : Text) : Text :=
  .char (quoteOf t) :: t.flatMap (escapedFor (quoteOf t)) ++ [.char (quoteOf t)]

/-- Texts between quotes in round brackets; a single one is followed by a comma. -/
def quotedTuple (parts : List Text) : Text :=
  match parts with
  | [part] => "(" ++ quoted part ++ ",)"
  | parts => "(" ++ joined ", " (parts.map quoted) ++ ")"

end Text

end DocumentQuery
