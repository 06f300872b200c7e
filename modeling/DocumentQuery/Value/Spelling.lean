import DocumentQuery.Decimal.Shortest
import DocumentQuery.Text.Quoted
import DocumentQuery.Value.Basic

/-!
# Spelled values

The form in which messages show any value at all, also one that belongs to no document: texts stand
between quotes, the parts of arrays and tables between brackets.
-/

namespace DocumentQuery

namespace Value

/-- Floating-point numbers in messages are positional from 0.0001 up to below 10 ^ 16; an exponent
has a sign and at least two digits. -/
def spelledFloat : FloatStyle where
  nan := "nan"
  infinity := "inf"
  positionalFrom := -4
  positionalBelow := 16
  exponentDigits := 2

/-- Parts between brackets, with a comma between neighbours; a single part of a tuple is followed by
a comma. -/
def bracketedParts (form : ArrayForm) (parts : List Text) : Text :=
  match form, parts with
  | .list, _ => "[" ++ Text.joined ", " parts ++ "]"
  | .tuple, [part] => "(" ++ part ++ ",)"
  | .tuple, _ => "(" ++ Text.joined ", " parts ++ ")"

mutual

/-- A value as messages show it. -/
def spelling : Value → Text
  | .null => "None"
  | .boolean truth => if truth then "True" else "False"
  | .integer i => Numeral.ofInt i
  | .float x => spelledFloat.render x
  | .string t => t.quoted
  | .moment m => m.render
  | .array form items => bracketedParts form (spellings items)
  | .table entries => "\x7b" ++ Text.joined ", " (entrySpellings entries) ++ "\x7d"
  | .foreign type => "<" ++ type.qualifiedName ++ ">"

/-- Values as messages show them. -/
def spellings : List Value → List Text
  | [] => []
  | v :: rest => v.spelling :: spellings rest

/-- The entries of a table as messages show them. -/
def entrySpellings : List (Text × Value) → List Text
  | [] => []
  | (key, v) :: rest => (key.quoted ++ ": " ++ v.spelling) :: entrySpellings rest

end

end Value

end DocumentQuery
