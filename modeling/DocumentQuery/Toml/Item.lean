import DocumentQuery.Decimal.Shortest
import DocumentQuery.Text.Quoted
import DocumentQuery.Value.Kind

/-!
# Items of a TOML document

An item is a value whose scalars have been spelled.  Making items is what can fail; setting them
out cannot.
-/

namespace DocumentQuery

namespace Toml

/-- A value with its scalars spelled. -/
inductive Item where
  | scalar (spelling : Text)
  | array (items : List Item)
  | table (entries : List (Text × Item))
  deriving Inhabited

/-- Why a value has no TOML text. -/
inductive WriteError where
  /-- The value, or a part of an array or of an inline table, belongs to no document. -/
  | unsupported (type : ForeignType)
  /-- A part of a document belongs to none. -/
  | inconvertible (type : ForeignType)
  | limit (e : Numeral.LimitError)
  deriving DecidableEq

/-- Floating-point numbers are positional from 0.0001 up to below 10 ^ 16; an exponent has a sign
and at least two digits. -/
def floatStyle : FloatStyle where
  nan := "nan"
  infinity := "inf"
  positionalFrom := -4
  positionalBelow := 16
  exponentDigits := 2

/-- A code point inside a string. -/
def escaped (c : CodePoint) : Text :=
  if c = .char '\x08' then "\\b"
  else if c = .char '\t' then "\\t"
  else if c = .char '\n' then "\\n"
  else if c = .char '\x0C' then "\\f"
  else if c = .char '\r' then "\\r"
  else if c = .char '"' then "\\\""
  else if c = .char '\\' then "\\\\"
  else if c.toNat < 0x20 ∨ c.toNat = 0x7F then "\\u" ++ Text.hex 4 c.toNat
  else [c]

/-- The spelling of a string. -/
def spellString (t : Text) : Text :=
  .char '"' :: t.flatMap escaped ++ [.char '"']

/-- The spelling of a key: bare if it can be. -/
def spellKey (key : Text) : Text :=
  if !key.isEmpty && key.all CodePoint.isBare then key else spellString key

/-- The spelling of a dotted key. -/
def spellPath (path : List Text) : Text :=
  Text.joined "." (path.map spellKey)

/-- The spelling of a moment.  A time has no offset, and its fraction no trailing zeros; the offset
zero is the letter `Z`. -/
def spellMoment : Moment → Text
  | .date d => d.render
  | .time c _ => Text.dropEndWhile (fun digit => c.microsecond ≠ 0 && digit = .char '0') c.render
  | .dateTime d c offset =>
      d.render ++ "T" ++ c.render ++
        match offset with
        | none => []
        | some o => if o.minutes = 0 then Text.ofString "Z" else o.render

/-- The spelling of an integer. -/
def spellInteger (i : Int) : Except WriteError Text :=
  match Numeral.write i with
  | .ok t => .ok t
  | .error e => .error (.limit e)

/-- Where an item stands. -/
inductive Context where
  /-- In a value that is no document. -/
  | outside
  /-- Where a document can hold a table with a header: reached through tables with headers only. -/
  | block
  /-- In a document, inside an array or an inline table. -/
  | inline
  deriving DecidableEq

/-- What is wrong with a value of a foreign type. -/
def Context.refuse (context : Context) (type : ForeignType) : WriteError :=
  match context with
  | .outside => .unsupported type
  | _ => .inconvertible type

/-- The context of the items of an array. -/
def Context.ofItems (context : Context) (items : List Value) : Context :=
  match context with
  | .outside => .outside
  | .inline => .inline
  | .block => if items.all Value.isTable then .block else .inline

mutual

/-- The item of a value.  In an element of an array of tables, tables come after all other
entries. -/
def Item.of (context : Context) : Value → Except WriteError Item
  | .string t => .ok (.scalar (spellString t))
  | .integer i => do return .scalar (← spellInteger i)
  | .float x => .ok (.scalar (floatStyle.render x))
  | .boolean b => .ok (.scalar (if b then "true" else "false"))
  | .moment m => .ok (.scalar (spellMoment m))
  | .null => .error (context.refuse Value.nullType)
  | .foreign type => .error (context.refuse type)
  | .array _ items => do return .array (← Item.ofItems (context.ofItems items) items)
  | .table entries => do return .table (← Item.ofEntries context entries)

/-- The items of the items of an array. -/
def Item.ofItems (context : Context) : List Value → Except WriteError (List Item)
  | [] => .ok []
  | .table entries :: rest => do
      let inner ←
        if context = .block then do
          let others ← Item.ofEntriesWhere false context entries
          let tables ← Item.ofEntriesWhere true context entries
          pure (others ++ tables)
        else Item.ofEntries context entries
      let items ← Item.ofItems context rest
      return .table inner :: items
  | value :: rest => do
      let item ← Item.of context value
      let items ← Item.ofItems context rest
      return item :: items

/-- The items of the entries of a table. -/
def Item.ofEntries (context : Context) :
    List (Text × Value) → Except WriteError (List (Text × Item))
  | [] => .ok []
  | (key, value) :: rest => do
      let item ← Item.of context value
      let items ← Item.ofEntries context rest
      return (key, item) :: items

/-- The items of those entries of a table whose values are tables, or of those whose values are
not. -/
def Item.ofEntriesWhere (tables : Bool) (context : Context) :
    List (Text × Value) → Except WriteError (List (Text × Item))
  | [] => .ok []
  | (key, value) :: rest =>
      if value.isTable = tables then do
        let item ← Item.of context value
        let items ← Item.ofEntriesWhere tables context rest
        return (key, item) :: items
      else Item.ofEntriesWhere tables context rest

end

end Toml

end DocumentQuery
