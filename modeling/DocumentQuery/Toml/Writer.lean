import DocumentQuery.Toml.Item

/-!
# Writing TOML

A table is written as a document: the plain entries of every table come first, then the tables and
arrays of tables below it, each with a header.  Any other value is written in one line.

A written document is a sequence of pieces.  A piece is text that never changes, or one of the
outermost arrays, which can be set out with one item to a line.
-/

namespace DocumentQuery

namespace Toml

/-! ## Items in one line -/

mutual

/-- An item in one line.  In a document, a table that is itself the value in an inline table has no
blanks between its entries; `tight` says so. -/
def Item.inline (document tight : Bool) : Item → Text
  | .scalar spelling => spelling
  | .array items => "[" ++ Text.joined ", " (Item.inlineItems document items) ++ "]"
  | .table entries =>
      let separator : Text := if document && tight then "," else ", "
      .char '{' :: Text.joined separator (Item.inlineEntries document entries) ++ [.char '}']

/-- The items of an array, each in one line. -/
def Item.inlineItems (document : Bool) : List Item → List Text
  | [] => []
  | item :: rest => item.inline document false :: Item.inlineItems document rest

/-- The entries of a table, each in one line. -/
def Item.inlineEntries (document : Bool) : List (Text × Item) → List Text
  | [] => []
  | (key, item) :: rest =>
      (spellKey key ++ " = " ++ item.inline document true) :: Item.inlineEntries document rest

end

/-! ## Pieces -/

/-- A part of a written value. -/
inductive Piece where
  /-- Text that is the same in every layout. -/
  | verbatim (text : Text)
  /-- An outermost array, given by the texts of its items. -/
  | array (items : List Text)

/-- The line of an item in an array that is set out with one item to a line. -/
def splitLine (item : Text) : Text :=
  "    " ++ item ++ ",\n"

/-- The text of a piece; `split` sets arrays out with one item to a line. -/
def Piece.render (split : Bool) : Piece → Text
  | .verbatim text => text
  | .array items =>
      if split && !items.isEmpty then
        "[\n" ++ (items.map splitLine).flatten ++ "]"
      else "[" ++ Text.joined ", " items ++ "]"

/-- The text of a sequence of pieces. -/
def renderPieces (split : Bool) (pieces : List Piece) : Text :=
  pieces.flatMap (Piece.render split)

/-- An item in the place of an outermost array. -/
def Item.outermost (document : Bool) : Item → Piece
  | .array items => .array (Item.inlineItems document items)
  | item => .verbatim (item.inline document false)

/-! ## Documents -/

namespace Item

/-- The item is a table. -/
def isTable : Item → Bool
  | .table _ => true
  | _ => false

/-- The item is written with headers: a table, or an array of tables that is not empty. -/
def hasHeader : Item → Bool
  | .table _ => true
  | .array items => !items.isEmpty && items.all isTable
  | .scalar _ => false

end Item

/-- The line of an entry that has no header. -/
def entryLine (key : Text) (item : Item) : List Piece :=
  [.verbatim (spellKey key ++ " = "), item.outermost true, .verbatim "\n"]

/-- The lines of the entries that have no header. -/
def plainLines (entries : List (Text × Item)) : List Piece :=
  entries.flatMap fun (key, item) => if item.hasHeader then [] else entryLine key item

/-- Every entry has a header. -/
def onlyHeaders (entries : List (Text × Item)) : Bool :=
  entries.all fun (_, item) => item.hasHeader

/-- An empty line, if wanted. -/
def emptyLine (wanted : Bool) : List Piece :=
  if wanted then [.verbatim "\n"] else []

/-- The header of a table, left out if everything in the table has a header of its own. -/
def tableHeader (path : List Text) (entries : List (Text × Item)) : List Piece :=
  if !entries.isEmpty && onlyHeaders entries then []
  else [.verbatim ("[" ++ spellPath path ++ "]\n")]

/-- The header of an element of an array of tables. -/
def elementHeader (path : List Text) : List Piece :=
  [.verbatim ("[[" ++ spellPath path ++ "]]\n")]

mutual

/-- The lines of the item at the given path, if it has a header.  `blank` says that something of the
surrounding table is written before it, `first` that no entry of that table stands before it.  A
table is set off by an empty line if anything is written before it, an array of tables if any entry
stands before it. -/
def headed (path : List Text) (blank first : Bool) : Item → List Piece
  | .scalar _ => []
  | .table inner =>
      emptyLine blank ++ tableHeader path inner ++ plainLines inner ++
        sections path (!onlyHeaders inner) true inner
  | .array items =>
      if (Item.array items).hasHeader then elements path (!first) items else []

/-- The entries that have headers, in a table at the given path. -/
def sections (path : List Text) (blank first : Bool) : List (Text × Item) → List Piece
  | [] => []
  | (key, item) :: rest =>
      headed (path ++ [key]) blank first item ++
        sections path (blank || item.hasHeader) false rest

/-- The elements of an array of tables at the given path.  An element is set off by an empty line if
`blank` holds, a later one if the element before it has entries. -/
def elements (path : List Text) (blank : Bool) : List Item → List Piece
  | [] => []
  | .table inner :: rest =>
      emptyLine blank ++ elementHeader path ++ plainLines inner ++
        sections path (!onlyHeaders inner) true inner ++ elements path (!inner.isEmpty) rest
  | _ :: rest => elements path false rest

end

/-- The pieces of a document. -/
def document (entries : List (Text × Item)) : List Piece :=
  plainLines entries ++ sections [] (!onlyHeaders entries) true entries

/-- The pieces of a value: a table is a document, anything else stands in one line. -/
def pieces : Value → Except WriteError (List Piece)
  | .table entries => do return document (← Item.ofEntries .block entries)
  | v => do return [(← Item.of .outside v).outermost false]

/-- The TOML text of a value; `split` sets its outermost arrays out with one item to a line. -/
def write (split : Bool) (v : Value) : Except WriteError Text := do
  return renderPieces split (← pieces v)

end Toml

end DocumentQuery
