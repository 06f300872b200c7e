import DocumentQuery.Toml.Draft
import DocumentQuery.Toml.Lexeme

/-!
# Reading TOML

A document of TOML 1.0 is a sequence of statements, one to a line: key/value pairs, headers of
tables and headers of elements of arrays of tables.  They are read and carried out one after the
other, and the first fault of either kind ends the reading.

Arrays and inline tables may be nested to any depth: a limit that an interpreter sets to the depth
of its calls is left out.
-/

namespace DocumentQuery

namespace Toml

/-- The outcome of a change to a draft, a fault in it being placed at the given text. -/
def placed {α : Type} (unread : Text) : Except Fault α → Except Stop α
  | .ok a => .ok a
  | .error fault => .error (.fault fault unread)

/-- A boolean, a moment or a number. -/
def readScalar (t : Text) : Except Stop (Value × Text) :=
  if (Text.ofString "true").isPrefixOf t then .ok (.boolean true, t.drop 4)
  else if (Text.ofString "false").isPrefixOf t then .ok (.boolean false, t.drop 5)
  else
    match readMoment? t with
    | some found => found.map fun (moment, rest) => (.moment moment, rest)
    | none =>
        match readBased? t with
        | some (n, rest) => .ok (.integer n, rest)
        | none =>
            match readDecimal? t with
            | some (literal, rest) =>
                if literal.isInteger then
                  match literal.toInt with
                  | .ok i => .ok (.integer i, rest)
                  | .error e => .error (.limit e)
                else .ok (.float literal.toBinary64, rest)
            | none =>
                match readSpecialFloat? t with
                | some (x, rest) => .ok (.float x, rest)
                | none => .error (.fault .invalidValue t)

/-- The equals sign after a key, and the blanks after it. -/
def readEquals (t : Text) : Except Stop Text :=
  match t with
  | .char '=' :: rest => .ok (skipBlanks rest)
  | _ => .error (.fault .expectedEquals t)

/-! ## Values

The first argument bounds the number of nested or consecutive readings; twice the length of the
text is always enough, because a value takes at least one character and an item is one value. -/

mutual

/-- A value. -/
def readValue : Nat → Text → Except Stop (Value × Text)
  | 0, t => .error (.fault .invalidValue t)
  | fuel + 1, t =>
      match readString? t with
      | some found => found.map fun (s, rest) => (.string s, rest)
      | none =>
          match t with
          | .char '[' :: rest => do
              match ← skipFiller false rest with
              | .char ']' :: after => return (.array .list [], after)
              | inner =>
                  let (items, after) ← readItems fuel inner
                  return (.array .list items, after)
          | .char '{' :: rest =>
              match skipBlanks rest with
              | .char '}' :: after => .ok (.table [], after)
              | inner => do
                  let (entries, after) ← readPairs fuel ⟨[], []⟩ inner
                  return (.table entries, after)
          | _ => readScalar t

/-- The items of an array from one item on, up to the closing bracket. -/
def readItems : Nat → Text → Except Stop (List Value × Text)
  | 0, t => .error (.fault .invalidValue t)
  | fuel + 1, t => do
      let (item, rest) ← readValue fuel t
      match ← skipFiller false rest with
      | .char ']' :: after => return ([item], after)
      | .char ',' :: after =>
          match ← skipFiller false after with
          | .char ']' :: after => return ([item], after)
          | inner =>
              let (items, after) ← readItems fuel inner
              return (item :: items, after)
      | unread => .error (.fault .unclosedArray unread)

/-- The pairs of an inline table from one pair on, up to the closing brace; `before` holds those
already read. -/
def readPairs : Nat → InlineDraft → Text → Except Stop (Entries × Text)
  | 0, _, t => .error (.fault .invalidKeyPart t)
  | fuel + 1, before, t => do
      let (path, rest) ← readKey t
      let (value, rest) ← readValue fuel (← readEquals rest)
      let draft ← placed rest (before.addPair path value)
      match skipBlanks rest with
      | .char '}' :: after => return (draft.entries, after)
      | .char ',' :: after => readPairs fuel draft (skipBlanks after)
      | unread => .error (.fault .unclosedInlineTable unread)

end

/-! ## Statements -/

/-- A key/value pair. -/
def readPair (d : Draft) (t : Text) : Except Stop (Draft × Text) := do
  let (path, rest) ← readKey t
  let start ← readEquals rest
  let (value, rest) ← readValue (2 * start.length + 2) start
  return (← placed rest (d.addPair path value), rest)

/-- A header of a table, of which the opening bracket has been read. -/
def readTableHeader (d : Draft) (t : Text) : Except Stop (Draft × Text) := do
  let (path, rest) ← readKey (skipBlanks t)
  let d ← placed rest (d.closeSection.declareTable path)
  match rest with
  | .char ']' :: after => return (d, after)
  | _ => .error (.fault .expectedTableEnd rest)

/-- A header of an element of an array of tables, of which the opening brackets have been read. -/
def readElementHeader (d : Draft) (t : Text) : Except Stop (Draft × Text) := do
  let (path, rest) ← readKey (skipBlanks t)
  let d ← placed rest (d.closeSection.declareElement path)
  match rest with
  | .char ']' :: .char ']' :: after => return (d, after)
  | _ => .error (.fault .expectedArrayEnd rest)

/-- The code point may begin a key. -/
def beginsKey (c : CodePoint) : Bool :=
  c.isBare || c = .char '"' || c = .char '\''

/-- A statement; a comment in its place is left to be skipped. -/
def readStatement (d : Draft) (t : Text) : Except Stop (Draft × Text) :=
  match t with
  | [] => .ok (d, t)
  | .char '[' :: .char '[' :: rest => readElementHeader d rest
  | .char '[' :: rest => readTableHeader d rest
  | c :: _ =>
      if beginsKey c then readPair d t
      else if c = .char '#' then .ok (d, t)
      else .error (.fault .invalidStatement t)

/-- All statements, of which there are at most as many as the first argument says. -/
def readStatements : Nat → Draft → Text → Except Stop Draft
  | 0, d, _ => .ok d
  | count + 1, d, t =>
      match skipBlanks t with
      | [] => .ok d
      | .char '\n' :: rest => readStatements count d rest
      | start => do
          let (d, rest) ← readStatement d start
          match ← skipComment (skipBlanks rest) with
          | [] => return d
          | .char '\n' :: rest => readStatements count d rest
          | unread => .error (.fault .expectedLineEnd unread)

/-- The place of an end piece of a text, which is none if nothing is left. -/
def placeOf (whole unread : Text) : Option Position :=
  if unread.isEmpty then none else some (.after (whole.consumed unread))

/-- The table that a text denotes. -/
def read (text : Text) : Except ReadError Entries :=
  let t := text.unixNewlines
  match readStatements (t.length + 1) .empty t with
  | .ok d => .ok d.root
  | .error (.limit e) => .error (.limit e)
  | .error (.fault fault unread) => .error (.malformed ⟨fault, placeOf t unread⟩)

end Toml

end DocumentQuery
