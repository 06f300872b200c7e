import DocumentQuery.Toml.Fault
import DocumentQuery.Value.Basic

/-!
# Building a document

The statements of a TOML document fill a table one after the other.  A draft is that table together
with what later statements are not allowed to do: values that are complete are frozen, and tables
that have been declared may not be declared again.
-/

namespace DocumentQuery

namespace Toml

/-- Applies a change to the table at a path.  Tables that are missing on the way are created; where
the path meets an array of tables, it goes on in the last of them if `throughArrays` holds.
Anything else on the way is a value that would be overwritten. -/
def changeAt (throughArrays : Bool) (change : Entries → Except Fault Entries) :
    Path → Entries → Except Fault Entries
  | [], entries => change entries
  | key :: path, entries =>
      match entries.lookup key with
      | none => do
          let inner ← changeAt throughArrays change path []
          return entries.put key (.table inner)
      | some (.table inner) => do
          let inner ← changeAt throughArrays change path inner
          return entries.put key (.table inner)
      | some (.array form items) =>
          match items.getLast? with
          | some (.table inner) =>
              if throughArrays then do
                let inner ← changeAt throughArrays change path inner
                return entries.put key (.array form (items.dropLast ++ [.table inner]))
              else .error .overwrittenValue
          | _ => .error .overwrittenValue
      | some _ => .error .overwrittenValue

/-- The path without its last name, and that name. -/
def splitLast (path : Path) : Path × Text :=
  (path.dropLast, path.getLastD [])

/-- A document under construction. -/
structure Draft where
  /-- What has been read so far. -/
  root : Entries
  /-- The paths of arrays and inline tables: nothing may be added at or below them. -/
  frozen : List Path
  /-- The paths of the tables that may not be declared or reopened by a dotted key. -/
  declared : List Path
  /-- The tables that dotted keys have opened since the last header; they count as declared from the
  next header on. -/
  opened : List Path
  /-- The table that key/value pairs now belong to. -/
  header : Path

namespace Draft

/-- The draft of an empty document. -/
def empty : Draft :=
  ⟨[], [], [], [], []⟩

/-- The path lies at or below a frozen one. -/
def isFrozen (d : Draft) (path : Path) : Bool :=
  d.frozen.any (·.isPrefixOf path)

/-- The path has been declared. -/
def isDeclared (d : Draft) (path : Path) : Bool :=
  d.declared.contains path

/-- A header begins: the tables that dotted keys have opened count as declared. -/
def closeSection (d : Draft) : Draft :=
  { d with declared := d.opened ++ d.declared, opened := [] }

/-- Declares the table at a path; the pairs that follow belong to it. -/
def declareTable (d : Draft) (path : Path) : Except Fault Draft := do
  if d.isDeclared path || d.isFrozen path then .error (.declaredTwice path)
  else
    let root ← changeAt true .ok path d.root
    return { d with root, declared := path :: d.declared, header := path }

/-- Adds an empty table to the array that is the value of a key. -/
def appendTable (key : Text) (entries : Entries) : Except Fault Entries :=
  match entries.lookup key with
  | none => .ok (entries.put key (.array .list [.table []]))
  | some (.array form items) => .ok (entries.put key (.array form (items ++ [.table []])))
  | some _ => .error .overwrittenValue

/-- Adds a table to the array of tables at a path; the pairs that follow belong to it.  Nothing
below the path is frozen or declared in the new table. -/
def declareElement (d : Draft) (path : Path) : Except Fault Draft := do
  if d.isFrozen path then .error (.immutableNamespace path)
  else
    let (parent, key) := splitLast path
    let root ← changeAt true (appendTable key) parent d.root
    let outside := fun marked : Path => !path.isPrefixOf marked
    return { d with
      root
      frozen := d.frozen.filter outside
      declared := path :: d.declared.filter outside
      header := path }

/-- Adds an entry whose key is new. -/
def addEntry (clash : Fault) (key : Text) (value : Value) (entries : Entries) :
    Except Fault Entries :=
  if entries.hasKey key then .error clash else .ok (entries.put key value)

/-- The value is an array or a table. -/
def isContainer : Value → Bool
  | .array _ _ | .table _ => true
  | _ => false

/-- Adds a key/value pair to the table of the last header. -/
def addPair (d : Draft) (path : Path) (value : Value) : Except Fault Draft := do
  let (inner, key) := splitLast path
  let full := d.header ++ inner
  let passed := (List.range' 1 inner.length).map fun n => d.header ++ path.take n
  match passed.find? d.isDeclared with
  | some declared => .error (.redefinedNamespace declared)
  | none =>
      if d.isFrozen full then .error (.immutableNamespace full)
      else
        let root ← changeAt true (addEntry .overwrittenValue key value) full d.root
        let frozen := if isContainer value then (d.header ++ path) :: d.frozen else d.frozen
        return { d with root, frozen, opened := passed ++ d.opened }

end Draft

/-- An inline table under construction: its entries and the paths of its arrays and tables. -/
structure InlineDraft where
  entries : Entries
  frozen : List Path

/-- Adds a key/value pair to an inline table. -/
def InlineDraft.addPair (d : InlineDraft) (path : Path) (value : Value) :
    Except Fault InlineDraft := do
  if d.frozen.any (·.isPrefixOf path) then .error (.immutableNamespace path)
  else
    let (inner, key) := splitLast path
    let entries ←
      changeAt false (Draft.addEntry (.duplicateInlineKey key) key value) inner d.entries
    return ⟨entries, if Draft.isContainer value then path :: d.frozen else d.frozen⟩

end Toml

end DocumentQuery
