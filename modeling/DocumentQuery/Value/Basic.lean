import DocumentQuery.Calendar
import DocumentQuery.Decimal.Binary64

/-!
# Document values

A document is a tree of tables and arrays over scalars.  Programs may hand over trees that hold
other things as well: the null of JSON, or an object of a type that no document has.  Such values
can be carried about and are refused where their kind matters.
-/

namespace DocumentQuery

/-- The two ways in which a program stores an array. -/
inductive ArrayForm where
  | list
  | tuple
  deriving DecidableEq

/-- A type that no document value has: its own name, and its name with the place it belongs to. -/
structure ForeignType where
  name : Text
  qualifiedName : Text
  deriving DecidableEq

/-- A value of a document, or something in the place of one. -/
inductive Value where
  | string (text : Text)
  | integer (number : Int)
  | float (number : Binary64)
  | boolean (truth : Bool)
  | moment (moment : Moment)
  | array (form : ArrayForm) (items : List Value)
  | table (entries : List (Text × Value))
  | null
  | foreign (type : ForeignType)
  deriving Inhabited

/-- The entries of a table, in their order; no key occurs twice in a table of a document. -/
abbrev Entries := List (Text × Value)

namespace Entries

/-- Sets the value of a key: a key that is there keeps its place, a new one comes last. -/
def put (key : Text) (value : Value) : Entries → Entries
  | [] => [(key, value)]
  | (k, v) :: rest => if k = key then (k, value) :: rest else (k, v) :: put key value rest

/-- Some entry has the given key. -/
def hasKey (key : Text) (entries : Entries) : Bool :=
  (entries.lookup key).isSome

end Entries

namespace Value

/-- The value is a table. -/
def isTable : Value → Bool
  | .table _ => true
  | _ => false

/-- The type of the null of JSON. -/
def nullType : ForeignType :=
  ⟨"NoneType", "NoneType"⟩

end Value

end DocumentQuery
