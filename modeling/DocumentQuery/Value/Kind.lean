import DocumentQuery.Value.Basic

/-!
# Kinds of values

Every value of a document is of one of seven kinds.
-/

namespace DocumentQuery

/-- The kinds of document values. -/
inductive Kind where
  | table
  | array
  | string
  | integer
  | float
  | boolean
  | datetime
  deriving DecidableEq

/-- The three shapes that kinds fall into. -/
inductive Category where
  | table
  | array
  | scalar
  deriving DecidableEq

namespace Kind

/-- The shape of the values of a kind. -/
def category : Kind → Category
  | .table => .table
  | .array => .array
  | _ => .scalar

/-- Values of the kind have no parts. -/
def isScalar (k : Kind) : Bool :=
  k.category = .scalar

/-- The name of a kind in messages. -/
def name : Kind → Text
  | .table => "table"
  | .array => "array"
  | .string => "string"
  | .integer => "integer"
  | .float => "float"
  | .boolean => "boolean"
  | .datetime => "datetime"

end Kind

/-- The name of a category. -/
def Category.name : Category → Text
  | .table => "table"
  | .array => "array"
  | .scalar => "scalar"

/-- What is said about a value whose type no document has. -/
def ForeignType.unsupportedMessage (type : ForeignType) : Text :=
  "unsupported document value of type " ++ type.name

/-- The kind of a value, or the type that makes it none of a document. -/
def Value.kind : Value → Except ForeignType Kind
  | .string _ => .ok .string
  | .integer _ => .ok .integer
  | .float _ => .ok .float
  | .boolean _ => .ok .boolean
  | .moment _ => .ok .datetime
  | .array _ _ => .ok .array
  | .table _ => .ok .table
  | .null => .error Value.nullType
  | .foreign type => .error type

end DocumentQuery
