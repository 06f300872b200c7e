import DocumentQuery.Json.Reader
import DocumentQuery.Json.Writer
import DocumentQuery.Navigation
import DocumentQuery.Pattern.Parser
import DocumentQuery.Toml.Reader
import DocumentQuery.Toml.Writer

/-!
# Documents

A document is a table that was read from a text in one of two formats.  It is held to what TOML can
express, in both formats: its root is a table, and no value in it is null.  Values selected from it
are written in either format.
-/

namespace DocumentQuery

/-- The formats of documents. -/
inductive Format where
  | toml
  | json
  deriving DecidableEq

namespace Format

/-- All formats, in the order in which messages list them. -/
def all : List Format :=
  [.toml, .json]

/-- The name of a format. -/
def name : Format → Text
  | .toml => "toml"
  | .json => "json"

/-- The format of a given name. -/
def ofName? (t : Text) : Option Format :=
  all.find? fun format => format.name = t

end Format

/-- Whether a format is that of a text to be read or of one to be written. -/
inductive Direction where
  | input
  | output
  deriving DecidableEq

/-- The name of a direction. -/
def Direction.name : Direction → Text
  | .input => "input"
  | .output => "output"

/-- Why a text yields no document. -/
inductive DocumentError where
  | toml (e : Toml.SyntaxError)
  | json (e : Json.SyntaxError)
  /-- The root of a JSON text is no object but a value of the named type. -/
  | rootType (typeName : Text)
  /-- A null stands at the given place. -/
  | nullAt (place : Text)
  /-- There is no text, because a file cannot be read. -/
  | unreadable (path reason : Text)
  deriving DecidableEq

/-- What is said about a text that yields no document. -/
def DocumentError.message : DocumentError → Text
  | .toml e => "invalid TOML document: " ++ e.message
  | .json e => "invalid JSON document: " ++ e.message
  | .rootType typeName => "JSON document root must be an object, got " ++ typeName
  | .nullAt place =>
      "null at `" ++ (if place.isEmpty then Text.ofString "<root>" else place) ++
        "` cannot be represented in a TOML document"
  | .unreadable path reason => "cannot read " ++ path ++ ": " ++ reason

/-- Why loading, extracting or dumping fails. -/
inductive Failure where
  | pattern (e : Pattern.SyntaxError)
  | navigation (e : NavigationError)
  | document (e : DocumentError)
  | unsupported (type : ForeignType)
  | inconvertible (type : ForeignType)
  | unknownStep (spelling : Text)
  | limit (e : Numeral.LimitError)
  | unknownFormat (direction : Direction) (name : Text)
  deriving DecidableEq

/-- What is said about a failure. -/
def Failure.message : Failure → Text
  | .pattern e => e.message
  | .navigation e => e.message
  | .document e => e.message
  | .unsupported type => type.unsupportedMessage
  | .inconvertible type =>
      "Unable to convert an object of <class '" ++ type.qualifiedName ++ "'> to a TOML item"
  | .unknownStep spelling => (WalkError.unknownStep spelling).message
  | .limit e => e.message
  | .unknownFormat direction name =>
      "unsupported " ++ direction.name ++ " format " ++ name.quoted

/-- A text that yields no pattern, as a failure. -/
def Pattern.ParseError.failure : Pattern.ParseError → Failure
  | .malformed e => .pattern e
  | .limit e => .limit e

/-- A walk that ended early, as a failure. -/
def WalkError.failure : WalkError → Failure
  | .blocked e => .navigation e
  | .unsupported type => .unsupported type
  | .limit e => .limit e
  | .unknownStep spelling => .unknownStep spelling

namespace Document

/-! ## Loading -/

/-- The name by which messages call the type of a JSON value. -/
def typeName : Value → Text
  | .string _ => "str"
  | .integer _ => "int"
  | .float _ => "float"
  | .boolean _ => "bool"
  | .array _ _ => "list"
  | .table _ => "dict"
  | .null => Value.nullType.name
  | .moment _ => "datetime"
  | .foreign type => type.name

/-- A place below a table: the key is set off by a dot unless it comes first. -/
def placeOfKey (place key : Text) : Text :=
  if place.isEmpty then key else place ++ "." ++ key

/-- A place below an array. -/
def placeOfIndex (place : Text) (index : Nat) : Text :=
  place ++ "[" ++ Numeral.ofNat index ++ "]"

mutual

/-- The place of the first null in a value that stands at the given place. -/
def firstNull? (place : Text) : Value → Option Text
  | .null => some place
  | .table entries => firstNullInEntries? place entries
  | .array _ items => firstNullInItems? place 0 items
  | _ => none

/-- The place of the first null in the entries of a table at the given place. -/
def firstNullInEntries? (place : Text) : List (Text × Value) → Option Text
  | [] => none
  | (key, value) :: rest =>
      match firstNull? (placeOfKey place key) value with
      | some found => some found
      | none => firstNullInEntries? place rest

/-- The place of the first null in the items of an array at the given place, of which the first has
the given index. -/
def firstNullInItems? (place : Text) (index : Nat) : List Value → Option Text
  | [] => none
  | value :: rest =>
      match firstNull? (placeOfIndex place index) value with
      | some found => some found
      | none => firstNullInItems? place (index + 1) rest

end

/-- A JSON value as a document. -/
def ofJson (v : Value) : Except Failure Entries :=
  match v with
  | .table entries =>
      match firstNull? [] v with
      | some place => .error (.document (.nullAt place))
      | none => .ok entries
  | _ => .error (.document (.rootType (typeName v)))

/-- The document that a TOML text denotes. -/
def loadToml (t : Text) : Except Failure Entries :=
  match Toml.read t with
  | .ok entries => .ok entries
  | .error (.malformed e) => .error (.document (.toml e))
  | .error (.limit e) => .error (.limit e)

/-- The document that a JSON text denotes.  A text that is no JSON is read as TOML; if it is no TOML
either, the fault in the JSON is what is told. -/
def loadJson (t : Text) : Except Failure Entries :=
  match Json.read t with
  | .ok v => ofJson v
  | .error (.limit e) => .error (.limit e)
  | .error (.malformed e) =>
      match loadToml t with
      | .error (.document _) => .error (.document (.json e))
      | outcome => outcome

/-- The document that a text denotes in a given format. -/
def load : Format → Text → Except Failure Entries
  | .toml, t => loadToml t
  | .json, t => loadJson t

/-- The fault for which a text is not read as the JSON it was announced as. -/
def retryCause? : Format → Text → Option Json.SyntaxError
  | .toml, _ => none
  | .json, t =>
      match Json.read t with
      | .error (.malformed e) => some e
      | _ => none

/-! ## Extracting -/

/-- The part of a value that the text of a pattern selects. -/
def extract (v : Value) (pattern : Text) : Except Failure Value :=
  match Pattern.parse pattern with
  | .error e => .error e.failure
  | .ok p =>
      match v.navigate p with
      | .error e => .error e.failure
      | .ok found => .ok found

/-! ## Dumping -/

/-- The text of a value in a given format.  If `pretty` holds, JSON is indented and the outermost
arrays of TOML have one item to a line. -/
def dump (format : Format) (pretty : Bool) (v : Value) : Except Failure Text :=
  match format with
  | .json =>
      match Json.write (if pretty then .indented else .compact) v with
      | .ok t => .ok t
      | .error (.unsupported type) => .error (.unsupported type)
      | .error (.limit e) => .error (.limit e)
  | .toml =>
      match Toml.write pretty v with
      | .ok t => .ok t
      | .error (.unsupported type) => .error (.unsupported type)
      | .error (.inconvertible type) => .error (.inconvertible type)
      | .error (.limit e) => .error (.limit e)

/-! ## Formats by name -/

/-- The format that a name stands for. -/
def formatNamed (direction : Direction) (name : Text) : Except Failure Format :=
  match Format.ofName? name with
  | some format => .ok format
  | none => .error (.unknownFormat direction name)

/-- Loads a document in the format of a given name. -/
def loadNamed (name t : Text) : Except Failure Entries := do
  load (← formatNamed .input name) t

/-- Dumps a value in the format of a given name. -/
def dumpNamed (name : Text) (pretty : Bool) (v : Value) : Except Failure Text := do
  dump (← formatNamed .output name) pretty v

/-- Loads a document, extracts a part of it and dumps that part. -/
def query (input t pattern output : Text) (pretty : Bool) : Except Failure Text := do
  let entries ← loadNamed input t
  let found ← extract (.table entries) pattern
  dumpNamed output pretty found

end Document

end DocumentQuery
