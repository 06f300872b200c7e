import DocumentQuery.Pattern.Basic
import DocumentQuery.Pattern.IndexText
import DocumentQuery.Value.Basic

/-!
# Patterns as data

A pattern can be handed over as plain data: an object with the list of its steps, each of which is
an object that names its kind.  Validation lists everything that does not fit, in the order of the
data, with the place of each issue.
-/

namespace DocumentQuery

namespace Pattern

/-- A part of the place of an issue. -/
inductive PlacePart where
  | name (name : Text)
  | index (index : Nat)
  deriving DecidableEq

/-- What does not fit. -/
inductive IssueKind where
  | noModel
  | noSequence
  | noStep
  | noTag
  | unknownTag
  | missing
  | extra
  | noString
  | noUnicode
  | noInteger
  | noNumeral
  | fractional
  | tooLarge
  | notFinite
  deriving DecidableEq

/-- The name of what does not fit. -/
def IssueKind.name : IssueKind → Text
  | .noModel => "model_type"
  | .noSequence => "tuple_type"
  | .noStep => "model_attributes_type"
  | .noTag => "union_tag_not_found"
  | .unknownTag => "union_tag_invalid"
  | .missing => "missing"
  | .extra => "extra_forbidden"
  | .noString => "string_type"
  | .noUnicode => "string_unicode"
  | .noInteger => "int_type"
  | .noNumeral => "int_parsing"
  | .fractional => "int_from_float"
  | .tooLarge => "int_parsing_size"
  | .notFinite => "finite_number"

/-- Something that does not fit, and its place. -/
structure Issue where
  place : List PlacePart
  kind : IssueKind
  deriving DecidableEq

/-- Issues below a place. -/
def below (part : PlacePart) (issues : List Issue) : List Issue :=
  issues.map fun issue => { issue with place := part :: issue.place }

/-- The outcome of a validation: issues, or what was validated. -/
abbrev Validated (α : Type) := Except (List Issue) α

/-- An issue right here. -/
def refuse {α : Type} (kind : IssueKind) : Validated α :=
  .error [⟨[], kind⟩]

/-- The integer that a text gives; it may hold no surrogates. -/
def validateNumeral (t : Text) : Validated Int :=
  if t.any CodePoint.isSurrogate then refuse .noUnicode
  else
    match IndexText.read t with
    | .ok i => .ok i
    | .error .noNumeral => refuse .noNumeral
    | .error .tooLong => refuse .tooLarge

/-- Floating-point numbers from here on are not taken for integers. -/
def floatBound : Nat := Nat.pow 2 63

/-- The integer that a floating-point number equals. -/
def validateFloat (x : Binary64) : Validated Int :=
  match x.reading with
  | .finite negative mantissa exponent =>
      let scaled := mantissa * Nat.pow 2 exponent.toNat
      let divisor := Nat.pow 2 (-exponent).toNat
      if scaled % divisor ≠ 0 then refuse .fractional
      else if scaled / divisor < floatBound then .ok (IndexText.signed negative (scaled / divisor))
      else refuse .tooLarge
  | _ => refuse .notFinite

/-- An integer, a text that denotes one, or a floating-point number without a fraction. -/
def validateInteger : Value → Validated Int
  | .integer i => .ok i
  | .boolean b => .ok (if b then 1 else 0)
  | .string t => validateNumeral t
  | .float x => validateFloat x
  | _ => refuse .noInteger

/-- A text. -/
def validateString : Value → Validated Text
  | .string t => .ok t
  | _ => refuse .noString

/-- The issues of the keys that an object may not have. -/
def extraIssues (allowed : List Text) (entries : Entries) : List Issue :=
  (entries.filter fun (key, _) => !allowed.contains key).map fun (key, _) =>
    ⟨[.name key], .extra⟩

/-- The value of the one key besides the tag that a step has. -/
def validateOnly {α : Type} (key : Text) (read : Value → Validated α) (entries : Entries) :
    Validated α :=
  let outcome : Validated α :=
    match entries.lookup key with
    | none => .error [⟨[.name key], .missing⟩]
    | some value =>
        match read value with
        | .ok a => .ok a
        | .error issues => .error (below (.name key) issues)
  match outcome, extraIssues ["kind", key] entries with
  | .ok a, [] => .ok a
  | .ok _, extras => .error extras
  | .error issues, extras => .error (issues ++ extras)

/-- A step of a kind: the issues of its fields stand below the kind. -/
def validateTagged (tag : Text) (outcome : Validated Step) : Validated Step :=
  match outcome with
  | .ok step => .ok step
  | .error issues => .error (below (.name tag) issues)

/-- A step. -/
def validateStep : Value → Validated Step
  | .table entries =>
      match entries.lookup (Text.ofString "kind") with
      | none => refuse .noTag
      | some (.string tag) =>
          if tag = Text.ofString "field" then
            validateTagged tag ((validateOnly "name" validateString entries).map .field)
          else if tag = Text.ofString "index" then
            validateTagged tag ((validateOnly "index" validateInteger entries).map .index)
          else refuse .unknownTag
      | some _ => refuse .unknownTag
  | _ => refuse .noStep

/-- Steps, of which the first has the given index. -/
def validateSteps (index : Nat) : List Value → Validated (List Step)
  | [] => .ok []
  | value :: rest =>
      match validateStep value, validateSteps (index + 1) rest with
      | .ok step, .ok steps => .ok (step :: steps)
      | .ok _, .error issues => .error issues
      | .error issues, .ok _ => .error (below (.index index) issues)
      | .error issues, .error more => .error (below (.index index) issues ++ more)

/-- A list of steps. -/
def validateSequence : Value → Validated (List Step)
  | .array _ items => validateSteps 0 items
  | _ => refuse .noSequence

/-- The pattern that some data stands for. -/
def ofData : Value → Validated Pattern
  | .table entries =>
      let steps : Validated (List Step) :=
        match entries.lookup (Text.ofString "steps") with
        | none => .ok []
        | some value =>
            match validateSequence value with
            | .ok steps => .ok steps
            | .error issues => .error (below (.name "steps") issues)
      match steps, extraIssues ["steps"] entries with
      | .ok steps, [] => .ok ⟨steps⟩
      | .ok _, extras => .error extras
      | .error issues, extras => .error (issues ++ extras)
  | _ => refuse .noModel

end Pattern

end DocumentQuery
