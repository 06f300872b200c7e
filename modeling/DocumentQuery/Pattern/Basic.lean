import DocumentQuery.Decimal.Numeral

/-!
# Path patterns

A pattern is a sequence of steps into a document: to the value of a key, or to an element of an
array.  Its text joins keys by dots and writes positions in brackets; a key that holds anything but
letters, digits, `_` and `-` stands in double quotes.
-/

namespace DocumentQuery

/-- One step into a document. -/
inductive Step where
  | field (name : Text)
  | index (position : Int)
  deriving DecidableEq

/-- A sequence of steps; no step at all selects the whole document. -/
structure Pattern where
  steps : List Step
  deriving DecidableEq

namespace Step

/-- A code point inside a quoted key: backslash and double quote are escaped. -/
def escapedInKey (c : CodePoint) : Text :=
  if c = .char '\\' ∨ c = .char '"' then ['\\', c] else [c]

/-- The text of a key: bare if it can be, otherwise in double quotes. -/
def renderKey (name : Text) : Text :=
  if !name.isEmpty && name.all CodePoint.isBare then name
  else .char '"' :: name.flatMap escapedInKey ++ [.char '"']

/-- The text of a step. -/
def render : Step → Text
  | .field name => renderKey name
  | .index position => "[" ++ Numeral.ofInt position ++ "]"

/-- The numeral of the step, if it has one, is short enough to be written. -/
def isWritable : Step → Bool
  | .field _ => true
  | .index position => Numeral.isWritable position

end Step

namespace Pattern

/-- The texts of steps that follow other steps: a dot stands before every key. -/
def renderTail : List Step → Text
  | [] => []
  | .field name :: rest => .char '.' :: (Step.field name).render ++ renderTail rest
  | .index position :: rest => (Step.index position).render ++ renderTail rest

/-- The text of a pattern. -/
def render (p : Pattern) : Text :=
  match p.steps with
  | [] => []
  | step :: rest => step.render ++ renderTail rest

/-- The text of a pattern, unless one of its numerals is too long to be written. -/
def write (p : Pattern) : Except Numeral.LimitError Text :=
  if p.steps.all Step.isWritable then .ok p.render else .error .writing

/-- The first `count` steps; a negative count says how many steps are left out at the end. -/
def initial (p : Pattern) (count : Int) : Pattern :=
  if count < 0 then ⟨p.steps.take (p.steps.length - count.natAbs)⟩
  else ⟨p.steps.take count.toNat⟩

end Pattern

end DocumentQuery
