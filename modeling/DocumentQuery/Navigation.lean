import DocumentQuery.Pattern.Basic
import DocumentQuery.Value.Kind
import DocumentQuery.Value.Spelling

/-!
# Walking into a document

A pattern is applied step by step.  The first step that cannot be applied ends the walk; the error
names the steps that were applied before it and says what was in the way.
-/

namespace DocumentQuery

/-- Why a step cannot be applied to a value. -/
inductive Obstacle where
  | keyNotFound (name : Text)
  | outOfBounds (position : Int) (length : Nat)
  | kindMismatch (expected found : Kind)
  deriving DecidableEq

/-- A pattern that does not fit the document: the steps that were applied, and the obstacle to the
next one. -/
structure NavigationError where
  path : Pattern
  obstacle : Obstacle
  deriving DecidableEq

/-- What is said about an obstacle. -/
def Obstacle.message : Obstacle → Text
  | .keyNotFound name => "key `" ++ name ++ "` not found"
  | .outOfBounds position length =>
      if position < 0 then "negative index " ++ Numeral.ofInt position ++ " is not supported"
      else
        "index " ++ Numeral.ofInt position ++ " out of bounds for array of length " ++
          Numeral.ofNat length
  | .kindMismatch expected found => "expected " ++ expected.name ++ ", found " ++ found.name

/-- The place that a path leads to, in messages. -/
def Pattern.location (path : Pattern) : Text :=
  if path.steps.isEmpty then "at document root" else "at `" ++ path.render ++ "`"

/-- What is said about a pattern that does not fit. -/
def NavigationError.message (e : NavigationError) : Text :=
  e.path.location ++ ": " ++ e.obstacle.message

/-- Why a walk ends early. -/
inductive WalkError where
  /-- A step that cannot be applied. -/
  | blocked (e : NavigationError)
  /-- A value that belongs to no document. -/
  | unsupported (type : ForeignType)
  /-- A position that is out of bounds and whose numeral is too long for a message. -/
  | limit (e : Numeral.LimitError)
  /-- A step of no known kind, of which only the spelling is known. -/
  | unknownStep (spelling : Text)
  deriving DecidableEq

/-- What is said about a walk that ended early. -/
def WalkError.message : WalkError → Text
  | .blocked e => e.message
  | .unsupported type => type.unsupportedMessage
  | .limit e => e.message
  | .unknownStep spelling => "unknown pattern step " ++ spelling

/-- A step that cannot be applied, given the steps before it. -/
def blockedAt (path : List Step) (obstacle : Obstacle) : WalkError :=
  match obstacle with
  | .outOfBounds position _ =>
      if Numeral.isWritable position then .blocked ⟨⟨path⟩, obstacle⟩ else .limit .writing
  | _ => .blocked ⟨⟨path⟩, obstacle⟩

namespace Value

/-- The value that one step leads to, given the steps before it. -/
def follow (path : List Step) (v : Value) (step : Step) : Except WalkError Value :=
  match v.kind with
  | .error type => .error (.unsupported type)
  | .ok kind =>
      match step, v with
      | .field name, .table entries =>
          match entries.lookup name with
          | some child => .ok child
          | none => .error (blockedAt path (.keyNotFound name))
      | .field _, _ => .error (blockedAt path (.kindMismatch .table kind))
      | .index position, .array _ items =>
          match if 0 ≤ position then items[position.toNat]? else none with
          | some child => .ok child
          | none => .error (blockedAt path (.outOfBounds position items.length))
      | .index _, _ => .error (blockedAt path (.kindMismatch .array kind))

/-- Applies steps one after the other; `path` holds those applied before. -/
def walk (path : List Step) (v : Value) : List Step → Except WalkError Value
  | [] => .ok v
  | step :: rest => do
      let child ← v.follow path step
      walk (path ++ [step]) child rest

/-- The value that a pattern selects. -/
def navigate (v : Value) (p : Pattern) : Except WalkError Value :=
  walk [] v p.steps

/-- Applies steps of which some may be no steps at all but some values.  Such a one ends the walk
when it is reached, after the kind of the value there has been found. -/
def navigateMixed (v : Value) (steps : List (Step ⊕ Value)) : Except WalkError Value := do
  let known := (steps.takeWhile Sum.isLeft).filterMap Sum.getLeft?
  let reached ← v.navigate ⟨known⟩
  match steps[known.length]? with
  | some (.inr other) =>
      match reached.kind with
      | .error type => .error (.unsupported type)
      | .ok _ => .error (.unknownStep other.spelling)
  | _ => .ok reached

end Value

end DocumentQuery
