import DocumentQuery.Settings

/-!
# Arguments of the command

Arguments have the form `key=value`, where the key is the name of a parameter, or three dots and
such a name.  A key that ends in `@` gives its parameter the value of the one that is named in the
place of the value.  An empty name there means the arguments as a whole, which no value can be.

A parameter for which nothing is given has a default, which is fixed or taken from the settings.  No
other parameter can share that value, unless the parameter is given its own value: that states the
default.

An empty key means the arguments as a whole.  They are made of the parameters and of nothing else:
to take them from a target leaves no parameter, and so no target.
-/

namespace DocumentQuery

/-- The parameters of the command. -/
inductive Parameter where
  | pattern
  | file
  | input
  | output
  | pretty
  | color
  deriving DecidableEq

namespace Parameter

/-- All parameters, in the order in which their values are found. -/
def all : List Parameter :=
  [.pattern, .file, .input, .output, .pretty, .color]

/-- The name of a parameter. -/
def name : Parameter → Text
  | .pattern => "pattern"
  | .file => "file"
  | .input => "input"
  | .output => "output"
  | .pretty => "pretty"
  | .color => "color"

/-- The parameter of a given name. -/
def ofName? (t : Text) : Option Parameter :=
  all.find? fun parameter => parameter.name = t

end Parameter

/-- The value of a parameter. -/
inductive ArgumentValue where
  | text (t : Text)
  | truth (b : Bool)
  | absent
  deriving DecidableEq

namespace ArgumentValue

/-- The name of the type of a value. -/
def typeName : ArgumentValue → Text
  | .text _ => "str"
  | .truth _ => "bool"
  | .absent => "NoneType"

/-- A value taken for yes or no: texts stand for yes unless they are empty. -/
def isTrue : ArgumentValue → Bool
  | .text t => !t.isEmpty
  | .truth b => b
  | .absent => false

end ArgumentValue

/-- What the value of a parameter can be taken from. -/
inductive Target where
  | parameter (p : Parameter)
  /-- The arguments as a whole. -/
  | whole
  deriving DecidableEq

namespace Target

/-- The name of a target; the whole has an empty one. -/
def name : Target → Text
  | .parameter p => p.name
  | .whole => []

/-- The target of a given name. -/
def ofName? (t : Text) : Option Target :=
  if t.isEmpty then some .whole else (Parameter.ofName? t).map .parameter

end Target

/-- Why arguments are refused. -/
inductive ArgumentError where
  /-- An argument that has no equals sign. -/
  | noPair (argument : Text)
  /-- The value of a parameter is to be that of keys with three dots. -/
  | wildcardTarget
  /-- A key ends in three dots, or would with those that may stand before it. -/
  | wildcardEnd
  /-- A key is that of a parameter that has a value and a dot, with no name of a part of it. -/
  | emptyPart (p : Parameter)
  /-- The values of parameters are taken from one another in turn, which leads to a target that they
  are part of already. -/
  | cycle (path : List Parameter) (again : Target)
  /-- A value is to be that of a target of this name, for which nothing is given. -/
  | unset (name : Text)
  /-- The keys or their values are not those of the command. -/
  | usage
  deriving DecidableEq

/-- What is said about arguments that are refused. -/
def ArgumentError.message : ArgumentError → Text
  | .noPair argument =>
      "Invalid argument " ++ argument.quoted ++ ". Specify arguments in the form key=value"
  | .wildcardTarget => "Cannot use wildcard as a reference target"
  | .wildcardEnd => "Wildcard not allowed at end of key"
  | .emptyPart _ => []
  | .cycle path again =>
      "Detected cyclic reference: " ++
        Text.joined " -> " (path.map Parameter.name ++ [again.name])
  | .unset name => name.quoted
  | .usage => "usage: pattern=<path> [file=<document>] [key=value ...]"

/-- The arguments of the command. -/
structure Arguments where
  pattern : ArgumentValue
  file : ArgumentValue
  input : ArgumentValue
  output : ArgumentValue
  pretty : ArgumentValue
  color : ArgumentValue
  deriving DecidableEq

namespace Arguments

/-! ## Words -/

/-- What an argument gives for its key. -/
inductive Given where
  | text (t : Text)
  /-- The value of the named target. -/
  | sameAs (target : Text)
  deriving DecidableEq

/-- The dots that may stand in a key for what precedes the name of a parameter. -/
def wildcard : Text :=
  "..."

/-- Three dots stand somewhere in a text. -/
def holdsWildcard : Text → Bool
  | [] => false
  | c :: rest => wildcard.isPrefixOf (c :: rest) || holdsWildcard rest

/-- The key of an argument and what is given for it.  The first equals sign ends the key. -/
def readWord (word : Text) : Except ArgumentError (Text × Given) :=
  let key := word.takeWhile (· ≠ .char '=')
  match word.drop key.length with
  | [] => .error (.noPair word)
  | _ :: value =>
      if key.getLast? = some (.char '@') then
        if holdsWildcard value then .error .wildcardTarget else .ok (key.dropLast, .sameAs value)
      else .ok (key, .text value)

/-! ## Values -/

/-- What is given for a key; the last one counts. -/
def lastOf? (given : List (Text × Given)) (key : Text) : Option Given :=
  given.reverse.lookup key

/-- The key with three dots that stands for a parameter. -/
def wildcardKey (p : Parameter) : Text :=
  wildcard ++ p.name

/-- What is given for a parameter.  Its name counts before a key with dots. -/
def givenFor? (given : List (Text × Given)) (p : Parameter) : Option Given :=
  (lastOf? given p.name).or (lastOf? given (wildcardKey p))

/-- The words for yes and no. -/
def truthWords : List (Text × Bool) :=
  [("true", true), ("True", true), ("t", true), ("1", true),
    ("false", false), ("False", false), ("f", false), ("0", false)]

/-- The value of a parameter for which a text is given. -/
def valueOf? (p : Parameter) (t : Text) : Option ArgumentValue :=
  match p with
  | .pretty => (truthWords.lookup t).map .truth
  | .file => some (if t = Text.ofString "None" then .absent else .text t)
  | _ => some (.text t)

/-- The default of a parameter; there is none for the pattern. -/
def default? (settings : Settings) : Parameter → Option ArgumentValue
  | .pattern => none
  | .file => some .absent
  | .input => some (.text settings.inputFormat)
  | .output => some (.text settings.outputFormat)
  | .pretty => some (.truth false)
  | .color => some (.text settings.color)

/-- Where a parameter has its value from. -/
inductive Origin where
  | value (v : ArgumentValue)
  /-- Nothing is given for the parameter. -/
  | omitted (v : ArgumentValue)
  | target (t : Target)
  deriving DecidableEq

/-- Where a parameter has its value from, if that makes sense. -/
def origin? (settings : Settings) (given : List (Text × Given)) (p : Parameter) : Option Origin :=
  match givenFor? given p with
  | none => (default? settings p).map .omitted
  | some (.text t) => (valueOf? p t).map .value
  | some (.sameAs name) =>
      if name = p.name then (default? settings p).map .value
      else (Target.ofName? name).map .target

/-- The value of a parameter; `path` holds the parameters that lead to it.  The number bounds the
way; a way longer than the list of parameters meets one of them twice. -/
def resolve (origin? : Parameter → Option Origin) :
    Nat → List Parameter → Parameter → Except ArgumentError ArgumentValue
  | fuel, path, p =>
      if path.contains p then .error (.cycle path (.parameter p))
      else
        match fuel, origin? p with
        | _, some (.value v) => .ok v
        | _, some (.omitted v) => if path.isEmpty then .ok v else .error (.unset p.name)
        | _, some (.target .whole) => .error (.cycle (path ++ [p]) .whole)
        | fuel + 1, some (.target (.parameter q)) => resolve origin? fuel (path ++ [p]) q
        | _, _ => .error .usage

/-! ## Checks -/

/-- A key ends in three dots. -/
def endsInWildcard (key : Text) : Bool :=
  wildcard.isSuffixOf key

/-- What is given for the arguments as a whole; to be given themselves says nothing. -/
def wholeGiven? (given : List (Text × Given)) : Option Given :=
  (lastOf? given []).filter (· ≠ .sameAs [])

/-- A key is that of a parameter and a dot, with no name of a part after it. -/
def isEmptyPart (p : Parameter) (key : Text) : Bool :=
  key = p.name ++ "." || key = wildcardKey p ++ "."

/-- Checks the text that is given for a parameter, and that nothing is given for parts of it, which
it does not have. -/
def checkGiven (given : List (Text × Given)) (p : Parameter) : Except ArgumentError Unit :=
  match givenFor? given p with
  | some (.text t) =>
      if given.any fun (key, _) => isEmptyPart p key then .error (.emptyPart p)
      else if (valueOf? p t).isSome then .ok ()
      else .error .usage
  | _ => .ok ()

/-- The key is that of some parameter or of the whole. -/
def isKnownKey (key : Text) : Bool :=
  key.isEmpty || Parameter.all.any fun p => key = p.name || key = wildcardKey p

/-- The longest of some keys; of several that are as long, the first. -/
def longest? : List Text → Option Text
  | [] => none
  | key :: rest =>
      match longest? rest with
      | some other => some (if key.length < other.length then other else key)
      | none => some key

/-- Refuses unknown keys.  Those without three dots come first, and the longest of them is tried
with three dots before it, which makes no sense for a key of dots alone. -/
def checkKeys (isKnown : Text → Bool) (given : List (Text × Given)) : Except ArgumentError Unit :=
  let unknown := (given.map Prod.fst).filter fun key => !isKnown key
  match longest? (unknown.filter fun key => !holdsWildcard key) with
  | some key => .error (if endsInWildcard (wildcard ++ key) then .wildcardEnd else .usage)
  | none => if unknown.isEmpty then .ok () else .error .usage

/-- Refuses unknown targets, which are tried with three dots like unknown keys, but all of them. -/
def checkTargets (given : List (Text × Given)) : Except ArgumentError Unit :=
  let unknown := (Parameter.all.filterMap (givenFor? given)).filterMap fun
    | .sameAs name => if (Target.ofName? name).isSome then none else some name
    | .text _ => none
  if unknown.any fun name => endsInWildcard (wildcard ++ name) then .error .wildcardEnd
  else if unknown.isEmpty then .ok ()
  else .error .usage

/-- Checks all that is given.  If the arguments as a whole are to be taken from a target, all other
keys are unknown. -/
def check (given : List (Text × Given)) : Except ArgumentError Unit := do
  if given.any fun (key, _) => endsInWildcard key then throw .wildcardEnd
  match wholeGiven? given with
  | some (.text _) => throw .usage
  | some (.sameAs name) =>
      checkKeys List.isEmpty given
      throw (.unset name)
  | none =>
      Parameter.all.forM (checkGiven given)
      checkKeys isKnownKey given
      checkTargets given

/-- The arguments that keys and what is given for them make.  The pattern comes first, so that it is
missed before anything else is. -/
def ofGiven (settings : Settings) (given : List (Text × Given)) :
    Except ArgumentError Arguments := do
  check given
  let value := resolve (origin? settings given) Parameter.all.length []
  return {
    pattern := ← value .pattern
    file := ← value .file
    input := ← value .input
    output := ← value .output
    pretty := ← value .pretty
    color := ← value .color }

/-- The arguments that the words of a command line make. -/
def parse (settings : Settings) (words : List Text) : Except ArgumentError Arguments := do
  ofGiven settings (← words.mapM readWord)

end Arguments

end DocumentQuery
