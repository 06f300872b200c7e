import DocumentQuery.Arguments
import DocumentQuery.Console.Display
import DocumentQuery.FileTree
import DocumentQuery.Logging

/-!
# The command

The command reads a document, extracts the part that a pattern selects and prints it.  A failure of
one of its stages is reported and makes the exit status 1; some failures are not the command's to
report and end it at once.
-/

namespace DocumentQuery

namespace Command

/-- What the command is run with: the variables of the environment that are set, the files that
paths lead to, and standard input. -/
structure World where
  environment : Text → Option Text
  contentOf : Text → Except FileTree.Fault (List UInt8)
  stdin : List UInt8

/-- A value that is no text in a place where the command needs one. -/
inductive MisplacedValue where
  /-- In the place of the name of a setting. -/
  | setting (v : ArgumentValue)
  /-- In the place of a path. -/
  | path (v : ArgumentValue)
  /-- In the place of a pattern. -/
  | pattern (v : ArgumentValue)
  deriving DecidableEq

/-- What is said about a value that is no text. -/
def MisplacedValue.message : MisplacedValue → Text
  | .setting v => "'" ++ v.typeName ++ "' object has no attribute 'strip'"
  | .path v => "expected str, bytes or os.PathLike object, not " ++ v.typeName
  | .pattern v => "object of type '" ++ v.typeName ++ "' has no len()"

/-- What the console adds to a failure to encode what it highlights. -/
def encodingHint : Text :=
  "\n*** You may need to add PYTHONIOENCODING=utf-8 to your environment ***"

/-- Why a run of the command fails. -/
inductive RunError where
  | setting (e : SettingError)
  | misplaced (e : MisplacedValue)
  | input (e : InputError)
  | failure (e : Failure)
  /-- Standard output cannot take surrogates; `highlighted` says on which of the two ways of
  printing they were met. -/
  | unencodable (e : Utf8.EncodeError) (highlighted : Bool)
  deriving DecidableEq

/-- What is said about a run that fails. -/
def RunError.message : RunError → Text
  | .setting e => e.message
  | .misplaced e => e.message
  | .input e => e.message
  | .failure e => e.message
  | .unencodable e highlighted => e.message ++ if highlighted then encodingHint else []

/-- The report of an error, if it is one that the command reports. -/
def RunError.report? [Markup.EmojiNames] : RunError → Option Text
  | .setting (.noneOf source allowed raw) =>
      some (Display.reported (SettingError.noneOf source allowed raw).message)
  | .setting (.noLevel source raw) =>
      some (Display.reported (SettingError.noLevel source raw).message)
  | .setting _ => none
  | .misplaced _ => none
  | .input (.document e) => some (Display.report (.document e))
  | .input _ => none
  | .failure (.inconvertible _) | .failure (.unknownStep _) | .failure (.limit _)
  | .failure (.unknownFormat _ _) => none
  | .failure e => some (Display.report e)
  | .unencodable _ _ => none

/-- A step of a run: it adds messages to the log and succeeds or fails. -/
abbrev Run := ExceptT RunError (StateM (List Text))

/-- Adds a message to the log. -/
def note (message : Text) : Run Unit :=
  modify (· ++ [message])

/-- A step that leaves no message. -/
def lifted {ε α : Type} (wrap : ε → RunError) (outcome : Except ε α) : Run α :=
  ExceptT.mk (pure (outcome.mapError wrap))

/-- The message about a text that has been read. -/
def readNote (t : Text) (source : Text) : Text :=
  "read " ++ Numeral.ofNat t.length ++ " characters from " ++ source

/-- The text that a value is, in a place that needs one. -/
def textOf (misplaced : ArgumentValue → MisplacedValue) : ArgumentValue → Run Text
  | .text t => pure t
  | v => throw (.misplaced (misplaced v))

/-- The path of the document; standard input has none. -/
def pathOf : ArgumentValue → Run (Option Text)
  | .absent => pure none
  | v => some <$> textOf .path v

/-- The stages of the command up to what it writes to standard output, which is no terminal. -/
def stages (world : World) (arguments : Arguments) : Run Text := do
  let input ← lifted .setting (Setting.readFormat "input" (← textOf .setting arguments.input))
  let output ← lifted .setting (Setting.readFormat "output" (← textOf .setting arguments.output))
  let color ← lifted .setting (Setting.readColor "color" (← textOf .setting arguments.color))
  let path ← pathOf arguments.file
  let text ← lifted .input (Input.read world.contentOf world.stdin path)
  note (readNote text (path.getD "stdin"))
  match Document.retryCause? input text with
  | some cause => note ("input is not JSON (" ++ cause.message ++ "); retrying as TOML")
  | none => pure ()
  let document ← lifted .failure (Document.load input text)
  note ("loaded " ++ input.name ++ " document with " ++ Numeral.ofNat document.length ++
    " top-level keys")
  let pattern ← textOf .pattern arguments.pattern
  let found ← lifted .failure (Document.extract (.table document) pattern)
  let result ← lifted .failure (Document.dump output arguments.pretty.isTrue found)
  let shown := Display.emitted color false result
  match Text.encodeError? (fun c => !c.isSurrogate) shown with
  | some e => throw (.unencodable e (Display.isHighlighted color false))
  | none => pure shown

/-- The end of a run of the command. -/
inductive Outcome where
  /-- The command ran to its end.  The log holds the messages for debugging that the stages leave,
  if they are asked for; they go to the same stream as the report of an error. -/
  | finished (status : Nat) (stdout report : Text) (log : Option (List Text))
  /-- The arguments are refused. -/
  | refused (e : ArgumentError)
  /-- A failure that the command does not report. -/
  | escaped (e : RunError)
  deriving DecidableEq

/-- The level of the messages in the log. -/
def debugLevel : Int := 10

/-- The log of a run, if messages for debugging are asked for.  The level zero asks for them but
does not let them through: it leaves the choice to the root logger. -/
def logOf (level : Int) (messages : List Text) : Option (List Text) :=
  if level ≤ debugLevel then
    some (if (Logger.initial.configure level).writes debugLevel then messages else [])
  else none

/-- Runs the command with the words of its command line.  Before its first stage the command logs
the message "running with" and its arguments; this message is left out of the log here. -/
def run [Markup.EmojiNames] (world : World) (words : List Text) : Outcome :=
  match Settings.ofEnvironment world.environment with
  | .error e => .escaped (.setting e)
  | .ok settings =>
      match Arguments.parse settings words with
      | .error e => .refused e
      | .ok arguments =>
          let (outcome, messages) := (stages world arguments).run.run []
          let log := logOf settings.logLevel messages
          match outcome with
          | .ok stdout => .finished 0 stdout [] log
          | .error e =>
              match e.report? with
              | some report => .finished 1 [] (Display.withoutSurrogates report) log
              | none => .escaped e

end Command

end DocumentQuery
