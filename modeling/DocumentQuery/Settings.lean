import DocumentQuery.Document
import DocumentQuery.Text.Digit
import DocumentQuery.Text.LetterCase

/-!
# Settings

Defaults of the program that the environment can change: the two formats, the use of colour and the
least level of log records that are shown.  Texts of settings are read without regard to letter case
and to blanks around them.  Settings hold names, and whoever uses a name reads it: those from the
environment have been read once and are names of formats and choices of colour, but programs may set
any others.
-/

namespace DocumentQuery

/-- When output is highlighted. -/
inductive ColorChoice where
  | auto
  | always
  | never
  deriving DecidableEq

namespace ColorChoice

/-- All choices, in the order in which messages list them. -/
def all : List ColorChoice :=
  [.auto, .always, .never]

/-- The name of a choice. -/
def name : ColorChoice → Text
  | .auto => "auto"
  | .always => "always"
  | .never => "never"

/-- The choice of a given name. -/
def ofName? (t : Text) : Option ColorChoice :=
  all.find? fun choice => choice.name = t

end ColorChoice

/-- A setting whose text is not understood; `source` says where the text comes from. -/
inductive SettingError where
  | noneOf (source : Text) (allowed : List Text) (raw : Text)
  | noLevel (source raw : Text)
  /-- A level made of digits that are not all decimal. -/
  | noNumeral (value : Text)
  | limit (e : Numeral.LimitError)
  deriving DecidableEq

/-- How much of a text is quoted that is no numeral. -/
def quotedNumeralLength : Nat := 200

/-- What is said about a setting that is not understood. -/
def SettingError.message : SettingError → Text
  | .noneOf source allowed raw =>
      source ++ " must be one of " ++ Text.joined ", " allowed ++ "; got " ++ raw.quoted
  | .noLevel source raw => source ++ " is not a logging level name; got " ++ raw.quoted
  | .noNumeral value =>
      "invalid literal for int() with base 10: " ++ value.quoted.take quotedNumeralLength
  | .limit e => e.message

namespace Setting

/-- The one of several choices that a text names. -/
def readChoice {α : Type} (all : List α) (nameOf : α → Text) (source raw : Text) :
    Except SettingError α :=
  match all.find? fun choice => nameOf choice = raw.trim.lowerCase with
  | some choice => .ok choice
  | none => .error (.noneOf source (all.map nameOf) raw)

/-- The format that a text names. -/
def readFormat : Text → Text → Except SettingError Format :=
  readChoice Format.all Format.name

/-- The choice of colour that a text names. -/
def readColor : Text → Text → Except SettingError ColorChoice :=
  readChoice ColorChoice.all ColorChoice.name

/-- The names of levels of log records. -/
def levelNames : List (Text × Nat) :=
  [("CRITICAL", 50), ("FATAL", 50), ("ERROR", 40), ("WARNING", 30), ("WARN", 30), ("INFO", 20),
    ("DEBUG", 10), ("NOTSET", 0)]

/-- The number with the given decimal digits, of whatever scripts. -/
def readDigits (digits : Text) : Except SettingError Nat :=
  let count := (digits.takeWhile fun c => c.decimalValue?.isSome).length
  if Numeral.maxDigits < count then .error (.limit (.reading count))
  else
    match digits.mapM CodePoint.decimalValue? with
    | some values => .ok (values.foldl (fun n value => 10 * n + value) 0)
    | none => .error (.noNumeral digits)

/-- The level that a text gives, as a number or by its name. -/
def readLevel (source raw : Text) : Except SettingError Nat :=
  let value := raw.trim.upperCase
  if !value.isEmpty && value.all CodePoint.isDigitOfAnyKind then readDigits value
  else
    match levelNames.lookup value with
    | some level => .ok level
    | none => .error (.noLevel source raw)

end Setting

/-- The settings of the program. -/
structure Settings where
  inputFormat : Text
  outputFormat : Text
  color : Text
  logLevel : Int
  deriving DecidableEq

namespace Settings

/-- The settings where the environment says nothing. -/
def default : Settings :=
  ⟨Format.toml.name, Format.toml.name, ColorChoice.auto.name, 30⟩

/-- The settings under which tests run, whatever the environment. -/
def forTests : Settings :=
  ⟨Format.toml.name, Format.toml.name, ColorChoice.never.name, 30⟩

/-- A setting from the environment: the text of a variable, read in a given way, or the default if
the variable is not set. -/
def fromVariable {α : Type} (read : Text → Text → Except SettingError α) (unset : α) (name : Text)
    (environment : Text → Option Text) : Except SettingError α :=
  match environment name with
  | some raw => read name raw
  | none => .ok unset

/-- The settings that an environment gives.  The first variable that is not understood is told. -/
def ofEnvironment (environment : Text → Option Text) : Except SettingError Settings := do
  let inputFormat ← fromVariable Setting.readFormat .toml "TQ_INPUT_FORMAT" environment
  let outputFormat ← fromVariable Setting.readFormat .toml "TQ_OUTPUT_FORMAT" environment
  let color ← fromVariable Setting.readColor .auto "TQ_COLOR" environment
  let logLevel ←
    fromVariable (fun source raw => (Setting.readLevel source raw).map Int.ofNat) default.logLevel
      "TQ_LOG_LEVEL" environment
  return ⟨inputFormat.name, outputFormat.name, color.name, logLevel⟩

/-- A new value of one setting. -/
inductive Change where
  | inputFormat (name : Text)
  | outputFormat (name : Text)
  | color (name : Text)
  | logLevel (level : Int)

/-- The settings after a change. -/
def change (s : Settings) : Change → Settings
  | .inputFormat name => { s with inputFormat := name }
  | .outputFormat name => { s with outputFormat := name }
  | .color name => { s with color := name }
  | .logLevel level => { s with logLevel := level }

end Settings

/-- Settings in force, and those to go back to: one for every test environment that has been entered
and not left, the innermost first. -/
structure SettingsStack where
  current : Settings
  saved : List Settings
  deriving DecidableEq

namespace SettingsStack

/-- What can happen to settings. -/
inductive Event where
  /-- The settings are looked at. -/
  | get
  | change (change : Settings.Change)
  /-- A test environment is entered. -/
  | enter
  /-- The innermost test environment is left at its end. -/
  | leave
  /-- The innermost test environment is left by an error that is raised in it. -/
  | raise

/-- The settings after the innermost test environment is left, in whatever way.  Leaving none
changes nothing. -/
def restored (s : SettingsStack) : SettingsStack :=
  match s.saved with
  | outer :: saved => ⟨outer, saved⟩
  | [] => s

/-- The settings after an event. -/
def step (s : SettingsStack) : Event → SettingsStack
  | .get => s
  | .change change => { s with current := s.current.change change }
  | .enter => ⟨.forTests, s.current :: s.saved⟩
  | .leave => s.restored
  | .raise => s.restored

/-- The settings after a sequence of events. -/
def run (s : SettingsStack) (events : List Event) : SettingsStack :=
  events.foldl step s

/-- The events of a test that has a test environment of its own: the environment is entered before
the test and left after it. -/
def fixture (test : List Event) : List Event :=
  .enter :: test ++ [.leave]

end SettingsStack

end DocumentQuery
