import DocumentQuery.Text.Basic

/-!
# Logging

The program has one logger.  Configuring it attaches a handler once and sets the level of both; a
record is written if its level reaches the levels of the logger and of the handler.
-/

namespace DocumentQuery

/-- A logger with the levels of its handlers. -/
structure Logger where
  level : Int
  /-- Records are passed on to the root logger. -/
  propagate : Bool
  handlers : List Int
  deriving DecidableEq

namespace Logger

/-- The name of the program's logger. -/
def name : Text :=
  "tq"

/-- The logger before it is configured. -/
def initial : Logger :=
  ⟨0, true, []⟩

/-- The level of the root logger, which counts where a logger has level zero. -/
def rootLevel : Int := 30

/-- The level that a record has to reach to be passed to the handlers. -/
def effectiveLevel (l : Logger) : Int :=
  if l.level = 0 then rootLevel else l.level

/-- Sets the level of the logger and of its handler, which is attached if there is none. -/
def configure (l : Logger) (level : Int) : Logger where
  level := level
  propagate := false
  handlers :=
    match l.handlers with
    | [] => [level]
    | _ :: others => level :: others

/-- The levels of the handlers that a record comes to: those of the logger, or the root's last
resort if the logger has none and passes records on. -/
def reachable (l : Logger) : List Int :=
  if l.handlers.isEmpty && l.propagate then [rootLevel] else l.handlers

/-- How often a record of the given level is written.  Only positive levels ever are. -/
def timesWritten (l : Logger) (level : Int) : Nat :=
  if 0 < level ∧ l.effectiveLevel ≤ level then l.reachable.countP (· ≤ level) else 0

/-- A record of the given level is written. -/
def writes (l : Logger) (level : Int) : Bool :=
  0 < l.timesWritten level

end Logger

/-- What can happen to a logger: a call to configure it, with a level or with the one from the
settings, a change of the level in the settings, or a log record. -/
inductive LogEvent where
  | configure (level : Option Int)
  | setDefault (level : Int)
  | record (level : Int)

/-- A logger together with the level that the settings hold for it. -/
structure LogState where
  logger : Logger
  defaultLevel : Int
  deriving DecidableEq

/-- The state after an event; records leave no trace in it. -/
def LogState.step (s : LogState) : LogEvent → LogState
  | .configure level => { s with logger := s.logger.configure (level.getD s.defaultLevel) }
  | .setDefault level => { s with defaultLevel := level }
  | .record _ => s

/-- The state after a sequence of events. -/
def LogState.run (s : LogState) (events : List LogEvent) : LogState :=
  events.foldl step s

end DocumentQuery
