import DocumentQuery.Logging
import Mathlib.Data.List.Basic

/-!
# Logging over whole runs

However often it is configured, the logger ends up with one handler, and with one level that it
shares with the handler.  A logger like this is settled; configuring takes the initial logger and
settled ones to settled ones, and nothing else touches them.  So the last call that configures
decides everything, together with the settings at the time of that call.
-/

namespace DocumentQuery

namespace Logger

/-- The logger with one handler and the given level for both, which passes nothing on. -/
def settled (level : Int) : Logger :=
  ⟨level, false, [level]⟩

/-- The loggers of a run that begins with the initial one. -/
def IsReachable (l : Logger) : Prop :=
  l = initial ∨ ∃ level, l = settled level

/-- The level from which on a settled logger writes records. -/
def threshold (level : Int) : Int :=
  if level = 0 then rootLevel else level

theorem IsReachable.configure {l : Logger} (h : l.IsReachable) (level : Int) :
    l.configure level = settled level := by
  rcases h with rfl | ⟨earlier, rfl⟩
  · rfl
  · rfl

/-- A settled logger writes a record once or not at all. -/
theorem timesWritten_settled (level : Int) {record : Int} (hrecord : 0 < record) :
    (settled level).timesWritten record = if threshold level ≤ record then 1 else 0 := by
  have hreachable : (settled level).reachable = [level] := rfl
  have heffective : (settled level).effectiveLevel = threshold level := rfl
  rw [timesWritten, hreachable, heffective]
  by_cases hlevel : threshold level ≤ record
  · -- The handler lets through what the logger lets through, and every record at level zero.
    have hhandler : level ≤ record := by
      unfold threshold at hlevel
      split at hlevel
      · omega
      · exact hlevel
    rw [if_pos ⟨hrecord, hlevel⟩, if_pos hlevel, List.countP_cons_of_pos (by simpa using hhandler),
      List.countP_nil]
  · rw [if_neg fun h => hlevel h.2, if_neg hlevel]

theorem writes_eq_false_of_lt {l : Logger} {record : Int} (h : record < l.effectiveLevel) :
    l.writes record = false := by
  rw [writes, timesWritten, if_neg fun hboth => by omega]
  rfl

end Logger

/-- The level that an event puts into the settings. -/
def LogEvent.default? : LogEvent → Option Int
  | .setDefault level => some level
  | _ => none

namespace LogState

/-- The level that the settings hold after some events: the last one that was put there. -/
def defaultAfter (default : Int) (events : List LogEvent) : Int :=
  (events.filterMap LogEvent.default?).getLastD default

/-! ## Steps -/

theorem isReachable_step {s : LogState} (h : s.logger.IsReachable) (event : LogEvent) :
    (s.step event).logger.IsReachable := by
  cases event with
  | configure level => exact Or.inr ⟨_, h.configure _⟩
  | setDefault _ => exact h
  | record _ => exact h

theorem logger_step {s : LogState} {event : LogEvent} (h : ∀ level, event ≠ .configure level) :
    (s.step event).logger = s.logger := by
  cases event with
  | configure level => exact absurd rfl (h level)
  | setDefault _ => rfl
  | record _ => rfl

theorem defaultLevel_step (s : LogState) (event : LogEvent) :
    (s.step event).defaultLevel = event.default?.getD s.defaultLevel := by
  cases event with
  | configure _ => rfl
  | setDefault _ => rfl
  | record _ => rfl

/-! ## Runs -/

theorem run_append (s : LogState) (before after : List LogEvent) :
    s.run (before ++ after) = (s.run before).run after :=
  List.foldl_append

theorem run_cons (s : LogState) (event : LogEvent) (rest : List LogEvent) :
    s.run (event :: rest) = (s.step event).run rest := rfl

theorem isReachable_run {s : LogState} (h : s.logger.IsReachable) (events : List LogEvent) :
    (s.run events).logger.IsReachable := by
  induction events generalizing s with
  | nil => exact h
  | cons event rest ih => exact ih (isReachable_step h event)

theorem logger_run {s : LogState} {events : List LogEvent}
    (h : ∀ level, LogEvent.configure level ∉ events) : (s.run events).logger = s.logger := by
  induction events generalizing s with
  | nil => rfl
  | cons event rest ih =>
      have hrest : ∀ level, LogEvent.configure level ∉ rest :=
        fun level hmem => h level (List.mem_cons_of_mem event hmem)
      have hevent : ∀ level, event ≠ .configure level :=
        fun level heq => h level (heq ▸ List.mem_cons_self)
      rw [run_cons, ih hrest, logger_step hevent]

theorem defaultLevel_run (s : LogState) (events : List LogEvent) :
    (s.run events).defaultLevel = defaultAfter s.defaultLevel events := by
  induction events generalizing s with
  | nil => rfl
  | cons event rest ih =>
      rw [run_cons, ih, defaultLevel_step, defaultAfter, defaultAfter]
      cases hdefault : event.default? with
      | none => rw [List.filterMap_cons_none hdefault, Option.getD_none]
      | some level => rw [List.filterMap_cons_some hdefault, Option.getD_some, List.getLastD_cons]

/-- A sequence of events in which the logger is configured has a last one that does so. -/
theorem exists_last_configure {events : List LogEvent}
    (h : ∃ level, LogEvent.configure level ∈ events) :
    ∃ before level after, events = before ++ .configure level :: after ∧
      ∀ later, LogEvent.configure later ∉ after := by
  induction events with
  | nil =>
      obtain ⟨level, hmem⟩ := h
      cases hmem
  | cons event rest ih =>
      by_cases hrest : ∃ level, LogEvent.configure level ∈ rest
      · obtain ⟨before, level, after, rfl, hafter⟩ := ih hrest
        exact ⟨event :: before, level, after, rfl, hafter⟩
      · obtain ⟨level, hmem⟩ := h
        rcases List.mem_cons.mp hmem with rfl | hmem
        · exact ⟨[], level, rest, rfl, not_exists.mp hrest⟩
        · exact absurd ⟨level, hmem⟩ hrest

/-- **The last call that configures the logger decides.**  It gives the level, by its argument or by
the settings as they are at its time.  From then on the logger has that level and exactly one
handler, which has the same, and passes nothing on; so a record is written once if it reaches the
level, or 30 if the level is zero, and otherwise not at all.  Before the first such call the logger
is as it was. -/
theorem run_is_settled (default : Int) (events : List LogEvent) :
    let logger := (run ⟨.initial, default⟩ events).logger
    (logger = .initial ∧ ∀ level, LogEvent.configure level ∉ events) ∨
      ∃ before level after resolved, events = before ++ .configure level :: after ∧
        (∀ later, LogEvent.configure later ∉ after) ∧
        resolved = level.getD (defaultAfter default before) ∧
        logger.handlers = [resolved] ∧ logger.level = resolved ∧ logger.propagate = false ∧
        ∀ record, 0 < record →
          logger.timesWritten record =
            if (if resolved = 0 then 30 else resolved) ≤ record then 1 else 0 := by
  intro logger
  by_cases hconfigured : ∃ level, LogEvent.configure level ∈ events
  · obtain ⟨before, level, after, hevents, hafter⟩ := exists_last_configure hconfigured
    have hreachable : ((run ⟨.initial, default⟩ before).logger).IsReachable :=
      isReachable_run (Or.inl rfl) before
    have hlogger : logger = .settled (level.getD (defaultAfter default before)) := by
      change (run ⟨.initial, default⟩ events).logger = _
      rw [hevents, run_append, run_cons, logger_run hafter, ← defaultLevel_run ⟨.initial, default⟩]
      exact hreachable.configure _
    refine Or.inr ⟨before, level, after, _, hevents, hafter, rfl, ?_⟩
    rw [hlogger]
    exact ⟨rfl, rfl, rfl, fun record hrecord => Logger.timesWritten_settled _ hrecord⟩
  · have hnone := not_exists.mp hconfigured
    exact Or.inl ⟨logger_run hnone, hnone⟩

/-- The level zero, given by a call, is taken for a level and not for a missing one, and no later
change of the settings counts. -/
theorem run_is_settled_at_zero :
    let events := [.configure none, .configure (some 0), .setDefault 50]
    let logger := (run ⟨.initial, 40⟩ events).logger
    logger.handlers = [0] ∧ 0 < (29 : Int) ∧ logger.timesWritten 29 = 0 ∧
      logger.timesWritten 30 = 1 := by
  intro events logger
  rcases run_is_settled 40 events with
    ⟨-, hnone⟩ | ⟨before, level, after, resolved, -, -, -, hhandlers, -, -, hwrites⟩
  · exact absurd List.mem_cons_self (hnone none)
  · obtain rfl : 0 = resolved := (List.cons.inj hhandlers).1
    exact ⟨hhandlers, by decide, hwrites 29 (by decide), hwrites 30 (by decide)⟩

end LogState

end DocumentQuery
