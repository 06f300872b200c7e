import DocumentQuery.Settings
import Mathlib.Data.List.Count
import Mathlib.Data.List.Infix

/-!
# Test environments

Entering a test environment saves the settings and leaving it brings them back.  Environments nest
like brackets, so what has to be shown of a run is about brackets: between an environment that is
entered and the same environment left, every other one that is entered is left as well.  Such a
sequence of events is balanced.

A balanced sequence gives the saved settings back as it found them, whatever it does to the current
ones.  That is the invariant from which everything else follows, the matching of entering and
leaving apart, which is a fact on sequences of events alone.

* `Settings.held_change` — a change gives one field its new value and keeps the others.
* `exists_matching` — what is left has been entered, and what happens between is balanced.
* `run_restores` — the settings right after each event, and around a test.
-/

namespace DocumentQuery

namespace Settings

/-! ## Fields -/

/-- The fields of the settings. -/
inductive Field where
  | inputFormat
  | outputFormat
  | color
  | logLevel
  deriving DecidableEq

/-- What a field holds: a name, or the level of the log. -/
def held (s : Settings) : Field → Text ⊕ Int
  | .inputFormat => .inl s.inputFormat
  | .outputFormat => .inl s.outputFormat
  | .color => .inl s.color
  | .logLevel => .inr s.logLevel

namespace Change

/-- The field that gets a new value. -/
def field : Change → Field
  | .inputFormat _ => .inputFormat
  | .outputFormat _ => .outputFormat
  | .color _ => .color
  | .logLevel _ => .logLevel

/-- The new value. -/
def value : Change → Text ⊕ Int
  | .inputFormat name => .inl name
  | .outputFormat name => .inl name
  | .color name => .inl name
  | .logLevel level => .inr level

end Change

/-- A change gives its field the new value, and every other field keeps its own. -/
theorem held_change (s : Settings) (c : Change) (f : Field) :
    (s.change c).held f = if f = c.field then c.value else s.held f := by
  cases c <;> cases f <;> rfl

end Settings

namespace SettingsStack

namespace Event

/-- The event enters a test environment. -/
def isEnter : Event → Bool
  | .enter => true
  | _ => false

/-- The event leaves a test environment, in either way. -/
def isLeave : Event → Bool
  | .leave => true
  | .raise => true
  | _ => false

end Event

/-- Every test environment that is left has been entered before. -/
def LeavesMatch (events : List Event) : Prop :=
  ∀ before, before <+: events → before.countP Event.isLeave ≤ before.countP Event.isEnter

/-- Every test environment that is entered is left again, and none is left that was not entered. -/
inductive Balanced : List Event → Prop
  | nil : Balanced []
  | plain {event : Event} {rest : List Event} (henter : event.isEnter = false)
      (hleave : event.isLeave = false) (hrest : Balanced rest) : Balanced (event :: rest)
  | nested {inner rest : List Event} {closing : Event} (hinner : Balanced inner)
      (hleave : closing.isLeave = true) (hrest : Balanced rest) :
      Balanced (.enter :: (inner ++ closing :: rest))

/-- The changes of a sequence of events that are made outside of all test environments, if it begins
inside of as many as the number says. -/
def outside : Nat → List Event → List Settings.Change
  | _, [] => []
  | 0, .change change :: rest => change :: outside 0 rest
  | depth, .enter :: rest => outside (depth + 1) rest
  | depth, .leave :: rest => outside (depth - 1) rest
  | depth, .raise :: rest => outside (depth - 1) rest
  | depth, _ :: rest => outside depth rest

/-! ## Runs -/

theorem run_append (s : SettingsStack) (before after : List Event) :
    s.run (before ++ after) = (s.run before).run after :=
  List.foldl_append

theorem run_concat (s : SettingsStack) (before : List Event) (event : Event) :
    s.run (before ++ [event]) = (s.run before).step event :=
  run_append s before [event]

theorem step_leave {event : Event} (h : event.isLeave = true) (s : SettingsStack) :
    s.step event = s.restored := by
  cases event with
  | leave => rfl
  | raise => rfl
  | _ => cases h

/-- An event that neither enters nor leaves keeps what is saved. -/
theorem saved_step {event : Event} (henter : event.isEnter = false) (hleave : event.isLeave = false)
    (s : SettingsStack) : (s.step event).saved = s.saved := by
  cases event with
  | get => rfl
  | change _ => rfl
  | enter => cases henter
  | leave => cases hleave
  | raise => cases hleave

theorem restored_eq {s : SettingsStack} {outer : Settings} {saved : List Settings}
    (h : s.saved = outer :: saved) : s.restored = ⟨outer, saved⟩ := by
  rw [restored, h]

/-- An environment that is entered and left, with what is balanced between, changes nothing. -/
theorem run_enter_leave {inner : List Event} {closing : Event} (hleave : closing.isLeave = true)
    (hinner : ∀ s : SettingsStack, (s.run inner).saved = s.saved) (s : SettingsStack) :
    s.run (.enter :: inner ++ [closing]) = s := by
  have hsaved : ((s.step .enter).run inner).saved = s.current :: s.saved := hinner _
  rw [run_concat, step_leave hleave]
  exact restored_eq hsaved

theorem run_enter_leave_append {inner : List Event} {closing : Event}
    (hleave : closing.isLeave = true)
    (hinner : ∀ s : SettingsStack, (s.run inner).saved = s.saved) (s : SettingsStack)
    (rest : List Event) : s.run (.enter :: (inner ++ closing :: rest)) = s.run rest := by
  have hwhole : Event.enter :: (inner ++ closing :: rest) =
      (.enter :: inner ++ [closing]) ++ rest := by simp
  rw [hwhole, run_append, run_enter_leave hleave hinner]

/-- A balanced sequence of events gives back what is saved as it found it. -/
theorem Balanced.saved_run {events : List Event} (h : Balanced events) (s : SettingsStack) :
    (s.run events).saved = s.saved := by
  induction h generalizing s with
  | nil => rfl
  | @plain event rest henter hleave _ ih => exact (ih _).trans (saved_step henter hleave s)
  | @nested inner rest closing _ hleave _ ihinner ihrest =>
      rw [run_enter_leave_append hleave ihinner]
      exact ihrest s

/-- A test environment leaves the settings as they were before it, those saved included. -/
theorem Balanced.run_within {inner : List Event} (hinner : Balanced inner) {closing : Event}
    (hleave : closing.isLeave = true) (s : SettingsStack) :
    s.run (.enter :: inner ++ [closing]) = s :=
  run_enter_leave hleave hinner.saved_run s

/-! ## Matching -/

theorem Balanced.append {first second : List Event} (hfirst : Balanced first)
    (hsecond : Balanced second) : Balanced (first ++ second) := by
  induction hfirst with
  | nil => exact hsecond
  | plain henter hleave _ ih => exact .plain henter hleave ih
  | @nested inner rest closing hinner hleave _ _ ih =>
      have hwhole : Event.enter :: (inner ++ closing :: rest) ++ second =
          .enter :: (inner ++ closing :: (rest ++ second)) := by simp
      rw [hwhole]
      exact .nested hinner hleave ih

theorem Balanced.single {event : Event} (henter : event.isEnter = false)
    (hleave : event.isLeave = false) : Balanced [event] :=
  .plain henter hleave .nil

theorem isEnter_of_isLeave {event : Event} (h : event.isLeave = true) : event.isEnter = false := by
  cases event with
  | enter => cases h
  | _ => rfl

/-- In a balanced sequence as many environments are left as are entered. -/
theorem Balanced.count_eq {events : List Event} (h : Balanced events) :
    events.countP Event.isLeave = events.countP Event.isEnter := by
  induction h with
  | nil => rfl
  | plain henter hleave _ ih =>
      rw [List.countP_cons_of_neg (by simp [hleave]),
        List.countP_cons_of_neg (by simp [henter]), ih]
  | @nested inner rest closing _ hleave _ ihinner ihrest =>
      have henter := isEnter_of_isLeave hleave
      have hopen : Event.isLeave .enter = false := rfl
      have hclose : Event.isEnter .enter = true := rfl
      simp only [List.countP_cons, List.countP_append, hleave, henter, hopen, hclose, ihinner,
        ihrest, if_true, Bool.false_eq_true, if_false]
      omega

theorem LeavesMatch.of_prefix {before events : List Event} (h : LeavesMatch events)
    (hbefore : before <+: events) : LeavesMatch before :=
  fun first hfirst => h first (hfirst.trans hbefore)

/-- Where more environments have been entered than left, there is one that was entered last of those
that are still open; what comes after it is balanced. -/
theorem exists_open {events : List Event} (hmatch : LeavesMatch events)
    (hcount : events.countP Event.isLeave < events.countP Event.isEnter) :
    ∃ outer inner, events = outer ++ .enter :: inner ∧ Balanced inner := by
  -- By length: an event that leaves is matched first, and then what stands before that match.
  induction hlength : events.length using Nat.strong_induction_on generalizing events with
  | _ length ih =>
      subst hlength
      rcases List.eq_nil_or_concat' events with rfl | ⟨before, event, rfl⟩
      · cases hcount
      · have hbefore : LeavesMatch before := hmatch.of_prefix (List.prefix_append before [event])
        simp only [List.countP_append, List.countP_cons, List.countP_nil,
          List.length_append, List.length_singleton] at hcount ih ⊢
        by_cases henter : event.isEnter = true
        · cases event with
          | enter => exact ⟨before, [], rfl, .nil⟩
          | _ => cases henter
        · rw [if_neg henter] at hcount
          obtain ⟨outer, inner, rfl, hinner⟩ :=
            ih before.length (Nat.lt_succ_self _) hbefore (by omega) rfl
          by_cases hleave : event.isLeave = true
          · -- The environment found is the one that the event leaves, so another one is open.
            have hinnerCount := hinner.count_eq
            have hcounts : outer.countP Event.isLeave < outer.countP Event.isEnter := by
              have hopen : Event.isLeave .enter = false := rfl
              have hclose : Event.isEnter .enter = true := rfl
              simp only [List.countP_append, List.countP_cons, hleave, hopen, hclose, if_true,
                Bool.false_eq_true, if_false] at hcount
              omega
            have hshort : outer.length < (outer ++ Event.enter :: inner).length + 1 := by
              rw [List.length_append]
              omega
            obtain ⟨further, between, rfl, hbetween⟩ :=
              ih outer.length hshort (hbefore.of_prefix (List.prefix_append _ _)) hcounts rfl
            refine ⟨further, between ++ .enter :: (inner ++ [event]), by simp, ?_⟩
            exact hbetween.append (.nested hinner hleave .nil)
          · refine ⟨outer, inner ++ [event], by simp, hinner.append (.single ?_ ?_)⟩
            · simpa using henter
            · simpa using hleave

/-- Every environment that is left was entered by a matching event. -/
theorem exists_matching {events before : List Event} {closing : Event} (hmatch : LeavesMatch events)
    (hleave : closing.isLeave = true) (hbefore : before ++ [closing] <+: events) :
    ∃ outer inner, before = outer ++ .enter :: inner ∧ Balanced inner := by
  have hcount := hmatch _ hbefore
  simp only [List.countP_append, List.countP_cons, List.countP_nil, hleave,
    isEnter_of_isLeave hleave, if_true, Bool.false_eq_true, if_false] at hcount
  exact exists_open (hmatch.of_prefix ((List.prefix_append _ _).trans hbefore)) (by omega)

/-! ## Changes outside of test environments -/

theorem outside_leave {closing : Event} (h : closing.isLeave = true) (depth : Nat)
    (rest : List Event) : outside (depth + 1) (closing :: rest) = outside depth rest := by
  cases closing with
  | leave => rw [outside, Nat.add_sub_cancel]
  | raise => rw [outside, Nat.add_sub_cancel]
  | _ => cases h

/-- Inside of a test environment nothing that is balanced counts. -/
theorem Balanced.outside_succ {events : List Event} (h : Balanced events) (depth : Nat)
    (rest : List Event) : outside (depth + 1) (events ++ rest) = outside (depth + 1) rest := by
  induction h generalizing depth rest with
  | nil => rfl
  | @plain event others henter hleave _ ih =>
      cases event with
      | get => exact ih depth rest
      | change _ => exact ih depth rest
      | enter => cases henter
      | leave => cases hleave
      | raise => cases hleave
  | @nested inner others closing _ hleave _ ihinner ihrest =>
      rw [List.cons_append, List.append_assoc, List.cons_append, outside, ihinner,
        outside_leave hleave, ihrest]

/-- What is balanced changes the settings as its changes outside of test environments do. -/
theorem Balanced.current_run {events : List Event} (h : Balanced events) (s : SettingsStack) :
    (s.run events).current = (outside 0 events).foldl Settings.change s.current := by
  induction h generalizing s with
  | nil => rfl
  | @plain event rest henter hleave _ ih =>
      cases event with
      | get => exact ih s
      | change change => exact ih (s.step (.change change))
      | enter => cases henter
      | leave => cases hleave
      | raise => cases hleave
  | @nested inner rest closing hinner hleave _ _ ih =>
      rw [run_enter_leave_append hleave hinner.saved_run, ih s, outside, hinner.outside_succ,
        outside_leave hleave]

/-! ## Whole runs -/

/-- **Test environments bring the settings back.**  In a run that leaves only what it has entered,
entering gives the settings for tests; leaving, in either way, gives those from right before the
matching event, whatever was changed between; and where no environment is open, the settings are
those that the changes outside of all environments make.  A change gives its field the new value and
keeps the others.  A test with an environment of its own begins with the settings for tests and, in
all, changes nothing. -/
theorem run_restores (s : SettingsStack) {events : List Event} (hmatch : LeavesMatch events) :
    (∀ before, before ++ [.enter] <+: events →
      (s.run (before ++ [.enter])).current = ⟨"toml", "toml", "never", 30⟩) ∧
    (∀ before closing, closing.isLeave = true → before ++ [closing] <+: events →
      ∃ outer inner, before = outer ++ .enter :: inner ∧ Balanced inner ∧
        (s.run (before ++ [closing])).current = (s.run outer).current) ∧
    (∀ before, before <+: events → Balanced before →
      (s.run before).current = (outside 0 before).foldl Settings.change s.current) ∧
    (∀ before c, before ++ [.change c] <+: events → ∀ f,
      (s.run (before ++ [.change c])).current.held f =
        if f = c.field then c.value else (s.run before).current.held f) ∧
    (∃ before after, (s.run before).current = ⟨"toml", "toml", "never", 30⟩ ∧
      ∀ test, fixture test = before ++ test ++ after) ∧
    ∀ test, Balanced test → s.run (fixture test) = s := by
  refine ⟨fun before _ => ?_, fun before closing hleave hbefore => ?_, fun before _ hbefore => ?_,
    fun before c _ f => ?_, ⟨[.enter], [.leave], rfl, fun _ => rfl⟩, fun test htest => ?_⟩
  · rw [run_concat]
    rfl
  · obtain ⟨outer, inner, rfl, hinner⟩ := exists_matching hmatch hleave hbefore
    refine ⟨outer, inner, rfl, hinner, ?_⟩
    rw [List.append_assoc, run_append]
    exact congrArg current (hinner.run_within hleave (s.run outer))
  · exact hbefore.current_run s
  · rw [run_concat]
    exact Settings.held_change _ c f
  · exact htest.run_within rfl s

/-- An error ends the inner one of two environments; a colour that was set in the outer one did not
touch the level for tests, and a level that was set before them is in force again after it. -/
theorem run_restores_nested :
    let s : SettingsStack := ⟨.default, []⟩
    let before : List Event :=
      [.change (.logLevel 10), .enter, .change (.color "always"), .enter, .get, .raise]
    let events : List Event := before ++ [.leave]
    LeavesMatch events ∧
      (s.run (before.take 2)).current = ⟨"toml", "toml", "never", 30⟩ ∧
      (s.run (before.take 3)).current.held .color = .inl "always" ∧
      (s.run (before.take 3)).current.held .logLevel = .inr 30 ∧
      (∃ outer inner, before = outer ++ .enter :: inner ∧ Balanced inner ∧
        (s.run events).current = (s.run outer).current) ∧
      Balanced events ∧ (s.run events).current = ⟨"toml", "toml", "auto", 10⟩ := by
  intro s before events
  have hcounts : ∀ first ∈ events.inits,
      first.countP Event.isLeave ≤ first.countP Event.isEnter := by decide
  have hmatch : LeavesMatch events :=
    fun first hfirst => hcounts first ((List.mem_inits first events).mpr hfirst)
  have hinner : Balanced [.get] := .single rfl rfl
  have hbalanced : Balanced events :=
    .plain rfl rfl (.nested (.plain rfl rfl (.nested hinner rfl .nil)) rfl .nil)
  obtain ⟨henter, hleave, houtside, hchange, -⟩ := run_restores s hmatch
  have hcolor := hchange (before.take 2) (.color "always") ⟨events.drop 3, rfl⟩
  refine ⟨hmatch, henter [.change (.logLevel 10)] ⟨events.drop 2, rfl⟩, hcolor .color,
    hcolor .logLevel, hleave before .leave rfl (List.prefix_refl _), hbalanced,
    (houtside events (List.prefix_refl _) hbalanced).trans rfl⟩

end SettingsStack

end DocumentQuery
