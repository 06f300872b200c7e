import DocumentQuery.Proofs.Arguments
import DocumentQuery.Proofs.Logging
import DocumentQuery.Proofs.Stages

/-!
# Runs of the command

A run prints what its stages compute, or it reports the first stage that fails.  Most failures are
reported; those that are not end the run at once.  They are of few kinds, `IsUnreported` lists
them, and a run ends at once in these cases and in no others.

That there are no others is said of a reader and a writer that take values nested to any depth.  An
interpreter that limits how deep its calls may nest stops at some depth with an error that is not
reported; such limits are no part of the model.

* `RunError.reportText` — what is to be reported about an error.
* `run_prints_or_reports` — where nothing escapes, a run prints the result or that report.
* `run_reports_or_escapes` — the failures that escape, and that there are no others.
-/

namespace DocumentQuery

namespace Command

variable {world : World} {a : Arguments}

/-! ## Errors and their reports -/

/-- The text of the report of an error: its message and, if it is a fault in a pattern, the caret
below it. -/
def RunError.reportText [Markup.EmojiNames] : RunError → Text
  | .failure (.pattern fault) => Display.report (.pattern fault)
  | e => Display.reported e.message

theorem mark_prefix_reportText [Markup.EmojiNames] (e : RunError) :
    Display.mark <+: e.reportText := by
  unfold RunError.reportText
  split
  · exact Display.mark_prefix_report _
  · exact Display.mark_prefix_reported _

/-- An error is reported in the text meant for it, or not at all. -/
theorem RunError.report?_cases [Markup.EmojiNames] (e : RunError) :
    e.report? = none ∨ e.report? = some e.reportText := by
  cases e with
  | setting e =>
      cases e with
      | noneOf _ _ _ => exact Or.inr rfl
      | noLevel _ _ => exact Or.inr rfl
      | noNumeral _ => exact Or.inl rfl
      | limit _ => exact Or.inl rfl
  | misplaced _ => exact Or.inl rfl
  | input e =>
      cases e with
      | document _ => exact Or.inr rfl
      | undecodable _ => exact Or.inl rfl
      | unencodablePath _ => exact Or.inl rfl
      | zeroInPath => exact Or.inl rfl
  | failure e =>
      cases e with
      | pattern _ => exact Or.inr rfl
      | navigation _ => exact Or.inr rfl
      | document _ => exact Or.inr rfl
      | unsupported _ => exact Or.inr rfl
      | inconvertible _ => exact Or.inl rfl
      | unknownStep _ => exact Or.inl rfl
      | limit _ => exact Or.inl rfl
      | unknownFormat _ _ => exact Or.inl rfl
  | unencodable _ _ => exact Or.inl rfl

/-- The errors of stages that no report is written about. -/
inductive IsUnreported : RunError → Prop
  | misplaced (e : MisplacedValue) : IsUnreported (.misplaced e)
  | undecodable (e : Utf8.DecodeError) : IsUnreported (.input (.undecodable e))
  | unencodablePath (e : Utf8.EncodeError) : IsUnreported (.input (.unencodablePath e))
  | zeroInPath : IsUnreported (.input .zeroInPath)
  | limit (e : Numeral.LimitError) : IsUnreported (.failure (.limit e))
  | unencodable (e : Utf8.EncodeError) (highlighted : Bool) :
      IsUnreported (.unencodable e highlighted)

theorem IsUnreported.report?_eq_none [Markup.EmojiNames] {e : RunError} (h : IsUnreported e) :
    e.report? = none := by
  cases h <;> rfl

/-- The error is reported, in the text meant for it. -/
def IsReported [Markup.EmojiNames] (e : RunError) : Prop :=
  e.report? = some e.reportText

/-- An error is reported, or it is of a kind that is not. -/
def IsAccountedFor [Markup.EmojiNames] (e : RunError) : Prop :=
  IsReported e ∨ IsUnreported e

theorem accounted_of_textIn [Markup.EmojiNames] {misplaced : ArgumentValue → MisplacedValue}
    {v : ArgumentValue} {e : RunError} (h : textIn misplaced v = .error e) : IsAccountedFor e := by
  cases v with
  | text t => cases h
  | truth b =>
      cases h
      exact Or.inr (.misplaced _)
  | absent =>
      cases h
      exact Or.inr (.misplaced _)

theorem accounted_of_pathIn [Markup.EmojiNames] {v : ArgumentValue} {e : RunError}
    (h : pathIn v = .error e) : IsAccountedFor e := by
  cases v with
  | text t => cases h
  | truth b =>
      cases h
      exact Or.inr (.misplaced _)
  | absent => cases h

/-- The text of a setting is refused only with a report. -/
theorem accounted_of_settingOf [Markup.EmojiNames] {α : Type}
    {read : Text → Text → Except SettingError α}
    {source : Text} {v : ArgumentValue} {e : RunError}
    (hread : ∀ raw e, read source raw = .error e → IsReported (.setting e))
    (h : settingOf read source v = .error e) : IsAccountedFor e := by
  unfold settingOf at h
  cases htext : textIn .setting v with
  | error misplaced =>
      rw [htext] at h
      cases h
      exact accounted_of_textIn htext
  | ok raw =>
      rw [htext, ok_bind] at h
      cases hsetting : read source raw with
      | ok value =>
          rw [hsetting] at h
          cases h
      | error refused =>
          rw [hsetting] at h
          cases h
          exact Or.inl (hread raw refused hsetting)

/-- A choice that is not among those allowed is reported. -/
theorem isReported_of_readChoice [Markup.EmojiNames] {α : Type} {all : List α} {nameOf : α → Text}
    {source raw : Text} {e : SettingError}
    (h : Setting.readChoice all nameOf source raw = .error e) : IsReported (.setting e) := by
  unfold Setting.readChoice at h
  split at h
  · cases h
  · cases h
    rfl

/-- What is loaded consists of values of documents. -/
theorem Loads.everywhere {output : Format} {color : ColorChoice} {document : Entries}
    (h : Loads world a output color document) :
    (Value.table document).Everywhere Value.HasKind := by
  cases h with
  | intro _ hload => exact Document.everywhere_hasKind_of_load hload

theorem Finds.everywhere {output : Format} {color : ColorChoice} {found : Value}
    (h : Finds world a output color found) : found.Everywhere Value.HasKind := by
  cases h with
  | intro hdocument _ hextract =>
      obtain ⟨steps, hleads⟩ := Document.exists_leads_of_extract hextract
      exact hdocument.everywhere.of_leads hleads

/-- No stage fails with an error of any other kind. -/
theorem Fails.accounted [Markup.EmojiNames] {e : RunError} (h : Fails world a e) :
    IsAccountedFor e := by
  cases h with
  | input h => exact accounted_of_settingOf (fun _ _ => isReported_of_readChoice) h
  | output _ h => exact accounted_of_settingOf (fun _ _ => isReported_of_readChoice) h
  | color _ _ h => exact accounted_of_settingOf (fun _ _ => isReported_of_readChoice) h
  | path _ h => exact accounted_of_pathIn h
  | @read _ _ _ _ e _ _ h =>
      cases e with
      | document e => exact Or.inl rfl
      | undecodable e => exact Or.inr (.undecodable e)
      | unencodablePath e => exact Or.inr (.unencodablePath e)
      | zeroInPath => exact Or.inr .zeroInPath
  | @load _ _ _ _ e _ h =>
      have hkind := Document.isLoadFailure_of_load h
      cases e with
      | document e => exact Or.inl rfl
      | limit e => exact Or.inr (.limit e)
      | _ => cases hkind
  | misplacedPattern _ h => exact accounted_of_textIn h
  | @pattern _ _ _ _ e _ _ h =>
      cases e with
      | malformed e => exact Or.inl rfl
      | limit e => exact Or.inr (.limit e)
  | navigation hdocument _ hparse h =>
      -- Walking through a document is blocked for a reason, and each reason has its report.
      obtain ⟨reason, rfl⟩ :=
        Document.blocked_of_walk hdocument.everywhere (Pattern.isWritable_of_parse hparse) h
      exact Or.inl rfl
  | dump hfound h =>
      obtain ⟨⟨limit, rfl⟩, -⟩ := Document.limit_of_dump hfound.everywhere h
      exact Or.inr (.limit limit)
  | encode _ h => exact Or.inr (.unencodable _ _)

/-! ## Whole runs -/

/-- The end of a run whose stages have the given outcome. -/
def ending [Markup.EmojiNames] (log : Option (List Text)) : Except RunError Text → Outcome
  | .ok stdout => .finished 0 stdout [] log
  | .error e =>
      match e.report? with
      | some report => .finished 1 [] (Display.withoutSurrogates report) log
      | none => .escaped e

section

variable {words : List Text} {settings : Settings} {arguments : Arguments}

theorem run_of_refused_settings [Markup.EmojiNames] {e : SettingError}
    (h : Settings.ofEnvironment world.environment = .error e) :
    run world words = .escaped (.setting e) := by
  rw [run, h]

theorem run_of_refused_words [Markup.EmojiNames] {e : ArgumentError}
    (hsettings : Settings.ofEnvironment world.environment = .ok settings)
    (h : Arguments.parse settings words = .error e) : run world words = .refused e := by
  rw [run, hsettings]
  dsimp only
  rw [h]

theorem exists_run_eq [Markup.EmojiNames]
    (hsettings : Settings.ofEnvironment world.environment = .ok settings)
    (h : Arguments.parse settings words = .ok arguments) :
    ∃ messages, run world words =
      ending (logOf settings.logLevel messages) (answer world arguments) := by
  have hyields := yields_stages world arguments []
  refine ⟨((stages world arguments).run.run []).2, ?_⟩
  rw [← hyields, run, hsettings]
  dsimp only
  rw [h]
  rfl

end

/-- A level above that of the messages keeps them all out of the log. -/
theorem logOf_getD_of_lt {level : Int} (messages : List Text)
    (h : debugLevel < (Logger.initial.configure level).effectiveLevel) :
    (logOf level messages).getD [] = [] := by
  rw [logOf, Logger.writes_eq_false_of_lt h]
  split
  · rfl
  · rfl

theorem ending_of_isReported [Markup.EmojiNames] {e : RunError} (log : Option (List Text))
    (h : IsReported e) :
    ending log (.error e) = .finished 1 [] (Display.withoutSurrogates e.reportText) log := by
  rw [ending, h]

theorem ending_of_isUnreported [Markup.EmojiNames] {e : RunError} (log : Option (List Text))
    (h : IsUnreported e) : ending log (.error e) = .escaped e := by
  rw [ending, h.report?_eq_none]

/-- The run ends with the given status and texts, and nothing is logged beside them. -/
def EndsWith [Markup.EmojiNames] (world : World) (words : List Text) (status : Nat)
    (stdout stderr : Text) : Prop :=
  ∃ log, run world words = .finished status stdout stderr log ∧ log.getD [] = []

/-- **A run prints what is computed, or it reports the first failure.**  Where the environment and
the arguments are accepted, the logger keeps out messages for debugging and no failure escapes, the
stages use the values in force.  Either all of them succeed, and the text of the part that is found
is printed with exactly one newline at its end, whatever the choice of colour; or the failure of the
first stage that fails is reported in the text meant for it, and nothing is printed. -/
theorem run_prints_or_reports [Markup.EmojiNames] {world : World} {words : List Text}
    {settings : Settings} {given : List (Text × Arguments.Given)} {arguments : Arguments}
    (hsettings : Settings.ofEnvironment world.environment = .ok settings)
    (hgiven : words.mapM Arguments.readWord = .ok given)
    (harguments : Arguments.ofGiven settings given = .ok arguments)
    (hlevel : debugLevel < (Logger.initial.configure settings.logLevel).effectiveLevel)
    (hescape : ∀ e, run world words ≠ .escaped e) :
    (∀ p v, Arguments.InForce world.environment given p v ↔ v = arguments.value p) ∧
      (∀ color result, Computes world arguments color result →
        EndsWith world words 0
          (result.dropEndWhile (· = .char '\n') ++ Text.ofString "\n") []) ∧
      (∀ e, Fails world arguments e →
        e.report? = some e.reportText ∧ Display.mark <+: e.reportText ∧
          EndsWith world words 1 [] (Display.withoutSurrogates e.reportText)) ∧
      ((∃ color result, Computes world arguments color result) ∨ ∃ e, Fails world arguments e) := by
  have hparse : Arguments.parse settings words = .ok arguments := by
    rw [Arguments.parse, hgiven, ok_bind, harguments]
  obtain ⟨messages, hrun⟩ := exists_run_eq hsettings hparse
  have hquiet := logOf_getD_of_lt messages hlevel
  -- A failure of a kind that is not reported would have escaped.
  have hreported {e : RunError} (h : Fails world arguments e) : IsReported e := by
    rw [answer_of_fails h] at hrun
    refine h.accounted.resolve_right fun hkind => ?_
    exact hescape e (hrun.trans (ending_of_isUnreported _ hkind))
  refine ⟨Arguments.inForce_iff hsettings harguments, fun color result h => ?_, fun e h => ?_,
    computes_or_fails world arguments⟩
  · rcases h.answer_or_fails with hanswer | ⟨e, he⟩
    · rw [hanswer] at hrun
      exact ⟨_, hrun, hquiet⟩
    · cases hreported he
  · rw [answer_of_fails h] at hrun
    exact ⟨hreported h, mark_prefix_reportText e, _,
      hrun.trans (ending_of_isReported _ (hreported h)), hquiet⟩

/-- A JSON text on standard input, to be written in the format that a variable names, where another
leaves the level of the log to the root logger.  With three faults at once, in a setting, in the
path and in the pattern, the setting is reported. -/
theorem run_prints_or_reports_boolean :
    let world : World :=
      ⟨fun name =>
          if name = Text.ofString "TQ_OUTPUT_FORMAT" then some " JSON"
          else if name = Text.ofString "TQ_LOG_LEVEL" then some "0" else none,
        fun _ => .error .missing, Utf8.encode "\x7b\"a\":[true]\x7d"⟩
    let settings : Settings := ⟨"toml", "json", "auto", 0⟩
    let words : List Text := ["pattern=a[0]", "input=json"]
    let given : List (Text × Arguments.Given) :=
      [("pattern", .text "a[0]"), ("input", .text "json")]
    let arguments : Arguments :=
      ⟨.text "a[0]", .absent, .text "json", .text "json", .truth false, .text "auto"⟩
    let faults : List Text := ["pattern=a[", "output=xml", "file=a.toml"]
    let givenFaults : List (Text × Arguments.Given) :=
      [("pattern", .text "a["), ("output", .text "xml"), ("file", .text "a.toml")]
    let faulty : Arguments :=
      ⟨.text "a[", .text "a.toml", .text "toml", .text "xml", .truth false, .text "auto"⟩
    let e : RunError := .setting (.noneOf "output" ["toml", "json"] "xml")
    (Settings.ofEnvironment world.environment = .ok settings ∧
        words.mapM Arguments.readWord = .ok given ∧
        Arguments.ofGiven settings given = .ok arguments ∧
        debugLevel < (Logger.initial.configure settings.logLevel).effectiveLevel ∧
        (∀ e, run world words ≠ .escaped e) ∧
        Arguments.InForce world.environment given .output (.text "json") ∧
        ∃ color result, Computes world arguments color result ∧
          EndsWith world words 0
            (result.dropEndWhile (· = .char '\n') ++ Text.ofString "\n") []) ∧
      faults.mapM Arguments.readWord = .ok givenFaults ∧
        Arguments.ofGiven settings givenFaults = .ok faulty ∧
        (∀ e, run world faults ≠ .escaped e) ∧ Fails world faulty e ∧
        e.report? = some e.reportText ∧
          EndsWith world faults 1 [] "error: output must be one of toml, json; got 'xml'\n" := by
  intro world settings words given arguments faults givenFaults faulty e
  have hsettings : Settings.ofEnvironment world.environment = .ok settings := rfl
  have hgiven : words.mapM Arguments.readWord = .ok given := by decide +kernel
  have harguments : Arguments.ofGiven settings given = .ok arguments := by decide +kernel
  have hlevel : debugLevel < (Logger.initial.configure settings.logLevel).effectiveLevel := by
    decide
  have hrun : run world words = .finished 0 "true\n" [] (some []) := by decide +kernel
  have hescape : ∀ e, run world words ≠ .escaped e := fun e => hrun ▸ nofun
  have hgivenFaults : faults.mapM Arguments.readWord = .ok givenFaults := by decide +kernel
  have hfaulty : Arguments.ofGiven settings givenFaults = .ok faulty := by decide +kernel
  have hescapeFaults : ∀ e, run world faults ≠ .escaped e := by
    have hreported : ∃ report, run world faults = .finished 1 [] report (some []) :=
      ⟨"error: output must be one of toml, json; got 'xml'\n", by decide +kernel⟩
    obtain ⟨report, hreport⟩ := hreported
    exact fun e => hreport ▸ nofun
  have hinput : settingOf Setting.readFormat "input" faulty.input = .ok .toml := rfl
  have hfails : Fails world faulty e := .output hinput rfl
  obtain ⟨hforce, hcomputes, hreports, hends⟩ :=
    run_prints_or_reports hsettings hgiven harguments hlevel hescape
  obtain ⟨-, -, hreportsFaults, -⟩ :=
    run_prints_or_reports hsettings hgivenFaults hfaulty hlevel hescapeFaults
  obtain ⟨hreport, -, hreported⟩ := hreportsFaults e hfails
  have hshown : Display.withoutSurrogates e.reportText =
      "error: output must be one of toml, json; got 'xml'\n" := by decide +kernel
  refine ⟨⟨hsettings, hgiven, harguments, hlevel, hescape, (hforce _ _).mpr rfl, ?_⟩,
    hgivenFaults, hfaulty, hescapeFaults, hfails, hreport, hshown ▸ hreported⟩
  rcases hends with ⟨color, result, h⟩ | ⟨e, h⟩
  · exact ⟨color, result, h, hcomputes color result h⟩
  · obtain ⟨-, -, _, hfinished, -⟩ := hreports e h
    cases hrun.symm.trans hfinished

/-! ## Failures that escape -/

/-- A failure that the command does not report: a variable of the environment is not understood, or
the first stage that fails does so with an error of an unreported kind. -/
inductive Escapes (world : World) (words : List Text) : RunError → Prop
  | environment {e : SettingError} (h : Settings.ofEnvironment world.environment = .error e) :
      Escapes world words (.setting e)
  | stage {settings : Settings} {arguments : Arguments} {e : RunError}
      (hsettings : Settings.ofEnvironment world.environment = .ok settings)
      (harguments : Arguments.parse settings words = .ok arguments)
      (hfails : Fails world arguments e) (hkind : IsUnreported e) : Escapes world words e

theorem Escapes.run_eq [Markup.EmojiNames] {words : List Text} {e : RunError}
    (h : Escapes world words e) : run world words = .escaped e := by
  cases h with
  | environment h => exact run_of_refused_settings h
  | stage hsettings harguments hfails hkind =>
      obtain ⟨messages, hrun⟩ := exists_run_eq hsettings harguments
      rw [hrun, answer_of_fails hfails, ending_of_isUnreported _ hkind]

/-- **A run ends well, or it reports a failure, or a failure escapes it.**  This happens in the
listed cases and in no others. -/
theorem run_reports_or_escapes [Markup.EmojiNames] (world : World) (words : List Text)
    (haccepted : ∀ e, run world words ≠ .refused e) :
    ((∃ stdout log, run world words = .finished 0 stdout [] log) ∨
        (∃ report log, run world words = .finished 1 [] report log ∧ Display.mark <+: report) ∨
          ∃ e, run world words = .escaped e) ∧
      ∀ e, run world words = .escaped e ↔ Escapes world words e := by
  -- The listed cases are found first; they are the only ones because a run has one outcome.
  have hends : (∃ stdout log, run world words = .finished 0 stdout [] log) ∨
      (∃ report log, run world words = .finished 1 [] report log ∧ Display.mark <+: report) ∨
        ∃ e, Escapes world words e := by
    rcases hsettings : Settings.ofEnvironment world.environment with e | settings
    · exact Or.inr (Or.inr ⟨_, .environment hsettings⟩)
    rcases harguments : Arguments.parse settings words with e | arguments
    · exact absurd (run_of_refused_words hsettings harguments) (haccepted e)
    obtain ⟨messages, hrun⟩ := exists_run_eq hsettings harguments
    have hfails {e : RunError} (h : Fails world arguments e) :
        (∃ report log, run world words = .finished 1 [] report log ∧ Display.mark <+: report) ∨
          ∃ e, Escapes world words e := by
      rcases h.accounted with hreport | hkind
      · rw [answer_of_fails h, ending_of_isReported _ hreport] at hrun
        exact Or.inl ⟨_, _, hrun,
          Display.mark_prefix_withoutSurrogates (mark_prefix_reportText e)⟩
      · exact Or.inr ⟨e, .stage hsettings harguments h hkind⟩
    rcases computes_or_fails world arguments with ⟨color, result, h⟩ | ⟨e, h⟩
    · rcases h.answer_or_fails with hanswer | ⟨e, h⟩
      · rw [hanswer] at hrun
        exact Or.inl ⟨_, _, hrun⟩
      · exact Or.inr (hfails h)
    · exact Or.inr (hfails h)
  constructor
  · exact hends.imp_right (Or.imp_right fun ⟨e, h⟩ => ⟨e, h.run_eq⟩)
  · intro e
    refine ⟨fun hrun => ?_, Escapes.run_eq⟩
    rcases hends with ⟨_, _, hfinished⟩ | ⟨_, _, hfinished, -⟩ | ⟨other, h⟩
    · cases hrun.symm.trans hfinished
    · cases hrun.symm.trans hfinished
    · cases hrun.symm.trans h.run_eq
      exact h

/-- Standard input that is no UTF-8 ends the run. -/
theorem run_reports_or_escapes_undecodable :
    let world : World := ⟨fun _ => none, fun _ => .error .missing, [0xFF]⟩
    let words : List Text := ["pattern="]
    let e : RunError := .input (.undecodable ⟨.start, 0xFF, 0, 1⟩)
    (∀ e, run world words ≠ .refused e) ∧ run world words = .escaped e ∧
      Escapes world words e := by
  intro world words e
  have hrun : run world words = .escaped e := by decide +kernel
  have haccepted : ∀ e, run world words ≠ .refused e := fun e => hrun ▸ nofun
  exact ⟨haccepted, hrun, ((run_reports_or_escapes world words haccepted).2 e).mp hrun⟩

/-- Not every failure is reported.  With arguments that are accepted, one escapes at a variable of
the environment that names no choice of colour, at standard input that is no UTF-8, at a position
with too many digits and at a surrogate in the result. -/
theorem not_always_reported :
    let stdinOnly (bytes : List UInt8) : World := ⟨fun _ => none, fun _ => .error .missing, bytes⟩
    let colored : World :=
      ⟨fun name => if name = Text.ofString "TQ_COLOR" then some "sometimes" else none,
        fun _ => .error .missing, []⟩
    let lone : World := stdinOnly (Utf8.encode "\x7b\"a\":\"\\ud800\"\x7d")
    let position : Text := "a[" ++ Text.repeated 4301 '1' ++ "]"
    run colored ["pattern="] =
        .escaped (.setting (.noneOf "TQ_COLOR" ["auto", "always", "never"] "sometimes")) ∧
      run (stdinOnly [0xFF]) ["pattern="] =
        .escaped (.input (.undecodable ⟨.start, 0xFF, 0, 1⟩)) ∧
      run (stdinOnly []) ["pattern=" ++ position] =
        .escaped (.failure (.limit (.reading 4301))) ∧
      run lone ["pattern=a", "input=json"] =
        .escaped (.unencodable ⟨.surrogate 0, 1, 1⟩ false) ∧
      ¬∀ (world : World) (words : List Text), (∀ e, run world words ≠ .refused e) →
        (∃ stdout log, run world words = .finished 0 stdout [] log) ∨
          ∃ report log, run world words = .finished 1 [] report log ∧ Display.mark <+: report := by
  intro stdinOnly colored lone position
  have hcolored : run colored ["pattern="] =
      .escaped (.setting (.noneOf "TQ_COLOR" ["auto", "always", "never"] "sometimes")) := by
    decide +kernel
  refine ⟨hcolored, by decide +kernel, by decide +kernel, by decide +kernel, fun hall => ?_⟩
  rcases hall colored ["pattern="] (fun e => hcolored ▸ nofun) with ⟨_, _, h⟩ | ⟨_, _, h, -⟩
  · cases hcolored.symm.trans h
  · cases hcolored.symm.trans h

end Command

end DocumentQuery
