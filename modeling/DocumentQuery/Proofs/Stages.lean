import DocumentQuery.Command
import DocumentQuery.Proofs.Display
import DocumentQuery.Proofs.Dumping

/-!
# The stages of a run

A run goes through its stages in order, and the first one that fails decides how the run ends.
`Computes` and `Fails` state this stage by stage: a stage is reached if all stages before it have
succeeded.  What the stages add to the log has no influence on this, so the stages can be taken for
a plain composition of the functions on documents, `answer`.
-/

namespace DocumentQuery

namespace Command

/-! ## Steps without their log -/

/-- The outcome of a step, whatever is in the log before it. -/
def Yields {α : Type} (step : Run α) (outcome : Except RunError α) : Prop :=
  ∀ log, (step.run.run log).1 = outcome

section

variable {α β : Type}

theorem yields_pure (a : α) : Yields (pure a) (.ok a) :=
  fun _ => rfl

theorem yields_throw (e : RunError) : Yields (throw e : Run α) (.error e) :=
  fun _ => rfl

theorem yields_lifted {ε : Type} (wrap : ε → RunError) (outcome : Except ε α) :
    Yields (lifted wrap outcome) (outcome.mapError wrap) :=
  fun _ => rfl

theorem Yields.bind {step : Run α} {next : α → Run β} {outcome : Except RunError α}
    {others : α → Except RunError β} (h : Yields step outcome)
    (hnext : ∀ a, Yields (next a) (others a)) : Yields (step >>= next) (outcome >>= others) := by
  intro log
  have hstep := h log
  rw [ExceptT.run_bind, StateT.run_bind]
  cases hrun : step.run.run log with
  | mk first after =>
      rw [hrun] at hstep
      subst hstep
      cases first with
      | ok a => exact hnext a after
      | error e => rfl

end

/-! ## Stages -/

/-- The text that a value is, in a place that needs one. -/
def textIn (misplaced : ArgumentValue → MisplacedValue) : ArgumentValue → Except RunError Text
  | .text t => .ok t
  | v => .error (.misplaced (misplaced v))

/-- The setting that the value of a parameter names. -/
def settingOf {α : Type} (read : Text → Text → Except SettingError α) (source : Text)
    (v : ArgumentValue) : Except RunError α := do
  (read source (← textIn .setting v)).mapError .setting

/-- The path that the value of a parameter is; standard input has none. -/
def pathIn : ArgumentValue → Except RunError (Option Text)
  | .absent => .ok none
  | v => some <$> textIn .path v

/-- What is written for a result, unless it holds surrogates. -/
def encoded (color : ColorChoice) (result : Text) : Except RunError Text :=
  let shown := Display.emitted color false result
  match Text.encodeError? (fun c => !c.isSurrogate) shown with
  | some e => .error (.unencodable e (Display.isHighlighted color false))
  | none => .ok shown

/-- The stages after a part of the document has been found. -/
def afterFinding (a : Arguments) (output : Format) (color : ColorChoice) (found : Value) :
    Except RunError Text := do
  let result ← (Document.dump output a.pretty.isTrue found).mapError .failure
  encoded color result

/-- The stages after the document has been loaded. -/
def afterLoading (a : Arguments) (output : Format) (color : ColorChoice) (document : Entries) :
    Except RunError Text := do
  let pattern ← textIn .pattern a.pattern
  let found ← (Document.extract (.table document) pattern).mapError .failure
  afterFinding a output color found

/-- The stages after the settings have been read. -/
def afterSettings (world : World) (a : Arguments) (input output : Format) (color : ColorChoice) :
    Except RunError Text := do
  let path ← pathIn a.file
  let text ← (Input.read world.contentOf world.stdin path).mapError .input
  let document ← (Document.load input text).mapError .failure
  afterLoading a output color document

/-- The stages of the command one after the other. -/
def answer (world : World) (a : Arguments) : Except RunError Text := do
  let input ← settingOf Setting.readFormat "input" a.input
  let output ← settingOf Setting.readFormat "output" a.output
  let color ← settingOf Setting.readColor "color" a.color
  afterSettings world a input output color

theorem yields_after_note {α : Type} {message : Text} {next : Unit → Run α}
    {outcome : Except RunError α} (h : Yields (next ()) outcome) :
    Yields (note message >>= next) outcome :=
  fun log => h (log ++ [message])

theorem yields_textOf (misplaced : ArgumentValue → MisplacedValue) (v : ArgumentValue) :
    Yields (textOf misplaced v) (textIn misplaced v) := by
  cases v with
  | text t => exact yields_pure t
  | truth b => exact yields_throw _
  | absent => exact yields_throw _

theorem yields_pathOf (v : ArgumentValue) : Yields (pathOf v) (pathIn v) := by
  cases v with
  | text t => exact yields_pure (some t)
  | truth b => exact yields_throw _
  | absent => exact yields_pure none

theorem yields_setting {α β : Type} {read : Text → Text → Except SettingError α} {source : Text}
    {v : ArgumentValue} {next : α → Run β} {others : α → Except RunError β}
    (hnext : ∀ a, Yields (next a) (others a)) :
    Yields (textOf .setting v >>= fun t => lifted .setting (read source t) >>= next)
      (settingOf read source v >>= others) := by
  have hraw := (yields_textOf .setting v).bind fun t =>
    (yields_lifted .setting (read source t)).bind hnext
  cases v with
  | text t => exact hraw
  | truth b => exact hraw
  | absent => exact hraw

theorem yields_encoded (color : ColorChoice) (result : Text) :
    Yields
      (let shown := Display.emitted color false result
      match Text.encodeError? (fun c => !c.isSurrogate) shown with
      | some e => throw (.unencodable e (Display.isHighlighted color false))
      | none => pure shown)
      (encoded color result) := by
  unfold encoded
  dsimp only
  split
  · exact yields_throw _
  · exact yields_pure _

/-- Telling why a text is read in another format leaves the outcome alone. -/
theorem yields_retry {α : Type} {input : Format} {text : Text} {next : Unit → Run α}
    {outcome : Except RunError α} (h : Yields (next ()) outcome) :
    Yields (match Document.retryCause? input text with
      | some cause =>
          note ("input is not JSON (" ++ cause.message ++ "); retrying as TOML") >>= next
      | none => next ()) outcome := by
  split
  · exact yields_after_note h
  · exact h

theorem yields_stages (world : World) (a : Arguments) :
    Yields (stages world a) (answer world a) := by
  unfold stages answer afterSettings afterLoading afterFinding
  refine yields_setting fun input => yields_setting fun output => yields_setting fun color => ?_
  refine (yields_pathOf a.file).bind fun path => ?_
  refine (yields_lifted .input _).bind fun text => ?_
  refine yields_after_note (yields_retry ?_)
  refine (yields_lifted .failure _).bind fun document => ?_
  refine yields_after_note ?_
  refine (yields_textOf .pattern a.pattern).bind fun pattern => ?_
  refine (yields_lifted .failure _).bind fun found => ?_
  refine (yields_lifted .failure _).bind fun result => ?_
  exact yields_encoded color result

/-! ## The first stage that fails -/

/-- The settings of a run can be read. -/
structure ReadsSettings (a : Arguments) (input output : Format) (color : ColorChoice) : Prop where
  input : settingOf Setting.readFormat "input" a.input = .ok input
  output : settingOf Setting.readFormat "output" a.output = .ok output
  color : settingOf Setting.readColor "color" a.color = .ok color

/-- A text is read, in a format and for output that the settings tell. -/
inductive ReadsText (world : World) (a : Arguments) :
    Format → Format → ColorChoice → Text → Prop
  | intro {input output : Format} {color : ColorChoice} {path : Option Text} {text : Text}
      (hsettings : ReadsSettings a input output color) (hpath : pathIn a.file = .ok path)
      (hread : Input.read world.contentOf world.stdin path = .ok text) :
      ReadsText world a input output color text

/-- A document is loaded from the text that is read. -/
inductive Loads (world : World) (a : Arguments) : Format → ColorChoice → Entries → Prop
  | intro {input output : Format} {color : ColorChoice} {text : Text} {document : Entries}
      (htext : ReadsText world a input output color text)
      (hload : Document.load input text = .ok document) : Loads world a output color document

/-- The pattern selects a part of the document that is loaded. -/
inductive Finds (world : World) (a : Arguments) : Format → ColorChoice → Value → Prop
  | intro {output : Format} {color : ColorChoice} {document : Entries} {pattern : Text}
      {found : Value} (hdocument : Loads world a output color document)
      (hpattern : textIn .pattern a.pattern = .ok pattern)
      (hextract : Document.extract (.table document) pattern = .ok found) :
      Finds world a output color found

/-- All stages of a run succeed up to the text of the part that is found. -/
inductive Computes (world : World) (a : Arguments) : ColorChoice → Text → Prop
  | intro {output : Format} {color : ColorChoice} {found : Value} {result : Text}
      (hfound : Finds world a output color found)
      (hdump : Document.dump output a.pretty.isTrue found = .ok result) :
      Computes world a color result

/-- Some stage of a run fails, and all stages before it succeed. -/
inductive Fails (world : World) (a : Arguments) : RunError → Prop
  | input {e : RunError} (h : settingOf Setting.readFormat "input" a.input = .error e) :
      Fails world a e
  | output {input : Format} {e : RunError}
      (hinput : settingOf Setting.readFormat "input" a.input = .ok input)
      (h : settingOf Setting.readFormat "output" a.output = .error e) : Fails world a e
  | color {input output : Format} {e : RunError}
      (hinput : settingOf Setting.readFormat "input" a.input = .ok input)
      (houtput : settingOf Setting.readFormat "output" a.output = .ok output)
      (h : settingOf Setting.readColor "color" a.color = .error e) : Fails world a e
  | path {input output : Format} {color : ColorChoice} {e : RunError}
      (hsettings : ReadsSettings a input output color) (h : pathIn a.file = .error e) :
      Fails world a e
  | read {input output : Format} {color : ColorChoice} {path : Option Text} {e : InputError}
      (hsettings : ReadsSettings a input output color) (hpath : pathIn a.file = .ok path)
      (h : Input.read world.contentOf world.stdin path = .error e) : Fails world a (.input e)
  | load {input output : Format} {color : ColorChoice} {text : Text} {e : Failure}
      (htext : ReadsText world a input output color text)
      (h : Document.load input text = .error e) : Fails world a (.failure e)
  | misplacedPattern {output : Format} {color : ColorChoice} {document : Entries} {e : RunError}
      (hdocument : Loads world a output color document)
      (h : textIn .pattern a.pattern = .error e) : Fails world a e
  | pattern {output : Format} {color : ColorChoice} {document : Entries} {pattern : Text}
      {e : Pattern.ParseError} (hdocument : Loads world a output color document)
      (hpattern : textIn .pattern a.pattern = .ok pattern)
      (h : Pattern.parse pattern = .error e) : Fails world a (.failure e.failure)
  | navigation {output : Format} {color : ColorChoice} {document : Entries} {pattern : Text}
      {p : Pattern} {e : WalkError} (hdocument : Loads world a output color document)
      (hpattern : textIn .pattern a.pattern = .ok pattern) (hparse : Pattern.parse pattern = .ok p)
      (h : (Value.table document).navigate p = .error e) : Fails world a (.failure e.failure)
  | dump {output : Format} {color : ColorChoice} {found : Value} {e : Failure}
      (hfound : Finds world a output color found)
      (h : Document.dump output a.pretty.isTrue found = .error e) : Fails world a (.failure e)
  | encode {color : ColorChoice} {result : Text} {e : Utf8.EncodeError}
      (hresult : Computes world a color result)
      (h : Text.encodeError? (fun c => !c.isSurrogate) (Display.emitted color false result) =
        some e) : Fails world a (.unencodable e (Display.isHighlighted color false))

variable {world : World} {a : Arguments}

theorem answer_of_readsSettings {input output : Format} {color : ColorChoice}
    (h : ReadsSettings a input output color) :
    answer world a = afterSettings world a input output color := by
  rw [answer, h.input, ok_bind, h.output, ok_bind, h.color, ok_bind]

theorem answer_of_readsText {input output : Format} {color : ColorChoice} {text : Text}
    (h : ReadsText world a input output color text) :
    answer world a =
      (Document.load input text).mapError .failure >>= afterLoading a output color := by
  cases h with
  | intro hsettings hpath hread =>
      rw [answer_of_readsSettings hsettings, afterSettings, hpath, ok_bind, hread]
      rfl

theorem answer_of_loads {output : Format} {color : ColorChoice} {document : Entries}
    (h : Loads world a output color document) :
    answer world a = afterLoading a output color document := by
  cases h with
  | intro htext hload =>
      rw [answer_of_readsText htext, hload]
      rfl

theorem answer_of_finds {output : Format} {color : ColorChoice} {found : Value}
    (h : Finds world a output color found) :
    answer world a = afterFinding a output color found := by
  cases h with
  | intro hdocument hpattern hextract =>
      rw [answer_of_loads hdocument, afterLoading, hpattern, ok_bind, hextract]
      rfl

theorem answer_of_computes {color : ColorChoice} {result : Text}
    (h : Computes world a color result) : answer world a = encoded color result := by
  cases h with
  | intro hfound hdump =>
      rw [answer_of_finds hfound, afterFinding, hdump]
      rfl

theorem error_bind {ε α β : Type} (e : ε) (next : α → Except ε β) :
    (Except.error e >>= next) = .error e := rfl

/-- A run ends with the failure of the first stage that fails. -/
theorem answer_of_fails {e : RunError} (h : Fails world a e) : answer world a = .error e := by
  cases h with
  | input h => rw [answer, h, error_bind]
  | output hinput h => rw [answer, hinput, ok_bind, h, error_bind]
  | color hinput houtput h => rw [answer, hinput, ok_bind, houtput, ok_bind, h, error_bind]
  | path hsettings h => rw [answer_of_readsSettings hsettings, afterSettings, h, error_bind]
  | read hsettings hpath h =>
      rw [answer_of_readsSettings hsettings, afterSettings, hpath, ok_bind, h]
      rfl
  | load htext h =>
      rw [answer_of_readsText htext, h]
      rfl
  | misplacedPattern hdocument h => rw [answer_of_loads hdocument, afterLoading, h, error_bind]
  | pattern hdocument hpattern h =>
      rw [answer_of_loads hdocument, afterLoading, hpattern, ok_bind, Document.extract, h]
      rfl
  | navigation hdocument hpattern hparse h =>
      rw [answer_of_loads hdocument, afterLoading, hpattern, ok_bind,
        Document.extract_of_parse hparse, h]
      rfl
  | dump hfound h =>
      rw [answer_of_finds hfound, afterFinding, h]
      rfl
  | encode hresult h =>
      rw [answer_of_computes hresult, encoded, h]

/-- What is computed is written with exactly one newline at its end, whatever the choice of colour,
unless it cannot be written at all. -/
theorem Computes.answer_or_fails {color : ColorChoice} {result : Text}
    (h : Computes world a color result) :
    answer world a = .ok (result.dropEndWhile (· = .char '\n') ++ Text.ofString "\n") ∨
      ∃ e, Fails world a (.unencodable e (Display.isHighlighted color false)) := by
  have hshown : Display.emitted color false result =
      result.dropEndWhile (· = .char '\n') ++ Text.ofString "\n" := by
    cases h with
    | intro _ hdump =>
        exact Display.emitted_of_isSteady (Document.isSteady_of_dump hdump) color false
  rcases hencode : Text.encodeError? (fun c => !c.isSurrogate)
      (Display.emitted color false result) with _ | e
  · refine Or.inl ?_
    rw [answer_of_computes h, encoded, hencode, hshown]
  · exact Or.inr ⟨e, .encode h hencode⟩

/-- A run computes something, or some stage of it fails. -/
theorem computes_or_fails (world : World) (a : Arguments) :
    (∃ color result, Computes world a color result) ∨ ∃ e, Fails world a e := by
  -- Each stage either ends the run by its own constructor or hands its outcome to the next one.
  rcases hinput : settingOf Setting.readFormat "input" a.input with e | input
  · exact Or.inr ⟨e, .input hinput⟩
  rcases houtput : settingOf Setting.readFormat "output" a.output with e | output
  · exact Or.inr ⟨e, .output hinput houtput⟩
  rcases hcolor : settingOf Setting.readColor "color" a.color with e | color
  · exact Or.inr ⟨e, .color hinput houtput hcolor⟩
  have hsettings : ReadsSettings a input output color := ⟨hinput, houtput, hcolor⟩
  rcases hpath : pathIn a.file with e | path
  · exact Or.inr ⟨e, .path hsettings hpath⟩
  rcases hread : Input.read world.contentOf world.stdin path with e | text
  · exact Or.inr ⟨_, .read hsettings hpath hread⟩
  have htext : ReadsText world a input output color text := .intro hsettings hpath hread
  rcases hload : Document.load input text with e | document
  · exact Or.inr ⟨_, .load htext hload⟩
  have hdocument : Loads world a output color document := .intro htext hload
  rcases hpattern : textIn .pattern a.pattern with e | pattern
  · exact Or.inr ⟨e, .misplacedPattern hdocument hpattern⟩
  rcases hparse : Pattern.parse pattern with e | p
  · exact Or.inr ⟨_, .pattern hdocument hpattern hparse⟩
  rcases hwalk : (Value.table document).navigate p with e | found
  · exact Or.inr ⟨_, .navigation hdocument hpattern hparse hwalk⟩
  have hextract : Document.extract (.table document) pattern = .ok found := by
    rw [Document.extract_of_parse hparse, hwalk]
    rfl
  have hfound : Finds world a output color found := .intro hdocument hpattern hextract
  rcases hdump : Document.dump output a.pretty.isTrue found with e | result
  · exact Or.inr ⟨_, .dump hfound hdump⟩
  exact Or.inl ⟨color, result, .intro hfound hdump⟩

end Command

end DocumentQuery
