import DocumentQuery.Proofs.Arguments
import DocumentQuery.Proofs.Refusals

/-!
# Settings from texts

The text of a setting is either taken or refused, and a refusal names the source of the text and
quotes it.

* `meets_readChoice` — a format or a choice of colour is taken by its name.
* `meets_readLevel` — levels are taken by their numbers and by their names.
* `taken_or_refused` — the settings of an environment are those of its variables, or the first
  variable that is not understood is told.

The refusal is missed for one kind of text only.  Whether a text is the number of a level is
decided by digits of any kind, but a number is made of decimal digits only, and not of too many of
them.  What passes for a number and is none, `IsUnreadable`, ends with an error that does not say
where the text comes from.
-/

namespace DocumentQuery

/-- The error is about the text of a setting: it tells where the text comes from and then the text
itself. -/
structure SettingError.Refuses (e : SettingError) (source raw : Text) : Prop where
  isRefusal : (∃ allowed, e = .noneOf source allowed raw) ∨ e = .noLevel source raw
  begins : source <+: e.message
  ends : raw.quoted <:+ e.message

namespace SettingError

theorem refuses_noneOf (source raw : Text) (allowed : List Text) :
    (noneOf source allowed raw).Refuses source raw where
  isRefusal := Or.inl ⟨allowed, rfl⟩
  begins := by
    simp only [message, List.append_assoc]
    exact List.prefix_append source _
  ends := List.suffix_append _ _

theorem refuses_noLevel (source raw : Text) : (noLevel source raw).Refuses source raw where
  isRefusal := Or.inr rfl
  begins := by
    simp only [message, List.append_assoc]
    exact List.prefix_append source _
  ends := List.suffix_append _ _

theorem not_refuses_noNumeral (value source raw : Text) :
    ¬(noNumeral value).Refuses source raw := by
  rintro ⟨⟨_, h⟩ | h, -, -⟩ <;> cases h

theorem not_refuses_limit (e : Numeral.LimitError) (source raw : Text) :
    ¬(limit e).Refuses source raw := by
  rintro ⟨⟨_, h⟩ | h, -, -⟩ <;> cases h

end SettingError

namespace Setting

/-! ## Formats and colours -/

/-- The names of the formats. -/
def formatNames : List Text :=
  ["toml", "json"]

/-- The names of the choices of colour. -/
def colorNames : List Text :=
  ["auto", "always", "never"]

theorem map_name_format : Format.all.map Format.name = formatNames := rfl

theorem map_name_color : ColorChoice.all.map ColorChoice.name = colorNames := rfl

theorem mem_formatNames (format : Format) : format.name ∈ formatNames := by
  cases format <;> decide +kernel

theorem mem_colorNames (choice : ColorChoice) : choice.name ∈ colorNames := by
  cases choice <;> decide +kernel

/-- A choice is read by its name, whatever the case of its letters and the blanks around it.  A text
that holds none of the names is refused. -/
theorem meets_readChoice {α : Type} {all : List α} {nameOf : α → Text} {names : List Text}
    (hnames : all.map nameOf = names) (source raw : Text) :
    Meets (fun a => nameOf a = raw.trim.lowerCase ∧ raw.trim.lowerCase ∈ names)
      (fun e => raw.trim.lowerCase ∉ names ∧ e.Refuses source raw)
      (readChoice all nameOf source raw) := by
  subst hnames
  unfold readChoice
  split
  · rename_i a hfound
    have hname : nameOf a = raw.trim.lowerCase := by simpa using List.find?_some hfound
    exact .ok ⟨hname, List.mem_map.mpr ⟨a, List.mem_of_find?_eq_some hfound, hname⟩⟩
  · rename_i hnone
    refine .error ⟨?_, SettingError.refuses_noneOf source raw _⟩
    rintro hmem
    obtain ⟨a, ha, hname⟩ := List.mem_map.mp hmem
    simp only [List.find?_eq_none, decide_eq_true_eq] at hnone
    exact hnone a ha hname

/-! ## Levels -/

/-- The text consists of decimal digits, of whatever scripts, and these are their values. -/
def DigitsOf (value : Text) (digits : List Nat) : Prop :=
  List.Forall₂ (fun c digit => CodePoint.decimalValue? c = some digit) value digits

/-- The level that a text stands for: the number that its decimal digits write, the most significant
first, or the level of the name that it is. -/
inductive LevelOf (value : Text) : Nat → Prop
  | number {digits : List Nat} (hne : value ≠ []) (hdigits : DigitsOf value digits)
      (hlength : value.length ≤ Numeral.maxDigits) : LevelOf value (Nat.ofDigits 10 digits.reverse)
  | name {level : Nat} (h : (value, level) ∈ levelNames) : LevelOf value level

/-- A text that passes for a number and is none: it consists of digits, but one of them is not
decimal, or there are too many. -/
structure IsUnreadable (value : Text) : Prop where
  ne_nil : value ≠ []
  digits : ∀ c ∈ value, c.isDigitOfAnyKind = true
  unread : (∃ c ∈ value, c.decimalValue? = none) ∨ Numeral.maxDigits < value.length

theorem digitsOf_of_mapM {value : Text} {digits : List Nat}
    (h : value.mapM CodePoint.decimalValue? = some digits) : DigitsOf value digits := by
  induction value generalizing digits with
  | nil =>
      cases h
      exact .nil
  | cons c value ih =>
      rw [List.mapM_cons] at h
      obtain ⟨digit, hdigit, h⟩ := Option.bind_eq_some_iff.mp h
      obtain ⟨others, hothers, h⟩ := Option.bind_eq_some_iff.mp h
      cases h
      exact .cons hdigit (ih hothers)

theorem exists_of_mapM_eq_none {value : Text} (h : value.mapM CodePoint.decimalValue? = none) :
    ∃ c ∈ value, c.decimalValue? = none := by
  induction value with
  | nil => cases h
  | cons c value ih =>
      rw [List.mapM_cons] at h
      cases hdigit : c.decimalValue? with
      | none => exact ⟨c, List.mem_cons_self, hdigit⟩
      | some digit =>
          cases hothers : value.mapM CodePoint.decimalValue? with
          | some others => simp [hdigit, hothers] at h
          | none =>
              obtain ⟨d, hmem, hd⟩ := ih hothers
              exact ⟨d, List.mem_cons_of_mem c hmem, hd⟩

theorem DigitsOf.isSome {value : Text} {digits : List Nat} (h : DigitsOf value digits) :
    ∀ c ∈ value, c.decimalValue?.isSome = true := by
  induction h with
  | nil => nofun
  | cons hdigit _ ih => exact List.forall_mem_cons.mpr ⟨by rw [hdigit]; rfl, ih⟩

theorem DigitsOf.isDigitOfAnyKind {value : Text} {digits : List Nat} (h : DigitsOf value digits) :
    ∀ c ∈ value, c.isDigitOfAnyKind = true := by
  intro c hc
  rw [CodePoint.isDigitOfAnyKind, h.isSome c hc, Bool.true_or]

/-- No name of a level passes for a number. -/
theorem exists_not_digit_of_mem_levelNames {value : Text} {level : Nat}
    (h : (value, level) ∈ levelNames) : ∃ c ∈ value, c.isDigitOfAnyKind = false := by
  have hall : ∀ entry ∈ levelNames, ∃ c ∈ entry.1, c.isDigitOfAnyKind = false := by decide +kernel
  exact hall (value, level) h

/-- A text that passes for a number and is none stands for no level. -/
theorem IsUnreadable.not_levelOf {value : Text} (h : IsUnreadable value) (level : Nat) :
    ¬LevelOf value level := by
  rintro (⟨-, hdigits, hlength⟩ | hname)
  · rcases h.unread with ⟨c, hc, hnone⟩ | hlong
    · have hsome := hdigits.isSome c hc
      rw [hnone] at hsome
      cases hsome
    · omega
  · obtain ⟨c, hc, hother⟩ := exists_not_digit_of_mem_levelNames hname
    rw [h.digits c hc] at hother
    cases hother

/-- Where digits of some kind stand, a number is read or the text is to blame, and the error never
tells where the text comes from. -/
theorem meets_readDigits {value : Text} (hne : value ≠ [])
    (hdigits : ∀ c ∈ value, c.isDigitOfAnyKind = true) :
    Meets (LevelOf value) (fun e => IsUnreadable value ∧ ∀ source raw, ¬e.Refuses source raw)
      (readDigits value) := by
  unfold readDigits
  dsimp only
  have hcount : (value.takeWhile fun c => c.decimalValue?.isSome).length ≤ value.length :=
    (List.takeWhile_prefix _).length_le
  split
  · rename_i hlong
    exact .error ⟨⟨hne, hdigits, Or.inr (Nat.lt_of_lt_of_le hlong hcount)⟩,
      SettingError.not_refuses_limit _⟩
  · rename_i hshort
    split
    · rename_i digits hmapM
      have hvalue : DigitsOf value digits := digitsOf_of_mapM hmapM
      -- All digits are decimal, so all of them have been counted.
      rw [List.takeWhile_eq_self_iff.mpr hvalue.isSome, Nat.not_lt] at hshort
      have hnumber : digits.foldl (fun n digit => 10 * n + digit) 0 =
          Nat.ofDigits 10 digits.reverse := by
        rw [Nat.ofDigits_eq_foldr, List.foldr_reverse]
        simp only [Nat.cast_id, Nat.add_comm]
      rw [hnumber]
      exact .ok (.number hne hvalue hshort)
    · rename_i hmapM
      exact .error ⟨⟨hne, hdigits, Or.inl (exists_of_mapM_eq_none hmapM)⟩,
        SettingError.not_refuses_noNumeral _⟩

/-- A level is read by its number or by its name, whatever the case of its letters and the blanks
around it.  A text that stands for no level is refused unless it passes for a number. -/
theorem meets_readLevel (source raw : Text) :
    Meets (LevelOf raw.trim.upperCase)
      (fun e => (∀ level, ¬LevelOf raw.trim.upperCase level) ∧
        (e.Refuses source raw ↔ ¬IsUnreadable raw.trim.upperCase))
      (readLevel source raw) := by
  unfold readLevel
  generalize raw.trim.upperCase = value
  dsimp only
  split
  · rename_i hdigits
    simp only [Bool.and_eq_true, Bool.not_eq_true', List.isEmpty_eq_false_iff, List.all_eq_true]
      at hdigits
    refine (meets_readDigits hdigits.1 hdigits.2).imp_error ?_
    rintro e ⟨hunread, hother⟩
    exact ⟨hunread.not_levelOf, iff_of_false (hother source raw) (not_not_intro hunread)⟩
  · rename_i hdigits
    -- What does not pass for a number is no number, so the text can only be a name.
    have hnumber : value ≠ [] → ¬∀ c ∈ value, c.isDigitOfAnyKind = true := by
      simpa only [Bool.and_eq_true, Bool.not_eq_true', List.isEmpty_eq_false_iff, List.all_eq_true,
        not_and] using hdigits
    split
    · rename_i level hlookup
      obtain ⟨before, after, heq, -⟩ := List.lookup_eq_some_iff.mp hlookup
      exact .ok (.name (heq ▸ List.mem_append_right before List.mem_cons_self))
    · rename_i hlookup
      refine .error ⟨?_, iff_of_true (SettingError.refuses_noLevel source raw)
        fun h => hnumber h.ne_nil h.digits⟩
      rintro level (⟨hne, hvalue, -⟩ | hname)
      · exact hnumber hne hvalue.isDigitOfAnyKind
      · exact bne_iff_ne.mp (List.lookup_eq_none_iff.mp hlookup _ hname) rfl

/-! ## Variables of the environment -/

/-- A variable that a setting is read from, with the texts that are taken for the setting. -/
structure Variable where
  name : Text
  Takes : Text → Prop

namespace Variable

def inputFormat : Variable :=
  ⟨"TQ_INPUT_FORMAT", fun raw => raw.trim.lowerCase ∈ formatNames⟩

def outputFormat : Variable :=
  ⟨"TQ_OUTPUT_FORMAT", fun raw => raw.trim.lowerCase ∈ formatNames⟩

def color : Variable :=
  ⟨"TQ_COLOR", fun raw => raw.trim.lowerCase ∈ colorNames⟩

def logLevel : Variable :=
  ⟨"TQ_LOG_LEVEL", fun raw => ∃ level, LevelOf raw.trim.upperCase level⟩

/-- The variables in the order in which they are read. -/
def all : List Variable :=
  [inputFormat, outputFormat, color, logLevel]

/-- The variable is not set, or its text is taken. -/
def IsFine (environment : Text → Option Text) (v : Variable) : Prop :=
  ∀ raw, environment v.name = some raw → v.Takes raw

/-- The variable is set to a text that is not taken, and all variables before it are fine. -/
structure IsFirstRefused (environment : Text → Option Text) (v : Variable) (raw : Text) : Prop where
  isSet : environment v.name = some raw
  notTaken : ¬v.Takes raw
  isFirst : ∃ before after, all = before ++ v :: after ∧ ∀ w ∈ before, w.IsFine environment

/-- The text of the variable passes for the number of a level and is none. -/
def PassesForNumber (v : Variable) (raw : Text) : Prop :=
  v.name = logLevel.name ∧ IsUnreadable raw.trim.upperCase

/-- The error is about the first variable that is not fine: it refuses its text, unless that passes
for a number. -/
def IsBlamed (environment : Text → Option Text) (e : SettingError) : Prop :=
  ∃ (v : Variable) (raw : Text), v.IsFirstRefused environment raw ∧
    (e.Refuses v.name raw ↔ ¬v.PassesForNumber raw)

/-- A variable is read: its setting satisfies `P` if its text is taken, and otherwise the error
refuses the text, unless that passes for a number. -/
def Reads {α : Type} (environment : Text → Option Text) (v : Variable) (P : α → Prop)
    (outcome : Except SettingError α) : Prop :=
  Meets (fun a => P a ∧ v.IsFine environment)
    (fun e => ∃ raw, environment v.name = some raw ∧ ¬v.Takes raw ∧
      (e.Refuses v.name raw ↔ ¬v.PassesForNumber raw)) outcome

/-- Variables are read one after the other, and the first that is not fine ends it. -/
theorem Reads.bind {α β : Type} {environment : Text → Option Text} {v : Variable} {P : α → Prop}
    {P' : β → Prop} {outcome : Except SettingError α} {next : α → Except SettingError β}
    {before after : List Variable} (h : v.Reads environment P outcome)
    (hall : all = before ++ v :: after) (hbefore : ∀ w ∈ before, w.IsFine environment)
    (hnext : ∀ a, P a → (∀ w ∈ before ++ [v], w.IsFine environment) →
      Meets P' (IsBlamed environment) (next a)) :
    Meets P' (IsBlamed environment) (outcome >>= next) := by
  refine Meets.bind (h.imp_error ?_) ?_
  · rintro e ⟨raw, hset, hnot, hrefuses⟩
    exact ⟨v, raw, ⟨hset, hnot, before, after, hall, hbefore⟩, hrefuses⟩
  · rintro a ⟨ha, hfine⟩
    exact hnext a ha (List.forall_mem_append.mpr ⟨hbefore, List.forall_mem_singleton.mpr hfine⟩)

end Variable

/-- The reading of a level as the settings hold it. -/
theorem meets_readLevel_ofNat (source raw : Text) :
    Meets (fun i : Int => ∃ level : Nat, LevelOf raw.trim.upperCase level ∧ i = level)
      (fun e => (∀ level, ¬LevelOf raw.trim.upperCase level) ∧
        (e.Refuses source raw ↔ ¬IsUnreadable raw.trim.upperCase))
      ((readLevel source raw).map Int.ofNat) := by
  cases h : readLevel source raw with
  | ok level => exact .ok ⟨level, (meets_readLevel source raw).of_eq_ok h, rfl⟩
  | error e => exact .error ((meets_readLevel source raw).of_eq_error h)

end Setting

open Setting

namespace Settings

/-- Both formats have names of formats, the colour has that of a choice of colour, and the level is
not negative. -/
structure IsValid (s : Settings) : Prop where
  inputFormat : s.inputFormat ∈ formatNames
  outputFormat : s.outputFormat ∈ formatNames
  color : s.color ∈ colorNames
  logLevel : 0 ≤ s.logLevel

/-- The level that its variable gives, or the default if the variable is not set. -/
def IsLevelIn (environment : Text → Option Text) (i : Int) : Prop :=
  (∀ raw, environment Variable.logLevel.name = some raw →
      ∃ level : Nat, LevelOf raw.trim.upperCase level ∧ i = level) ∧
    (environment Variable.logLevel.name = none → i = default.logLevel)

/-- Each setting is the one that its variable gives, or its default if the variable is not set. -/
structure GivenBy (environment : Text → Option Text) (s : Settings) : Prop where
  inputFormat : s.inputFormat = settingIn environment Variable.inputFormat.name "toml"
  outputFormat : s.outputFormat = settingIn environment Variable.outputFormat.name "toml"
  color : s.color = settingIn environment Variable.color.name "auto"
  logLevel : IsLevelIn environment s.logLevel

/-- What the text of a variable meets when it is read is met when the variable is read. -/
theorem meets_fromVariable {α : Type} {read : Text → Text → Except SettingError α} {unset : α}
    {name : Text} {environment : Text → Option Text} {P : Text → α → Prop}
    {Q : Text → SettingError → Prop} (hread : ∀ raw, Meets (P raw) (Q raw) (read name raw)) :
    Meets
      (fun a => (∀ raw, environment name = some raw → P raw a) ∧
        (environment name = none → a = unset))
      (fun e => ∃ raw, environment name = some raw ∧ Q raw e)
      (fromVariable read unset name environment) := by
  unfold fromVariable
  cases henv : environment name with
  | none => exact .ok ⟨nofun, fun _ => rfl⟩
  | some raw =>
      dsimp only
      cases h : read name raw with
      | ok a =>
          refine .ok ⟨?_, nofun⟩
          rintro _ ⟨⟩
          exact (hread raw).of_eq_ok h
      | error e => exact .error ⟨raw, rfl, (hread raw).of_eq_error h⟩

section

variable {environment : Text → Option Text}

/-- A variable whose setting has a name. -/
theorem reads_name {α : Type} {nameOf : α → Text} {names : List Text}
    {read : Text → Text → Except SettingError α} {unset : α} {v : Variable}
    (htakes : v.Takes = fun raw => raw.trim.lowerCase ∈ names)
    (hother : v.name ≠ Variable.logLevel.name)
    (hread : ∀ source raw,
      Meets (fun a => nameOf a = raw.trim.lowerCase ∧ raw.trim.lowerCase ∈ names)
        (fun e => raw.trim.lowerCase ∉ names ∧ e.Refuses source raw) (read source raw)) :
    v.Reads environment (fun a => nameOf a = settingIn environment v.name (nameOf unset))
      (fromVariable read unset v.name environment) := by
  refine ((meets_fromVariable (hread v.name)).imp_error ?_).imp_ok ?_
  · rintro e ⟨raw, henv, hnot, hrefuses⟩
    exact ⟨raw, henv, by rwa [htakes], iff_of_true hrefuses fun h => hother h.1⟩
  · rintro a ⟨hset, hunset⟩
    constructor
    · unfold settingIn
      cases henv : environment v.name with
      | none => rw [hunset henv]
      | some raw => exact (hset raw henv).1
    · intro raw henv
      rw [htakes]
      exact (hset raw henv).2

theorem IsLevelIn.nonneg {i : Int} (h : IsLevelIn environment i) : 0 ≤ i := by
  cases henv : environment Variable.logLevel.name with
  | none =>
      rw [h.2 henv]
      exact Int.natCast_nonneg 30
  | some raw =>
      obtain ⟨level, -, rfl⟩ := h.1 raw henv
      exact Int.natCast_nonneg level

theorem reads_logLevel :
    Variable.logLevel.Reads environment (IsLevelIn environment)
      (fromVariable (fun source raw => (readLevel source raw).map Int.ofNat) default.logLevel
        Variable.logLevel.name environment) := by
  refine ((meets_fromVariable (meets_readLevel_ofNat _)).imp_error ?_).imp_ok ?_
  · rintro e ⟨raw, henv, hnone, hrefuses⟩
    refine ⟨raw, henv, fun ⟨level, hlevel⟩ => hnone level hlevel, ?_⟩
    rw [hrefuses, Variable.PassesForNumber, and_iff_right rfl]
  · rintro i ⟨hset, hunset⟩
    refine ⟨⟨hset, hunset⟩, fun raw henv => ?_⟩
    obtain ⟨level, hlevel, -⟩ := hset raw henv
    exact ⟨level, hlevel⟩

end

/-- Where all variables are fine they give valid settings.  Otherwise the first that is not is
refused, unless its text passes for a number. -/
theorem meets_ofEnvironment (environment : Text → Option Text) :
    Meets
      (fun s => s.IsValid ∧ s.GivenBy environment ∧ ∀ v ∈ Variable.all, v.IsFine environment)
      (Variable.IsBlamed environment) (ofEnvironment environment) := by
  have hformat := meets_readChoice map_name_format
  have hcolor := meets_readChoice map_name_color
  unfold ofEnvironment
  refine (reads_name (v := .inputFormat) rfl (by decide +kernel) hformat).bind
    (List.nil_append _).symm nofun fun input hinput hfine => ?_
  refine (reads_name (v := .outputFormat) rfl (by decide +kernel) hformat).bind rfl hfine
    fun output houtput hfine => ?_
  refine (reads_name (v := .color) rfl (by decide +kernel) hcolor).bind rfl hfine
    fun color hcolor hfine => ?_
  refine reads_logLevel.bind rfl hfine fun level hlevel hfine => ?_
  exact .ok ⟨⟨mem_formatNames input, mem_formatNames output, mem_colorNames color, hlevel.nonneg⟩,
    ⟨hinput, houtput, hcolor, hlevel⟩, hfine⟩

/-- **Settings are taken or refused.**  A format and a choice of colour are taken by their names, a
level by its number or its name.  A refusal names the source of the text and quotes the text; the
one exception is a text that passes for the number of a level.  The settings of an environment are
valid and given by its variables if all of them are taken, and otherwise the first variable that is
not is refused in this way. -/
theorem taken_or_refused (source raw : Text) (environment : Text → Option Text) :
    Meets (fun format => format.name = raw.trim.lowerCase ∧ raw.trim.lowerCase ∈ formatNames)
        (fun e => raw.trim.lowerCase ∉ formatNames ∧ e.Refuses source raw)
        (readFormat source raw) ∧
      Meets (fun choice => choice.name = raw.trim.lowerCase ∧ raw.trim.lowerCase ∈ colorNames)
        (fun e => raw.trim.lowerCase ∉ colorNames ∧ e.Refuses source raw)
        (readColor source raw) ∧
      Meets (LevelOf raw.trim.upperCase)
        (fun e => (∀ level, ¬LevelOf raw.trim.upperCase level) ∧
          (e.Refuses source raw ↔ ¬IsUnreadable raw.trim.upperCase))
        (readLevel source raw) ∧
      Meets
        (fun s => s.IsValid ∧ s.GivenBy environment ∧ ∀ v ∈ Variable.all, v.IsFine environment)
        (Variable.IsBlamed environment) (ofEnvironment environment) :=
  ⟨meets_readChoice map_name_format source raw, meets_readChoice map_name_color source raw,
    meets_readLevel source raw, meets_ofEnvironment environment⟩

/-- A superscript passes for the number of a level and is none: the error does not name the
variable. -/
theorem not_refused_superscript :
    ∃ e : SettingError,
      ofEnvironment (fun name => if name = "TQ_LOG_LEVEL" then some "²" else none) = .error e ∧
        readLevel "TQ_LOG_LEVEL" "²" = .error e ∧
        (∀ level, ¬LevelOf (Text.ofString "²").trim.upperCase level) ∧
        ¬e.Refuses "TQ_LOG_LEVEL" "²" := by
  refine ⟨.noNumeral "²", by decide +kernel, by decide +kernel, ?_,
    SettingError.not_refuses_noNumeral _ _ _⟩
  have hunread : IsUnreadable (Text.ofString "²").trim.upperCase :=
    ⟨by decide +kernel, by decide +kernel, Or.inl (by decide +kernel)⟩
  exact hunread.not_levelOf

end Settings

end DocumentQuery
