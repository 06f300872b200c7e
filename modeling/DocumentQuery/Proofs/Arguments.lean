import DocumentQuery.Arguments
import DocumentQuery.Proofs.Reading

/-!
# The values in force

What a parameter stands for is settled by three sources: what the command line gives for it, the
variable of the environment that it takes its default from, and the text that stands for a variable
that is not set.  `InForce` states this without saying how a value is found; on a command line that
is accepted, each parameter has exactly one such value, the one that is found.
-/

namespace DocumentQuery

/-! ## Defaults from the environment -/

theorem Setting.name_of_readChoice {α : Type} {all : List α} {nameOf : α → Text}
    {source raw : Text} {choice : α} (h : readChoice all nameOf source raw = .ok choice) :
    nameOf choice = raw.trim.lowerCase := by
  unfold readChoice at h
  split at h
  · rename_i hfound
    cases h
    simpa using List.find?_some hfound
  · cases h

/-- The text of a setting in an environment: that of a variable, without blanks around it and in
small letters, or the given one if the variable is not set. -/
def settingIn (environment : Text → Option Text) (name unset : Text) : Text :=
  match environment name with
  | some raw => raw.trim.lowerCase
  | none => unset

/-- A setting that is read from a variable has the name that the variable gives. -/
theorem Settings.name_of_fromVariable {α : Type} {nameOf : α → Text}
    {read : Text → Text → Except SettingError α} {unset value : α} {name : Text}
    {environment : Text → Option Text}
    (hread : ∀ source raw value, read source raw = .ok value → nameOf value = raw.trim.lowerCase)
    (h : fromVariable read unset name environment = .ok value) :
    nameOf value = settingIn environment name (nameOf unset) := by
  unfold fromVariable at h
  unfold settingIn
  cases hraw : environment name with
  | none =>
      rw [hraw] at h
      cases h
      rfl
  | some raw =>
      rw [hraw] at h
      exact hread name raw value h

/-! ## Names of parameters -/

namespace Parameter

theorem ofName?_name (p : Parameter) : ofName? p.name = some p := by
  cases p <;> decide +kernel

theorem name_of_ofName? {name : Text} {p : Parameter} (h : ofName? name = some p) :
    p.name = name := by
  simpa using List.find?_some h

theorem name_injective {p q : Parameter} (h : p.name = q.name) : p = q := by
  have hp := ofName?_name p
  rw [h, ofName?_name] at hp
  exact (Option.some.inj hp).symm

end Parameter

namespace Arguments

/-! ## Defaults -/

/-- The default of a parameter in an environment; there is none for the pattern. -/
def defaultIn? (environment : Text → Option Text) : Parameter → Option ArgumentValue
  | .pattern => none
  | .file => some .absent
  | .input => some (.text (settingIn environment "TQ_INPUT_FORMAT" Format.toml.name))
  | .output => some (.text (settingIn environment "TQ_OUTPUT_FORMAT" Format.toml.name))
  | .pretty => some (.truth false)
  | .color => some (.text (settingIn environment "TQ_COLOR" ColorChoice.auto.name))

theorem default?_eq {environment : Text → Option Text} {settings : Settings}
    (h : Settings.ofEnvironment environment = .ok settings) (p : Parameter) :
    default? settings p = defaultIn? environment p := by
  obtain ⟨input, hinput, h⟩ := exists_of_bind_eq_ok h
  obtain ⟨output, houtput, h⟩ := exists_of_bind_eq_ok h
  obtain ⟨color, hcolor, h⟩ := exists_of_bind_eq_ok h
  obtain ⟨level, -, h⟩ := exists_of_bind_eq_ok h
  cases h
  have hformat (source raw format) (h : Setting.readFormat source raw = .ok format) :
      format.name = raw.trim.lowerCase := Setting.name_of_readChoice h
  have hchoice (source raw choice) (h : Setting.readColor source raw = .ok choice) :
      choice.name = raw.trim.lowerCase := Setting.name_of_readChoice h
  have hsame {t u : Text} (h : t = u) : some (ArgumentValue.text t) = some (.text u) :=
    congrArg (some ∘ ArgumentValue.text) h
  cases p with
  | pattern => rfl
  | file => rfl
  | pretty => rfl
  | input => exact hsame (Settings.name_of_fromVariable hformat hinput)
  | output => exact hsame (Settings.name_of_fromVariable hformat houtput)
  | color => exact hsame (Settings.name_of_fromVariable hchoice hcolor)

/-! ## Values that are stated -/

/-- The command line states the value of a parameter: it gives a text for it, or says that the value
is the default, or that it is the value of another parameter. -/
inductive Stated (environment : Text → Option Text) (given : List (Text × Given)) :
    Parameter → ArgumentValue → Prop
  | text {p : Parameter} {t : Text} {v : ArgumentValue} (h : givenFor? given p = some (.text t))
      (hvalue : valueOf? p t = some v) : Stated environment given p v
  | itself {p : Parameter} {v : ArgumentValue} (h : givenFor? given p = some (.sameAs p.name))
      (hdefault : defaultIn? environment p = some v) : Stated environment given p v
  | other {p q : Parameter} {v : ArgumentValue} (h : givenFor? given p = some (.sameAs q.name))
      (hne : q ≠ p) (hvalue : Stated environment given q v) : Stated environment given p v

/-- The value of a parameter is the one that the command line states, or the default if it gives
nothing for the parameter. -/
inductive InForce (environment : Text → Option Text) (given : List (Text × Given)) :
    Parameter → ArgumentValue → Prop
  | stated {p : Parameter} {v : ArgumentValue} (h : Stated environment given p v) :
      InForce environment given p v
  | default {p : Parameter} {v : ArgumentValue} (h : givenFor? given p = none)
      (hdefault : defaultIn? environment p = some v) : InForce environment given p v

variable {environment : Text → Option Text} {given : List (Text × Given)}

theorem Stated.unique {p : Parameter} {v w : ArgumentValue} (h : Stated environment given p v)
    (hother : Stated environment given p w) : v = w := by
  induction h with
  | text hgiven hvalue =>
      cases hother with
      | text hgiven' hvalue' =>
          cases hgiven.symm.trans hgiven'
          exact Option.some.inj (hvalue.symm.trans hvalue')
      | itself hgiven' _ => cases hgiven.symm.trans hgiven'
      | other hgiven' _ _ => cases hgiven.symm.trans hgiven'
  | itself hgiven hdefault =>
      cases hother with
      | text hgiven' _ => cases hgiven.symm.trans hgiven'
      | itself _ hdefault' => exact Option.some.inj (hdefault.symm.trans hdefault')
      | other hgiven' hne _ =>
          have hname := Given.sameAs.inj (Option.some.inj (hgiven'.symm.trans hgiven))
          exact absurd (Parameter.name_injective hname) hne
  | other hgiven hne _ ih =>
      cases hother with
      | text hgiven' _ => cases hgiven.symm.trans hgiven'
      | itself hgiven' _ =>
          have hname := Given.sameAs.inj (Option.some.inj (hgiven.symm.trans hgiven'))
          exact absurd (Parameter.name_injective hname) hne
      | other hgiven' _ hvalue =>
          have hname := Given.sameAs.inj (Option.some.inj (hgiven.symm.trans hgiven'))
          cases Parameter.name_injective hname
          exact ih hvalue

theorem Stated.isGiven {p : Parameter} {v : ArgumentValue} (h : Stated environment given p v) :
    givenFor? given p ≠ none := by
  cases h with
  | text h _ => simp [h]
  | itself h _ => simp [h]
  | other h _ _ => simp [h]

/-- No parameter has two values in force. -/
theorem InForce.unique {p : Parameter} {v w : ArgumentValue} (h : InForce environment given p v)
    (hother : InForce environment given p w) : v = w := by
  cases h with
  | stated h =>
      cases hother with
      | stated hother => exact h.unique hother
      | default hnone _ => exact absurd hnone h.isGiven
  | default hnone hdefault =>
      cases hother with
      | stated hother => exact absurd hnone hother.isGiven
      | default _ hdefault' => exact Option.some.inj (hdefault.symm.trans hdefault')

/-! ## Values that are found -/

section

variable {settings : Settings} {p : Parameter} {v : ArgumentValue}

/-- Where a parameter has its value from, read back from what is given for it. -/
theorem origin?_cases {origin : Origin} (h : origin? settings given p = some origin) :
    (∃ t v, givenFor? given p = some (.text t) ∧ valueOf? p t = some v ∧ origin = .value v) ∨
      (∃ v, givenFor? given p = some (.sameAs p.name) ∧ default? settings p = some v ∧
        origin = .value v) ∨
      (∃ v, givenFor? given p = none ∧ default? settings p = some v ∧ origin = .omitted v) ∨
      ∃ name target, givenFor? given p = some (.sameAs name) ∧ name ≠ p.name ∧
        Target.ofName? name = some target ∧ origin = .target target := by
  unfold origin? at h
  cases hgiven : givenFor? given p with
  | none =>
      rw [hgiven] at h
      obtain ⟨v, hv, rfl⟩ := Option.map_eq_some_iff.mp h
      exact Or.inr (Or.inr (Or.inl ⟨v, rfl, hv, rfl⟩))
  | some found =>
      rw [hgiven] at h
      cases found with
      | text t =>
          obtain ⟨v, hv, rfl⟩ := Option.map_eq_some_iff.mp h
          exact Or.inl ⟨t, v, rfl, hv, rfl⟩
      | sameAs name =>
          by_cases hself : name = p.name
          · subst hself
            dsimp only at h
            rw [if_pos rfl] at h
            obtain ⟨v, hv, rfl⟩ := Option.map_eq_some_iff.mp h
            exact Or.inr (Or.inl ⟨v, rfl, hv, rfl⟩)
          · dsimp only at h
            rw [if_neg hself] at h
            obtain ⟨target, htarget, rfl⟩ := Option.map_eq_some_iff.mp h
            exact Or.inr (Or.inr (Or.inr ⟨name, target, rfl, hself, htarget, rfl⟩))

theorem name_of_target {name : Text} {q : Parameter}
    (h : Target.ofName? name = some (.parameter q)) : q.name = name := by
  unfold Target.ofName? at h
  split at h
  · cases h
  · obtain ⟨found, hfound, heq⟩ := Option.map_eq_some_iff.mp h
    cases heq
    exact Parameter.name_of_ofName? hfound

variable (hsettings : Settings.ofEnvironment environment = .ok settings)
include hsettings

theorem stated_of_origin? (h : origin? settings given p = some (.value v)) :
    Stated environment given p v := by
  rcases origin?_cases h with ⟨t, w, hgiven, hvalue, heq⟩ | ⟨w, hgiven, hdefault, heq⟩ |
    ⟨w, _, _, heq⟩ | ⟨_, _, _, _, _, heq⟩
  · cases heq
    exact .text hgiven hvalue
  · cases heq
    exact .itself hgiven (default?_eq hsettings p ▸ hdefault)
  · cases heq
  · cases heq

theorem inForce_of_omitted (h : origin? settings given p = some (.omitted v)) :
    InForce environment given p v := by
  rcases origin?_cases h with ⟨_, _, _, _, heq⟩ | ⟨_, _, _, heq⟩ | ⟨w, hgiven, hdefault, heq⟩ |
    ⟨_, _, _, _, _, heq⟩
  · cases heq
  · cases heq
  · cases heq
    exact .default hgiven (default?_eq hsettings p ▸ hdefault)
  · cases heq

/-- A value that is found at the end of a way is stated; without a way it may be the default. -/
theorem stated_or_default_of_resolve {fuel : Nat} {path : List Parameter}
    (h : resolve (origin? settings given) fuel path p = .ok v) :
    Stated environment given p v ∨ path = [] ∧ InForce environment given p v := by
  fun_induction resolve (origin? settings given) fuel path p with
  | case1 => cases h
  | case2 _ _ _ _ w horigin =>
      cases h
      exact Or.inl (stated_of_origin? hsettings horigin)
  | case3 _ path _ _ w horigin hempty =>
      cases h
      exact Or.inr ⟨List.isEmpty_iff.mp hempty, inForce_of_omitted hsettings horigin⟩
  | case4 => cases h
  | case5 => cases h
  | case6 path p _ fuel q horigin ih =>
      -- The way goes on, so what it leads to is stated.
      have hq := (ih h).resolve_right fun hnone => List.concat_ne_nil p path hnone.1
      rcases origin?_cases horigin with ⟨_, _, _, _, heq⟩ | ⟨_, _, _, heq⟩ | ⟨_, _, _, heq⟩ |
        ⟨name, target, hgiven, hne, htarget, heq⟩
      · cases heq
      · cases heq
      · cases heq
      · cases heq
        have hname := name_of_target htarget
        subst hname
        exact Or.inl (.other hgiven (fun hsame => hne (congrArg Parameter.name hsame)) hq)
  | case7 => cases h

theorem inForce_of_resolve {fuel : Nat}
    (h : resolve (origin? settings given) fuel [] p = .ok v) : InForce environment given p v := by
  rcases stated_or_default_of_resolve hsettings h with hstated | ⟨-, hforce⟩
  · exact .stated hstated
  · exact hforce

end

/-- The value of a parameter among arguments. -/
def value (arguments : Arguments) : Parameter → ArgumentValue
  | .pattern => arguments.pattern
  | .file => arguments.file
  | .input => arguments.input
  | .output => arguments.output
  | .pretty => arguments.pretty
  | .color => arguments.color

/-- The values of accepted arguments are the values in force. -/
theorem inForce_iff {settings : Settings} {arguments : Arguments}
    (hsettings : Settings.ofEnvironment environment = .ok settings)
    (h : ofGiven settings given = .ok arguments) (p : Parameter) (v : ArgumentValue) :
    InForce environment given p v ↔ v = arguments.value p := by
  have hfound : InForce environment given p (arguments.value p) := by
    obtain ⟨_, -, h⟩ := exists_of_bind_eq_ok h
    obtain ⟨pattern, hpattern, h⟩ := exists_of_bind_eq_ok h
    obtain ⟨file, hfile, h⟩ := exists_of_bind_eq_ok h
    obtain ⟨input, hinput, h⟩ := exists_of_bind_eq_ok h
    obtain ⟨output, houtput, h⟩ := exists_of_bind_eq_ok h
    obtain ⟨pretty, hpretty, h⟩ := exists_of_bind_eq_ok h
    obtain ⟨color, hcolor, h⟩ := exists_of_bind_eq_ok h
    cases h
    cases p with
    | pattern => exact inForce_of_resolve hsettings hpattern
    | file => exact inForce_of_resolve hsettings hfile
    | input => exact inForce_of_resolve hsettings hinput
    | output => exact inForce_of_resolve hsettings houtput
    | pretty => exact inForce_of_resolve hsettings hpretty
    | color => exact inForce_of_resolve hsettings hcolor
  constructor
  · intro hv
    exact hv.unique hfound
  · rintro rfl
    exact hfound

end Arguments

end DocumentQuery
