import DocumentQuery.Proofs.Pattern.Recognition
import DocumentQuery.Proofs.Reading

/-!
# Where reading stops

Before it stops, reading goes through whole steps with a dot after each of them.  Then it stops in
the step that follows, or right after this step: `StopsInStep` lists the ways in which that can
happen.  Since reading depends on nothing that it has gone through, a text can be examined step by
step for the stop.

There are two kinds of stops.  A numeral that is too long is possible only where the text has a run
of too many digits; all other stops are faults.
-/

namespace DocumentQuery

namespace Pattern

/-! ## Whole steps -/

/-- The text of steps with a dot after each of them. -/
def leading (steps : List StepForm) : Text :=
  steps.flatMap fun step => step.text ++ [.char '.']

theorem leading_cons (step : StepForm) (steps : List StepForm) (rest : Text) :
    leading (step :: steps) ++ rest = step.text ++ .char '.' :: (leading steps ++ rest) := by
  simp [leading]

/-- Where a dot and more follow a step, reading goes on behind the dot. -/
theorem readSteps_dot (step : StepForm) {more : Text} (hne : more ≠ []) (hshort : step.IsShort) :
    readSteps (step.text ++ .char '.' :: more) =
      match readSteps more with
      | .error stop => .error stop
      | .ok others => .ok (step.steps ++ others) := by
  have hdot {c : CodePoint} (hc : c ∈ (CodePoint.char '.' :: more).head?) : c = .char '.' :=
    (Option.some.inj hc).symm
  have hend : step.EndsBefore (.char '.' :: more) :=
    step.endsBefore_of_head? fun c hc => by rw [hdot hc]; decide
  have hbracket : ∀ c ∈ (CodePoint.char '.' :: more).head?, c ≠ .char '[' :=
    fun c hc => by rw [hdot hc]; decide
  have hmore : more.isEmpty = false := by simpa using hne
  rw [readSteps_step step hend hbracket hshort, readFurther, if_neg (not_not_intro rfl), hmore]
  rfl

/-- What stops reading at the beginning of a text stops it behind whole steps as well. -/
theorem readSteps_leading {steps : List StepForm} {rest : Text} {stop : Stop} (hne : rest ≠ [])
    (hshort : ∀ step ∈ steps, step.IsShort) (h : readSteps rest = .error stop) :
    readSteps (leading steps ++ rest) = .error stop := by
  induction steps with
  | nil => exact h
  | cons step steps ih =>
      obtain ⟨hstep, hsteps⟩ := List.forall_mem_cons.mp hshort
      have hmore : leading steps ++ rest ≠ [] := List.append_ne_nil_of_right_ne_nil _ hne
      rw [leading_cons, readSteps_dot step hmore hstep, ih hsteps]

/-- In a text without long runs of digits the positions of a step are short. -/
theorem StepForm.isShort_of_infix {step : StepForm} {t : Text} (ht : t.HasShortRuns)
    (h : step.text <:+: t) : step.IsShort := by
  intro position hposition
  have hdigits : position.digits <:+: position.text :=
    ⟨.char '[' :: position.sign, [.char ']'], by simp [PositionForm.text, PositionForm.body]⟩
  have htext : position.text <:+: step.text :=
    (Text.infix_flatMap hposition).trans (List.suffix_append step.key.text _).isInfix
  exact ht position.digits ((hdigits.trans htext).trans h) position.hdigits

theorem isShort_of_leading {steps : List StepForm} {rest : Text}
    (h : (leading steps ++ rest).HasShortRuns) : ∀ step ∈ steps, step.IsShort := by
  intro step hstep
  have hdotted : step.text ++ [.char '.'] <:+: leading steps :=
    Text.infix_flatMap (f := fun step => step.text ++ [.char '.']) hstep
  have htext : step.text <:+: leading steps := (List.prefix_append _ _).isInfix.trans hdotted
  exact StepForm.isShort_of_infix h (htext.trans (List.prefix_append _ rest).isInfix)

theorem isShort_of_pattern {steps : List StepForm} {step : StepForm} {rest : Text}
    (h : (leading steps ++ step.text ++ rest).HasShortRuns) :
    (∀ step ∈ steps, step.IsShort) ∧ step.IsShort := by
  have hstep : step.text <:+: leading steps ++ step.text ++ rest :=
    ⟨leading steps, rest, rfl⟩
  refine ⟨?_, StepForm.isShort_of_infix h hstep⟩
  rw [List.append_assoc] at h
  exact isShort_of_leading h

/-! ## Stops -/

/-- Reading stops in the first step of a text, or right after it. -/
inductive StopsInStep (t : Text) : Stop → Prop
  /-- There is no key. -/
  | key {stop : Stop} (h : readKey t = .error stop) : StopsInStep t stop
  /-- A position cannot be read. -/
  | position {name afterKey : Text} {stop : Stop} (hkey : readKey t = .ok (name, afterKey))
      (h : readIndices afterKey = .error stop) : StopsInStep t stop
  /-- The step is followed by something that is no dot. -/
  | character {name afterKey more : Text} {positions : List Int} {c : CodePoint}
      (hkey : readKey t = .ok (name, afterKey))
      (hpositions : readIndices afterKey = .ok (positions, c :: more)) (hc : c ≠ .char '.') :
      StopsInStep t (.fault .unexpectedCharacter (c :: more))
  /-- The step is followed by a dot and nothing else. -/
  | dot {name afterKey : Text} {positions : List Int} (hkey : readKey t = .ok (name, afterKey))
      (hpositions : readIndices afterKey = .ok (positions, [.char '.'])) :
      StopsInStep t (.fault .trailingDot [.char '.'])

theorem StopsInStep.readSteps_eq_error {t : Text} {stop : Stop} (h : StopsInStep t stop) :
    readSteps t = .error stop := by
  rw [readSteps_eq]
  cases h with
  | key h => rw [h]
  | position hkey h => simp only [hkey, h]
  | character hkey hpositions hc => simp only [hkey, hpositions, readFurther, if_pos hc]
  | dot hkey hpositions =>
      simp only [hkey, hpositions]
      rfl

/-- Wherever reading stops, it has gone through whole steps and stops in the next one. -/
theorem exists_leading_of_readSteps {t : Text} {stop : Stop} (hne : t ≠ [])
    (h : readSteps t = .error stop) :
    ∃ steps rest, t = leading steps ++ rest ∧ rest ≠ [] ∧ (∀ step ∈ steps, step.IsShort) ∧
      StopsInStep rest stop := by
  have hnone : ∀ step ∈ ([] : List StepForm), step.IsShort := nofun
  fun_induction readSteps t with
  | case1 t other hkey =>
      cases h
      exact ⟨[], t, rfl, hne, hnone, .key hkey⟩
  | case2 t name afterKey hkey other hpositions =>
      cases h
      exact ⟨[], t, rfl, hne, hnone, .position hkey hpositions⟩
  | case3 => cases h
  | case4 t name afterKey hkey positions c more hpositions hc =>
      cases h
      exact ⟨[], t, rfl, hne, hnone, .character hkey hpositions hc⟩
  | case5 t name afterKey hkey positions c more hpositions hc hempty =>
      cases h
      obtain rfl : c = .char '.' := not_not.mp hc
      obtain rfl : more = [] := List.isEmpty_iff.mp hempty
      exact ⟨[], t, rfl, hne, hnone, .dot hkey hpositions⟩
  | case6 t name afterKey hkey positions c more hpositions hc hempty other hread _ ih =>
      cases h
      obtain rfl : c = .char '.' := not_not.mp hc
      obtain ⟨step, rfl, -, hstep, -⟩ := exists_form_of_readStep hkey hpositions
      obtain ⟨steps, rest, rfl, hrest, hsteps, hstop⟩ :=
        ih (fun hnil => hempty (List.isEmpty_iff.mpr hnil)) hread
      exact ⟨step :: steps, rest, (leading_cons step steps rest).symm, hrest,
        List.forall_mem_cons.mpr ⟨hstep, hsteps⟩, hstop⟩
  | case7 => cases h

/-- Positions are read up to the one that stops the reader. -/
theorem exists_forms_of_readIndices_error {t : Text} {stop : Stop}
    (h : readIndices t = .error stop) :
    ∃ (forms : List PositionForm) (rest : Text),
      t = forms.flatMap PositionForm.text ++ .char '[' :: rest ∧ (∀ form ∈ forms, form.IsShort) ∧
        readIndex rest = .error stop := by
  fun_induction readIndices t with
  | case1 rest other hindex =>
      cases h
      exact ⟨[], rest, rfl, List.forall_mem_nil _, hindex⟩
  | case2 rest i after hindex other hmore ih =>
      cases h
      obtain ⟨form, rfl, -, hshort⟩ := exists_form_of_readIndex hindex
      obtain ⟨forms, rest, rfl, hshorts, hstop⟩ := ih hmore
      exact ⟨form :: forms, rest, (positionsText_cons form forms _).symm,
        List.forall_mem_cons.mpr ⟨hshort, hshorts⟩, hstop⟩
  | case3 => cases h
  | case4 => cases h

/-! ## Numerals that are too long -/

theorem readKey_ne_limit (t : Text) (e : Numeral.LimitError) : readKey t ≠ .error (.limit e) := by
  intro h
  unfold readKey readBare at h
  split at h
  · split at h <;> cases h
  · dsimp only at h
    split at h
    · split at h <;> cases h
    · cases h

theorem not_hasShortRuns_of_readIndex {t : Text} {e : Numeral.LimitError}
    (h : readIndex t = .error (.limit e)) : ¬t.HasShortRuns := by
  unfold readIndex at h
  split at h
  · cases h
  · cases hsign : readSign t with
    | mk negative magnitude =>
        rw [hsign] at h
        dsimp only at h
        split at h
        · cases h
        · split at h
          · rename_i _ hlimit
            cases h
            intro hshort
            have hmagnitude : magnitude <:+ t := ⟨_, (readSign_append hsign).symm⟩
            have hdigits : (magnitude.takeWhile CodePoint.isDigit).length ≤ Numeral.maxDigits :=
              hshort _ ((List.takeWhile_prefix _).isInfix.trans hmagnitude.isInfix)
                fun c hc => List.mem_takeWhile_imp hc
            rw [Numeral.read, if_pos hdigits] at hlimit
            cases hlimit
          · cases h

/-- Only a run of too many digits can make a position too long to be read. -/
theorem not_hasShortRuns_of_readSteps {t : Text} {e : Numeral.LimitError} (hne : t ≠ [])
    (h : readSteps t = .error (.limit e)) : ¬t.HasShortRuns := by
  obtain ⟨steps, rest, rfl, -, -, hstop⟩ := exists_leading_of_readSteps hne h
  cases hstop with
  | key h => exact absurd h (readKey_ne_limit rest e)
  | position hkey hindices =>
      obtain ⟨key, rfl, -⟩ := exists_form_of_readKey hkey
      obtain ⟨forms, inner, rfl, -, hindex⟩ := exists_forms_of_readIndices_error hindices
      intro hshort
      apply not_hasShortRuns_of_readIndex hindex
      apply hshort.of_infix
      refine List.IsSuffix.isInfix ?_
      exact (List.suffix_cons _ inner).trans ((List.suffix_append _ _).trans
        ((List.suffix_append key.text _).trans (List.suffix_append (leading steps) _)))

theorem parse_ne_limit {t : Text} (hshort : t.HasShortRuns) (e : Numeral.LimitError) :
    parse t ≠ .error (.limit e) := by
  intro h
  by_cases hempty : t.trim = []
  · rw [parse_of_trim_eq_nil hempty] at h
    cases h
  · rw [parse_eq hempty] at h
    split at h
    · cases h
    · rename_i hread
      exact not_hasShortRuns_of_readSteps hempty hread (hshort.of_infix (Text.trim_isInfix t))
    · cases h

end Pattern

end DocumentQuery
