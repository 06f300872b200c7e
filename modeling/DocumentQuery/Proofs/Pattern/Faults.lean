import DocumentQuery.Proofs.Pattern.Stops

/-!
# Faults and their places

A text that is no pattern has exactly one fault.  `Fault.Between` says without a reader what each
kind of fault is: which pattern, or beginning of one, stands before its place, and what behind the
place cannot go on from there.

* A key is due at the beginning and behind every dot that follows a pattern (`AwaitsKey`).  What is
  there instead is no key, or a quoted key that is not closed, or nothing.
* Behind a pattern, a bracket opens a position that is not closed, or one that breaks off before its
  closing bracket (`BreaksOff`).
* Anything else behind a pattern is a fault if the pattern does not go on with it.

**`parse_blames_fault`** is the main result: for every text that is no pattern, reading reports a
fault, and the fault between the two parts of the text at the reported place is the only one that
there is at any place.
-/

namespace DocumentQuery

namespace Pattern

/-! ## Places in patterns -/

/-- The text is in the language of patterns. -/
def InLanguage (t : Text) : Prop :=
  ∃ form : Form, form.text = t

/-- A key is due after the text: the text is empty, or a pattern and a dot. -/
def AwaitsKey (t : Text) : Prop :=
  t = [] ∨ ∃ w, InLanguage w ∧ t = w ++ [.char '.']

theorem text_concat_dot (first : StepForm) (others : List StepForm) :
    first.text ++ Form.textOfOthers others ++ [.char '.'] = leading (first :: others) := by
  induction others generalizing first with
  | nil => simp [Form.textOfOthers, leading]
  | cons other others ih =>
      have hleading := leading_cons first (other :: others) []
      rw [List.append_nil, List.append_nil, ← ih other] at hleading
      rw [hleading]
      simp [Form.textOfOthers]

/-- A key is due exactly behind whole steps with a dot after each of them. -/
theorem awaitsKey_iff {t : Text} : AwaitsKey t ↔ ∃ steps, t = leading steps := by
  constructor
  · rintro (rfl | ⟨_, ⟨form, rfl⟩, rfl⟩)
    · exact ⟨[], rfl⟩
    · exact ⟨form.first :: form.others, text_concat_dot form.first form.others⟩
  · rintro ⟨steps, rfl⟩
    cases steps with
    | nil => exact Or.inl rfl
    | cons first others =>
        exact Or.inr ⟨_, ⟨⟨first, others⟩, rfl⟩, (text_concat_dot first others).symm⟩

/-- A pattern ends with a step, and a key is due before this step. -/
theorem inLanguage_iff {t : Text} :
    InLanguage t ↔ ∃ steps step, t = leading steps ++ StepForm.text step := by
  constructor
  · rintro ⟨⟨first, others⟩, rfl⟩
    induction others generalizing first with
    | nil => exact ⟨[], first, List.append_nil _⟩
    | cons other others ih =>
        obtain ⟨steps, step, hrest⟩ := ih other
        refine ⟨first :: steps, step, ?_⟩
        rw [leading_cons, ← hrest]
        rfl
  · rintro ⟨steps, step, rfl⟩
    induction steps with
    | nil => exact ⟨⟨step, []⟩, List.append_nil _⟩
    | cons first steps ih =>
        obtain ⟨form, hrest⟩ := ih
        refine ⟨⟨first, form.first :: form.others⟩, ?_⟩
        rw [leading_cons, ← hrest]
        rfl

/-- Reading a pattern may stop at a numeral, but not at a fault. -/
theorem InLanguage.readSteps_ne_fault {t : Text} (h : InLanguage t) (fault : Fault)
    (unread : Text) : readSteps t ≠ .error (.fault fault unread) := by
  obtain ⟨form, rfl⟩ := h
  intro hread
  by_cases hshort : form.IsShort
  · have hok : readSteps form.text = _ := readSteps_text form.first form.others hshort.1 hshort.2
    rw [hok] at hread
    cases hread
  · obtain ⟨n, -, hlimit⟩ := readSteps_long form.first form.others hshort
    have hlimit : readSteps form.text = _ := hlimit
    rw [hlimit] at hread
    cases hread

/-! ## Positions that break off -/

/-- The text begins a position behind its bracket: it consists of digits, with a minus sign before
them or without. -/
def BeginsPosition (t : Text) : Prop :=
  ∃ digits : Text, (∀ c ∈ digits, c.isDigit = true) ∧ (t = digits ∨ t = .char '-' :: digits)

/-- The bracket before `begun ++ unread` opens a position that is closed somewhere but breaks off
after `begun`. -/
structure BreaksOff (begun unread : Text) : Prop where
  begins : BeginsPosition begun
  longest : ∀ longer, BeginsPosition longer → longer <+: begun ++ unread →
    longer.length ≤ begun.length
  closed : .char ']' ∈ unread
  broken : ∀ form : PositionForm, ¬form.body <+: begun ++ unread

theorem not_isDigit_of_longest {begun unread : Text} (h : BreaksOff begun unread) :
    ∀ c ∈ unread.head?, c.isDigit = false := by
  intro c hc
  obtain ⟨rest, rfl⟩ := List.head?_eq_some_iff.mp hc
  by_contra hdigit
  rw [Bool.not_eq_false] at hdigit
  obtain ⟨digits, hdigits, hbegun⟩ := h.begins
  have hmore : ∀ d ∈ digits ++ [c], d.isDigit = true :=
    List.forall_mem_append.mpr ⟨hdigits, List.forall_mem_singleton.mpr hdigit⟩
  have hlonger : BeginsPosition (begun ++ [c]) := by
    refine ⟨digits ++ [c], hmore, ?_⟩
    rcases hbegun with rfl | rfl
    · exact Or.inl rfl
    · exact Or.inr rfl
  have hlength := h.longest _ hlonger ⟨rest, by simp⟩
  rw [List.length_append, List.length_singleton] at hlength
  omega

/-- The reader finds the sign and the digits with which a position begins. -/
theorem exists_readSign_of_breaksOff {begun unread : Text} (h : BreaksOff begun unread) :
    ∃ negative digits, readSign (begun ++ unread) = (negative, digits ++ unread) ∧
      (∀ c ∈ digits, c.isDigit = true) ∧
      begun = (if negative = true then [.char '-'] else []) ++ digits := by
  obtain ⟨digits, hdigits, rfl | rfl⟩ := h.begins
  · refine ⟨false, begun, ?_, hdigits, rfl⟩
    unfold readSign
    split
    · rename_i rest htext
      -- If a minus sign were next, it would prolong what has begun, or stand among the digits.
      cases begun with
      | nil =>
          have hsign : BeginsPosition [.char '-'] := ⟨[], nofun, Or.inr rfl⟩
          have hlength := h.longest _ hsign ⟨rest, htext.symm⟩
          exact absurd hlength (by decide)
      | cons d digits =>
          have hd := hdigits d List.mem_cons_self
          rw [(List.cons.inj htext).1] at hd
          exact absurd hd (by decide)
    · rfl
  · exact ⟨true, digits, rfl, hdigits, rfl⟩

/-- Where a position is not closed, the reader stops at its bracket. -/
theorem readIndex_of_not_mem {t : Text} (h : .char ']' ∉ t) :
    readIndex t = .error (.fault .unterminatedBracket (.char '[' :: t)) := by
  have hnone : t.dropWhile (· ≠ CodePoint.char ']') = [] := by
    rw [List.dropWhile_eq_nil_iff]
    exact fun c hc => decide_eq_true fun heq => h (heq ▸ hc)
  unfold readIndex
  rw [hnone]

/-- Where a position breaks off, there the reader stops. -/
theorem readIndex_of_breaksOff {begun unread : Text} (h : BreaksOff begun unread) :
    readIndex (begun ++ unread) = .error (.fault .invalidIndex unread) := by
  obtain ⟨negative, digits, hsign, hdigits, hbegun⟩ := exists_readSign_of_breaksOff h
  have hstop := not_isDigit_of_longest h
  have hclosed : (begun ++ unread).dropWhile (· ≠ CodePoint.char ']') ≠ [] := by
    intro hnil
    have hnone := List.dropWhile_eq_nil_iff.mp hnil (.char ']')
      (List.mem_append_right begun h.closed)
    exact absurd hnone (by decide)
  have hbroken : digits.isEmpty = true ∨ unread.head? ≠ some (.char ']') := by
    by_contra hwhole
    rw [not_or, not_not] at hwhole
    obtain ⟨rest, rfl⟩ := List.head?_eq_some_iff.mp hwhole.2
    let form : PositionForm := ⟨negative, digits, by simpa using hwhole.1, hdigits⟩
    refine h.broken form ⟨rest, ?_⟩
    simp [form, PositionForm.body, PositionForm.sign, hbegun]
  unfold readIndex
  split
  · rename_i hnil
    exact absurd hnil hclosed
  · rw [hsign]
    dsimp only
    rw [Text.takeWhile_run_append hdigits hstop, Text.dropWhile_run_append hdigits hstop,
      if_pos hbroken]

theorem length_le_of_prefix_takeWhile {p : CodePoint → Bool} {run t : Text} (h : run <+: t)
    (hrun : ∀ c ∈ run, p c = true) : run.length ≤ (t.takeWhile p).length := by
  obtain ⟨rest, rfl⟩ := h
  rw [List.takeWhile_append_of_pos hrun, List.length_append]
  exact Nat.le_add_right _ _

/-- The sign and the digits that the reader finds are as much as there is of a position. -/
theorem longest_of_readSign {t magnitude : Text} {negative : Bool}
    (hsign : readSign t = (negative, magnitude)) {longer : Text} (hbegins : BeginsPosition longer)
    (hstart : longer <+: t) :
    longer.length ≤
      ((if negative = true then [CodePoint.char '-'] else []) ++
        magnitude.takeWhile CodePoint.isDigit).length := by
  obtain ⟨digits, hdigits, hlonger⟩ := hbegins
  unfold readSign at hsign
  split at hsign
  · cases hsign
    rcases hlonger with rfl | rfl
    · -- No digit is a minus sign, so there are none.
      cases longer with
      | nil => exact Nat.zero_le _
      | cons d digits =>
          have hd := hdigits d List.mem_cons_self
          rw [(List.cons_prefix_cons.mp hstart).1] at hd
          exact absurd hd (by decide)
    · have hrest := (List.cons_prefix_cons.mp hstart).2
      have hlength := length_le_of_prefix_takeWhile hrest hdigits
      simpa using hlength
  · rename_i hminus
    cases hsign
    rcases hlonger with rfl | rfl
    · exact length_le_of_prefix_takeWhile hstart hdigits
    · obtain ⟨rest, htext⟩ := hstart
      exact absurd htext.symm (hminus _)

/-- Where the reader finds no whole position, there the position breaks off. -/
theorem breaksOff_of_readSign {t magnitude : Text} {negative : Bool}
    (hsign : readSign t = (negative, magnitude)) (hclosed : .char ']' ∈ t)
    (hbroken : ∀ form : PositionForm, ¬form.body <+: t) :
    BreaksOff
      ((if negative = true then [.char '-'] else []) ++ magnitude.takeWhile CodePoint.isDigit)
      (magnitude.dropWhile CodePoint.isDigit) := by
  have hdigits : ∀ c ∈ magnitude.takeWhile CodePoint.isDigit, c.isDigit = true :=
    fun c hc => List.mem_takeWhile_imp hc
  have htext : t = ((if negative = true then [.char '-'] else []) ++
      magnitude.takeWhile CodePoint.isDigit) ++ magnitude.dropWhile CodePoint.isDigit := by
    rw [List.append_assoc, List.takeWhile_append_dropWhile]
    exact readSign_append hsign
  constructor
  case begins =>
    refine ⟨_, hdigits, ?_⟩
    cases negative with
    | true => exact Or.inr rfl
    | false => exact Or.inl rfl
  case longest =>
    intro longer hbegins hstart
    rw [← htext] at hstart
    exact longest_of_readSign hsign hbegins hstart
  case closed =>
    rw [htext] at hclosed
    rcases List.mem_append.mp hclosed with hbegun | hunread
    · rcases List.mem_append.mp hbegun with hminus | hdigit
      · split at hminus
        · exact absurd (List.mem_singleton.mp hminus) (by decide)
        · cases hminus
      · exact absurd (hdigits _ hdigit) (by decide)
    · exact hunread
  case broken =>
    rwa [← htext]

/-- A position that the reader does not accept is not closed, or it breaks off. -/
theorem readIndex_fault {t unread : Text} {fault : Fault}
    (h : readIndex t = .error (.fault fault unread)) :
    (fault = .unterminatedBracket ∧ unread = .char '[' :: t ∧ .char ']' ∉ t) ∨
      (fault = .invalidIndex ∧ ∃ begun, t = begun ++ unread ∧ BreaksOff begun unread) := by
  have hbroken : ∀ form : PositionForm, ¬form.body <+: t := by
    rintro form ⟨rest, rfl⟩
    rw [readIndex_body] at h
    split at h <;> cases h
  unfold readIndex at h
  split at h
  · rename_i hnil
    cases h
    refine Or.inl ⟨rfl, rfl, fun hmem => ?_⟩
    exact absurd (List.dropWhile_eq_nil_iff.mp hnil _ hmem) (by decide)
  · rename_i c after hafter
    have hclosed : .char ']' ∈ t := by
      have hc : c = .char ']' := by
        have hfirst := List.head?_dropWhile_not (· ≠ CodePoint.char ']') t
        rw [hafter] at hfirst
        simpa using hfirst
      have hsuffix : c :: after <:+ t := hafter ▸ List.dropWhile_suffix _
      exact hc ▸ hsuffix.subset List.mem_cons_self
    cases hsign : readSign t with
    | mk negative magnitude =>
        rw [hsign] at h
        dsimp only at h
        split at h
        · cases h
          refine Or.inr ⟨rfl, _, ?_, breaksOff_of_readSign hsign hclosed hbroken⟩
          rw [List.append_assoc, List.takeWhile_append_dropWhile]
          exact readSign_append hsign
        · split at h <;> cases h

/-! ## Keys that cannot be read -/

/-- The code point begins no key, and is none of those that stand where a key is missing. -/
def IsMisplaced (c : CodePoint) : Prop :=
  c.isBare = false ∧ c ≠ .char '"' ∧ c ≠ .char '.' ∧ c ≠ .char '['

/-- The quoted key that begins the text is not closed. -/
def IsUnclosed (t : Text) : Prop :=
  ∀ items : List QuotedItem, ¬(KeyForm.quoted items).text <+: t

theorem isUnclosed_iff {rest : Text} :
    IsUnclosed (.char '"' :: rest) ↔ readQuoted? rest = none := by
  constructor
  · intro h
    cases hread : readQuoted? rest with
    | none => rfl
    | some found =>
        obtain ⟨items, rfl, -⟩ := exists_items_of_readQuoted? hread
        exact absurd ⟨found.2, by simp [KeyForm.text]⟩ (h items)
  · rintro h items ⟨after, htext⟩
    have hrest : rest = items.flatMap QuotedItem.text ++ .char '"' :: after := by
      have hcons := (List.cons.inj htext).2
      rw [← hcons]
      simp
    rw [hrest, readQuoted?_items] at h
    cases h

/-- What a text without a bare key is blamed for depends on its first code point. -/
theorem readBare_of_isBare_eq_false {c : CodePoint} (h : c.isBare = false) (rest : Text) :
    readBare (c :: rest) =
      .error (.fault
        (if c = .char '.' ∨ c = .char '[' then .emptyIdentifier else .unexpectedCharacter)
        (c :: rest)) := by
  have hnone : ((c :: rest).takeWhile CodePoint.isBare).isEmpty = true := by
    simp [h]
  unfold readBare
  dsimp only
  rw [if_pos hnone]
  split
  · rename_i htext
    cases htext
  · rename_i htext
    rw [(List.cons.inj htext).1]
    rfl
  · rename_i htext
    rw [(List.cons.inj htext).1]
    rfl
  · rename_i hdot hbracket
    rw [if_neg]
    rintro (rfl | rfl)
    · exact hdot rest rfl
    · exact hbracket rest rfl

theorem readKey_of_ne_quote {c : CodePoint} (h : c ≠ .char '"') (rest : Text) :
    readKey (c :: rest) = readBare (c :: rest) := by
  unfold readKey
  split
  · rename_i htext
    exact absurd (List.cons.inj htext).1 h
  · rfl

/-- A text that begins with no key begins with a quoted key that is not closed, with something else
that is no key, or with what follows keys. -/
theorem readKey_fault {t unread : Text} {fault : Fault} (hne : t ≠ [])
    (h : readKey t = .error (.fault fault unread)) :
    ∃ c rest, t = c :: rest ∧ unread = t ∧
      ((fault = .unterminatedQuote ∧ c = .char '"' ∧ IsUnclosed t) ∨
        (fault = .emptyIdentifier ∧ (c = .char '.' ∨ c = .char '[')) ∨
        (fault = .unexpectedCharacter ∧ IsMisplaced c)) := by
  obtain ⟨c, rest, rfl⟩ := List.exists_cons_of_ne_nil hne
  refine ⟨c, rest, rfl, ?_⟩
  by_cases hquote : c = .char '"'
  · subst hquote
    rw [readKey] at h
    split at h
    · cases h
    · rename_i hnone
      cases h
      exact ⟨rfl, Or.inl ⟨rfl, rfl, isUnclosed_iff.mpr hnone⟩⟩
  · rw [readKey_of_ne_quote hquote] at h
    have hbare : c.isBare = false := by
      by_contra hc
      rw [Bool.not_eq_false] at hc
      simp [readBare, hc] at h
    rw [readBare_of_isBare_eq_false hbare] at h
    cases h
    refine ⟨rfl, Or.inr ?_⟩
    split
    · rename_i hfollows
      exact Or.inl ⟨rfl, hfollows⟩
    · rename_i hfollows
      rw [not_or] at hfollows
      exact Or.inr ⟨rfl, hbare, hquote, hfollows⟩

theorem readKey_of_isUnclosed {rest : Text} (h : IsUnclosed (.char '"' :: rest)) :
    readKey (.char '"' :: rest) = .error (.fault .unterminatedQuote (.char '"' :: rest)) := by
  rw [readKey, isUnclosed_iff.mp h]

theorem readKey_of_isMisplaced {c : CodePoint} (h : IsMisplaced c) (rest : Text) :
    readKey (c :: rest) = .error (.fault .unexpectedCharacter (c :: rest)) := by
  obtain ⟨hbare, hquote, hdot, hbracket⟩ := h
  have hfollows : ¬(c = .char '.' ∨ c = .char '[') := not_or.mpr ⟨hdot, hbracket⟩
  rw [readKey_of_ne_quote hquote, readBare_of_isBare_eq_false hbare, if_neg hfollows]

/-! ## Faults -/

/-- `fault.Between before unread` says that the text `before ++ unread` is at fault right after
`before`, and what is wrong there. -/
inductive Fault.Between : Fault → Text → Text → Prop
  /-- A dot that follows a pattern is the end. -/
  | trailingDot {w : Text} (hw : InLanguage w) : Between .trailingDot w [.char '.']
  /-- Where a key is due, a quoted key begins and is never closed. -/
  | unterminatedQuote {before rest : Text} (hbefore : AwaitsKey before)
      (hopen : IsUnclosed (.char '"' :: rest)) :
      Between .unterminatedQuote before (.char '"' :: rest)
  /-- Behind a pattern, a bracket opens a position, and no closing bracket follows. -/
  | unterminatedBracket {w rest : Text} (hw : InLanguage w) (hopen : .char ']' ∉ rest) :
      Between .unterminatedBracket w (.char '[' :: rest)
  /-- Behind a pattern, a bracket opens a position that breaks off before it is closed. -/
  | invalidIndex {w begun unread : Text} (hw : InLanguage w) (h : BreaksOff begun unread) :
      Between .invalidIndex (w ++ .char '[' :: begun) unread
  /-- Where a key is due, there is what follows keys. -/
  | emptyIdentifier {before rest : Text} {c : CodePoint} (hbefore : AwaitsKey before)
      (hc : c = .char '.' ∨ c = .char '[') : Between .emptyIdentifier before (c :: rest)
  /-- Where a key is due, there is something that begins none. -/
  | noKey {before rest : Text} {c : CodePoint} (hbefore : AwaitsKey before) (hc : IsMisplaced c) :
      Between .unexpectedCharacter before (c :: rest)
  /-- Behind a pattern, there is something with which it does not go on. -/
  | noContinuation {w rest : Text} {c : CodePoint} (hw : InLanguage w) (hdot : c ≠ .char '.')
      (hbracket : c ≠ .char '[') (hend : ¬InLanguage (w ++ [c])) :
      Between .unexpectedCharacter w (c :: rest)

namespace Fault.Between

variable {fault : Fault} {before unread : Text}

theorem unread_ne_nil (h : fault.Between before unread) : unread ≠ [] := by
  cases h with
  | invalidIndex _ h =>
      rintro rfl
      cases h.closed
  | _ => exact List.cons_ne_nil _ _

end Fault.Between

/-! ### The fault that is reported is there -/

/-- What stops reading behind a step stops it behind the whole pattern that the step ends. -/
theorem readSteps_behind {steps : List StepForm} {step : StepForm} {rest : Text} {stop : Stop}
    (hsteps : ∀ step ∈ steps, step.IsShort) (h : readSteps (step.text ++ rest) = .error stop) :
    readSteps (leading steps ++ step.text ++ rest) = .error stop := by
  have hne : step.text ++ rest ≠ [] := by
    simp [StepForm.text, step.key.text_ne_nil]
  rw [List.append_assoc]
  exact readSteps_leading hne hsteps h

/-- Behind a step that does not go on, there is a dot or a bracket, or else a fault. -/
theorem readSteps_character {step : StepForm} {c : CodePoint} {rest : Text}
    (hshort : step.IsShort) (hend : step.EndsBefore (c :: rest)) (hdot : c ≠ .char '.')
    (hbracket : c ≠ .char '[') :
    readSteps (step.text ++ c :: rest) = .error (.fault .unexpectedCharacter (c :: rest)) := by
  have hhead : ∀ d ∈ (c :: rest).head?, d ≠ .char '[' := fun d hd => Option.some.inj hd ▸ hbracket
  rw [readSteps_step step hend hhead hshort, readFurther, if_pos hdot]

/-- Wherever reading stops at a fault, there is this fault. -/
theorem exists_between_of_readSteps {t unread : Text} {fault : Fault} (hne : t ≠ [])
    (h : readSteps t = .error (.fault fault unread)) :
    ∃ before, t = before ++ unread ∧ fault.Between before unread := by
  obtain ⟨steps, rest, rfl, hrest, hsteps, hstop⟩ := exists_leading_of_readSteps hne h
  have hdue : AwaitsKey (leading steps) := awaitsKey_iff.mpr ⟨steps, rfl⟩
  have hpattern (step : StepForm) : InLanguage (leading steps ++ step.text) :=
    inLanguage_iff.mpr ⟨steps, step, rfl⟩
  cases hstop with
  | key hkey =>
      obtain ⟨c, tail, rfl, rfl, hcase⟩ := readKey_fault hrest hkey
      refine ⟨leading steps, rfl, ?_⟩
      rcases hcase with ⟨rfl, rfl, hopen⟩ | ⟨rfl, hc⟩ | ⟨rfl, hc⟩
      · exact .unterminatedQuote hdue hopen
      · exact .emptyIdentifier hdue hc
      · exact .noKey hdue hc
  | position hkey hindices =>
      obtain ⟨key, rfl, -⟩ := exists_form_of_readKey hkey
      obtain ⟨forms, inner, rfl, -, hindex⟩ := exists_forms_of_readIndices_error hindices
      have hw := hpattern ⟨key, forms⟩
      rcases readIndex_fault hindex with ⟨rfl, rfl, hopen⟩ | ⟨rfl, begun, rfl, hbreaks⟩
      · exact ⟨_, by simp [StepForm.text], .unterminatedBracket hw hopen⟩
      · exact ⟨_, by simp [StepForm.text], .invalidIndex hw hbreaks⟩
  | @character _ _ more _ c hkey hpositions hdot =>
      obtain ⟨step, rfl, -, hshort, hend, hbracket⟩ := exists_form_of_readStep hkey hpositions
      have hc : c ≠ .char '[' := hbracket c rfl
      refine ⟨_, (List.append_assoc _ _ _).symm, .noContinuation (hpattern step) hdot hc ?_⟩
      -- The step was read to its end, so it does not go on with `c` alone either.
      intro hlonger
      have hend : step.EndsBefore [c] := fun hnone => (hend hnone).of_head?_eq rfl
      exact hlonger.readSteps_ne_fault _ _
        (readSteps_behind hsteps (readSteps_character hshort hend hdot hc))
  | dot hkey hpositions =>
      obtain ⟨step, rfl, -⟩ := exists_form_of_readStep hkey hpositions
      exact ⟨_, (List.append_assoc _ _ _).symm, .trailingDot (hpattern step)⟩

/-! ### There is no other fault -/

/-- A pattern goes on with any code point that its last step goes on with. -/
theorem endsBefore_of_not_inLanguage {steps : List StepForm} {step : StepForm} {c : CodePoint}
    (h : ¬InLanguage (leading steps ++ step.text ++ [c])) (rest : Text) :
    step.EndsBefore (c :: rest) := by
  intro hnone
  cases hkey : step.key with
  | quoted items => trivial
  | bare name hne hbare =>
      intro d hd
      obtain rfl : c = d := Option.some.inj hd
      by_contra hc
      rw [Bool.not_eq_false] at hc
      -- The code point would prolong the bare key.
      have hlonger : ∀ d ∈ name ++ [c], d.isBare = true :=
        List.forall_mem_append.mpr ⟨hbare, List.forall_mem_singleton.mpr hc⟩
      refine h (inLanguage_iff.mpr ⟨steps, ⟨.bare (name ++ [c]) (by simp) hlonger, []⟩, ?_⟩)
      simp [StepForm.text, hnone, hkey, KeyForm.text]

/-- A bracket or a dot prolongs no step. -/
theorem StepForm.endsBefore_cons (step : StepForm) {c : CodePoint} (hc : c.isBare = false)
    (rest : Text) : step.EndsBefore (c :: rest) :=
  step.endsBefore_of_head? fun _ hd => Option.some.inj hd ▸ hc

/-- Where a key is due, a key that cannot be read stops the reader. -/
theorem readSteps_of_awaitsKey {before unread : Text} {stop : Stop} (h : AwaitsKey before)
    (hne : unread ≠ []) (hshort : (before ++ unread).HasShortRuns)
    (hkey : readKey unread = .error stop) : readSteps (before ++ unread) = .error stop := by
  obtain ⟨steps, rfl⟩ := awaitsKey_iff.mp h
  exact readSteps_leading hne (isShort_of_leading hshort) (StopsInStep.key hkey).readSteps_eq_error

/-- Behind a pattern, the reader stops where it stops behind the last step of the pattern. -/
theorem readSteps_of_inLanguage {w rest : Text} {stop : Stop} (hw : InLanguage w)
    (hshort : (w ++ rest).HasShortRuns)
    (h : ∀ (steps : List StepForm) (step : StepForm), w = leading steps ++ step.text →
      step.IsShort → readSteps (step.text ++ rest) = .error stop) :
    readSteps (w ++ rest) = .error stop := by
  obtain ⟨steps, step, rfl⟩ := inLanguage_iff.mp hw
  obtain ⟨hsteps, hstep⟩ := isShort_of_pattern hshort
  exact readSteps_behind hsteps (h steps step rfl hstep)

/-- Behind a pattern, a position that cannot be read stops the reader. -/
theorem readSteps_of_position {w rest : Text} {stop : Stop} (hw : InLanguage w)
    (hshort : (w ++ .char '[' :: rest).HasShortRuns) (hindex : readIndex rest = .error stop) :
    readSteps (w ++ .char '[' :: rest) = .error stop := by
  refine readSteps_of_inLanguage hw hshort fun steps step _ hstep => ?_
  rw [readSteps_append step (step.endsBefore_cons (by decide) rest) hstep, readIndices_bracket,
    hindex]

/-- Wherever there is a fault, reading stops at it. -/
theorem readSteps_of_between {before unread : Text} {fault : Fault}
    (h : fault.Between before unread) (hshort : (before ++ unread).HasShortRuns) :
    readSteps (before ++ unread) = .error (.fault fault unread) := by
  cases h with
  | trailingDot hw =>
      refine readSteps_of_inLanguage hw hshort fun steps step _ hstep => ?_
      rw [readSteps_step step (step.endsBefore_cons (by decide) []) (by simp) hstep]
      rfl
  | unterminatedQuote hbefore hopen =>
      exact readSteps_of_awaitsKey hbefore (List.cons_ne_nil _ _) hshort
        (readKey_of_isUnclosed hopen)
  | unterminatedBracket hw hopen =>
      exact readSteps_of_position hw hshort (readIndex_of_not_mem hopen)
  | @invalidIndex w begun _ hw hbreaks =>
      rw [List.append_assoc, List.cons_append] at hshort ⊢
      exact readSteps_of_position hw hshort (readIndex_of_breaksOff hbreaks)
  | emptyIdentifier hbefore hc =>
      refine readSteps_of_awaitsKey hbefore (List.cons_ne_nil _ _) hshort ?_
      rcases hc with rfl | rfl
      · rfl
      · rfl
  | noKey hbefore hc =>
      exact readSteps_of_awaitsKey hbefore (List.cons_ne_nil _ _) hshort
        (readKey_of_isMisplaced hc _)
  | @noContinuation _ rest _ hw hdot hbracket hend =>
      refine readSteps_of_inLanguage hw hshort fun steps step htext hstep => ?_
      subst htext
      exact readSteps_character hstep (endsBefore_of_not_inLanguage hend rest) hdot hbracket

/-! ## Texts that are no patterns -/

/-- **A text that is no pattern is blamed for its only fault.**  Let the body of a text without long
runs of digits be neither empty nor a pattern.  Then reading reports a fault at a place in the body.
Among all faults and all places, this fault is the only one that is there. -/
theorem parse_blames_fault {t : Text} (hshort : t.HasShortRuns) (hne : t.trim ≠ [])
    (hnot : ¬InLanguage t.trim) :
    ∃ fault place,
      parse t = .error (.malformed ⟨fault, t.length - t.trimStart.length + place, t⟩) ∧
        place < t.trim.length ∧
        ∀ (other : Fault) (i : Nat),
          other.Between (t.trim.take i) (t.trim.drop i) ↔ other = fault ∧ i = place := by
  have hbody : t.trim.HasShortRuns := hshort.of_infix (Text.trim_isInfix t)
  cases hread : readSteps t.trim with
  | ok steps =>
      obtain ⟨form, htext, -⟩ := exists_form_of_readSteps hread
      exact absurd ⟨form, htext⟩ hnot
  | error stop =>
      cases stop with
      | limit e => exact absurd hbody (not_hasShortRuns_of_readSteps hne hread)
      | fault fault unread =>
          obtain ⟨before, htext, hbetween⟩ := exists_between_of_readSteps hne hread
          have hpositive : 0 < unread.length := List.length_pos_iff.mpr hbetween.unread_ne_nil
          have hlength : t.trim.length = before.length + unread.length := by
            rw [htext, List.length_append]
          refine ⟨fault, before.length, ?_, by omega, fun other i => ⟨fun hother => ?_, ?_⟩⟩
          · rw [parse_eq hne, hread]
            dsimp only
            rw [hlength, Nat.add_sub_cancel]
          · -- Reading stops once, so both faults leave the same text unread.
            have hunread := hother.unread_ne_nil
            have hstop := readSteps_of_between hother
              (by rw [List.take_append_drop]; exact hbody)
            rw [List.take_append_drop, hread] at hstop
            injection hstop with hstop
            injection hstop with hfault hdrop
            have hdropped := congrArg List.length hdrop
            rw [List.length_drop] at hdropped
            exact ⟨hfault.symm, by omega⟩
          · rintro ⟨rfl, rfl⟩
            rw [htext, List.take_left, List.drop_left]
            exact hbetween

/-- A bracket that a quoted key closes: the position breaks off at the dot before the key. -/
theorem parse_blames_fault_bracket :
    let t : Text := Text.ofString "\ta[-0.\"]\" "
    t.HasShortRuns ∧ t.trim ≠ [] ∧ ¬InLanguage t.trim ∧
      parse t = .error (.malformed ⟨.invalidIndex, 5, t⟩) ∧
      ∀ (other : Fault) (i : Nat),
        other.Between (t.trim.take i) (t.trim.drop i) ↔ other = .invalidIndex ∧ i = 4 := by
  intro t
  have hshort : t.HasShortRuns := .of_length (by decide)
  have hne : t.trim ≠ [] := by decide
  have hparse : parse t = .error (.malformed ⟨.invalidIndex, 5, t⟩) := by decide +kernel
  have hread : readSteps t.trim = .error (.fault .invalidIndex ".\"]\"") := by decide +kernel
  have hnot : ¬InLanguage t.trim := fun h => h.readSteps_ne_fault _ _ hread
  obtain ⟨fault, place, hblames, -, honly⟩ := parse_blames_fault hshort hne hnot
  have hsame := hparse.symm.trans hblames
  have hblank : t.length - t.trimStart.length = 1 := by decide
  simp only [hblank, Except.error.injEq, ParseError.malformed.injEq, SyntaxError.mk.injEq] at hsame
  obtain ⟨rfl, hplace, -⟩ := hsame
  obtain rfl : place = 4 := by omega
  exact ⟨hshort, hne, hnot, hparse, honly⟩

end Pattern

end DocumentQuery
