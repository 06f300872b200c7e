import DocumentQuery.Proofs.Calendar
import DocumentQuery.Proofs.Literal
import DocumentQuery.Proofs.Reading
import DocumentQuery.Toml.Lexeme

/-!
# What the lexemes of TOML leave

Every reader of a lexeme leaves an end piece of its text.  None of them stops at a numeral: whether
a number is too long is asked only when it becomes a value.  By then its digits are known to stand
in the text, with nothing but single underscores between them.
-/

namespace DocumentQuery

namespace Toml

open NumberLiteral

/-! ## Runs of digits -/

/-- A run of digits in which single underscores may stand before digits, and the digits alone. -/
inductive SpacedDigits (isDigit : CodePoint → Bool) : Text → Text → Prop
  | nil : SpacedDigits isDigit [] []
  | digit {c : CodePoint} {run digits : Text} (hc : isDigit c = true)
      (h : SpacedDigits isDigit run digits) : SpacedDigits isDigit (c :: run) (c :: digits)
  | gap {c : CodePoint} {run digits : Text} (hc : isDigit c = true)
      (h : SpacedDigits isDigit run digits) :
      SpacedDigits isDigit (.char '_' :: c :: run) (c :: digits)

/-- No number in the text has more digits than a numeral may have; underscores between them do not
count. -/
def HasShortNumbers (t : Text) : Prop :=
  ∀ run digits, run <:+: t → SpacedDigits CodePoint.isDigit run digits →
    digits.length ≤ Numeral.maxDigits

theorem HasShortNumbers.of_infix {s t : Text} (h : HasShortNumbers t) (hsub : s <:+: t) :
    HasShortNumbers s :=
  fun run digits hrun hdigits => h run digits (hrun.trans hsub) hdigits

/-- Only a text with a number of too many digits is to blame for a stop at a numeral. -/
def Stop.Blames : Stop → Text → Prop
  | .fault _ _, _ => True
  | .limit _, t => ¬HasShortNumbers t

theorem inherits_blames : Inherits Stop.Blames := by
  intro stop s t hs h
  cases stop with
  | fault _ _ => trivial
  | limit _ => exact fun hshort => h (hshort.of_infix hs.isInfix)

/-- What is proper for an end piece is proper for the text. -/
theorem proper_of_suffix {α : Type} {P : α → Prop} {s t : Text}
    {outcome : Except Stop (α × Text)} (hs : s <:+ t) (h : Proper Stop.Blames s P outcome) :
    Proper Stop.Blames t P outcome :=
  h.of_suffix inherits_blames hs

theorem digitTail_digit {isDigit : CodePoint → Bool} {c : CodePoint} (hc : isDigit c = true)
    (rest : Text) :
    digitTail isDigit (c :: rest) =
      (c :: (digitTail isDigit rest).1, (digitTail isDigit rest).2) := by
  rw [digitTail.eq_def]
  dsimp only
  rw [if_pos hc]

/-- An underscore before a digit is left out. -/
theorem digitTail_gap {isDigit : CodePoint → Bool} (hgap : isDigit (.char '_') = false)
    {c : CodePoint} (hc : isDigit c = true) (rest : Text) :
    digitTail isDigit (.char '_' :: c :: rest) =
      (c :: (digitTail isDigit rest).1, (digitTail isDigit rest).2) := by
  rw [digitTail.eq_def]
  dsimp only
  rw [hgap, if_neg Bool.false_ne_true, if_pos rfl, if_pos hc]

theorem digitTail_end {isDigit : CodePoint → Bool} {t : Text}
    (h : ∀ c ∈ t.head?, isDigit c = false ∧ c ≠ .char '_') : digitTail isDigit t = ([], t) := by
  cases t with
  | nil => rw [digitTail.eq_def]
  | cons c rest =>
      obtain ⟨hdigit, hgap⟩ := h c rfl
      rw [digitTail.eq_def]
      dsimp only
      rw [hdigit, if_neg Bool.false_ne_true, if_neg hgap]

theorem exists_spacedDigits_of_digitTail (isDigit : CodePoint → Bool) (t : Text) :
    ∃ run, t = run ++ (digitTail isDigit t).2 ∧
      SpacedDigits isDigit run (digitTail isDigit t).1 := by
  fun_induction digitTail isDigit t with
  | case1 => exact ⟨[], rfl, .nil⟩
  | case2 c rest hc digits after heq ih =>
      rw [heq] at ih
      obtain ⟨run, hrest, hrun⟩ := ih
      exact ⟨c :: run, by rw [hrest, List.cons_append], .digit hc hrun⟩
  | case3 d rest hd digits after heq _ ih =>
      rw [heq] at ih
      obtain ⟨run, hrest, hrun⟩ := ih
      exact ⟨.char '_' :: d :: run, by rw [hrest]; rfl, .gap hd hrun⟩
  | case4 d rest => exact ⟨[], rfl, .nil⟩
  | case5 => exact ⟨[], rfl, .nil⟩
  | case6 c rest => exact ⟨[], rfl, .nil⟩

theorem exists_spacedDigits_of_digitRun (isDigit : CodePoint → Bool) (t : Text) :
    ∃ run, t = run ++ (digitRun isDigit t).2 ∧
      SpacedDigits isDigit run (digitRun isDigit t).1 := by
  unfold digitRun
  split
  · split
    · exact exists_spacedDigits_of_digitTail isDigit _
    · exact ⟨[], rfl, .nil⟩
  · exact ⟨[], rfl, .nil⟩

theorem digitRun_suffix (isDigit : CodePoint → Bool) (t : Text) :
    (digitRun isDigit t).2 <:+ t := by
  obtain ⟨run, ht, -⟩ := exists_spacedDigits_of_digitRun isDigit t
  exact ⟨run, ht.symm⟩

theorem SpacedDigits.eq_or_isDigit {isDigit : CodePoint → Bool} {run digits : Text}
    (h : SpacedDigits isDigit run digits) : ∀ c ∈ run, c = .char '_' ∨ isDigit c = true := by
  induction h with
  | nil => exact fun c hc => absurd hc List.not_mem_nil
  | digit hc _ ih => exact List.forall_mem_cons.mpr ⟨Or.inr hc, ih⟩
  | gap hc _ ih =>
      exact List.forall_mem_cons.mpr ⟨Or.inl rfl, List.forall_mem_cons.mpr ⟨Or.inr hc, ih⟩⟩

theorem passes_digitRun (t : Text) : Passes t (digitRun CodePoint.isDigit t).2 := by
  obtain ⟨run, ht, hrun⟩ := exists_spacedDigits_of_digitRun CodePoint.isDigit t
  refine ⟨run, ht, fun hmem => ?_⟩
  rcases hrun.eq_or_isDigit _ hmem with hunderscore | hdigit
  · exact absurd hunderscore (by decide)
  · exact absurd hdigit (by decide)

/-! ## Numbers -/

/-- The leading digits of a number stand in the text, with nothing but underscores between them. -/
theorem spaced_of_readDecimal? {t rest : Text} {literal : NumberLiteral}
    (h : readDecimal? t = some (literal, rest)) :
    rest <:+ t ∧ ∃ run, run <:+: t ∧ SpacedDigits CodePoint.isDigit run literal.whole := by
  unfold readDecimal? at h
  split at h
  rename_i negative magnitude hsign
  have hmagnitude : magnitude <:+ t := by
    split at hsign
    · cases hsign
      exact List.suffix_cons _ _
    · cases hsign
      exact List.suffix_cons _ _
    · cases hsign
      exact List.suffix_refl _
  dsimp only at h
  split at h
  · rename_i digits
    cases h
    have htail := (passes_readTail passes_digitRun negative [.char '0'] digits).suffix
    refine ⟨(htail.trans (List.suffix_cons _ _)).trans hmagnitude, [.char '0'], ?_, ?_⟩
    · exact List.IsInfix.trans ⟨[], digits, rfl⟩ hmagnitude.isInfix
    · exact .digit (by decide) .nil
  · obtain ⟨run, htext, hrun⟩ := exists_spacedDigits_of_digitRun CodePoint.isDigit magnitude
    split at h
    · cases h
    · rename_i whole after _ heq
      rw [heq] at htext hrun
      cases h
      have htail := (passes_readTail passes_digitRun negative whole after).suffix
      have hafter : after <:+ magnitude := ⟨run, htext.symm⟩
      refine ⟨(htail.trans hafter).trans hmagnitude, run, ?_, hrun⟩
      exact List.IsInfix.trans ⟨[], after, htext.symm⟩ hmagnitude.isInfix

/-- The rest of a decimal number whose sign has been read. -/
def readMagnitude? (negative : Bool) (magnitude : Text) : Option (NumberLiteral × Text) :=
  match magnitude with
  | .char '0' :: rest => some (readTail (digitRun CodePoint.isDigit) negative [.char '0'] rest)
  | _ =>
      match digitRun CodePoint.isDigit magnitude with
      | ([], _) => none
      | (whole, rest) => some (readTail (digitRun CodePoint.isDigit) negative whole rest)

theorem readDecimal?_minus (t : Text) : readDecimal? (.char '-' :: t) = readMagnitude? true t := rfl

theorem readDecimal?_of_ne {t : Text} (h : ∀ c ∈ t.head?, c ≠ .char '-' ∧ c ≠ .char '+') :
    readDecimal? t = readMagnitude? false t := by
  unfold readDecimal?
  split
  rename_i hsign
  split at hsign
  · exact absurd rfl (h _ rfl).1
  · exact absurd rfl (h _ rfl).2
  · cases hsign
    rfl

/-- Digits that do not begin with a zero are the leading digits of a number. -/
theorem readMagnitude?_run (negative : Bool) {t whole rest : Text} (hne : whole ≠ [])
    (hzero : ∀ c ∈ t.head?, c ≠ .char '0') (hrun : digitRun CodePoint.isDigit t = (whole, rest))
    (hrest : ∀ c ∈ rest.head?, goesOn c = false) :
    readMagnitude? negative t = some (⟨negative, whole, none, none⟩, rest) := by
  have hend := readTail_of_end (digitRun CodePoint.isDigit) negative whole hrest
  unfold readMagnitude?
  split
  · exact absurd rfl (hzero _ rfl)
  · rw [hrun]
    cases whole with
    | nil => exact absurd rfl hne
    | cons c digits => exact congrArg some hend

theorem suffix_of_readBased? {t rest : Text} {n : Nat} (h : readBased? t = some (n, rest)) :
    rest <:+ t := by
  unfold readBased? at h
  split at h
  · rename_i letter digits
    obtain ⟨base, -, hdigits⟩ := Option.bind_eq_some_iff.mp h
    have hrun := digitRun_suffix (isDigitOf base) digits
    split at hdigits
    · cases hdigits
    · rename_i heq
      rw [heq] at hrun
      cases hdigits
      exact hrun.trans ((List.suffix_cons _ _).trans (List.suffix_cons _ _))
  · cases h

theorem suffix_of_readSpecialFloat? {t rest : Text} {x : Binary64}
    (h : readSpecialFloat? t = some (x, rest)) : rest <:+ t := by
  obtain ⟨_, _, hpair⟩ := Option.map_eq_some_iff.mp h
  cases hpair
  exact List.drop_suffix _ _

/-! ## Blanks and comments -/

theorem skipBlanks_suffix (t : Text) : skipBlanks t <:+ t :=
  List.dropWhile_suffix _

/-- What is left after blanks or a comment is an end piece of the text, and no numeral is met. -/
def Skips (t : Text) (outcome : Except Stop Text) : Prop :=
  (∀ rest, outcome = .ok rest → rest <:+ t) ∧ ∀ e, outcome ≠ .error (.limit e)

theorem Skips.of_suffix {s t : Text} {outcome : Except Stop Text} (hs : s <:+ t)
    (h : Skips s outcome) : Skips t outcome :=
  ⟨fun rest hok => (h.1 rest hok).trans hs, h.2⟩

theorem skips_ok (t : Text) : Skips t (.ok t) :=
  ⟨fun rest hok => by cases hok; exact List.suffix_refl _, nofun⟩

theorem skips_fault (fault : Fault) (unread t : Text) : Skips t (.error (.fault fault unread)) :=
  ⟨nofun, nofun⟩

theorem commentEnd_skips (t : Text) : Skips t (commentEnd t) := by
  fun_induction commentEnd t with
  | case1 => exact skips_ok _
  | case2 => exact skips_ok _
  | case3 => exact skips_fault _ _ _
  | case4 c rest _ _ ih => exact ih.of_suffix (List.suffix_cons c rest)

theorem skipComment_skips (t : Text) : Skips t (skipComment t) := by
  unfold skipComment
  split
  · exact (commentEnd_skips _).of_suffix (List.suffix_cons _ _)
  · exact skips_ok _

theorem skipFiller_skips (comment : Bool) (t : Text) : Skips t (skipFiller comment t) := by
  fun_induction skipFiller comment t with
  | case1 => exact skips_ok _
  | case2 => exact skips_fault _ _ _
  | case3 comment c rest _ _ ih => exact ih.of_suffix (List.suffix_cons c rest)
  | case4 comment c rest _ _ ih => exact ih.of_suffix (List.suffix_cons c rest)
  | case5 comment rest _ _ ih => exact ih.of_suffix (List.suffix_cons _ rest)
  | case6 => exact skips_ok _

/-! ## Strings and keys -/

theorem proper_prepend {s t : Text} {found : Except Stop (Text × Text)} (c : CodePoint)
    (hs : s <:+ t) (h : Proper Stop.Blames s (fun _ => True) found) :
    Proper Stop.Blames t (fun _ => True) (prepend c found) := by
  cases found with
  | error stop => exact proper_of_suffix hs (.error (h.stops stop rfl))
  | ok found => exact proper_of_suffix hs (.ok (h.leaves _ _ rfl) trivial)

theorem readHex_stop {digits after t : Text} {stop : Stop}
    (h : readHex digits after = .error stop) : stop.Blames t := by
  unfold readHex at h
  split at h
  · cases h
    trivial
  · split at h
    · cases h
    · cases h
      trivial

theorem readBasic_proper (multiline : Bool) (mode : StringMode) (t : Text) :
    Proper Stop.Blames t (fun _ => True) (readBasic multiline mode t) := by
  -- The cases are those of the reader; in each that reads on, some code points have been passed.
  fun_induction readBasic multiline mode t with
  | case1 => exact .error trivial
  | case2 mode c rest _ ih => exact proper_of_suffix (List.suffix_cons c rest) ih
  | case3 rest _ ih => exact proper_of_suffix (List.suffix_cons _ rest) ih
  | case4 c rest _ _ _ ih => exact proper_of_suffix (List.suffix_cons c rest) ih
  | case5 => exact .error trivial
  | case6 mode _ _ after _ => exact .ok ⟨[_, _, _], rfl⟩ trivial
  | case7 mode rest _ _ _ _ ih => exact proper_prepend _ (List.suffix_cons _ rest) ih
  | case8 mode rest _ _ _ => exact .ok (List.suffix_cons _ rest) trivial
  | case9 => exact .error trivial
  | case10 => exact .error (readHex_stop ‹_›)
  | case11 mode _ h1 h2 h3 h4 after c _ _ _ ih =>
      exact proper_prepend c ⟨[_, _, h1, h2, h3, h4], rfl⟩ ih
  | case12 => exact .error (readHex_stop ‹_›)
  | case13 mode _ h1 h2 h3 h4 h5 h6 h7 h8 after c _ _ _ ih =>
      exact proper_prepend c ⟨[_, _, h1, h2, h3, h4, h5, h6, h7, h8], rfl⟩ ih
  | case14 => exact .error trivial
  | case15 mode _ e after _ _ _ _ _ _ ih => exact proper_of_suffix ⟨[_, e], rfl⟩ ih
  | case16 mode _ e after _ _ _ _ _ _ _ ih => exact proper_of_suffix ⟨[_, e], rfl⟩ ih
  | case17 => exact .error trivial
  | case18 mode _ e after _ _ _ _ _ c _ _ _ ih => exact proper_prepend c ⟨[_, e], rfl⟩ ih
  | case19 => exact .error trivial
  | case20 mode c rest _ _ _ _ _ ih => exact proper_prepend c (List.suffix_cons c rest) ih

/-! What one step of a string of one line does.  A quote ends it, and whatever is passed is put
before what the rest of the string holds. -/

theorem exists_of_prepend {c : CodePoint} {found : Except Stop (Text × Text)} {s rest : Text}
    (h : prepend c found = .ok (s, rest)) : ∃ t, found = .ok (t, rest) := by
  cases found with
  | error stop => cases h
  | ok found =>
      obtain ⟨t, after⟩ := found
      cases h
      exact ⟨t, rfl⟩

theorem readBasic_quote (rest : Text) :
    readBasic false .text (.char '"' :: rest) = .ok ([], rest) := by
  rw [readBasic.eq_def]
  rfl

theorem readBasic_plain {c : CodePoint} (hquote : c ≠ .char '"') (hbackslash : c ≠ .char '\\')
    (rest : Text) :
    readBasic false .text (c :: rest) =
      if isControl c then .error (.fault (.illegalCharacter c) (c :: rest))
      else prepend c (readBasic false .text rest) := by
  rw [readBasic.eq_def]
  simp [hquote, hbackslash]

theorem readBasic_hex (h1 h2 h3 h4 : CodePoint) (rest : Text) :
    readBasic false .text (.char '\\' :: .char 'u' :: h1 :: h2 :: h3 :: h4 :: rest) =
      match readHex [h1, h2, h3, h4] rest with
      | .error stop => .error stop
      | .ok meant => prepend meant (readBasic false .text rest) := by
  rw [readBasic.eq_def]
  rfl

theorem readBasic_letter {e : CodePoint} (hu : e ≠ .char 'u') (hU : e ≠ .char 'U') (rest : Text) :
    readBasic false .text (.char '\\' :: e :: rest) =
      match unescape? e with
      | none => .error (.fault .unescapedBackslash rest)
      | some meant => prepend meant (readBasic false .text rest) := by
  rw [readBasic.eq_def]
  cases hmeant : unescape? e with
  | none => simp [hu, hU, hmeant]
  | some meant => simp [hu, hU, hmeant]

theorem suffix_of_splitAt? {delimiter t before after : Text}
    (h : splitAt? delimiter t = some (before, after)) : after <:+ t := by
  fun_induction splitAt? delimiter t generalizing before with
  | case1 =>
      cases h
      exact List.suffix_refl _
  | case2 => cases h
  | case3 c rest _ =>
      cases h
      exact List.drop_suffix _ _
  | case4 c rest _ ih =>
      obtain ⟨found, hfound, hpair⟩ := Option.map_eq_some_iff.mp h
      cases hpair
      exact (ih hfound).trans (List.suffix_cons c rest)

theorem readLiteral_proper (multiline : Bool) (t : Text) :
    Proper Stop.Blames t (fun _ => True) (readLiteral multiline t) := by
  unfold readLiteral
  dsimp only
  split
  · exact .error trivial
  · rename_i body after hsplit
    split
    · exact .ok (suffix_of_splitAt? hsplit) trivial
    · exact .error trivial

theorem extraQuotes_suffix (quote : Char) (found : Text × Text) :
    (extraQuotes quote found).2 <:+ found.2 := by
  unfold extraQuotes
  split
  · split
    · split
      · exact ⟨[_, _], rfl⟩
      · exact ⟨[_], rfl⟩
    · exact List.suffix_refl _
  · split
    · exact ⟨[_], rfl⟩
    · exact List.suffix_refl _
  · exact List.suffix_refl _

theorem proper_extraQuotes {t : Text} {found : Except Stop (Text × Text)} (quote : Char)
    (h : Proper Stop.Blames t (fun _ => True) found) :
    Proper Stop.Blames t (fun _ => True) (found.map (extraQuotes quote)) := by
  cases found with
  | error stop => exact .error (h.stops stop rfl)
  | ok found => exact .ok ((extraQuotes_suffix quote found).trans (h.leaves _ _ rfl)) trivial

theorem skipNewline_suffix (t : Text) : skipNewline t <:+ t := by
  unfold skipNewline
  split
  · exact List.suffix_cons _ _
  · exact List.suffix_refl _

/-- A string of several lines begins after three quotes and perhaps a newline. -/
theorem skipNewline_suffix_quotes (a b c : CodePoint) (t : Text) :
    skipNewline t <:+ a :: b :: c :: t :=
  (skipNewline_suffix t).trans ⟨[a, b, c], rfl⟩

theorem proper_of_readString? {t : Text} {found : Except Stop (Text × Text)}
    (h : readString? t = some found) : Proper Stop.Blames t (fun _ => True) found := by
  unfold readString? at h
  split at h
  · cases h
    have hbody := readBasic_proper true .text
    exact proper_extraQuotes _ (proper_of_suffix (skipNewline_suffix_quotes _ _ _ _) (hbody _))
  · cases h
    exact proper_of_suffix (List.suffix_cons _ _) (readBasic_proper _ _ _)
  · cases h
    have hbody := readLiteral_proper true
    exact proper_extraQuotes _ (proper_of_suffix (skipNewline_suffix_quotes _ _ _ _) (hbody _))
  · cases h
    exact proper_of_suffix (List.suffix_cons _ _) (readLiteral_proper _ _)
  · cases h

theorem readKeyPart_proper (t : Text) :
    Proper Stop.Blames t (fun _ => True) (readKeyPart t) := by
  unfold readKeyPart
  split
  · exact proper_of_suffix (List.suffix_cons _ _) (readBasic_proper _ _ _)
  · exact proper_of_suffix (List.suffix_cons _ _) (readLiteral_proper _ _)
  · dsimp only
    split
    · exact .error trivial
    · exact .ok (List.dropWhile_suffix _) trivial

theorem readKeyParts_proper (count : Nat) (t : Text) :
    Proper Stop.Blames t (fun _ => True) (readKeyParts count t) := by
  induction count generalizing t with
  | zero => exact .error trivial
  | succ count ih =>
      unfold readKeyParts
      refine (readKeyPart_proper t).bind inherits_blames fun part rest _ _ => ?_
      refine proper_of_suffix (skipBlanks_suffix rest) ?_
      dsimp only
      split
      · rename_i after heq
        rw [heq]
        have hs := (skipBlanks_suffix after).trans (List.suffix_cons (CodePoint.char '.') after)
        exact proper_of_suffix hs ((ih _).bind_pure (fun _ _ => rfl) fun _ _ => trivial)
      · exact .ok (List.suffix_refl _) trivial

theorem readKey_proper (t : Text) : Proper Stop.Blames t (fun _ => True) (readKey t) :=
  readKeyParts_proper _ t

/-! ## Moments -/

/-- The time of a moment whose date has been read, if there is one. -/
theorem suffix_of_joinedClock? {t after : Text} {clock : Clock}
    (h : (match t with
      | .char 'T' :: after | .char 't' :: after | .char ' ' :: after => Calendar.readClock? after
      | _ => none) = some (clock, after)) : after <:+ t := by
  split at h
  · exact (Calendar.suffix_of_readClock? h).trans (List.suffix_cons _ _)
  · exact (Calendar.suffix_of_readClock? h).trans (List.suffix_cons _ _)
  · exact (Calendar.suffix_of_readClock? h).trans (List.suffix_cons _ _)
  · cases h

theorem proper_of_readMoment? {t : Text} {found : Except Stop (Moment × Text)}
    (h : readMoment? t = some found) : Proper Stop.Blames t (fun _ => True) found := by
  unfold readMoment? at h
  split at h
  · obtain ⟨⟨clock, rest⟩, hclock, hpair⟩ := Option.map_eq_some_iff.mp h
    cases hpair
    exact .ok (Calendar.suffix_of_readClock? hclock) trivial
  · rename_i year month day rest hdate
    have hrest := Calendar.suffix_of_readDateFields? hdate
    split at h
    · cases h
      exact .error trivial
    · dsimp only at h
      split at h
      · cases h
        exact .ok hrest trivial
      · rename_i clock after hread
        have hafter := (suffix_of_joinedClock? hread).trans hrest
        split at h
        · cases h
          exact .ok hafter trivial
        · rename_i offset last hoffset
          cases h
          exact .ok ((Calendar.suffix_of_readOffset? hoffset).trans hafter) trivial

end Toml

end DocumentQuery
