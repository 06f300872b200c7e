import DocumentQuery.Proofs.Toml.Strings

/-!
# Scalars of TOML read back

Numbers and moments begin alike, so each has to be told from the other before it is read.  An
integer is told from a moment by what stands after its digits: a moment goes on with a mark between
two of its numbers, and no mark is the end of a value.
-/

namespace DocumentQuery

namespace Toml

open NumberLiteral

/-! ## Integers and truth values -/

theorem readString?_eq_none {t : Text} (h : ∀ c ∈ t.head?, c ≠ .char '"' ∧ c ≠ .char '\'') :
    readString? t = none := by
  unfold readString?
  split
  · exact absurd rfl (h _ rfl).1
  · exact absurd rfl (h _ rfl).1
  · exact absurd rfl (h _ rfl).2
  · exact absurd rfl (h _ rfl).2
  · rfl

/-- What begins neither a string nor an array nor an inline table. -/
def BeginsScalar (text : Text) : Prop :=
  ∃ c more, text = c :: more ∧ c ≠ .char '"' ∧ c ≠ .char '\'' ∧ c ≠ .char '[' ∧ c ≠ .char '\x7b'

theorem readsBack_scalar {text : Text} {v : Value} (hbegins : BeginsValue text)
    (hscalar : BeginsScalar text) (hclean : .char '\r' ∉ text)
    (hreads : ∀ rest, Ends rest → readScalar (text ++ rest) = .ok (v, rest)) :
    ReadsBack text v where
  begins := hbegins
  clean := hclean
  reads fuel rest hfuel hrest := by
    have hpositive := hbegins.length_pos
    cases fuel with
    | zero => omega
    | succ fuel =>
        obtain ⟨c, more, rfl, hquote, hapostrophe, hbracket, hbrace⟩ := hscalar
        rw [readValue_of_scalar, hreads rest hrest]
        · refine readString?_eq_none ?_
          rintro d ⟨⟩
          exact ⟨hquote, hapostrophe⟩
        · exact fun _ heq => hbracket (List.cons.inj heq).1
        · exact fun _ heq => hbrace (List.cons.inj heq).1

theorem readsBack_boolean (b : Bool) :
    ReadsBack (if b then "true" else "false") (.boolean b) := by
  cases b with
  | true =>
      refine readsBack_scalar ⟨_, _, rfl, by decide, by decide, by decide, by decide⟩
        ⟨_, _, rfl, by decide, by decide, by decide, by decide⟩ (by decide) fun rest _ => rfl
  | false =>
      refine readsBack_scalar ⟨_, _, rfl, by decide, by decide, by decide, by decide⟩
        ⟨_, _, rfl, by decide, by decide, by decide, by decide⟩ (by decide) fun rest _ => rfl

/-- A text begins like a number or a moment: with a digit or a minus sign. -/
def BeginsNumber (t : Text) : Prop :=
  ∃ c rest, t = c :: rest ∧ (c = .char '-' ∨ c.isDigit = true)

theorem BeginsNumber.append {t : Text} (h : BeginsNumber t) (rest : Text) :
    BeginsNumber (t ++ rest) := by
  obtain ⟨c, more, rfl, hc⟩ := h
  exact ⟨c, more ++ rest, rfl, hc⟩

theorem BeginsNumber.ne {t : Text} (h : BeginsNumber t) {d : CodePoint} (hminus : d ≠ .char '-')
    (hd : d.isDigit = false) : ∀ c ∈ t.head?, c ≠ d := by
  obtain ⟨c, more, rfl, hc⟩ := h
  rintro _ ⟨⟩ rfl
  rcases hc with hc | hdigit
  · exact hminus hc
  · rw [hd] at hdigit
    cases hdigit

theorem readsBack_number {text : Text} {v : Value} (hbegins : BeginsNumber text)
    (hclean : .char '\r' ∉ text)
    (hreads : ∀ rest, Ends rest → readScalar (text ++ rest) = .ok (v, rest)) :
    ReadsBack text v := by
  have hne {d : CodePoint} (hminus : d ≠ .char '-') (hd : d.isDigit = false) :=
    hbegins.ne hminus hd
  obtain ⟨c, more, rfl, -⟩ := hbegins
  have hspace : isSpace c = false := by
    simp only [isSpace, isBlank, Bool.or_eq_false_iff, decide_eq_false_iff_not]
    exact ⟨⟨hne (by decide) rfl c rfl, hne (by decide) rfl c rfl⟩, hne (by decide) rfl c rfl⟩
  refine readsBack_scalar ⟨c, more, rfl, hspace, ?_⟩ ⟨c, more, rfl, ?_⟩ hclean hreads
  · exact ⟨hne (by decide) rfl c rfl, hne (by decide) rfl c rfl, hne (by decide) rfl c rfl⟩
  · exact ⟨hne (by decide) rfl c rfl, hne (by decide) rfl c rfl, hne (by decide) rfl c rfl,
      hne (by decide) rfl c rfl⟩

theorem BeginsNumber.not_word {t : Text} (h : BeginsNumber t) :
    ¬(Text.ofString "true").isPrefixOf t = true ∧ ¬(Text.ofString "false").isPrefixOf t = true := by
  have hno {first : CodePoint} (more : Text) (hminus : first ≠ .char '-')
      (hdigit : first.isDigit = false) : ¬(first :: more).isPrefixOf t = true := by
    intro hstarts
    obtain ⟨after, rfl⟩ := List.isPrefixOf_iff_prefix.mp hstarts
    exact h.ne hminus hdigit first rfl rfl
  exact ⟨hno _ (by decide) rfl, hno _ (by decide) rfl⟩

/-- An integer is what is neither a word nor a moment nor written in another base. -/
theorem readScalar_of_readDecimal? {t rest : Text} {literal : NumberLiteral}
    (hbegins : BeginsNumber t) (hmoment : readMoment? t = none)
    (hbased : readBased? t = none) (hdecimal : readDecimal? t = some (literal, rest))
    (hinteger : literal.isInteger = true) :
    readScalar t =
      match literal.toInt with
      | .ok i => .ok (.integer i, rest)
      | .error e => .error (.limit e) := by
  rw [readScalar, if_neg hbegins.not_word.1, if_neg hbegins.not_word.2, hmoment]
  dsimp only
  rw [hbased]
  dsimp only
  rw [hdecimal]
  exact if_pos hinteger

theorem readScalar_of_readMoment? {t rest : Text} {m : Moment} (hbegins : BeginsNumber t)
    (hmoment : readMoment? t = some (.ok (m, rest))) : readScalar t = .ok (.moment m, rest) := by
  rw [readScalar, if_neg hbegins.not_word.1, if_neg hbegins.not_word.2, hmoment]
  rfl

section

variable {run rest : Text} (hrun : ∀ c ∈ run, c.isDigit = true)
include hrun

/-- A mark after a fixed number of digits is the first code point after all of them. -/
theorem readChar?_of_readFixed? {mark : Char} (hmark : CodePoint.isDigit mark = false)
    (hrest : ∀ c ∈ rest.head?, c.isDigit = false ∧ c ≠ .char mark) {count n : Nat} {t : Text}
    (h : Calendar.readFixed? count (run ++ rest) = some (n, t)) :
    Calendar.readChar? mark t = none := by
  unfold Calendar.readFixed? at h
  dsimp only at h
  split at h
  · rename_i hdigits
    cases h
    cases hdrop : (run ++ rest).drop count with
    | nil => rfl
    | cons c more =>
        refine if_neg ?_
        rintro rfl
        -- Both `run` and the digits that were counted are all the digits at the beginning.
        have hsplit := List.take_append_drop count (run ++ rest)
        rw [hdrop] at hsplit
        have hend : ∀ c ∈ (CodePoint.char mark :: more).head?, c.isDigit = false := by
          rintro c ⟨⟩
          exact hmark
        have hcounted := Text.takeWhile_run_append (List.all_eq_true.mp hdigits.2) hend
        have hall := Text.takeWhile_run_append hrun fun c hc => (hrest c hc).1
        rw [hsplit, hall] at hcounted
        rw [← hcounted, List.append_cancel_left_eq] at hsplit
        rw [← hsplit] at hrest
        exact (hrest _ rfl).2 rfl
  · cases h

theorem digitTail_run (hrest : ∀ c ∈ rest.head?, c.isDigit = false ∧ c ≠ .char '_') :
    digitTail CodePoint.isDigit (run ++ rest) = (run, rest) := by
  induction run with
  | nil => exact digitTail_end hrest
  | cons c run ih =>
      obtain ⟨hc, hdigits⟩ := List.forall_mem_cons.mp hrun
      rw [List.cons_append, digitTail_digit hc, ih hdigits]

theorem readDateFields?_run (hrest : ∀ c ∈ rest.head?, c.isDigit = false ∧ c ≠ .char '-') :
    Calendar.readDateFields? (run ++ rest) = none := by
  unfold Calendar.readDateFields?
  cases hyear : Calendar.readFixed? 4 (run ++ rest) with
  | none => rfl
  | some found => simp [readChar?_of_readFixed? hrun rfl hrest hyear]

theorem readClock?_run (hrest : ∀ c ∈ rest.head?, c.isDigit = false ∧ c ≠ .char ':') :
    Calendar.readClock? (run ++ rest) = none := by
  unfold Calendar.readClock?
  cases hhour : Calendar.readFixed? 2 (run ++ rest) with
  | none => rfl
  | some found => simp [readChar?_of_readFixed? hrun rfl hrest hhour]

end

theorem readFixed?_of_not_digit {count : Nat} (hcount : 0 < count) {c : CodePoint}
    (hc : c.isDigit = false) (t : Text) : Calendar.readFixed? count (c :: t) = none := by
  cases count with
  | zero => cases hcount
  | succ count =>
      refine if_neg fun hdigits => ?_
      rw [List.take_succ_cons, List.all_cons, hc] at hdigits
      exact absurd hdigits.2 Bool.false_ne_true

theorem readMoment?_eq_none {t : Text} (hdate : Calendar.readDateFields? t = none)
    (hclock : Calendar.readClock? t = none) : readMoment? t = none := by
  rw [readMoment?, hdate]
  dsimp only
  rw [hclock]
  rfl

theorem readDecimal?_ofInt (i : Int) {rest : Text} (hrest : Ends rest) :
    readDecimal? (Numeral.ofInt i ++ rest) = some (NumberLiteral.ofInt i, rest) := by
  obtain ⟨c, digits, hdigits, hdigit, hzero⟩ := Numeral.exists_ofNat_eq_cons i.natAbs
  have hgoes : ∀ c ∈ rest.head?, goesOn c = false := hrest.head (by decide)
  have hmagnitude (negative : Bool) : readMagnitude? negative (Numeral.ofNat i.natAbs ++ rest) =
      some (⟨negative, Numeral.ofNat i.natAbs, none, none⟩, rest) := by
    by_cases hc : c = .char '0'
    · -- A numeral that begins with zero has no further digits.
      rw [hdigits, hzero hc, hc]
      exact congrArg some (readTail_of_end _ negative _ hgoes)
    · have hrun : digitRun CodePoint.isDigit (Numeral.ofNat i.natAbs ++ rest) =
          (Numeral.ofNat i.natAbs, rest) := by
        have htail := digitTail_run (fun c => Numeral.isDigit_of_mem_ofNat (n := i.natAbs))
          (hrest.head (by decide))
        rw [← htail]
        rw [hdigits]
        exact if_pos hdigit
      refine readMagnitude?_run negative (Numeral.ofNat_ne_nil _) ?_ hrun hgoes
      rw [hdigits]
      rintro d ⟨⟩
      exact hc
  unfold Numeral.ofInt NumberLiteral.ofInt
  by_cases hneg : i < 0
  · rw [if_pos hneg, decide_eq_true hneg, List.cons_append, readDecimal?_minus]
    exact hmagnitude true
  · rw [if_neg hneg, decide_eq_false hneg, readDecimal?_of_ne, hmagnitude]
    rw [hdigits]
    rintro d ⟨⟩
    constructor
    · rintro rfl
      cases hdigit
    · rintro rfl
      cases hdigit

/-- An integer begins with a minus sign or with a digit, and with a zero only if that is all. -/
theorem ofInt_cases (i : Int) :
    (∃ digits, Numeral.ofInt i = .char '-' :: digits ∧ ∀ c ∈ digits, c.isDigit = true) ∨
      ∃ c digits, Numeral.ofInt i = c :: digits ∧ (∀ d ∈ c :: digits, d.isDigit = true) ∧
        (c = .char '0' → digits = []) := by
  have hall : ∀ c ∈ Numeral.ofNat i.natAbs, c.isDigit = true :=
    fun _ => Numeral.isDigit_of_mem_ofNat
  unfold Numeral.ofInt
  split
  · exact Or.inl ⟨_, rfl, hall⟩
  · obtain ⟨c, digits, hdigits, -, hzero⟩ := Numeral.exists_ofNat_eq_cons i.natAbs
    rw [hdigits] at hall ⊢
    exact Or.inr ⟨c, digits, rfl, hall, hzero⟩

theorem readMoment?_ofInt (i : Int) {rest : Text} (hrest : Ends rest) :
    readMoment? (Numeral.ofInt i ++ rest) = none := by
  rcases ofInt_cases i with ⟨digits, htext, -⟩ | ⟨c, digits, htext, hdigits, -⟩
  · have hdigit : (CodePoint.char '-').isDigit = false := rfl
    rw [htext, List.cons_append]
    refine readMoment?_eq_none ?_ ?_
    · rw [Calendar.readDateFields?, readFixed?_of_not_digit (by decide) hdigit]
      rfl
    · rw [Calendar.readClock?, readFixed?_of_not_digit (by decide) hdigit]
      rfl
  · rw [htext]
    exact readMoment?_eq_none
      (readDateFields?_run hdigits (hrest.head (by decide)))
      (readClock?_run hdigits (hrest.head (by decide)))

theorem readBased?_ofInt (i : Int) {rest : Text} (hrest : Ends rest) :
    readBased? (Numeral.ofInt i ++ rest) = none := by
  have hbase : ∀ c ∈ rest.head?, baseOf? c = none := hrest.head (by decide)
  rcases ofInt_cases i with ⟨digits, htext, -⟩ | ⟨c, digits, htext, -, hzero⟩
  · rw [htext]
    rfl
  · rw [htext]
    unfold readBased?
    split
    · rename_i letter more heq
      obtain ⟨hc, hmore⟩ := List.cons.inj heq
      rw [hzero hc] at hmore
      change rest = letter :: more at hmore
      rw [hmore] at hbase
      rw [hbase letter rfl]
      rfl
    · rfl

theorem beginsNumber_ofInt (i : Int) : BeginsNumber (Numeral.ofInt i) := by
  rcases ofInt_cases i with ⟨digits, htext, -⟩ | ⟨c, digits, htext, hdigits, -⟩
  · exact ⟨_, _, htext, Or.inl rfl⟩
  · exact ⟨_, _, htext, Or.inr (hdigits c List.mem_cons_self)⟩

theorem clean_ofInt (i : Int) : .char '\r' ∉ Numeral.ofInt i := by
  intro h
  rcases ofInt_cases i with ⟨digits, htext, hdigits⟩ | ⟨c, digits, htext, hdigits, -⟩
  · rw [htext] at h
    rcases List.mem_cons.mp h with hminus | hdigit
    · exact absurd hminus (by decide)
    · exact absurd (hdigits _ hdigit) (by decide)
  · rw [htext] at h
    exact absurd (hdigits _ h) (by decide)

theorem readsBack_integer {i : Int} (h : Numeral.isWritable i = true) :
    ReadsBack (Numeral.ofInt i) (.integer i) := by
  have hbegins := beginsNumber_ofInt i
  refine readsBack_number hbegins (clean_ofInt i) fun rest hrest => ?_
  rw [readScalar_of_readDecimal? (hbegins.append rest) (readMoment?_ofInt i hrest)
    (readBased?_ofInt i hrest) (readDecimal?_ofInt i hrest) rfl, NumberLiteral.toInt_ofInt h]

/-! ## Moments -/

open Calendar in
theorem readMoment?_date (d : Date) {rest : Text} (hrest : Ends rest) :
    readMoment? (d.render ++ rest) = some (.ok (.date d, rest)) := by
  rw [readMoment?, readDateFields?_render]
  dsimp only
  rw [of?_eq]
  cases rest with
  | nil => rfl
  | cons c more =>
      have hc := hrest c rfl
      simp only [valueEnds, List.mem_cons, List.not_mem_nil, or_false] at hc
      rcases hc with rfl | rfl | rfl | rfl
      · rfl
      · rfl
      · rfl
      · rfl

open Calendar in
theorem readMoment?_time (c : Clock) {fraction rest : Text}
    (hfraction : IsFraction c.microsecond fraction) (hrest : Ends rest) :
    readMoment? (c.renderWhole ++ fraction ++ rest) = some (.ok (.time c none, rest)) := by
  have htext : c.renderWhole ++ fraction ++ rest = Numeral.padded 2 c.hour ++ (.char ':' ::
      (Numeral.padded 2 c.minute ++
        (.char ':' :: (Numeral.padded 2 c.second ++ (fraction ++ rest))))) := by
    simp [Clock.renderWhole, Text.ofString]
  -- A date has four digits at its beginning, a time only two.
  have hdate : readDateFields? (c.renderWhole ++ fraction ++ rest) = none := by
    rw [htext]
    refine readDateFields?_run (fun c => Numeral.isDigit_of_mem_padded) ?_
    rintro d ⟨⟩
    decide
  rw [readMoment?, hdate]
  dsimp only
  rw [readClock?_text c hfraction (hrest.head (by decide))]
  rfl

/-- How an offset is written: not at all, as the letter `Z` or in its full form. -/
def spellOffset : Option Offset → Text
  | none => []
  | some o => if o.minutes = 0 then Text.ofString "Z" else o.render

open Calendar in
theorem readOffset?_spellOffset (offset : Option Offset) {rest : Text} (hrest : Ends rest) :
    readOffset? (spellOffset offset ++ rest) = offset.map (·, rest) := by
  cases offset with
  | none =>
      change readOffset? rest = none
      unfold readOffset?
      split
      · exact absurd (hrest _ rfl) (by decide)
      · exact absurd (hrest _ rfl) (by decide)
      · exact absurd (hrest _ rfl) (by decide)
      · exact absurd (hrest _ rfl) (by decide)
      · rfl
  | some o =>
      unfold spellOffset
      dsimp only
      split
      · rename_i hzero
        obtain ⟨minutes, hvalid⟩ := o
        cases hzero
        rfl
      · exact readOffset?_render o rest

/-- No offset begins like the rest of a time. -/
theorem head?_spellOffset (offset : Option Offset) {rest : Text} (hrest : Ends rest) :
    ∀ c ∈ (spellOffset offset ++ rest).head?, c.isDigit = false ∧ c ≠ .char '.' := by
  cases offset with
  | none => exact hrest.head (by decide)
  | some o =>
      unfold spellOffset Offset.render
      dsimp only
      split
      · rintro c ⟨⟩
        decide
      · split
        · rintro c ⟨⟩
          decide
        · rintro c ⟨⟩
          decide

open Calendar in
theorem readMoment?_dateTime (d : Date) (c : Clock) (offset : Option Offset) {rest : Text}
    (hrest : Ends rest) :
    readMoment? (d.render ++ (.char 'T' :: (c.render ++ (spellOffset offset ++ rest)))) =
      some (.ok (.dateTime d c offset, rest)) := by
  obtain ⟨fraction, hrender, hfraction⟩ := exists_fraction_of_render c
  have hclock := readClock?_text c hfraction (head?_spellOffset offset hrest)
  rw [← hrender] at hclock
  rw [readMoment?, readDateFields?_render]
  dsimp only
  rw [of?_eq]
  dsimp only
  split
  · rename_i hnone
    change readClock? _ = none at hnone
    rw [hclock] at hnone
    cases hnone
  · rename_i clock after hsome
    change readClock? _ = some (clock, after) at hsome
    rw [hclock] at hsome
    cases hsome
    rw [readOffset?_spellOffset offset hrest]
    cases offset with
    | none => rfl
    | some o => rfl

theorem spellMoment_dateTime (d : Date) (c : Clock) (offset : Option Offset) :
    spellMoment (.dateTime d c offset) =
      d.render ++ (.char 'T' :: (c.render ++ spellOffset offset)) := by
  simp only [spellMoment, List.append_assoc]
  rfl

theorem clean_padded (width n : Nat) : .char '\r' ∉ Numeral.padded width n :=
  fun h => absurd (Numeral.isDigit_of_mem_padded h) (by decide)

theorem clean_date (d : Date) : .char '\r' ∉ d.render := by
  simp [Date.render, clean_padded, Text.ofString]

theorem clean_clock (c : Clock) : .char '\r' ∉ c.render := by
  unfold Clock.render
  split
  · simp [Clock.renderWhole, clean_padded, Text.ofString]
  · simp [Clock.renderWhole, clean_padded, Text.ofString]

theorem clean_spellOffset (offset : Option Offset) : .char '\r' ∉ spellOffset offset := by
  unfold spellOffset
  split
  · exact List.not_mem_nil
  · split
    · decide
    · unfold Offset.render
      split
      · simp [clean_padded, Text.ofString]
      · simp [clean_padded, Text.ofString]

theorem clean_spellMoment (m : Moment) : .char '\r' ∉ spellMoment m := by
  cases m with
  | date d => exact clean_date d
  | time c _ =>
      intro h
      have hsub := List.dropWhile_suffix
        (fun digit => c.microsecond ≠ 0 && digit = CodePoint.char '0') (l := c.render.reverse)
      exact clean_clock c (List.mem_reverse.mp (hsub.subset (List.mem_reverse.mp h)))
  | dateTime d c offset =>
      rw [spellMoment_dateTime, List.mem_append, List.mem_cons, List.mem_append]
      rintro (hdate | hjoin | hclock | hoffset)
      · exact clean_date d hdate
      · exact absurd hjoin (by decide)
      · exact clean_clock c hclock
      · exact clean_spellOffset offset hoffset

theorem beginsNumber_padded {width n : Nat} : BeginsNumber (Numeral.padded width n) := by
  cases h : Numeral.padded width n with
  | nil => simp [Numeral.padded, Numeral.ofNat_ne_nil] at h
  | cons c more =>
      have hmem : c ∈ Numeral.padded width n := by
        rw [h]
        exact List.mem_cons_self
      exact ⟨c, more, rfl, Or.inr (Numeral.isDigit_of_mem_padded hmem)⟩

theorem beginsNumber_date (d : Date) : BeginsNumber d.render := by
  unfold Date.render
  rw [List.append_assoc, List.append_assoc, List.append_assoc]
  exact beginsNumber_padded.append _

theorem beginsNumber_renderWhole (c : Clock) : BeginsNumber c.renderWhole := by
  unfold Clock.renderWhole
  rw [List.append_assoc, List.append_assoc, List.append_assoc]
  exact beginsNumber_padded.append _

/-- TOML has every moment but a time of day with an offset. -/
def HasSpelling : Moment → Prop
  | .time _ offset => offset = none
  | _ => True

theorem readsBack_moment {m : Moment} (h : HasSpelling m) :
    ReadsBack (spellMoment m) (.moment m) := by
  -- What a moment begins with and how it is read decide that it reads back.
  have hreads (hbegins : BeginsNumber (spellMoment m))
      (hmoment : ∀ rest, Ends rest → readMoment? (spellMoment m ++ rest) = some (.ok (m, rest))) :
      ReadsBack (spellMoment m) (.moment m) :=
    readsBack_number hbegins (clean_spellMoment m) fun rest hrest =>
      readScalar_of_readMoment? (hbegins.append rest) (hmoment rest hrest)
  cases m with
  | date d => exact hreads (beginsNumber_date d) fun rest hrest => readMoment?_date d hrest
  | time c offset =>
      cases h
      obtain ⟨fraction, htext, hfraction⟩ := Calendar.exists_fraction_of_dropEndWhile c
      have hspell : spellMoment (.time c none) = c.renderWhole ++ fraction := htext
      rw [hspell] at hreads ⊢
      exact hreads ((beginsNumber_renderWhole c).append fraction) fun rest hrest =>
        readMoment?_time c hfraction hrest
  | dateTime d c offset =>
      rw [spellMoment_dateTime] at hreads ⊢
      refine hreads ((beginsNumber_date d).append _) fun rest hrest => ?_
      rw [List.append_assoc, List.cons_append, List.append_assoc]
      exact readMoment?_dateTime d c offset hrest

end Toml

end DocumentQuery
