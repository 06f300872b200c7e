import DocumentQuery.Calendar
import DocumentQuery.Proofs.Numeral
import DocumentQuery.Proofs.Text

/-!
# Dates and times read back

Every part of a moment is a number of fixed width or a fraction of a second, so a moment is read
from the beginning of a longer text if what follows cannot prolong its last part.  The fraction may
be written with fewer than six digits, as long as only zeros are missing.

The readers leave end pieces of the texts that they read.
-/

namespace DocumentQuery

namespace Numeral

/-- Leading zeros do not count. -/
theorem value_zeros (count : Nat) (digits : Text) :
    value (Text.repeated count '0' ++ digits) = value digits := by
  unfold Text.repeated value
  rw [List.foldl_append]
  congr 1
  induction count with
  | zero => rfl
  | succ count ih =>
      rw [List.replicate_succ, List.foldl_cons]
      exact ih

theorem value_padded (width n : Nat) : value (padded width n) = n := by
  rw [padded, value_zeros, value_ofNat]

theorem length_padded {width n : Nat} (hwidth : 0 < width) (hn : n < Nat.pow 10 width) :
    (padded width n).length = width := by
  have hlength : (ofNat n).length ≤ width := (length_ofNat_le_iff n hwidth).mpr hn
  rw [padded, List.length_append, Text.repeated, List.length_replicate]
  omega

theorem isDigit_of_mem_padded {width n : Nat} {c : CodePoint} (h : c ∈ padded width n) :
    c.isDigit = true := by
  rcases List.mem_append.mp h with hzero | hdigit
  · rw [List.eq_of_mem_replicate hzero]
    decide
  · exact isDigit_of_mem_ofNat hdigit

end Numeral

namespace Calendar

open Numeral

/-! ## What is left -/

theorem suffix_of_readFixed? {count n : Nat} {t rest : Text}
    (h : readFixed? count t = some (n, rest)) : rest <:+ t := by
  unfold readFixed? at h
  dsimp only at h
  split at h
  · cases h
    exact List.drop_suffix _ _
  · cases h

theorem suffix_of_readChar? {c : Char} {t rest : Text} (h : readChar? c t = some rest) :
    rest <:+ t := by
  unfold readChar? at h
  split at h
  · split at h
    · cases h
      exact List.suffix_cons _ _
    · cases h
  · cases h

theorem suffix_of_readDateFields? {t rest : Text} {fields : Nat × Nat × Nat}
    (h : readDateFields? t = some (fields, rest)) : rest <:+ t := by
  simp only [readDateFields?, Option.bind_eq_bind, Option.bind_eq_some_iff] at h
  obtain ⟨year, hyear, first, hfirst, month, hmonth, second, hsecond, day, hday, hend⟩ := h
  split at hend
  · cases hend
    have hafterYear := (suffix_of_readChar? hfirst).trans (suffix_of_readFixed? hyear)
    have hafterMonth := (suffix_of_readChar? hsecond).trans (suffix_of_readFixed? hmonth)
    exact (suffix_of_readFixed? hday).trans (hafterMonth.trans hafterYear)
  · cases hend

theorem suffix_readFraction (t : Text) : (readFraction t).2 <:+ t := by
  unfold readFraction
  split
  · dsimp only
    split
    · exact List.suffix_refl _
    · exact (List.dropWhile_suffix _).trans (List.suffix_cons _ _)
  · exact List.suffix_refl _

theorem suffix_of_readClock? {t rest : Text} {clock : Clock}
    (h : readClock? t = some (clock, rest)) : rest <:+ t := by
  simp only [readClock?, Option.bind_eq_bind, Option.bind_eq_some_iff] at h
  obtain ⟨hour, hhour, first, hfirst, minute, hminute, last, hlast, second, hsecond, _, _, _, _,
    hend⟩ := h
  cases hend
  have hafterHour := (suffix_of_readChar? hfirst).trans (suffix_of_readFixed? hhour)
  have hafterMinute := (suffix_of_readChar? hlast).trans (suffix_of_readFixed? hminute)
  have hafterSecond := (suffix_readFraction _).trans (suffix_of_readFixed? hsecond)
  exact hafterSecond.trans (hafterMinute.trans hafterHour)

theorem suffix_of_readSigned {sign : Int} {t rest : Text} {offset : Offset}
    (h : readOffset?.signed sign t = some (offset, rest)) : rest <:+ t := by
  simp only [readOffset?.signed, Option.bind_eq_bind, Option.bind_eq_some_iff] at h
  obtain ⟨hour, hhour, colon, hcolon, minute, hminute, hend⟩ := h
  split at hend
  · obtain ⟨_, _, hpair⟩ := Option.bind_eq_some_iff.mp hend
    cases hpair
    have hafterHour := (suffix_of_readChar? hcolon).trans (suffix_of_readFixed? hhour)
    exact (suffix_of_readFixed? hminute).trans hafterHour
  · cases hend

theorem suffix_of_readOffset? {t rest : Text} {offset : Offset}
    (h : readOffset? t = some (offset, rest)) : rest <:+ t := by
  have hzero {c : CodePoint} {after : Text}
      (h : (Offset.of? 0).map (·, after) = some (offset, rest)) : rest <:+ c :: after := by
    obtain ⟨_, -, hpair⟩ := Option.map_eq_some_iff.mp h
    cases hpair
    exact List.suffix_cons _ _
  unfold readOffset? at h
  split at h
  · exact hzero h
  · exact hzero h
  · exact (suffix_of_readSigned h).trans (List.suffix_cons _ _)
  · exact (suffix_of_readSigned h).trans (List.suffix_cons _ _)
  · cases h

/-! ## Reading what was written -/

theorem readFixed?_padded {width n : Nat} (hwidth : 0 < width) (hn : n < Nat.pow 10 width)
    (rest : Text) : readFixed? width (padded width n ++ rest) = some (n, rest) := by
  have hlength := length_padded hwidth hn
  have htake : (padded width n ++ rest).take width = padded width n := List.take_left' hlength
  have hdrop : (padded width n ++ rest).drop width = rest := List.drop_left' hlength
  have hdigits : (padded width n).all CodePoint.isDigit = true :=
    List.all_eq_true.mpr fun _ => isDigit_of_mem_padded
  unfold readFixed?
  dsimp only
  rw [htake, hdrop, value_padded]
  exact if_pos ⟨hlength, hdigits⟩

theorem readChar?_cons (c : Char) (rest : Text) : readChar? c (.char c :: rest) = some rest :=
  if_pos rfl

theorem of?_eq (d : Date) : Date.of? d.year d.month d.day = some d :=
  dif_pos d.valid

theorem readDateFields?_render (d : Date) (rest : Text) :
    readDateFields? (d.render ++ rest) = some ((d.year, d.month, d.day), rest) := by
  obtain ⟨hyear, hlast, hmonth, htwelve, hday, hdays⟩ := d.valid
  have hdays31 : daysIn d.year d.month ≤ 31 := by
    unfold daysIn
    split
    · split <;> omega
    · split <;> omega
  have htext : d.render ++ rest = padded 4 d.year ++ (.char '-' :: (padded 2 d.month ++
      (.char '-' :: (padded 2 d.day ++ rest)))) := by
    simp [Date.render, Text.ofString]
  have hyearWidth : d.year < Nat.pow 10 4 := by
    change d.year < 10000
    omega
  have hmonthWidth : d.month < Nat.pow 10 2 := by
    change d.month < 100
    omega
  have hdayWidth : d.day < Nat.pow 10 2 := by
    change d.day < 100
    omega
  have hfields : 1 ≤ d.month ∧ d.month ≤ 12 ∧ 1 ≤ d.day ∧ d.day ≤ 31 := by omega
  simp [readDateFields?, htext, readFixed?_padded, readChar?_cons, hyearWidth, hmonthWidth,
    hdayWidth, hfields]

/-- The text of a fraction of a second: none for zero, otherwise a point and at least one of the
six digits, of which only zeros at the end may be missing. -/
inductive IsFraction : Nat → Text → Prop
  | none : IsFraction 0 []
  | some {microsecond : Nat} {digits : Text} (missing : Nat) (hne : digits ≠ [])
      (hdigits : digits ++ Text.repeated missing '0' = padded 6 microsecond) :
      IsFraction microsecond (.char '.' :: digits)

theorem readFraction_text {microsecond : Nat} {fraction rest : Text}
    (h : IsFraction microsecond fraction) (hmicrosecond : microsecond < Nat.pow 10 6)
    (hrest : ∀ c ∈ rest.head?, c.isDigit = false ∧ c ≠ .char '.') :
    readFraction (fraction ++ rest) = (microsecond, rest) := by
  cases h with
  | none =>
      rw [List.nil_append]
      unfold readFraction
      split
      · exact absurd rfl (hrest _ rfl).2
      · rfl
  | @some _ digits missing hne hdigits =>
      have hall : ∀ c ∈ digits, c.isDigit = true := by
        intro c hc
        have hmem : c ∈ padded 6 microsecond := by
          rw [← hdigits]
          exact List.mem_append_left _ hc
        exact isDigit_of_mem_padded hmem
      have hlength : digits.length + missing = 6 := by
        have h6 := length_padded (by decide) hmicrosecond
        rw [← hdigits, List.length_append, Text.repeated, List.length_replicate] at h6
        exact h6
      have hend : ∀ c ∈ rest.head?, c.isDigit = false := fun c hc => (hrest c hc).1
      have hkept : digits.take 6 = digits := List.take_of_length_le (by omega)
      have hmissing : 6 - digits.length = missing := by omega
      have hnonempty : digits.isEmpty = false := by simpa using hne
      rw [List.cons_append, readFraction, Text.takeWhile_run_append hall hend,
        Text.dropWhile_run_append hall hend]
      dsimp only
      rw [hnonempty, hkept, hmissing, hdigits, value_padded]
      rfl

theorem clock_of?_eq (c : Clock) :
    Clock.of? c.hour c.minute c.second c.microsecond = some c :=
  dif_pos c.valid

/-- A time of day is read back, whatever zeros at the end of its fraction are missing. -/
theorem readClock?_text (c : Clock) {fraction rest : Text}
    (hfraction : IsFraction c.microsecond fraction)
    (hrest : ∀ d ∈ rest.head?, d.isDigit = false ∧ d ≠ .char '.') :
    readClock? (c.renderWhole ++ fraction ++ rest) = some (c, rest) := by
  obtain ⟨hhour, hminute, hsecond, hmicrosecond⟩ := c.valid
  have htext : c.renderWhole ++ fraction ++ rest = padded 2 c.hour ++ (.char ':' ::
      (padded 2 c.minute ++ (.char ':' :: (padded 2 c.second ++ (fraction ++ rest))))) := by
    simp [Clock.renderWhole, Text.ofString]
  have hhourWidth : c.hour < Nat.pow 10 2 := by
    change c.hour < 100
    omega
  have hminuteWidth : c.minute < Nat.pow 10 2 := by
    change c.minute < 100
    omega
  have hsecondWidth : c.second < Nat.pow 10 2 := by
    change c.second < 100
    omega
  have hwhole : Clock.of? c.hour c.minute c.second 0 =
      some ⟨c.hour, c.minute, c.second, 0, hhour, hminute, hsecond, by decide⟩ :=
    dif_pos ⟨hhour, hminute, hsecond, by decide⟩
  have hread := readFraction_text hfraction hmicrosecond hrest
  simp [readClock?, htext, readFixed?_padded, readChar?_cons, hhourWidth, hminuteWidth,
    hsecondWidth, hwhole, hread, clock_of?_eq]

/-- The fraction in the written form of a time has all six digits. -/
theorem exists_fraction_of_render (c : Clock) :
    ∃ fraction, c.render = c.renderWhole ++ fraction ∧ IsFraction c.microsecond fraction := by
  unfold Clock.render
  by_cases hzero : c.microsecond = 0
  · rw [if_pos hzero, hzero]
    exact ⟨[], rfl, .none⟩
  · rw [if_neg hzero]
    refine ⟨_, rfl, .some 0 ?_ (List.append_nil _)⟩
    simp [padded, ofNat_ne_nil]

/-- Nothing but the code points at the end is dropped. -/
theorem dropEndWhile_append {p : CodePoint → Bool} {kept dropped : Text}
    (hdropped : ∀ c ∈ dropped, p c = true) (hkept : ∀ c ∈ kept.getLast?, p c = false) :
    Text.dropEndWhile p (kept ++ dropped) = kept := by
  rw [Text.dropEndWhile_append_run hdropped, Text.dropEndWhile_eq_self hkept]

/-- A fraction without the zeros at its end is still that fraction. -/
theorem exists_fraction_of_dropEndWhile (c : Clock) :
    ∃ fraction,
      Text.dropEndWhile (fun digit => c.microsecond ≠ 0 && digit = .char '0') c.render =
        c.renderWhole ++ fraction ∧ IsFraction c.microsecond fraction := by
  obtain ⟨fraction, hrender, hfraction⟩ := exists_fraction_of_render c
  rw [hrender]
  generalize c.microsecond = microsecond at hfraction ⊢
  by_cases hzero : microsecond = 0
  · refine ⟨fraction, ?_, hfraction⟩
    have hnone : ∀ d ∈ (c.renderWhole ++ fraction).getLast?,
        (decide (microsecond ≠ 0) && decide (d = .char '0')) = false := by
      simp [hzero]
    have hdropped := dropEndWhile_append (List.forall_mem_nil _) hnone
    simpa using hdropped
  · cases hfraction with
    | none => exact absurd rfl hzero
    | @some _ digits missing hne hdigits =>
        -- The digits are those that are kept and zeros, and not all of them are zeros.
        let isZero : CodePoint → Bool := fun d => microsecond ≠ 0 && d = .char '0'
        let kept := digits.rdropWhile isZero
        let zeros := digits.rtakeWhile isZero
        have hsplit : kept ++ zeros = digits := List.rdropWhile_append_rtakeWhile
        have hzeros : ∀ d ∈ zeros, isZero d = true := fun d hd => List.mem_rtakeWhile_imp hd
        have hrepeated : zeros = Text.repeated zeros.length '0' :=
          List.eq_replicate_of_mem fun d hd => by simpa [isZero, hzero] using hzeros d hd
        have hpadded : kept ++ Text.repeated (zeros.length + missing) '0' =
            padded 6 microsecond := by
          rw [← hdigits, ← hsplit, Text.repeated, List.replicate_add, ← List.append_assoc]
          congr 2
          exact hrepeated.symm
        have hkept : kept ≠ [] := by
          intro hnil
          have hvalue := value_padded 6 microsecond
          rw [← hpadded, hnil, List.nil_append, ← List.append_nil (Text.repeated _ _),
            value_zeros] at hvalue
          exact hzero hvalue.symm
        refine ⟨.char '.' :: kept, ?_, .some _ hkept hpadded⟩
        have htext : c.renderWhole ++ .char '.' :: digits =
            (c.renderWhole ++ .char '.' :: kept) ++ zeros := by
          rw [← hsplit, List.append_assoc, List.cons_append]
        rw [htext]
        refine dropEndWhile_append hzeros fun d hd => ?_
        rw [List.getLast?_append, List.getLast?_cons, List.getLast?_eq_some_getLast hkept] at hd
        have hlast := List.rdropWhile_last_not isZero digits hkept
        rw [Bool.not_eq_true] at hlast
        exact Option.some.inj hd ▸ hlast

theorem offset_of?_eq (o : Offset) : Offset.of? o.minutes = some o :=
  dif_pos o.valid

theorem readOffset?_render (o : Offset) (rest : Text) :
    readOffset? (o.render ++ rest) = some (o, rest) := by
  have hvalid := o.valid
  have hhour : o.minutes.natAbs / 60 < Nat.pow 10 2 := by
    change _ < 100
    omega
  have hminute : o.minutes.natAbs % 60 < Nat.pow 10 2 := by
    change _ < 100
    omega
  have hsigned (sign : Int) (hsign : sign * o.minutes.natAbs = o.minutes) :
      readOffset?.signed sign (padded 2 (o.minutes.natAbs / 60) ++ (.char ':' ::
        (padded 2 (o.minutes.natAbs % 60) ++ rest))) = some (o, rest) := by
    have hin : o.minutes.natAbs / 60 < 24 ∧ o.minutes.natAbs % 60 < 60 := by omega
    have hminutes : sign * (60 * ((o.minutes.natAbs / 60 : Nat) : Int) +
        ((o.minutes.natAbs % 60 : Nat) : Int)) = o.minutes := by
      rw [← hsign]
      congr 1
      omega
    simp only [readOffset?.signed, Option.bind_eq_bind, readFixed?_padded (Nat.succ_pos 1) hhour,
      readFixed?_padded (Nat.succ_pos 1) hminute, readChar?_cons, Option.bind_some, if_pos hin,
      hminutes, offset_of?_eq]
    rfl
  by_cases hneg : o.minutes < 0
  · have htext : o.render ++ rest = .char '-' :: (padded 2 (o.minutes.natAbs / 60) ++
        (.char ':' :: (padded 2 (o.minutes.natAbs % 60) ++ rest))) := by
      simp [Offset.render, hneg, Text.ofString]
    rw [htext]
    exact hsigned (-1) (by omega)
  · have htext : o.render ++ rest = .char '+' :: (padded 2 (o.minutes.natAbs / 60) ++
        (.char ':' :: (padded 2 (o.minutes.natAbs % 60) ++ rest))) := by
      simp [Offset.render, hneg, Text.ofString]
    rw [htext]
    exact hsigned 1 (by omega)

end Calendar

end DocumentQuery
