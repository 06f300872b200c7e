import DocumentQuery.Proofs.Pattern.Faults
import DocumentQuery.Proofs.Utf8

/-!
# Faults in bytes and on the screen

A fault is found at a place between code points.  Its offset counts the bytes of the text before it,
and the caret stands below what these bytes show when the bytes of the whole text are cut there.

* What is before a fault ends with a character, never with half of one
  (`isSurrogate_of_take_place`).  So the cut does not change what is shown, and the caret stands
  below the fault (`caret_below_fault`).
* Which bytes a surrogate has depends on the other surrogates of the text.  The offset is found in a
  part of the text, but used in the whole text; `offset_within_bytes` says when that is right.
-/

namespace DocumentQuery

namespace Pattern

open Text

/-! ## What is before a fault -/

theorem BeginsPosition.isVisible {t : Text} (h : BeginsPosition t) : ∀ c ∈ t, c.IsVisible := by
  obtain ⟨digits, hdigits, ht⟩ := h
  have hvisible : ∀ c ∈ digits, c.IsVisible := fun c hc =>
    CodePoint.isVisible_of_isBare (CodePoint.isBare_of_isDigit (hdigits c hc))
  rcases ht with rfl | rfl
  · exact hvisible
  · exact List.forall_mem_cons.mpr ⟨by decide, hvisible⟩

theorem InLanguage.getLast?_isVisible {t : Text} (h : InLanguage t) :
    ∀ c ∈ t.getLast?, c.IsVisible := by
  obtain ⟨form, rfl⟩ := h
  exact form.getLast?_text

theorem AwaitsKey.getLast?_isVisible {t : Text} (h : AwaitsKey t) :
    ∀ c ∈ t.getLast?, c.IsVisible := by
  rcases h with rfl | ⟨w, -, rfl⟩
  · nofun
  · intro c hc
    rw [List.getLast?_concat] at hc
    rw [← Option.some.inj hc]
    decide

/-- What is before a fault ends with a visible character of ASCII, unless the fault is right at the
beginning. -/
theorem Fault.Between.getLast?_isVisible {fault : Fault} {before unread : Text}
    (h : fault.Between before unread) : ∀ c ∈ before.getLast?, c.IsVisible := by
  cases h with
  | trailingDot hw => exact hw.getLast?_isVisible
  | unterminatedBracket hw _ => exact hw.getLast?_isVisible
  | noContinuation hw _ _ _ => exact hw.getLast?_isVisible
  | unterminatedQuote hbefore _ => exact hbefore.getLast?_isVisible
  | emptyIdentifier hbefore _ => exact hbefore.getLast?_isVisible
  | noKey hbefore _ => exact hbefore.getLast?_isVisible
  | @invalidIndex w begun _ hw hbreaks =>
      refine getLast?_append hw.getLast?_isVisible fun c hc => ?_
      have hall : ∀ d ∈ .char '[' :: begun, d.IsVisible :=
        List.forall_mem_cons.mpr ⟨by decide, hbreaks.begins.isVisible⟩
      exact hall c (List.mem_of_getLast? hc)

/-- The place of a reported fault cuts the text in two: blanks and what the body has before the
fault, and what the body has from the fault on, with the rest of the text. -/
theorem exists_between_of_parse {t : Text} {e : SyntaxError} (h : parse t = .error (.malformed e)) :
    e.text = t ∧
      ∃ blanks before unread after, (∀ c ∈ blanks, c.isBlank = true) ∧
        t.take e.place = blanks ++ before ∧ t.drop e.place = unread ++ after ∧
        e.fault.Between before unread := by
  have hne : t.trim ≠ [] := by
    intro hempty
    rw [parse_of_trim_eq_nil hempty] at h
    cases h
  rw [parse_eq hne] at h
  split at h
  · cases h
  · cases h
  · rename_i fault unread hread
    cases h
    obtain ⟨before, htext, hbetween⟩ := exists_between_of_readSteps hne hread
    obtain ⟨blanks, after, hwhole, hblanks, -, hlength⟩ := exists_trim_append t
    have hplace : t.length - t.trimStart.length + (t.trim.length - unread.length) =
        (blanks ++ before).length := by
      rw [htext, ← hlength, List.length_append, List.length_append, Nat.add_sub_cancel]
    have hcut : t = (blanks ++ before) ++ (unread ++ after) := by
      rw [← hwhole, htext]
      simp
    refine ⟨rfl, blanks, before, unread, after, hblanks, ?_, ?_, hbetween⟩
    · dsimp only
      rw [hplace, hcut, List.take_left]
    · dsimp only
      rw [hplace, hcut, List.drop_left]

/-- A fault is at a code point of the text. -/
theorem place_lt {t : Text} {e : SyntaxError} (h : parse t = .error (.malformed e)) :
    e.place < t.length := by
  obtain ⟨-, _, _, _, _, -, -, hdrop, hbetween⟩ := exists_between_of_parse h
  by_contra hle
  rw [List.drop_eq_nil_of_le (by omega)] at hdrop
  exact hbetween.unread_ne_nil (List.append_eq_nil_iff.mp hdrop.symm).1

/-- What is before a fault ends with a character. -/
theorem isSurrogate_of_take_place {t : Text} {e : SyntaxError}
    (h : parse t = .error (.malformed e)) :
    ∀ c ∈ (t.take e.place).getLast?, c.isSurrogate = false := by
  obtain ⟨-, _, _, _, _, hblanks, htake, -, hbetween⟩ := exists_between_of_parse h
  rw [htake]
  apply getLast?_append
  · exact fun c hc => CodePoint.isSurrogate_of_isBlank (hblanks c (List.mem_of_getLast? hc))
  · exact fun c hc => CodePoint.isSurrogate_of_isVisible (hbetween.getLast?_isVisible c hc)

/-! ## The caret -/

theorem offset_eq {t : Text} {e : SyntaxError} (h : parse t = .error (.malformed e)) :
    e.offset = (restoredBytes (t.take e.place)).length := by
  rw [SyntaxError.offset, (exists_between_of_parse h).1]

/-- What is shown of a text falls apart at the fault. -/
theorem shown_eq_append {t : Text} {e : SyntaxError} (h : parse t = .error (.malformed e))
    (hrestorable : t.all isRestorable = true) :
    e.shown = Utf8.decodeLossy (restoredBytes (t.take e.place)) ++
      Utf8.decodeLossy (restoredBytes (t.drop e.place)) := by
  rw [SyntaxError.shown, (exists_between_of_parse h).1, restoredBytes_cut t e.place,
    flatMap_bytesOf hrestorable (List.take_subset _ _),
    flatMap_bytesOf hrestorable (List.drop_subset _ _),
    decodeLossy_restoredBytes_append (isSurrogate_of_take_place h)]

theorem column_eq {t : Text} {e : SyntaxError} (h : parse t = .error (.malformed e))
    (hrestorable : t.all isRestorable = true) :
    e.column = (Utf8.decodeLossy (restoredBytes (t.take e.place))).length := by
  rw [SyntaxError.column, offset_eq h, (exists_between_of_parse h).1, restoredBytes_cut t e.place,
    flatMap_bytesOf hrestorable (List.take_subset _ _), List.take_left]

/-- **The caret stands below the fault.**  Let all surrogates of a text stand for bytes.  Then what
is shown of the text falls apart at the column of the caret: before it is what the part before the
fault shows alone, and from it on what the part from the fault on shows alone.  So a character at
fault is shown right above the caret, and a text without surrogates is shown as it is. -/
theorem caret_below_fault {t : Text} {e : SyntaxError} (h : parse t = .error (.malformed e))
    (hrestorable : t.all isRestorable = true) :
    e.caret = e.shown ++ "\n" ++ Text.repeated e.column ' ' ++ "^ " ++ e.fault.name ∧
      e.shown = Utf8.decodeLossy t.restoredBytes ∧
      e.shown.take e.column = Utf8.decodeLossy (restoredBytes (t.take e.place)) ∧
      e.shown.drop e.column = Utf8.decodeLossy (restoredBytes (t.drop e.place)) ∧
      e.column < e.shown.length ∧
      (∀ c, t[e.place]? = some (.char c) → e.shown[e.column]? = some (.char c)) ∧
      ((∀ c ∈ t, c.isSurrogate = false) → e.shown = t ∧ e.column = e.place) := by
  have htext := (exists_between_of_parse h).1
  have hplace := place_lt h
  have hshown := shown_eq_append h hrestorable
  have hcolumn := column_eq h hrestorable
  have hdrop : e.shown.drop e.column = Utf8.decodeLossy (restoredBytes (t.drop e.place)) := by
    rw [hshown, hcolumn, List.drop_left]
  refine ⟨rfl, ?_, ?_, hdrop, ?_, ?_, ?_⟩
  · rw [SyntaxError.shown, htext]
  · rw [hshown, hcolumn, List.take_left]
  · have hrest : t.drop e.place ≠ [] := mt List.drop_eq_nil_iff.mp (Nat.not_le.mpr hplace)
    have hmore := Utf8.decodeLossy_ne_nil (restoredBytes_ne_nil hrest)
    rw [← hdrop] at hmore
    exact Nat.not_le.mp (mt List.drop_eq_nil_of_le hmore)
  · intro c hc
    rw [← List.head?_drop] at hc
    obtain ⟨rest, hrest⟩ := List.head?_eq_some_iff.mp hc
    rw [← List.head?_drop, hdrop, hrest, restoredBytes_eq, List.flatMap_cons, bytesOf_char,
      Utf8.decodeLossy_encodeNat_append]
    rfl
  · intro hchars
    have hbefore : ∀ c ∈ t.take e.place, c.isSurrogate = false :=
      fun c hc => hchars c (List.mem_of_mem_take hc)
    constructor
    · rw [SyntaxError.shown, htext, restoredBytes_of_chars hchars, Utf8.decodeLossy_encode hchars]
    · rw [hcolumn, restoredBytes_of_chars hbefore, Utf8.decodeLossy_encode hbefore,
        List.length_take, Nat.min_eq_left (Nat.le_of_lt hplace)]

/-- Bytes that make one character before the fault, and bytes that make one replacement character
from the fault on. -/
theorem caret_below_fault_restored :
    let t : Text := [.char '"', .surrogate 0x4C3, .surrogate 0x4A9, .char '"', .surrogate 0x4E2,
      .surrogate 0x482]
    let e : SyntaxError := ⟨.unexpectedCharacter, 4, t⟩
    parse t = .error (.malformed e) ∧ t.all isRestorable = true ∧ e.shown = "\"\u00E9\"\uFFFD" ∧
      e.column = 3 ∧ e.shown.take e.column = Utf8.decodeLossy (restoredBytes (t.take e.place)) ∧
      e.shown.drop e.column = Utf8.decodeLossy (restoredBytes (t.drop e.place)) := by
  intro t e
  have hparse : parse t = .error (.malformed e) := by decide +kernel
  have hrestorable : t.all isRestorable = true := by decide
  have hshown : e.shown = "\"\u00E9\"\uFFFD" := by decide +kernel
  have hcolumn : e.column = 3 := by decide +kernel
  obtain ⟨-, -, htake, hdrop, -⟩ := caret_below_fault hparse hrestorable
  exact ⟨hparse, hrestorable, hshown, hcolumn, htake, hdrop⟩

/-! ## The offset -/

/-- The last code point before a fault is a visible character of ASCII, if there is any surrogate
before the fault. -/
theorem exists_concat_of_take_place {t : Text} {e : SyntaxError}
    (h : parse t = .error (.malformed e))
    (hsurrogate : (t.take e.place).any CodePoint.isSurrogate = true) :
    ∃ front c, t.take e.place = front ++ [c] ∧ c.IsVisible := by
  obtain ⟨-, blanks, before, _, _, hblanks, htake, -, hbetween⟩ := exists_between_of_parse h
  rw [htake] at hsurrogate ⊢
  rcases List.eq_nil_or_concat before with rfl | ⟨front, c, rfl⟩
  · -- No blank is a surrogate.
    rw [List.append_nil, List.any_eq_true] at hsurrogate
    obtain ⟨c, hc, hsurrogate⟩ := hsurrogate
    rw [CodePoint.isSurrogate_of_isBlank (hblanks c hc)] at hsurrogate
    cases hsurrogate
  · rw [List.concat_eq_append] at hbetween ⊢
    exact ⟨blanks ++ front, c, (List.append_assoc _ _ _).symm,
      hbetween.getLast?_isVisible c List.getLast?_concat⟩

/-- **When an offset is one of the whole text.**  The bytes before the offset of a fault are those
of the text before the fault if and only if the surrogates there have the same bytes in the whole
text.  Then the bytes from the offset on begin with those of the code point at fault.  Otherwise
every surrogate before the fault makes the offset fall short by two bytes. -/
theorem offset_within_bytes {t : Text} {e : SyntaxError} (h : parse t = .error (.malformed e)) :
    (t.restoredBytes.take e.offset = restoredBytes (t.take e.place) ↔ t.AgreesBefore e.place) ∧
      (t.AgreesBefore e.place →
        ∃ c, t[e.place]? = some c ∧ t.bytesOf c <+: t.restoredBytes.drop e.offset) ∧
      (¬t.AgreesBefore e.place →
        e.offset + 2 * (t.take e.place).countP CodePoint.isSurrogate =
          ((t.take e.place).flatMap t.bytesOf).length) := by
  have hcut := restoredBytes_cut t e.place
  refine ⟨⟨fun htake => ?_, fun hagrees => ?_⟩, fun hagrees => ?_, fun hdiffers => ?_⟩
  · -- Where surrogates have other bytes in the whole text, it does not begin with restored ones.
    by_contra hdiffers
    obtain ⟨hall, hany, hnot⟩ := not_agreesBefore_iff.mp hdiffers
    obtain ⟨front, c, hbefore, hvisible⟩ := exists_concat_of_take_place h hany
    rw [offset_eq h, hcut, flatMap_bytesOf_of_not_all hnot, hbefore] at htake
    rw [hbefore] at hall hany
    have hsmall : c.toNat < 0x80 := Nat.lt_of_le_of_lt hvisible.2 (by decide)
    exact take_encode_ne_restoredBytes hsmall hall hany _ htake
  · rw [offset_eq h, hcut, flatMap_bytesOf_take hagrees, List.take_left]
  · have hplace := place_lt h
    refine ⟨t[e.place], List.getElem?_eq_getElem hplace, ?_⟩
    rw [offset_eq h, hcut, flatMap_bytesOf_take hagrees, List.drop_left,
      List.drop_eq_getElem_cons hplace, List.flatMap_cons]
    exact List.prefix_append _ _
  · obtain ⟨hall, -, hnot⟩ := not_agreesBefore_iff.mp hdiffers
    rw [offset_eq h, length_restoredBytes_add hall, flatMap_bytesOf_of_not_all hnot]

/-- Two bytes that make one character, and then a fault. -/
theorem offset_within_bytes_restored :
    let t : Text := [.char '"', .surrogate 0x4C3, .surrogate 0x4A9, .char '"', .char '!']
    let e : SyntaxError := ⟨.unexpectedCharacter, 4, t⟩
    parse t = .error (.malformed e) ∧ t.AgreesBefore e.place ∧
      t.restoredBytes.take e.offset = [0x22, 0xC3, 0xA9, 0x22] ∧
      t.restoredBytes.drop e.offset = [0x21] := by
  intro t e
  have hparse : parse t = .error (.malformed e) := by decide +kernel
  have hagrees : t.AgreesBefore e.place := by decide
  obtain ⟨hiff, -, -⟩ := offset_within_bytes hparse
  refine ⟨hparse, hagrees, ?_, by decide⟩
  rw [hiff.mpr hagrees]
  decide

/-- A surrogate that stands for a byte before the fault, and behind it one that does not: the bytes
before the offset end inside the first surrogate. -/
theorem take_offset_ne_restoredBytes :
    let t : Text := [.char '"', .surrogate 0x480, .char '"', .char '!', .surrogate 0]
    let e : SyntaxError := ⟨.unexpectedCharacter, 3, t⟩
    parse t = .error (.malformed e) ∧ t.restoredBytes.take e.offset = [0x22, 0xED, 0xB2] ∧
      t.restoredBytes.take e.offset ≠ restoredBytes (t.take e.place) := by
  decide +kernel

end Pattern

end DocumentQuery
