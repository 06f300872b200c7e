import DocumentQuery.Proofs.Pattern.Caret

/-!
# Blanks around patterns

Blanks around a text are taken away before it is read, so the reader is given the same body and
stops at the same code point of it.  None of the blanks gets into a quoted key or a position, and
none of them closes anything.  Only the place of a fault changes, which counts from the beginning of
the whole text.

* `parse_padded` — what becomes of the outcome of reading.
* `offset_within` — in bytes, a fault moves by the bytes of what was put in front.
* `parse_within_blanks` — both together, for each kind of outcome.
-/

namespace DocumentQuery

namespace Pattern

/-! ## Faults in longer texts -/

/-- The fault of a text in a longer one, which has `before` in front of the text and `after` behind
it. -/
def SyntaxError.within (before after : Text) (e : SyntaxError) : SyntaxError where
  fault := e.fault
  place := before.length + e.place
  text := before ++ e.text ++ after

/-- Why a longer text yields no pattern either. -/
def ParseError.within (before after : Text) : ParseError → ParseError
  | .malformed e => .malformed (e.within before after)
  | .limit e => .limit e

/-- The text before the fault has `before` in front of it, and nothing else is new. -/
theorem SyntaxError.take_place_within {e : SyntaxError} (h : e.place ≤ e.text.length)
    (before after : Text) :
    (e.within before after).text.take (e.within before after).place =
      before ++ e.text.take e.place := by
  change (before ++ e.text ++ after).take (before.length + e.place) = _
  rw [List.append_assoc, List.take_length_add_append, List.take_append_of_le_length h]

theorem SyntaxError.getElem?_place_within {e : SyntaxError} (h : e.place < e.text.length)
    (before after : Text) :
    (e.within before after).text[(e.within before after).place]? = e.text[e.place]? := by
  change (before ++ e.text ++ after)[before.length + e.place]? = _
  rw [List.append_assoc, List.getElem?_append_right (Nat.le_add_right _ _), Nat.add_sub_cancel_left,
    List.getElem?_append_left h]

/-- A fault moves by the bytes of the characters that are put in front. -/
theorem SyntaxError.offset_within {e : SyntaxError} {before : Text}
    (hbefore : ∀ c ∈ before, c.isSurrogate = false) (h : e.place ≤ e.text.length) (after : Text) :
    (e.within before after).offset = e.offset + (Utf8.encode before).length := by
  rw [SyntaxError.offset, SyntaxError.take_place_within h,
    Text.restoredBytes_append_of_chars hbefore, List.length_append, Nat.add_comm]
  rfl

/-! ## Reading between blanks -/

section

variable {before after : Text}

/-- In front of the body there are the blanks that were put there and those that had been there. -/
theorem length_sub_trimStart_padded {t : Text} (hbefore : ∀ c ∈ before, c.isBlank = true)
    (ht : t.trim ≠ []) :
    (before ++ t ++ after).length - (before ++ t ++ after).trimStart.length =
      before.length + (t.length - t.trimStart.length) := by
  have hstart : t.trimStart ≠ [] := by
    intro hnil
    rw [Text.trim, hnil] at ht
    exact ht rfl
  have hle : t.trimStart.length ≤ t.length := (List.dropWhile_suffix _).length_le
  rw [Text.trimStart_padded hbefore hstart, List.length_append, List.length_append,
    List.length_append]
  omega

/-- Blanks around a text change nothing about the outcome of reading, except for places. -/
theorem parse_padded (hbefore : ∀ c ∈ before, c.isBlank = true)
    (hafter : ∀ c ∈ after, c.isBlank = true) (t : Text) :
    parse (before ++ t ++ after) = (parse t).mapError (ParseError.within before after) := by
  have htrim := Text.trim_padded hbefore hafter t
  by_cases ht : t.trim = []
  · rw [parse_of_trim_eq_nil (htrim.trans ht), parse_of_trim_eq_nil ht]
    rfl
  · have hne : (before ++ t ++ after).trim ≠ [] := htrim ▸ ht
    rw [parse_eq hne, parse_eq ht, htrim, length_sub_trimStart_padded hbefore ht]
    cases readSteps t.trim with
    | ok steps => rfl
    | error stop =>
        cases stop with
        | limit e => rfl
        | fault fault unread =>
            dsimp only
            rw [Nat.add_assoc]
            rfl

/-- **Blanks around a text leave its meaning alone and move faults by their bytes.**  If the text
denotes a pattern, it denotes the same one between blanks.  If it has a fault, the text between
blanks has this fault at the same code point, and its offset is greater by the bytes of the blanks
in front, whatever is behind.  A numeral that is too long stays too long. -/
theorem parse_within_blanks (hbefore : ∀ c ∈ before, c.isBlank = true)
    (hafter : ∀ c ∈ after, c.isBlank = true) (t : Text) :
    (∀ p, parse t = .ok p → parse (before ++ t ++ after) = .ok p) ∧
      (∀ e, parse t = .error (.malformed e) →
        ∃ moved, parse (before ++ t ++ after) = .error (.malformed moved) ∧
          moved.fault = e.fault ∧ moved.offset = e.offset + (Utf8.encode before).length ∧
          moved.text = before ++ t ++ after ∧
          ∃ c, t[e.place]? = some c ∧ (before ++ t ++ after)[moved.place]? = some c) ∧
      ∀ e, parse t = .error (.limit e) → parse (before ++ t ++ after) = .error (.limit e) := by
  rw [parse_padded hbefore hafter]
  refine ⟨fun p hp => ?_, fun e he => ?_, fun e he => ?_⟩
  · rw [hp]
    rfl
  · have htext := (exists_between_of_parse he).1
    have hplace : e.place < e.text.length := htext ▸ place_lt he
    have hchars : ∀ c ∈ before, c.isSurrogate = false :=
      fun c hc => CodePoint.isSurrogate_of_isBlank (hbefore c hc)
    have hmoved : (e.within before after).text = before ++ t ++ after := htext ▸ rfl
    refine ⟨e.within before after, ?_, rfl, e.offset_within hchars (Nat.le_of_lt hplace) after,
      hmoved, e.text[e.place], ?_, ?_⟩
    · rw [he]
      rfl
    · rw [← htext, List.getElem?_eq_getElem hplace]
    · rw [← hmoved, e.getElem?_place_within hplace, List.getElem?_eq_getElem hplace]
  · rw [he]
    rfl

end

/-- An open quote between blanks of three bytes, of two and of one. -/
theorem parse_within_blanks_unclosed :
    let before : Text := Text.ofString "\u3000\u0085"
    let after : Text := Text.ofString "\n\u2003"
    let t : Text := Text.ofString " a.\"b]"
    let e : SyntaxError := ⟨.unterminatedQuote, 3, t⟩
    (∀ c ∈ before, c.isBlank = true) ∧ (∀ c ∈ after, c.isBlank = true) ∧
      parse t = .error (.malformed e) ∧ e.offset = 3 ∧
      ∃ moved, parse (before ++ t ++ after) = .error (.malformed moved) ∧
        moved.fault = .unterminatedQuote ∧ moved.offset = 8 ∧
        (before ++ t ++ after)[moved.place]? = some (.char '"') := by
  intro before after t e
  have hbefore : ∀ c ∈ before, c.isBlank = true := by decide
  have hafter : ∀ c ∈ after, c.isBlank = true := by decide
  have hparse : parse t = .error (.malformed e) := by decide +kernel
  have hoffset : e.offset = 3 := by decide +kernel
  have hbytes : (Utf8.encode before).length = 5 := by decide +kernel
  obtain ⟨moved, hmoved, hfault, hshift, -, c, hc, hsame⟩ :=
    (parse_within_blanks hbefore hafter t).2.1 e hparse
  have hquote : c = .char '"' := (Option.some.inj hc).symm
  rw [hoffset, hbytes] at hshift
  exact ⟨hbefore, hafter, hparse, hoffset, moved, hmoved, hfault, hshift, hquote ▸ hsame⟩

end Pattern

end DocumentQuery
