import DocumentQuery.Proofs.Command
import DocumentQuery.Proofs.Markup
import DocumentQuery.Proofs.Utf8

/-!
# Reports and the texts they show

A report is meant to show the message of an error as it is, and below it a fault in a pattern with
its caret.  The message is escaped, and what becomes of it is known; the caret is not escaped but
printed without markup, so that only emoji are replaced.  White space and control characters are no
matter as long as what is shown is printable.  All of this holds for any dictionary of emoji.

* `reported_eq` — the report of a printable message is the message as the console shows it.
* `report_pattern_eq` — likewise for a fault in a pattern and its caret.
* `report_verbatim_iff` — both are shown as they are exactly if they are inert.
-/

namespace DocumentQuery

theorem CodePoint.isOrdinary_of_isPrintable {c : CodePoint} (h : c.isPrintable = true) :
    c.IsOrdinary := by
  by_contra hnot
  simp only [IsOrdinary, not_or, Nat.not_le] at hnot
  have hrange : (0x0, 0x1F) ∈ unprintableRanges := List.mem_cons_self
  simp only [isPrintable, Bool.and_eq_true, Bool.not_eq_true', List.any_eq_false] at h
  have houtside := h.2 _ hrange
  simp only [zero_le, decide_true, decide_eq_true_eq, true_and, not_le] at houtside
  omega

theorem CodePoint.isSurrogate_of_isPrintable {c : CodePoint} (h : c.isPrintable = true) :
    c.isSurrogate = false := by
  simp only [isPrintable, Bool.and_eq_true, Bool.not_eq_true'] at h
  exact h.1

namespace Text

variable {t : Text}

/-! ## Parts of a text -/

theorem exists_split_cons (separator c : CodePoint) (t : Text) :
    ∃ part rest, t.split separator = part :: rest ∧
      split separator (c :: t) =
        if c = separator then [] :: part :: rest else (c :: part) :: rest := by
  obtain ⟨part, rest, hsplit⟩ := List.exists_cons_of_ne_nil (Display.split_ne_nil separator t)
  refine ⟨part, rest, hsplit, ?_⟩
  rw [split] at hsplit
  rw [split, List.foldr_cons, hsplit]

theorem split_of_not_mem {separator : CodePoint} (h : separator ∉ t) :
    t.split separator = [t] := by
  induction t with
  | nil => rfl
  | cons c t ih =>
      rw [List.mem_cons, not_or] at h
      obtain ⟨part, rest, hsplit, hcons⟩ := exists_split_cons separator c t
      rw [ih h.2] at hsplit
      cases hsplit
      rw [hcons, if_neg (Ne.symm h.1)]

/-- The parts with the separator between them make the text. -/
theorem joined_split (separator : CodePoint) (t : Text) :
    joined [separator] (t.split separator) = t := by
  induction t with
  | nil => rfl
  | cons c t ih =>
      obtain ⟨part, rest, hsplit, hcons⟩ := exists_split_cons separator c t
      rw [hsplit] at ih
      rw [hcons]
      by_cases h : c = separator
      · simp [h, joined_cons_cons, ih]
      · rw [if_neg h, ← ih]
        cases rest with
        | nil => simp [joined_singleton]
        | cons second rest => simp [joined_cons_cons]

theorem mem_of_mem_split {separator : CodePoint} {part : Text} (h : part ∈ t.split separator) :
    part ⊆ t := by
  induction t generalizing part with
  | nil =>
      rw [List.mem_singleton.mp h]
      exact List.nil_subset _
  | cons c t ih =>
      obtain ⟨first, rest, hsplit, hcons⟩ := exists_split_cons separator c t
      rw [hsplit] at ih
      rw [hcons] at h
      split at h
      · rcases List.mem_cons.mp h with rfl | hmem
        · exact List.nil_subset _
        · exact List.subset_cons_of_subset c (ih hmem)
      · rcases List.mem_cons.mp h with rfl | hmem
        · exact List.cons_subset_cons c (ih List.mem_cons_self)
        · exact List.subset_cons_of_subset c (ih (List.mem_cons_of_mem first hmem))

/-! ## Ordinary texts -/

theorem isOrdinary_escapedFor {quote : Char} (hquote : (CodePoint.char quote).IsOrdinary)
    (c : CodePoint) : ∀ d ∈ escapedFor quote c, d.IsOrdinary := by
  have hhex (letter : Char) (hletter : (CodePoint.char letter).IsOrdinary) (width : Nat) :
      ∀ d ∈ CodePoint.char '\\' :: .char letter :: hex width c.toNat, d.IsOrdinary :=
    List.forall_mem_cons.mpr ⟨by decide, List.forall_mem_cons.mpr
      ⟨hletter, fun d hd => (isPlain_hex width c.toNat d hd).1⟩⟩
  unfold escapedFor
  split_ifs with hkept _ _ _ hprintable
  · rcases hkept with rfl | rfl
    · decide
    · exact List.forall_mem_cons.mpr ⟨by decide, List.forall_mem_singleton.mpr hquote⟩
  · decide
  · decide
  · decide
  · exact List.forall_mem_singleton.mpr (CodePoint.isOrdinary_of_isPrintable hprintable)
  · exact hhex 'x' (by decide) 2
  · exact hhex 'u' (by decide) 4
  · exact hhex 'U' (by decide) 8

theorem isOrdinary_quoted (t : Text) : ∀ d ∈ t.quoted, d.IsOrdinary := by
  have hquote : (CodePoint.char (quoteOf t)).IsOrdinary := by
    unfold quoteOf
    split <;> decide
  refine List.forall_mem_append.mpr ⟨List.forall_mem_cons.mpr ⟨hquote, ?_⟩,
    List.forall_mem_singleton.mpr hquote⟩
  intro d hd
  obtain ⟨c, -, hc⟩ := List.mem_flatMap.mp hd
  exact isOrdinary_escapedFor hquote c d hc

end Text

namespace Display

variable {t : Text}

/-- A text without control characters but newlines is printed as it is. -/
theorem printed_of_ordinary (h : ∀ c ∈ t, c.IsOrdinary) : printed t = t ++ Text.ofString "\n" := by
  have hfilter : t.filter (fun c => !isDropped c) = t :=
    List.filter_eq_self.mpr fun c hc => by rw [isDropped_of_ordinary (h c hc)]; rfl
  have hlines : (t.split '\n').map (alignedLine 8) = t.split '\n' := by
    refine List.map_congr_left (fun line hline => ?_) |>.trans (List.map_id _)
    have htab : .char '\t' ∉ line := fun hmem =>
      (h _ (Text.mem_of_mem_split hline hmem)).ne_of_control (by decide) (by decide) rfl
    rw [alignedLine, Text.split_of_not_mem htab]
    rfl
  rw [printed, hfilter, aligned, hlines]
  exact congrArg (· ++ _) (Text.joined_split '\n' t)

/-! ## Messages -/

/-- A blank is neither a bracket nor a colon. -/
theorem shownTokens_blank [Markup.EmojiNames] (before : Text) (found : List Markup.Token) :
    Markup.shownTokens (.char ' ' :: before) found =
      .char ' ' :: Markup.shownTokens before found := by
  induction found generalizing before with
  | nil => rfl
  | cons token rest ih =>
      cases token with
      | plain c => exact ih (before ++ [c])
      | tag n body => rfl

theorem plain_message [Markup.EmojiNames] (t : Text) :
    Markup.plain (Text.ofString "[bold red]error:[/] " ++ t) =
      Text.ofString "error: " ++ Markup.plain t := by
  have htokens : Markup.tokens (Text.ofString "[bold red]error:[/] " ++ t) =
      .tag 0 (Text.ofString "bold red") :: (mark.map .plain ++
        .tag 0 (Text.ofString "/") :: .plain ' ' :: Markup.tokens t) := rfl
  rw [Markup.plain, htokens]
  exact congrArg (mark ++ ·) (shownTokens_blank [] (Markup.tokens t))

/-- A message on the line that reports it. -/
def line (message : Text) : Text :=
  Text.ofString "error: " ++ message ++ Text.ofString "\n"

theorem reported_eq [Markup.EmojiNames] (h : ∀ c ∈ t, c.IsOrdinary) :
    reported t = line (Markup.plain (Markup.escape t)) := by
  have hbegin : ∀ c ∈ Text.ofString "error: ", c.IsOrdinary := by decide +kernel
  rw [reported, plain_message]
  exact printed_of_ordinary
    (List.forall_mem_append.mpr ⟨hbegin, Markup.isOrdinary_plain_escape h⟩)

theorem line_inj {s t : Text} : line s = line t ↔ s = t := by
  simp [line]

/-! ## Faults in patterns -/

variable {fault : Pattern.SyntaxError}

theorem isOrdinary_name (fault : Pattern.Fault) : ∀ c ∈ fault.name, c.IsOrdinary := by
  cases fault <;> decide +kernel

theorem isOrdinary_message (fault : Pattern.SyntaxError) : ∀ c ∈ fault.message, c.IsOrdinary := by
  have hbegin : ∀ c ∈ Text.ofString "invalid pattern ", c.IsOrdinary := by decide +kernel
  have hcolon : ∀ c ∈ Text.ofString ": ", c.IsOrdinary := by decide +kernel
  have hplace : ∀ c ∈ Text.ofString " at byte ", c.IsOrdinary := by decide +kernel
  have hnumeral : ∀ c ∈ Numeral.ofNat fault.offset, c.IsOrdinary :=
    fun c hc => (Numeral.isPlain_ofNat _ c hc).1
  simp only [Pattern.SyntaxError.message, List.forall_mem_append]
  exact ⟨⟨⟨⟨⟨hbegin, Text.isOrdinary_quoted fault.text⟩, hcolon⟩, isOrdinary_name fault.fault⟩,
    hplace⟩, hnumeral⟩

/-- The message about a fault ends in the digits of a place. -/
theorem backslashesAtEnd_message (fault : Pattern.SyntaxError) :
    Markup.backslashesAtEnd fault.message = 0 := by
  obtain ⟨digits, last, hdigits⟩ : ∃ digits last, Numeral.ofNat fault.offset = digits ++ [last] :=
    ⟨_, _, (List.dropLast_append_getLast (Numeral.ofNat_ne_nil fault.offset)).symm⟩
  have hlast : last.isDigit = true :=
    Numeral.isDigit_of_mem_ofNat (hdigits ▸ List.mem_append_right digits List.mem_cons_self)
  have hne : last ≠ .char '\\' := by
    rintro rfl
    exact absurd hlast (by decide)
  rw [Pattern.SyntaxError.message, hdigits, ← List.append_assoc,
    Markup.backslashesAtEnd_append_cons hne]
  rfl

/-- A printable pattern is shown as it is above the caret. -/
theorem shown_eq (h : ∀ c ∈ fault.text, c.isPrintable = true) : fault.shown = fault.text := by
  have hchars : ∀ c ∈ fault.text, c.isSurrogate = false :=
    fun c hc => CodePoint.isSurrogate_of_isPrintable (h c hc)
  rw [Pattern.SyntaxError.shown, Text.restoredBytes_of_chars hchars, Utf8.decodeLossy_encode hchars]

theorem isOrdinary_caret (h : ∀ c ∈ fault.text, c.isPrintable = true) :
    ∀ c ∈ fault.caret, c.IsOrdinary := by
  have hblanks : ∀ c ∈ Text.repeated fault.column ' ', c.IsOrdinary :=
    fun c hc => List.eq_of_mem_replicate hc ▸ by decide
  have hnewline : ∀ c ∈ Text.ofString "\n", c.IsOrdinary := by decide +kernel
  have hcaret : ∀ c ∈ Text.ofString "^ ", c.IsOrdinary := by decide +kernel
  simp only [Pattern.SyntaxError.caret, shown_eq h, List.forall_mem_append]
  exact ⟨⟨⟨⟨fun c hc => CodePoint.isOrdinary_of_isPrintable (h c hc), hnewline⟩, hblanks⟩,
    hcaret⟩, isOrdinary_name fault.fault⟩

theorem report_pattern_eq [Markup.EmojiNames] (h : ∀ c ∈ fault.text, c.isPrintable = true) :
    report (.pattern fault) = line (Markup.plain (Markup.escape fault.message)) ++
      (Markup.replaceEmoji 0 fault.caret ++ Text.ofString "\n") := by
  have hreport : report (.pattern fault) =
      reported fault.message ++ printed (Markup.replaceEmoji 0 fault.caret) := rfl
  have hcaret := printed_of_ordinary (Markup.isOrdinary_replaceEmoji 0 (isOrdinary_caret h))
  rw [hreport, reported_eq (isOrdinary_message fault), hcaret]

/-! ## What is shown as it is -/

theorem replaceEmoji_eq_self_iff [Markup.EmojiNames] (t : Text) :
    Markup.replaceEmoji 0 t = t ↔ Markup.NamesNoEmoji t :=
  (Markup.replaceEmoji_eq_iff 0 t).2

theorem reported_eq_line_iff [Markup.EmojiNames] (h : ∀ c ∈ t, c.IsOrdinary) :
    reported t = line t ↔ Markup.IsInert t := by
  rw [reported_eq h, line_inj, Markup.plain_escape_eq_iff]

/-- The message and the caret both fade, so that one cannot make up for the other. -/
theorem report_pattern_eq_iff [Markup.EmojiNames] (h : ∀ c ∈ fault.text, c.isPrintable = true) :
    report (.pattern fault) = line fault.message ++ (fault.caret ++ Text.ofString "\n") ↔
      Markup.IsInert fault.message ∧ Markup.NamesNoEmoji fault.caret := by
  have hending : Markup.backslashesAtEnd fault.message ≠ 1 := by
    rw [backslashesAtEnd_message]
    decide
  have hmessage : Markup.Fades (line (Markup.plain (Markup.escape fault.message)))
      (line fault.message) :=
    ((Markup.Fades.refl _).append (Markup.fades_plain_escape hending)).append (Markup.Fades.refl _)
  have hcaret : Markup.Fades (Markup.replaceEmoji 0 fault.caret ++ Text.ofString "\n")
      (fault.caret ++ Text.ofString "\n") :=
    (Markup.replaceEmoji_eq_iff 0 fault.caret).1.append (Markup.Fades.refl _)
  rw [report_pattern_eq h, hmessage.append_eq_iff hcaret, line_inj, Markup.plain_escape_eq_iff,
    List.append_left_inj, replaceEmoji_eq_self_iff]

/-- **Reports.**  Whatever the dictionary of emoji, a message in printable characters is shown as it
is exactly if it is inert: if in none of its stretches a backslash stands before a bracket or two
colons enclose the name of an emoji, and no single backslash stands at its end.  Below a message
about a pattern stands the caret, which is shown as it is exactly if no two of its colons enclose
the name of an emoji.  Nothing else is reported about a failure. -/
theorem report_verbatim_iff [Markup.EmojiNames] (message : Text) (fault : Pattern.SyntaxError)
    (hmessage : ∀ c ∈ message, c.isPrintable = true)
    (hpattern : ∀ c ∈ fault.text, c.isPrintable = true) :
    (reported message = line message ↔ Markup.IsInert message) ∧
    (report (.pattern fault) = line fault.message ++ (fault.caret ++ Text.ofString "\n") ↔
      Markup.IsInert fault.message ∧ Markup.NamesNoEmoji fault.caret) ∧
    ∀ e : Command.RunError, e.report? = none ∨ e.report? = some e.reportText := by
  have hordinary : ∀ c ∈ message, c.IsOrdinary :=
    fun c hc => CodePoint.isOrdinary_of_isPrintable (hmessage c hc)
  exact ⟨reported_eq_line_iff hordinary, report_pattern_eq_iff hpattern,
    Command.RunError.report?_cases⟩

/-- Tags, two backslashes before one of them and a lone colon are shown as they are; names of emoji
in letters of any case are not, and below the message the line of the pattern loses them too. -/
theorem report_verbatim_tags :
    let _ : Markup.EmojiNames := .ofEntries [("heart", "❤"), ("x", "❌"), ("smile", "😄")]
    let fault : Pattern.SyntaxError := ⟨.emptyIdentifier, 2, "a..b"⟩
    let named : Pattern.SyntaxError := ⟨.emptyIdentifier, 0, "[:x:]"⟩
    (reported "[b] \\\\[i] a:b" = line "[b] \\\\[i] a:b" ∧
        report (.pattern fault) =
          line fault.message ++ (fault.caret ++ Text.ofString "\n")) ∧
      reported "key `:Heart:` not found" ≠ line "key `:Heart:` not found" ∧
        report (.pattern named) ≠
          line named.message ++ (named.caret ++ Text.ofString "\n") := by
  intro names fault named
  obtain ⟨hmessage, hfault, -⟩ := report_verbatim_iff "[b] \\\\[i] a:b" fault
    (by decide +kernel) (by decide +kernel)
  obtain ⟨hheart, hnamed, -⟩ := report_verbatim_iff "key `:Heart:` not found" named
    (by decide +kernel) (by decide +kernel)
  exact ⟨⟨hmessage.mpr (by decide +kernel), hfault.mpr (by decide +kernel)⟩,
    mt hheart.mp (by decide +kernel), mt hnamed.mp (by decide +kernel)⟩

/-- A key between two colons that is no key of the document: a face is reported instead. -/
theorem report_shows_emoji :
    let _ : Markup.EmojiNames := .ofEntries [("smile", "😄")]
    Value.navigate (.table []) ⟨[.field ":smile:"]⟩ =
        .error (.blocked ⟨⟨[]⟩, .keyNotFound ":smile:"⟩) ∧
      report (.navigation ⟨⟨[]⟩, .keyNotFound ":smile:"⟩) =
        line "at document root: key `😄` not found" ∧
      report (.navigation ⟨⟨[]⟩, .keyNotFound ":smile:"⟩) ≠
        line (NavigationError.message ⟨⟨[]⟩, .keyNotFound ":smile:"⟩) :=
  ⟨rfl, by decide +kernel, by decide +kernel⟩

end Display

end DocumentQuery
