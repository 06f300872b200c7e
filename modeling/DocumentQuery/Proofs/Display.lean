import DocumentQuery.Console.Display
import DocumentQuery.Proofs.Steady

/-!
# What the console shows

Highlighting changes nothing in a steady text, so a steady result is written in one way only,
whatever the choice of colour: with exactly one newline at its end.

A report begins with the word that marks errors.  The word stands between two tags, which show
nothing, and none of the steps from the markup to the stream touches it: it holds no colon before
another one, no newline, no tab and nothing that is dropped or escaped.
-/

namespace DocumentQuery

/-! ## Texts that stay as they are -/

theorem CodePoint.IsOrdinary.ne_of_control {c : CodePoint} (h : c.IsOrdinary) {control : Char}
    (hne : control ≠ '\n') (hcontrol : control.toNat < 0x20) : c ≠ .char control := by
  rintro rfl
  rcases h with heq | hlarge
  · exact hne (CodePoint.char.inj heq)
  · simp only [CodePoint.toNat_char] at hlarge
    omega

namespace Text

theorem normalizedNewlines_of_clean {t : Text} (h : .char '\r' ∉ t) : t.normalizedNewlines = t := by
  fun_induction Text.normalizedNewlines t with
  | case1 => exact absurd List.mem_cons_self h
  | case2 => exact absurd List.mem_cons_self h
  | case3 c rest _ _ ih => rw [ih fun hmem => h (List.mem_cons_of_mem c hmem)]
  | case4 => rfl

end Text

namespace Display

variable {t : Text}

theorem expandTabs_of_ordinary (h : ∀ c ∈ t, c.IsOrdinary) (stop column : Nat) :
    expandTabs stop column t = t := by
  induction t generalizing column with
  | nil => rfl
  | cons c rest ih =>
      obtain ⟨hc, hrest⟩ := List.forall_mem_cons.mp h
      rw [expandTabs]
      split
      · rw [ih hrest]
      · rw [if_neg (hc.ne_of_control (by decide) (by decide)), ih hrest]

theorem isDropped_of_ordinary {c : CodePoint} (h : c.IsOrdinary) : isDropped c = false := by
  have hne (control : Char) := @CodePoint.IsOrdinary.ne_of_control c h control
  simp [isDropped, hne]

theorem withoutByteOrderMark_of_head? (h : ∀ c ∈ t.head?, c ≠ .char '\uFEFF') :
    withoutByteOrderMark t = t := by
  unfold withoutByteOrderMark
  split
  · exact absurd rfl (h _ rfl)
  · rfl

theorem highlighted_of_isSteady (h : t.IsSteady) : highlighted t = t ++ Text.ofString "\n" := by
  have hordinary : ∀ c ∈ t ++ Text.ofString "\n", c.IsOrdinary :=
    List.forall_mem_append.mpr ⟨h.ordinary, by decide +kernel⟩
  have hclean : .char '\r' ∉ t ++ Text.ofString "\n" := fun hmem =>
    (hordinary _ hmem).ne_of_control (by decide) (by decide) rfl
  -- A newline is no tab, no dropped code point and no carriage return, so every step keeps it.
  rw [highlighted, expandTabs_of_ordinary h.ordinary, withoutByteOrderMark_of_head? h.head,
    Text.normalizedNewlines_of_clean hclean, List.filter_eq_self]
  intro c hc
  rw [isDropped_of_ordinary (hordinary c hc)]
  rfl

/-- A steady result is written with exactly one newline at its end, highlighted or not. -/
theorem emitted_of_isSteady (h : t.IsSteady) (color : ColorChoice) (terminal : Bool) :
    emitted color terminal t = t.dropEndWhile (· = .char '\n') ++ Text.ofString "\n" := by
  have hbody := h.of_prefix (Text.dropEndWhile_isPrefix (fun c => decide (c = .char '\n')) t)
  unfold emitted
  split
  · exact highlighted_of_isSteady hbody
  · rfl

/-! ## The beginning of a report -/

/-- The word that marks a report. -/
def mark : Text :=
  "error:"

/-- The tags around the word show nothing, and the word itself is no markup. -/
theorem mark_prefix_plain [Markup.EmojiNames] (t : Text) :
    mark <+: Markup.plain (Text.ofString "[bold red]error:[/] " ++ t) := by
  have htokens : Markup.tokens (Text.ofString "[bold red]error:[/] " ++ t) =
      .tag 0 (Text.ofString "bold red") :: (mark.map .plain ++
        .tag 0 (Text.ofString "/") :: Markup.tokensFrom 0 0 (.char ' ' :: t)) := rfl
  rw [Markup.plain, htokens]
  exact ⟨Markup.shownTokens [] (Markup.tokensFrom 0 0 (.char ' ' :: t)), rfl⟩

theorem split_ne_nil (separator : CodePoint) (t : Text) : t.split separator ≠ [] := by
  cases t with
  | nil => exact List.cons_ne_nil _ _
  | cons c t =>
      rw [Text.split, List.foldr_cons]
      split
      · exact List.cons_ne_nil _ _
      · split <;> exact List.cons_ne_nil _ _

/-- What holds no separator belongs to the first part. -/
theorem exists_split_append {separator : CodePoint} {s : Text} (h : separator ∉ s) (t : Text) :
    ∃ part rest, (s ++ t).split separator = (s ++ part) :: rest := by
  induction s with
  | nil => exact List.exists_cons_of_ne_nil (split_ne_nil separator t)
  | cons c s ih =>
      rw [List.mem_cons, not_or] at h
      obtain ⟨part, rest, hsplit⟩ := ih h.2
      refine ⟨part, rest, ?_⟩
      rw [Text.split] at hsplit
      rw [Text.split, List.cons_append, List.foldr_cons, hsplit]
      exact if_neg (Ne.symm h.1)

theorem prefix_filled (stop : Nat) (part : Text) : part <+: filled stop part := by
  unfold filled
  exact (List.prefix_append part _).trans (List.prefix_append _ _)

theorem prefix_alignedLine {s line : Text} (h : s <+: line) (htab : .char '\t' ∉ s) (stop : Nat) :
    s <+: alignedLine stop line := by
  obtain ⟨t, rfl⟩ := h
  obtain ⟨part, rest, hsplit⟩ := exists_split_append htab t
  unfold alignedLine
  rw [hsplit]
  cases rest with
  | nil => exact List.prefix_append s part
  | cons second rest =>
      dsimp only
      rw [List.dropLast_cons_cons, List.flatMap_cons, List.append_assoc]
      exact ((List.prefix_append s part).trans (prefix_filled stop _)).trans
        (List.prefix_append _ _)

theorem prefix_aligned {s t : Text} (h : s <+: t) (hnewline : .char '\n' ∉ s)
    (htab : .char '\t' ∉ s) (stop : Nat) : s <+: aligned stop t := by
  obtain ⟨t, rfl⟩ := h
  obtain ⟨part, rest, hsplit⟩ := exists_split_append hnewline t
  have hline := prefix_alignedLine (List.prefix_append s part) htab stop
  obtain ⟨more, hmore⟩ := Text.exists_joined_eq_append (Text.ofString "\n")
    (alignedLine stop (s ++ part)) (rest.map (alignedLine stop))
  rw [aligned, hsplit, List.map_cons, hmore]
  exact hline.trans (List.prefix_append _ _)

theorem mark_prefix_printed {t : Text} (h : mark <+: t) : mark <+: printed t := by
  obtain ⟨t, rfl⟩ := h
  have hshown : mark.filter (fun c => !isDropped c) = mark := by decide +kernel
  rw [printed, List.filter_append, hshown]
  exact (prefix_aligned (List.prefix_append mark _) (by decide +kernel) (by decide +kernel) 8).trans
    (List.prefix_append _ _)

theorem mark_prefix_reported [Markup.EmojiNames] (message : Text) : mark <+: reported message :=
  mark_prefix_printed (mark_prefix_plain (Markup.escape message))

theorem mark_prefix_report [Markup.EmojiNames] (e : Failure) : mark <+: report e := by
  cases e with
  | pattern e => exact (mark_prefix_reported e.message).trans (List.prefix_append _ _)
  | _ => exact mark_prefix_reported _

/-- No surrogate is in the mark, so it stays when surrogates are escaped. -/
theorem mark_prefix_withoutSurrogates {t : Text} (h : mark <+: t) :
    mark <+: withoutSurrogates t := by
  obtain ⟨t, rfl⟩ := h
  have hmark : withoutSurrogates mark = mark := by decide +kernel
  rw [withoutSurrogates, List.flatMap_append]
  rw [withoutSurrogates] at hmark
  rw [hmark]
  exact List.prefix_append _ _

end Display

end DocumentQuery
