import DocumentQuery.Text.Basic
import Mathlib.Data.List.TakeWhile
import Mathlib.Data.List.DropRight

/-!
# Runs and blanks in texts

A reader takes the longest run of code points of some class, so a run is found again in a longer
text if what follows it begins with no member of the class.  Trimming takes two such runs of blanks
away and leaves a text alone that neither begins nor ends with a blank.  So blanks that are put
around a text are gone once it is trimmed.
-/

namespace DocumentQuery

namespace CodePoint

/-- The code point is a visible character of ASCII. -/
def IsVisible (c : CodePoint) : Prop :=
  33 ≤ c.toNat ∧ c.toNat ≤ 126

instance (c : CodePoint) : Decidable c.IsVisible :=
  inferInstanceAs (Decidable (_ ∧ _))

/-- A code point that may stand in a bare key is visible. -/
theorem isVisible_of_isBare {c : CodePoint} (h : c.isBare = true) : c.IsVisible := by
  cases c with
  | surrogate d => exact absurd h Bool.false_ne_true
  | char c =>
      simp only [isBare] at h
      delta Char.isAlphanum Char.isAlpha Char.isUpper Char.isLower Char.isDigit at h
      simp only [Bool.or_eq_true, Bool.and_eq_true, decide_eq_true_eq, ge_iff_le,
        UInt32.le_iff_toNat_le] at h
      simp only [IsVisible, toNat_char, Char.toNat]
      rcases h with (((hrange | hrange) | hrange) | rfl) | rfl
      · change 65 ≤ _ ∧ _ ≤ 90 at hrange
        omega
      · change 97 ≤ _ ∧ _ ≤ 122 at hrange
        omega
      · change 48 ≤ _ ∧ _ ≤ 57 at hrange
        omega
      · decide
      · decide

theorem isBlank_of_isVisible {c : CodePoint} (h : c.IsVisible) : c.isBlank = false := by
  obtain ⟨hleast, hgreatest⟩ := h
  simp only [isBlank, Bool.or_eq_false_iff, Bool.and_eq_false_iff, decide_eq_false_iff_not]
  omega

theorem isBlank_of_isBare {c : CodePoint} (h : c.isBare = true) : c.isBlank = false :=
  isBlank_of_isVisible (isVisible_of_isBare h)

theorem isBare_of_isDigit {c : CodePoint} (h : c.isDigit = true) : c.isBare = true := by
  cases c with
  | surrogate d => exact absurd h Bool.false_ne_true
  | char c =>
      have hdigit : c.isDigit = true := h
      simp [isBare, Char.isAlphanum, hdigit]

theorem isSurrogate_of_toNat_lt {c : CodePoint} (h : c.toNat < 0xD800) : c.isSurrogate = false := by
  cases c with
  | char c => rfl
  | surrogate d =>
      rw [toNat_surrogate] at h
      omega

theorem isSurrogate_of_isVisible {c : CodePoint} (h : c.IsVisible) : c.isSurrogate = false :=
  isSurrogate_of_toNat_lt (Nat.lt_of_le_of_lt h.2 (by decide))

theorem isSurrogate_of_isBlank {c : CodePoint} (h : c.isBlank = true) : c.isSurrogate = false := by
  apply isSurrogate_of_toNat_lt
  simp only [isBlank, Bool.or_eq_true, Bool.and_eq_true, decide_eq_true_eq] at h
  omega

theorem hexValue?_digitChar {d : Nat} (h : d < 16) : (char d.digitChar).hexValue? = some d := by
  have hall : ∀ d < 16, (char d.digitChar).hexValue? = some d := by decide
  exact hall d h

end CodePoint

namespace Text

theorem hex_four (n : Nat) :
    hex 4 n = [.char (n / 16 / 16 / 16 % 16).digitChar, .char (n / 16 / 16 % 16).digitChar,
      .char (n / 16 % 16).digitChar, .char (n % 16).digitChar] := rfl

theorem joined_singleton (separator part : Text) : joined separator [part] = part := by
  simp [joined]

theorem joined_cons_cons (separator first second : Text) (rest : List Text) :
    joined separator (first :: second :: rest) =
      first ++ (separator ++ joined separator (second :: rest)) := by
  simp [joined]

theorem exists_joined_eq_append (separator first : Text) (rest : List Text) :
    ∃ more, joined separator (first :: rest) = first ++ more := by
  cases rest with
  | nil => exact ⟨[], by rw [joined_singleton, List.append_nil]⟩
  | cons second rest => exact ⟨_, joined_cons_cons separator first second rest⟩

variable {p : CodePoint → Bool} {run rest t : Text}

theorem takeWhile_eq_nil (h : ∀ c ∈ t.head?, p c = false) : t.takeWhile p = [] := by
  cases t with
  | nil => rfl
  | cons c t => simp [h c rfl]

theorem dropWhile_eq_self (h : ∀ c ∈ t.head?, p c = false) : t.dropWhile p = t := by
  cases t with
  | nil => rfl
  | cons c t => simp [h c rfl]

theorem takeWhile_run_append (hrun : ∀ c ∈ run, p c = true)
    (hrest : ∀ c ∈ rest.head?, p c = false) :
    (run ++ rest).takeWhile p = run := by
  rw [List.takeWhile_append_of_pos hrun, takeWhile_eq_nil hrest, List.append_nil]

theorem dropWhile_run_append (hrun : ∀ c ∈ run, p c = true)
    (hrest : ∀ c ∈ rest.head?, p c = false) :
    (run ++ rest).dropWhile p = rest := by
  rw [List.dropWhile_append_of_pos hrun, dropWhile_eq_self hrest]

theorem head?_dropWhile (p : CodePoint → Bool) (t : Text) :
    ∀ c ∈ (t.dropWhile p).head?, p c = false := by
  intro c hc
  have hnot := List.head?_dropWhile_not p t
  rwa [hc] at hnot

/-- What is dropped first would be dropped anyway. -/
theorem dropWhile_dropWhile {q : CodePoint → Bool} (h : ∀ c, p c = true → q c = true) (t : Text) :
    (t.dropWhile p).dropWhile q = t.dropWhile q := by
  induction t with
  | nil => rfl
  | cons c t ih =>
      by_cases hc : p c = true
      · rw [List.dropWhile_cons_of_pos hc, List.dropWhile_cons_of_pos (h c hc), ih]
      · rw [List.dropWhile_cons_of_neg hc]

/-- If two texts end well, so does one after the other. -/
theorem getLast?_append {P : CodePoint → Prop} {a b : Text} (ha : ∀ c ∈ a.getLast?, P c)
    (hb : ∀ c ∈ b.getLast?, P c) : ∀ c ∈ (a ++ b).getLast?, P c := by
  intro c hc
  rw [List.getLast?_append] at hc
  cases hlast : b.getLast? with
  | none => exact ha c (by simpa [hlast] using hc)
  | some d => exact hb c (by simpa [hlast] using hc)

theorem getLast?_flatMap {α : Type} {P : CodePoint → Prop} {parts : List α} {f : α → Text}
    (h : ∀ part ∈ parts, ∀ c ∈ (f part).getLast?, P c) :
    ∀ c ∈ (parts.flatMap f).getLast?, P c := by
  induction parts with
  | nil => intro c hc; cases hc
  | cons part parts ih =>
      rw [List.flatMap_cons]
      exact getLast?_append (h part List.mem_cons_self)
        (ih fun other hother => h other (List.mem_cons_of_mem part hother))

theorem infix_flatMap {α : Type} {a : α} {parts : List α} {f : α → Text} (h : a ∈ parts) :
    f a <:+: parts.flatMap f := by
  rw [List.flatMap_def]
  exact List.infix_of_mem_flatten (List.mem_map_of_mem h)

theorem dropEndWhile_isPrefix (p : CodePoint → Bool) (t : Text) : dropEndWhile p t <+: t := by
  rw [dropEndWhile, ← List.reverse_suffix, List.reverse_reverse]
  exact List.dropWhile_suffix p

/-- No code point of the kind that is dropped is left at the end. -/
theorem getLast?_dropEndWhile (p : CodePoint → Bool) (t : Text) :
    ∀ c ∈ (dropEndWhile p t).getLast?, p c = false := by
  rw [dropEndWhile, List.getLast?_reverse]
  exact head?_dropWhile p t.reverse

/-- What is dropped at the end is a run of the code point that may be dropped. -/
theorem exists_dropEndWhile_append (c : CodePoint) (t : Text) :
    ∃ count, dropEndWhile (· = c) t ++ repeated count c = t := by
  let dropped := t.rtakeWhile (· = c)
  have hrun : ∀ d ∈ dropped, d = c := by
    intro d hd
    simpa using List.mem_rtakeWhile_imp hd
  refine ⟨dropped.length, ?_⟩
  rw [repeated, ← List.eq_replicate_of_mem hrun]
  exact List.rdropWhile_append_rtakeWhile

/-- Nothing is dropped at the end of a text that does not end with what is dropped. -/
theorem dropEndWhile_eq_self (h : ∀ c ∈ t.getLast?, p c = false) : dropEndWhile p t = t := by
  rw [dropEndWhile, dropWhile_eq_self, List.reverse_reverse]
  rwa [List.head?_reverse]

/-- A run of what is dropped makes no difference at the end of a text. -/
theorem dropEndWhile_append_run (hrun : ∀ c ∈ run, p c = true) (t : Text) :
    dropEndWhile p (t ++ run) = dropEndWhile p t := by
  rw [dropEndWhile, List.reverse_append,
    List.dropWhile_append_of_pos fun c hc => hrun c (List.mem_reverse.mp hc)]
  rfl

/-- Trimming takes blanks away before a text and behind it. -/
theorem exists_trim_append (t : Text) :
    ∃ before after, before ++ t.trim ++ after = t ∧ (∀ c ∈ before, c.isBlank = true) ∧
      (∀ c ∈ after, c.isBlank = true) ∧ before.length = t.length - t.trimStart.length := by
  let after := t.trimStart.rtakeWhile CodePoint.isBlank
  have hend : t.trim ++ after = t.trimStart := List.rdropWhile_append_rtakeWhile
  have hstart : t.takeWhile CodePoint.isBlank ++ t.trimStart = t :=
    List.takeWhile_append_dropWhile
  refine ⟨t.takeWhile CodePoint.isBlank, after, ?_, fun c hc => List.mem_takeWhile_imp hc,
    fun c hc => List.mem_rtakeWhile_imp hc, ?_⟩
  · rw [List.append_assoc, hend, hstart]
  · have hlength := congrArg List.length hstart
    rw [List.length_append] at hlength
    omega

theorem trim_isInfix (t : Text) : t.trim <:+: t := by
  obtain ⟨before, after, hwhole, -⟩ := exists_trim_append t
  exact ⟨before, after, hwhole⟩

/-- Trimming leaves a text alone that neither begins nor ends with a blank. -/
theorem trim_eq_self (hfirst : ∀ c ∈ t.head?, c.isBlank = false)
    (hlast : ∀ c ∈ t.getLast?, c.isBlank = false) : t.trim = t := by
  have hstart : t.trimStart = t := dropWhile_eq_self hfirst
  rw [trim, hstart, trimEnd, dropEndWhile_eq_self hlast]

/-- Trimming takes nothing away behind a text that does not end with a blank. -/
theorem exists_append_trim (hlast : ∀ c ∈ t.getLast?, c.isBlank = false) :
    ∃ before, t = before ++ t.trim ∧ ∀ c ∈ before, c.isBlank = true := by
  obtain ⟨before, after, hwhole, hbefore, hafter, -⟩ := exists_trim_append t
  refine ⟨before, ?_, hbefore⟩
  rcases List.eq_nil_or_concat after with rfl | ⟨front, c, rfl⟩
  · rw [List.append_nil] at hwhole
    exact hwhole.symm
  · rw [List.concat_eq_append] at hwhole hafter
    have hc : c ∈ t.getLast? := by
      rw [← hwhole, ← List.append_assoc, List.getLast?_concat]
      rfl
    have hblank := hafter c (List.mem_append_right front List.mem_cons_self)
    rw [hlast c hc] at hblank
    cases hblank

/-- Trimming takes nothing away before a text that does not begin with a blank. -/
theorem exists_trim_append_of_head? (hfirst : ∀ c ∈ t.head?, c.isBlank = false) :
    ∃ after, t = t.trim ++ after ∧ ∀ c ∈ after, c.isBlank = true := by
  obtain ⟨before, after, hwhole, hbefore, hafter, -⟩ := exists_trim_append t
  refine ⟨after, ?_, hafter⟩
  cases before with
  | nil => exact hwhole.symm
  | cons c before =>
      have hblank := hbefore c List.mem_cons_self
      rw [← hwhole] at hfirst
      rw [hfirst c rfl] at hblank
      cases hblank

/-! ### Blanks around a text -/

section

variable {before after : Text}

/-- Unless a text is blank, trimming it at the beginning leaves alone what follows it. -/
theorem trimStart_padded (hbefore : ∀ c ∈ before, c.isBlank = true) (ht : t.trimStart ≠ [])
    (after : Text) : (before ++ t ++ after).trimStart = t.trimStart ++ after := by
  have hne : ¬(t.dropWhile CodePoint.isBlank).isEmpty = true := mt List.isEmpty_iff.mp ht
  rw [trimStart, List.append_assoc, List.dropWhile_append_of_pos hbefore, List.dropWhile_append,
    if_neg hne]
  rfl

/-- Blanks around a text make no difference once it is trimmed. -/
theorem trim_padded (hbefore : ∀ c ∈ before, c.isBlank = true)
    (hafter : ∀ c ∈ after, c.isBlank = true) (t : Text) : (before ++ t ++ after).trim = t.trim := by
  by_cases ht : t.trimStart = []
  · have hblank : ∀ c ∈ t, c.isBlank = true := List.dropWhile_eq_nil_iff.mp ht
    have hall : (before ++ t ++ after).trimStart = [] := by
      rw [trimStart, List.dropWhile_eq_nil_iff]
      exact List.forall_mem_append.mpr ⟨List.forall_mem_append.mpr ⟨hbefore, hblank⟩, hafter⟩
    rw [trim, trim, hall, ht]
  · rw [trim, trim, trimStart_padded hbefore ht]
    exact dropEndWhile_append_run hafter t.trimStart

end

end Text

end DocumentQuery
