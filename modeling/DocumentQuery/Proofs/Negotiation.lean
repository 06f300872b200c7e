import DocumentQuery.Proofs.Loading
import DocumentQuery.Proofs.Toml.Documents
import Mathlib.Data.List.Chain

/-!
# Texts of two formats

A text announced as JSON is read as TOML if it is no JSON.  The order of the two attempts could
matter only for a text that both readers accept, and such a text is a JSON array: after the white
space at its beginning TOML asks for a key with an equals sign, a header or a comment, and of the
values of JSON only an array begins like one of them.

A JSON string may begin like a quoted key, so the two readers of strings are compared step by step.
They agree where the string ends, and no equals sign follows it.

What is told about a text of neither format is the fault in the JSON.  The exception are numbers
whose digits underscores keep apart: the TOML reader stops at one that is too long although no run
of digits in the text is.
-/

namespace DocumentQuery

namespace Text

theorem unixNewlines_cons {c : CodePoint} (hc : c ≠ .char '\r') (t : Text) :
    unixNewlines (c :: t) = c :: unixNewlines t := by
  rw [unixNewlines]
  exact fun _ h => absurd h hc

theorem mem_of_mem_unixNewlines {c : CodePoint} {t : Text} (h : c ∈ t.unixNewlines) : c ∈ t := by
  fun_induction unixNewlines t with
  | case1 rest ih =>
      rcases List.mem_cons.mp h with rfl | hrest
      · exact List.mem_cons_of_mem _ List.mem_cons_self
      · exact List.mem_cons_of_mem _ (List.mem_cons_of_mem _ (ih hrest))
  | case2 d rest _ ih =>
      rcases List.mem_cons.mp h with rfl | hrest
      · exact List.mem_cons_self
      · exact List.mem_cons_of_mem _ (ih hrest)
  | case3 => exact h

end Text

namespace Json

theorem skipSpace_unixNewlines (t : Text) :
    skipSpace t.unixNewlines = (skipSpace t).unixNewlines := by
  fun_induction Text.unixNewlines t with
  | case1 rest ih => exact ih
  | case2 c rest hc ih =>
      by_cases hspace : isSpace c = true
      · have hdrop (rest : Text) : skipSpace (c :: rest) = skipSpace rest :=
          List.dropWhile_cons_of_pos hspace
        rw [hdrop, hdrop, ih]
      · have hne : c ≠ .char '\r' := by
          rintro rfl
          exact hspace rfl
        rw [skipSpace, List.dropWhile_cons_of_neg hspace, skipSpace,
          List.dropWhile_cons_of_neg hspace, Text.unixNewlines_cons hne]
  | case3 => rfl

end Json

namespace Toml

/-- A pair has an equals sign after its key. -/
theorem mem_of_readPair {d after : Draft} {t rest : Text} (h : readPair d t = .ok (after, rest)) :
    .char '=' ∈ t := by
  obtain ⟨⟨path, afterKey⟩, hkey, hrest⟩ := exists_of_bind_eq_ok h
  obtain ⟨start, hequals, -⟩ := exists_of_bind_eq_ok hrest
  have hsuffix : afterKey <:+ t := (readKey_proper t).leaves _ _ hkey
  unfold readEquals at hequals
  split at hequals
  · exact hsuffix.mem List.mem_cons_self
  · cases hequals

/-- If the key of a pair is quoted, the equals sign stands after the closing quote. -/
theorem exists_readBasic_of_readPair {d after : Draft} {t rest : Text}
    (h : readPair d (.char '"' :: t) = .ok (after, rest)) :
    ∃ part unread, readBasic false .text t = .ok (part, unread) ∧ .char '=' ∈ unread := by
  obtain ⟨⟨path, afterKey⟩, hkey, hrest⟩ := exists_of_bind_eq_ok h
  obtain ⟨start, hequals, -⟩ := exists_of_bind_eq_ok hrest
  obtain ⟨⟨part, unread⟩, hpart, hparts⟩ := exists_of_bind_eq_ok hkey
  refine ⟨part, unread, hpart, ?_⟩
  have hsuffix : afterKey <:+ unread := by
    refine List.IsSuffix.trans ?_ (skipBlanks_suffix unread)
    dsimp only at hparts
    split at hparts
    · rename_i more heq
      obtain ⟨⟨parts, last⟩, hmore, hpair⟩ := exists_of_bind_eq_ok hparts
      cases hpair
      rw [heq]
      exact ((readKeyParts_proper _ _).leaves _ _ hmore).trans
        ((skipBlanks_suffix more).trans (List.suffix_cons _ more))
    · cases hparts
      exact List.suffix_refl _
  unfold readEquals at hequals
  split at hequals
  · exact hsuffix.mem List.mem_cons_self
  · cases hequals

/-- The first statement of a document stands after blanks and newlines. -/
theorem exists_readStatement {count : Nat} {d after : Draft} {t : Text} (hcount : t.length < count)
    (h : readStatements count d t = .ok after) :
    t.dropWhile isSpace = [] ∨
      ∃ next rest, readStatement d (t.dropWhile isSpace) = .ok (next, rest) := by
  induction count generalizing t with
  | zero => omega
  | succ count ih =>
      have hblank : ∀ c, isBlank c = true → isSpace c = true := by
        intro c hc
        simp [isSpace, hc]
      have hskip : (skipBlanks t).dropWhile isSpace = t.dropWhile isSpace :=
        Text.dropWhile_dropWhile hblank t
      have hhead : ∀ c ∈ (skipBlanks t).head?, isBlank c = false := Text.head?_dropWhile isBlank t
      have hlength := (skipBlanks_suffix t).length_le
      unfold readStatements at h
      rw [← hskip]
      generalize skipBlanks t = start at h hhead hlength
      split at h
      · exact Or.inl rfl
      · rename_i rest
        rw [List.length_cons] at hlength
        have hdrop : (.char '\n' :: rest : Text).dropWhile isSpace = rest.dropWhile isSpace := rfl
        rw [hdrop]
        exact ih (by omega) h
      · rename_i hnil hnewline
        have hspace : ∀ c ∈ start.head?, isSpace c = false := by
          intro c hc
          obtain ⟨more, rfl⟩ := List.head?_eq_some_iff.mp hc
          have hne : c ≠ .char '\n' := fun heq => hnewline more (by rw [heq])
          simp [isSpace, hhead c rfl, hne]
        obtain ⟨⟨next, rest⟩, hstatement, -⟩ := exists_of_bind_eq_ok h
        rw [Text.dropWhile_eq_self hspace]
        exact Or.inr ⟨next, rest, hstatement⟩

end Toml

/-! ## Strings of both formats -/

theorem CodePoint.ne_return_of_hexValue? {c : CodePoint} {n : Nat} (h : c.hexValue? = some n) :
    c ≠ .char '\r' := by
  rintro rfl
  cases h

namespace Json

open Toml (readBasic prepend exists_of_prepend)

theorem exists_of_readChars_bind {whole t s rest : Text} {c : CodePoint}
    (h : (readChars whole t >>= fun (s, after) => .ok (c :: s, after)) = .ok (s, rest)) :
    ∃ s', readChars whole t = .ok (s', rest) := by
  obtain ⟨⟨s', after⟩, hread, hpair⟩ := exists_of_bind_eq_ok h
  cases hpair
  exact ⟨s', hread⟩

section

variable {t u rest : Text}

theorem exists_of_readBasic_plain {c : CodePoint} (hquote : c ≠ .char '"')
    (hbackslash : c ≠ .char '\\') (hreturn : c ≠ .char '\r')
    (h : readBasic false .text (Text.unixNewlines (c :: t)) = .ok (u, rest)) :
    ∃ u', readBasic false .text t.unixNewlines = .ok (u', rest) := by
  rw [Text.unixNewlines_cons hreturn, Toml.readBasic_plain hquote hbackslash] at h
  split at h
  · cases h
  · exact exists_of_prepend h

theorem exists_of_readBasic_letter {c : CodePoint} (hu : c ≠ .char 'u') (hU : c ≠ .char 'U')
    (hreturn : c ≠ .char '\r')
    (h : readBasic false .text (Text.unixNewlines (.char '\\' :: c :: t)) = .ok (u, rest)) :
    ∃ u', readBasic false .text t.unixNewlines = .ok (u', rest) := by
  rw [Text.unixNewlines_cons (by decide), Text.unixNewlines_cons hreturn,
    Toml.readBasic_letter hu hU] at h
  split at h
  · cases h
  · exact exists_of_prepend h

theorem exists_of_readBasic_hex {a b c d : CodePoint} {n : Nat}
    (hvalue : hexValue? a b c d = some n)
    (h : readBasic false .text
        (Text.unixNewlines (.char '\\' :: .char 'u' :: a :: b :: c :: d :: t)) =
      .ok (u, rest)) :
    ∃ u', readBasic false .text t.unixNewlines = .ok (u', rest) := by
  simp only [hexValue?, Option.bind_eq_bind, Option.bind_eq_some_iff] at hvalue
  obtain ⟨_, ha, _, hb, _, hc, _, hd, -⟩ := hvalue
  rw [Text.unixNewlines_cons (by decide), Text.unixNewlines_cons (by decide),
    Text.unixNewlines_cons (CodePoint.ne_return_of_hexValue? ha),
    Text.unixNewlines_cons (CodePoint.ne_return_of_hexValue? hb),
    Text.unixNewlines_cons (CodePoint.ne_return_of_hexValue? hc),
    Text.unixNewlines_cons (CodePoint.ne_return_of_hexValue? hd), Toml.readBasic_hex] at h
  split at h
  · cases h
  · exact exists_of_prepend h

end

theorem hexValue?_of_if {a b c d : CodePoint} {t : Text} {n : Nat}
    (h : (if t.isEmpty then none else hexValue? a b c d) = some n) :
    hexValue? a b c d = some n := by
  split at h
  · cases h
  · exact h

/-- A string ends at the same place for both readers, if both accept it. -/
theorem rest_eq_of_readBasic {whole t s rest : Text} (hjson : readChars whole t = .ok (s, rest))
    {u after : Text} (htoml : readBasic false .text t.unixNewlines = .ok (u, after)) :
    after = rest.unixNewlines := by
  -- The induction is on the steps of the first reader; the other one takes the same steps.
  fun_induction readChars whole t generalizing s u with
  | case1 => cases hjson
  | case2 tail =>
      cases hjson
      rw [Text.unixNewlines_cons (by decide), Toml.readBasic_quote] at htoml
      cases htoml
      rfl
  | case3 => cases hjson
  | case4 => cases hjson
  | case5 a b c d n e f g h rest _ hn alone =>
      rename_i ih
      obtain ⟨s', hread⟩ := exists_of_readChars_bind hjson
      obtain ⟨u', hread'⟩ := exists_of_readBasic_hex (hexValue?_of_if hn) htoml
      exact ih hread hread'
  | case6 a b c d n e f g h rest m hm _ hn _ ih =>
      -- The other reader takes the two escapes of a pair one by one.
      obtain ⟨s', hread⟩ := exists_of_readChars_bind hjson
      obtain ⟨u', hread'⟩ := exists_of_readBasic_hex (hexValue?_of_if hn) htoml
      obtain ⟨u'', hread''⟩ := exists_of_readBasic_hex (hexValue?_of_if hm) hread'
      exact ih hread hread''
  | case7 a b c d n e f g h rest m _ _ hn alone =>
      rename_i ih
      obtain ⟨s', hread⟩ := exists_of_readChars_bind hjson
      obtain ⟨u', hread'⟩ := exists_of_readBasic_hex (hexValue?_of_if hn) htoml
      exact ih hread hread'
  | case8 a b c d rest n hn alone _ =>
      rename_i ih
      obtain ⟨s', hread⟩ := exists_of_readChars_bind hjson
      obtain ⟨u', hread'⟩ := exists_of_readBasic_hex (hexValue?_of_if hn) htoml
      exact ih hread hread'
  | case9 => cases hjson
  | case10 => cases hjson
  | case11 c tail _ hu meant hmeant ih =>
      obtain ⟨s', hread⟩ := exists_of_readChars_bind hjson
      have hne {e : CodePoint} (he : unescape? e = none) : c ≠ e := by
        rintro rfl
        rw [hmeant] at he
        cases he
      obtain ⟨u', hread'⟩ := exists_of_readBasic_letter hu (hne rfl) (hne rfl) htoml
      exact ih hread hread'
  | case12 => cases hjson
  | case13 c tail hquote hend _ _ hescape hcontrol ih =>
      obtain ⟨s', hread⟩ := exists_of_readChars_bind hjson
      have hbackslash : c ≠ .char '\\' := by
        intro hc
        cases tail with
        | nil => exact hend hc rfl
        | cons d more => exact hescape d more hc rfl
      have hreturn : c ≠ .char '\r' := by
        rintro rfl
        exact hcontrol (by decide)
      obtain ⟨u', hread'⟩ := exists_of_readBasic_plain hquote hbackslash hreturn htoml
      exact ih hread hread'

theorem isSpace_of_skipSpace_eq_nil {t : Text} (h : skipSpace t = []) :
    ∀ c ∈ t, isSpace c = true :=
  List.dropWhile_eq_nil_iff.mp h

theorem not_mem_equals {t : Text} (h : skipSpace t = []) : .char '=' ∉ t := by
  intro hmem
  exact absurd (isSpace_of_skipSpace_eq_nil h _ hmem) (by decide)

/-- Where a value of JSON stands, no statement can stand unless the value is an array. -/
theorem isArray_of_readStatement {fuel : Nat} {t rest : Text} {v : Value}
    (hvalue : readValue fuel t = .ok (v, rest)) (hend : skipSpace rest = [])
    (hhead : ∀ c ∈ t.head?, isSpace c = false) {d after : Toml.Draft} {unread : Text}
    (hstatement : Toml.readStatement d t.unixNewlines = .ok (after, unread)) :
    ∃ items, v = .array .list items := by
  cases fuel with
  | zero => cases hvalue
  | succ fuel =>
      unfold readValue at hvalue
      split at hvalue
      · rename_i tail
        obtain ⟨⟨s, last⟩, hchars, hpair⟩ := exists_of_bind_eq_ok hvalue
        cases hpair
        rw [Text.unixNewlines_cons (by decide)] at hstatement
        obtain ⟨part, unread, hbasic, hmem⟩ := Toml.exists_readBasic_of_readPair hstatement
        rw [rest_eq_of_readBasic hchars hbasic] at hmem
        exact absurd (Text.mem_of_mem_unixNewlines hmem) (not_mem_equals hend)
      · split at hvalue
        · cases hvalue
          exact ⟨_, rfl⟩
        · obtain ⟨⟨items, last⟩, -, hpair⟩ := exists_of_bind_eq_ok hvalue
          cases hpair
          exact ⟨items, rfl⟩
      · rw [Text.unixNewlines_cons (by decide)] at hstatement
        cases hstatement
      · rename_i hquote hbracket hbrace
        obtain ⟨⟨passed, hpassed, hnone⟩, -⟩ := passes_of_readAtom hvalue
        have hmem : .char '=' ∉ t := by
          rw [hpassed]
          exact fun h => (List.mem_append.mp h).elim hnone (not_mem_equals hend)
        cases t with
        | nil => cases hvalue
        | cons c more =>
            have hreturn : c ≠ .char '\r' := by
              rintro rfl
              exact absurd (hhead _ rfl) (by decide)
            rw [Text.unixNewlines_cons hreturn] at hstatement
            unfold Toml.readStatement at hstatement
            split at hstatement
            · rename_i heq
              cases heq
            · rename_i heq
              exact absurd (by rw [(List.cons.inj heq).1]) (hbracket more)
            · rename_i heq
              exact absurd (by rw [(List.cons.inj heq).1]) (hbracket more)
            · rename_i heq
              cases heq
              split at hstatement
              · have hequals := Toml.mem_of_readPair hstatement
                rw [← Text.unixNewlines_cons hreturn] at hequals
                exact absurd (Text.mem_of_mem_unixNewlines hequals) hmem
              · split at hstatement
                · rename_i hsharp
                  rw [hsharp] at hvalue
                  cases hvalue
                · cases hstatement

/-- **Only arrays are read in both formats.** -/
theorem isArray_of_both {t : Text} {v : Value} {entries : Entries} (hjson : read t = .ok v)
    (htoml : Toml.read t = .ok entries) : ∃ items, v = .array .list items := by
  obtain ⟨fuel, rest, hvalue, hend⟩ := exists_readValue_of_read hjson
  have hhead : ∀ c ∈ (skipSpace t).head?, isSpace c = false := Text.head?_dropWhile isSpace t
  -- Both readers skip white space first; what is left begins with the same code point.
  have himp : ∀ c, Toml.isSpace c = true → isSpace c = true := by
    intro c hc
    simp only [Toml.isSpace, Toml.isBlank, Bool.or_eq_true, decide_eq_true_eq] at hc
    rcases hc with (rfl | rfl) | rfl
    · rfl
    · rfl
    · rfl
  have hskip : skipSpace (t.unixNewlines.dropWhile Toml.isSpace) = (skipSpace t).unixNewlines :=
    (Text.dropWhile_dropWhile himp t.unixNewlines).trans (skipSpace_unixNewlines t)
  obtain ⟨d, hstatements, -⟩ := Toml.exists_draft_of_read htoml
  rcases Toml.exists_readStatement (Nat.lt_succ_self _) hstatements with
    hnil | ⟨next, unread, hstatement⟩
  · rw [hnil] at hskip
    cases hvalueText : skipSpace t with
    | nil =>
        rw [hvalueText] at hvalue
        cases fuel with
        | zero => cases hvalue
        | succ fuel => cases hvalue
    | cons c more =>
        rw [hvalueText] at hskip hhead
        have hreturn : c ≠ .char '\r' := by
          rintro rfl
          exact absurd (hhead _ rfl) (by decide)
        rw [Text.unixNewlines_cons hreturn] at hskip
        cases hskip
  · have htomlHead := Text.head?_dropWhile Toml.isSpace t.unixNewlines
    generalize t.unixNewlines.dropWhile Toml.isSpace = start at hskip hstatement htomlHead
    have hjsonHead : ∀ c ∈ start.head?, isSpace c = false := by
      intro c hc
      by_contra hspace
      have hreturn : c = .char '\r' := by
        have htomlSpace := htomlHead c hc
        simp only [Toml.isSpace, Toml.isBlank, Bool.or_eq_false_iff, decide_eq_false_iff_not]
          at htomlSpace
        simp only [Bool.not_eq_false, isSpace, Bool.or_eq_true, decide_eq_true_eq] at hspace
        tauto
      obtain ⟨more, rfl⟩ := List.head?_eq_some_iff.mp hc
      rw [hreturn] at hstatement
      cases hstatement
    rw [skipSpace, Text.dropWhile_eq_self hjsonHead] at hskip
    rw [hskip] at hstatement
    exact isArray_of_readStatement hvalue hend hhead hstatement

end Json

/-! ## Numbers that underscores hide -/

namespace Toml

/-- The digit one, `count` more times after the first, with an underscore between neighbours. -/
def underscored : Nat → Text
  | 0 => [.char '1']
  | count + 1 => .char '1' :: .char '_' :: underscored count

/-- A line that gives a key such a number, and a second line that is no TOML. -/
def underscoredLine (count : Nat) : Text :=
  spellKey [.char 'x'] ++ (Text.ofString " = " ++ (underscored count ++ [.char '\n', .char '!']))

/-- The first digit of such a number is followed by an underscore or by the end of the line. -/
theorem exists_underscored_eq (count : Nat) (rest : Text) :
    ∃ c more, underscored count ++ .char '\n' :: rest = .char '1' :: c :: more ∧
      (c = .char '_' ∨ c = .char '\n') := by
  cases count with
  | zero => exact ⟨_, rest, rfl, Or.inr rfl⟩
  | succ count => exact ⟨_, _, rfl, Or.inl rfl⟩

theorem digitTail_underscored (count : Nat) (rest : Text) :
    digitTail CodePoint.isDigit (underscored count ++ .char '\n' :: rest) =
      (List.replicate (count + 1) (.char '1'), .char '\n' :: rest) := by
  have hdigit : (CodePoint.char '1').isDigit = true := rfl
  have hend : digitTail CodePoint.isDigit (.char '\n' :: rest) = ([], .char '\n' :: rest) :=
    digitTail_end (by rintro c ⟨⟩; decide)
  -- After the first digit, every further one follows an underscore.
  induction count with
  | zero =>
      rw [underscored, List.cons_append, List.nil_append, digitTail_digit hdigit, hend]
      rfl
  | succ count ih =>
      obtain ⟨c, more, htext, -⟩ := exists_underscored_eq count rest
      have hgap := digitTail_gap rfl hdigit (c :: more)
      rw [← digitTail_digit hdigit, ← htext, ih] at hgap
      rw [underscored, List.cons_append, List.cons_append, digitTail_digit hdigit, hgap]
      rfl

/-- Such a number is read as far as its digits go, and they are too many. -/
theorem readValue_underscored {count : Nat} (hcount : Numeral.maxDigits ≤ count) (fuel : Nat)
    (rest : Text) :
    readValue (fuel + 1) (underscored count ++ .char '\n' :: rest) =
      .error (.limit (.reading (count + 1))) := by
  have htail := digitTail_underscored count rest
  obtain ⟨c, more, htext, hc⟩ := exists_underscored_eq count rest
  rw [htext] at htail ⊢
  have hone : ∀ d ∈ [CodePoint.char '1'], d.isDigit = true := by decide
  have hmoment : readMoment? (.char '1' :: c :: more) = none := by
    refine readMoment?_eq_none (readDateFields?_run hone ?_) (readClock?_run hone ?_)
    · rintro d ⟨⟩
      rcases hc with rfl | rfl
      · decide
      · decide
    · rintro d ⟨⟩
      rcases hc with rfl | rfl
      · decide
      · decide
  have hrun : digitRun CodePoint.isDigit (.char '1' :: c :: more) =
      (List.replicate (count + 1) (.char '1'), .char '\n' :: rest) := htail
  have hne : List.replicate (count + 1) (CodePoint.char '1') ≠ [] := List.cons_ne_nil _ _
  have hmagnitude := readMagnitude?_run false hne (by rintro d ⟨⟩; decide) hrun
    (by rintro d ⟨⟩; decide)
  have hdecimal := (readDecimal?_of_ne (by rintro d ⟨⟩; decide)).trans hmagnitude
  have hlong : ¬(List.replicate (count + 1) (CodePoint.char '1')).length ≤ Numeral.maxDigits := by
    rw [List.length_replicate]
    omega
  have hbegins : BeginsNumber (.char '1' :: c :: more) := ⟨_, _, rfl, Or.inr rfl⟩
  rw [readValue_of_scalar, readScalar_of_readDecimal? hbegins hmoment rfl hdecimal rfl,
    NumberLiteral.toInt, Numeral.read, if_neg hlong, List.length_replicate]
  · rfl
  · exact readString?_eq_none (by rintro d ⟨⟩; decide)
  · exact fun _ heq => absurd (List.cons.inj heq).1 (by decide)
  · exact fun _ heq => absurd (List.cons.inj heq).1 (by decide)

theorem eq_of_mem_underscored {count : Nat} {c : CodePoint} (h : c ∈ underscored count) :
    c = .char '1' ∨ c = .char '_' := by
  induction count with
  | zero => exact Or.inl (List.mem_singleton.mp h)
  | succ count ih =>
      rw [underscored, List.mem_cons, List.mem_cons] at h
      rcases h with hone | hgap | hlater
      · exact Or.inl hone
      · exact Or.inr hgap
      · exact ih hlater

theorem clean_underscoredLine (count : Nat) : .char '\r' ∉ underscoredLine count := by
  have hnumber : .char '\r' ∉ underscored count := by
    intro h
    rcases eq_of_mem_underscored h with hone | hgap
    · exact absurd hone (by decide)
    · exact absurd hgap (by decide)
  simp [underscoredLine, clean_spellKey, hnumber, Text.ofString]

theorem read_underscored {count : Nat} (hcount : Numeral.maxDigits ≤ count) :
    read (underscoredLine count) = .error (.limit (.reading (count + 1))) := by
  have hkey : BeginsKey (underscoredLine count) := ⟨.char 'x', _, rfl, rfl⟩
  have hpair : readPair .empty (underscoredLine count) =
      .error (.limit (.reading (count + 1))) := by
    obtain ⟨c, more, htext, -⟩ := exists_underscored_eq count [.char '!']
    have hvalue : BeginsValue (underscored count ++ [.char '\n', .char '!']) :=
      ⟨_, _, htext, rfl, by decide, by decide, by decide⟩
    rw [readPair, underscoredLine, readKey_pair, ok_bind]
    dsimp only
    rw [readEquals_pair hvalue, ok_bind, readValue_underscored hcount]
    rfl
  rw [read, unixNewlines_of_clean (clean_underscoredLine count), readStatements_succ hkey.isLine,
    readStatement_pair hkey, hpair]
  rfl

/-- Next to a digit of such a line there is none. -/
theorem hasShortRuns_underscoredLine (count : Nat) : (underscoredLine count).HasShortRuns := by
  let apart : CodePoint → CodePoint → Prop := fun c d => c.isDigit = false ∨ d.isDigit = false
  have hnumber : List.IsChain apart (underscored count ++ [.char '\n', .char '!']) := by
    induction count with
    | zero =>
        refine .cons (.cons (.singleton _) fun _ _ => Or.inl rfl) ?_
        rintro d ⟨⟩
        exact Or.inr rfl
    | succ count ih =>
        refine .cons (.cons ih fun _ _ => Or.inl rfl) ?_
        rintro d ⟨⟩
        exact Or.inr rfl
  have hline : List.IsChain apart (underscoredLine count) :=
    .cons (.cons (.cons (.cons hnumber fun _ _ => Or.inl rfl) fun _ _ => Or.inl rfl)
      fun _ _ => Or.inl rfl) fun _ _ => Or.inl rfl
  intro run hrun hdigits
  have hchain := hline.infix hrun
  match run with
  | [] => exact Nat.zero_le _
  | [_] => exact (by decide : 1 ≤ Numeral.maxDigits)
  | c :: d :: _ =>
      rw [List.isChain_cons_cons] at hchain
      rw [List.forall_mem_cons, List.forall_mem_cons] at hdigits
      rcases hchain.1 with hc | hd
      · rw [hdigits.1] at hc
        cases hc
      · rw [hdigits.2.1] at hd
        cases hd

end Toml

namespace Document

theorem loadJson_of_malformed {t : Text} {e : Json.SyntaxError}
    (h : Json.read t = .error (.malformed e)) :
    loadJson t =
      match loadToml t with
      | .error (.document _) => .error (.document (.json e))
      | outcome => outcome := by
  unfold loadJson
  split
  · rename_i heq
    rw [h] at heq
    cases heq
  · rename_i heq
    rw [h] at heq
    cases heq
  · rename_i heq
    rw [h] at heq
    cases heq
    rfl

/-- A TOML document is loaded as itself, unless it is an array in the other format. -/
theorem loadJson_of_toml {t : Text} (hshort : t.HasShortRuns) {entries : Entries}
    (htoml : Toml.read t = .ok entries) :
    (loadJson t = .ok entries ∧ ∀ items, Json.read t ≠ .ok (.array .list items)) ∨
      (∃ items, Json.read t = .ok (.array .list items)) ∧
        loadJson t = .error (.document (.rootType "list")) := by
  cases hjson : Json.read t with
  | ok v =>
      obtain ⟨items, rfl⟩ := Json.isArray_of_both hjson htoml
      rw [loadJson_of_read hjson]
      exact Or.inr ⟨⟨items, rfl⟩, rfl⟩
  | error e =>
      cases e with
      | malformed e =>
          rw [loadJson_of_malformed hjson, loadToml_eq_ok_iff.mpr htoml]
          exact Or.inl ⟨rfl, nofun⟩
      | limit e => exact absurd hjson (Json.read_ne_limit hshort e)

/-- A text of neither format is refused for what is wrong with it as JSON, unless a number in it is
too long. -/
theorem loadJson_of_neither {t : Text} {e : Json.SyntaxError}
    (hjson : Json.read t = .error (.malformed e)) (htoml : ∀ entries, Toml.read t ≠ .ok entries) :
    loadJson t = .error (.document (.json e)) ∨
      ¬Toml.HasShortNumbers t ∧ ∃ limit, loadJson t = .error (.limit limit) := by
  rw [loadJson_of_malformed hjson, loadToml]
  cases hread : Toml.read t with
  | ok entries => exact absurd hread (htoml entries)
  | error fault =>
      cases fault with
      | malformed fault => exact Or.inl rfl
      | limit limit =>
          exact Or.inr ⟨fun hnumbers => Toml.read_ne_limit hnumbers limit hread, limit, rfl⟩

/-- **The two formats are told apart.**  No text is both a JSON object and a TOML document.  A TOML
document that is announced as JSON is loaded as what it is, unless it is a JSON array; and what is
loaded as JSON is the JSON object or, if the text is no JSON, the TOML document.  If it is neither,
the fault in the JSON is told, unless underscores hide a number that is too long for any reader. -/
theorem load_negotiates (t : Text) (hshort : t.HasShortRuns) :
    (∀ entries others, Json.read t = .ok (.table entries) → Toml.read t ≠ .ok others) ∧
      (∀ entries, load .toml t = .ok entries →
        (load .json t = .ok entries ∧ ∀ items, Json.read t ≠ .ok (.array .list items)) ∨
          (∃ items, Json.read t = .ok (.array .list items)) ∧
            load .json t = .error (.document (.rootType "list"))) ∧
      (∀ entries, load .json t = .ok entries →
        Json.read t = .ok (.table entries) ∨
          (∀ v, Json.read t ≠ .ok v) ∧ load .toml t = .ok entries) ∧
      ((∀ v, Json.read t ≠ .ok v) → (∀ entries, Toml.read t ≠ .ok entries) →
        ∃ e, Json.read t = .error (.malformed e) ∧
          (load .json t = .error (.document (.json e)) ∨
            ¬Toml.HasShortNumbers t ∧ ∃ limit, load .json t = .error (.limit limit))) := by
  refine ⟨?_, ?_, ?_, ?_⟩
  · intro entries others hjson htoml
    obtain ⟨items, harray⟩ := Json.isArray_of_both hjson htoml
    cases harray
  · exact fun entries h => loadJson_of_toml hshort (loadToml_eq_ok_iff.mp h)
  · intro entries h
    rcases loadJson_cases h with ⟨hread, -⟩ | ⟨⟨e, hread⟩, htoml⟩
    · exact Or.inl hread
    · refine Or.inr ⟨fun v hv => ?_, loadToml_eq_ok_iff.mpr htoml⟩
      rw [hread] at hv
      cases hv
  · intro hjson htoml
    cases hread : Json.read t with
    | ok v => exact absurd hread (hjson v)
    | error e =>
        cases e with
        | malformed e => exact ⟨e, rfl, loadJson_of_neither hread htoml⟩
        | limit e => exact absurd hread (Json.read_ne_limit hshort e)

/-- A text that holds only the header `[1]` is an array in the other format. -/
theorem load_negotiates_header :
    let t : Text := [.char '[', .char '1', .char ']']
    t.HasShortRuns ∧ load .toml t = .ok [([.char '1'], .table [])] ∧
      (∃ items, Json.read t = .ok (.array .list items)) ∧
        load .json t = .error (.document (.rootType "list")) := by
  intro t
  have hshort : t.HasShortRuns := .of_length (by decide)
  have htoml : load .toml t = .ok [([.char '1'], .table [])] := by rfl
  have hjson : ∃ items, Json.read t = .ok (.array .list items) := ⟨[.integer 1], by rfl⟩
  obtain ⟨items, hitems⟩ := hjson
  obtain ⟨-, hloads, -⟩ := load_negotiates t hshort
  rcases hloads _ htoml with ⟨-, hnone⟩ | harray
  · exact absurd hitems (hnone items)
  · exact ⟨hshort, htoml, harray⟩

/-- A line that begins with a key is no JSON. -/
theorem exists_malformed_underscored (count : Nat) :
    ∃ e, Json.read (Toml.underscoredLine count) = .error (.malformed e) :=
  ⟨_, rfl⟩

/-- If underscores hide a number that is too long, no fault in a document is told, although the text
is of neither format and no run of digits in it is long. -/
theorem load_json_underscored {count : Nat} (hcount : Numeral.maxDigits ≤ count) :
    load .json (Toml.underscoredLine count) = .error (.limit (.reading (count + 1))) := by
  obtain ⟨e, hjson⟩ := exists_malformed_underscored count
  change loadJson (Toml.underscoredLine count) = _
  rw [loadJson_of_malformed hjson, loadToml, Toml.read_underscored hcount]

/-- Such a text has 4301 digits, no two of which are neighbours. -/
theorem load_json_underscored_ne_document :
    (Toml.underscoredLine 4300).HasShortRuns ∧
      (∀ v, Json.read (Toml.underscoredLine 4300) ≠ .ok v) ∧
      (∀ entries, Toml.read (Toml.underscoredLine 4300) ≠ .ok entries) ∧
      ∀ e, load .json (Toml.underscoredLine 4300) ≠ .error (.document e) := by
  have hcount : Numeral.maxDigits ≤ 4300 := Nat.le_refl 4300
  obtain ⟨e, hjson⟩ := exists_malformed_underscored 4300
  refine ⟨Toml.hasShortRuns_underscoredLine 4300, ?_, ?_, ?_⟩
  · intro v hv
    rw [hjson] at hv
    cases hv
  · intro entries hentries
    rw [Toml.read_underscored hcount] at hentries
    cases hentries
  · intro e he
    rw [load_json_underscored hcount] at he
    cases he

end Document

end DocumentQuery
