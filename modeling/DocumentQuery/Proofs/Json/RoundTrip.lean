import DocumentQuery.Document
import DocumentQuery.Proofs.Loading

/-!
# JSON reads back what it wrote

The text of a value reads back from the beginning of any longer text that does not prolong it.
`ReadsBack` states this for one text and one value, and each form of values keeps it: strings and
numbers have it outright, containers have it if their parts do.

What is read is not quite what was written.  JSON knows one form of arrays and no moments, and
`Value.inJson` says what becomes of the others.
-/

namespace DocumentQuery

/-! ## What JSON keeps of a value -/

namespace Value

mutual

/-- A value as JSON has it: every array is a list, every moment is its written form. -/
def inJson : Value → Value
  | .moment m => .string m.render
  | .array _ items => .array .list (inJsonItems items)
  | .table entries => .table (inJsonEntries entries)
  | v => v

/-- The items of an array as JSON has them. -/
def inJsonItems : List Value → List Value
  | [] => []
  | item :: rest => item.inJson :: inJsonItems rest

/-- The entries of a table as JSON has them. -/
def inJsonEntries : List (Text × Value) → List (Text × Value)
  | [] => []
  | (key, value) :: rest => (key, value.inJson) :: inJsonEntries rest

end

theorem inJsonItems_eq_map (items : List Value) : inJsonItems items = items.map inJson := by
  induction items with
  | nil => rfl
  | cons item rest ih => rw [inJsonItems, ih, List.map_cons]

theorem inJsonEntries_eq_map (entries : Entries) :
    inJsonEntries entries = entries.map fun entry => (entry.1, entry.2.inJson) := by
  induction entries with
  | nil => rfl
  | cons entry rest ih => rw [inJsonEntries, ih, List.map_cons]

theorem inJsonEntries_keys (entries : Entries) :
    (inJsonEntries entries).map Prod.fst = entries.map Prod.fst := by
  rw [inJsonEntries_eq_map, List.map_map]
  rfl

end Value

namespace Json

open NumberLiteral

/-! ## Strings -/

/-- The number of four hexadecimal digits is the one that they were made of. -/
theorem hexValue?_hex {n : Nat} (h : n < 0x10000) :
    ∃ a b c d, Text.hex 4 n = [a, b, c, d] ∧ hexValue? a b c d = some n := by
  refine ⟨_, _, _, _, Text.hex_four n, ?_⟩
  have hdigit (m : Nat) : (CodePoint.char (m % 16).digitChar).hexValue? = some (m % 16) :=
    CodePoint.hexValue?_digitChar (Nat.mod_lt m (by decide))
  simp only [hexValue?, hdigit, Option.bind_eq_bind, Option.bind_some]
  refine congrArg some ?_
  omega

/-- Reading undoes the escape of a code point, as long as the string goes on after it. -/
theorem readChars_escaped (whole : Text) (c : CodePoint) {more : Text} (hmore : more ≠ []) :
    readChars whole (escaped c ++ more) =
      (readChars whole more >>= fun (t, after) => .ok (c :: t, after)) := by
  unfold escaped
  -- The first seven cases are the escapes by a letter.
  iterate 7
    split
    next hc =>
      rw [hc]
      rfl
  split
  · rename_i hcontrol
    obtain ⟨h1, h2, h3, h4, hdigits, hvalue⟩ := hexValue?_hex (n := c.toNat) (by omega)
    have hnonempty : more.isEmpty = false := by simpa using hmore
    have htext : Text.ofString "\\u" ++ Text.hex 4 c.toNat ++ more =
        .char '\\' :: .char 'u' :: h1 :: h2 :: h3 :: h4 :: more := by
      rw [hdigits]
      rfl
    have hleading : isLeading c.toNat = false := by simp [isLeading, Nat.lt_of_lt_of_le hcontrol]
    rw [htext, readChars, hnonempty]
    simp only [Bool.false_eq_true, if_false, hvalue, CodePoint.ofNat_toNat, hleading,
      Bool.false_and]
    -- A second escape may follow, but the first is none of a pair.
    split
    · split
      · rfl
      · rfl
    · rfl
  · rename_i hquote hbackslash _ _ _ _ _ hcontrol
    change readChars whole (c :: more) = _
    rw [readChars]
    · rw [if_neg hcontrol]
      rfl
    all_goals simp [hquote, hbackslash]

theorem readChars_text (whole t rest : Text) :
    readChars whole (t.flatMap escaped ++ .char '"' :: rest) = .ok (t, rest) := by
  induction t with
  | nil => rfl
  | cons c t ih =>
      have hmore : t.flatMap escaped ++ .char '"' :: rest ≠ [] := by simp
      rw [List.flatMap_cons, List.append_assoc, readChars_escaped whole c hmore, ih]
      rfl

theorem writeString_append (t rest : Text) :
    writeString t ++ rest = .char '"' :: (t.flatMap escaped ++ .char '"' :: rest) := by
  simp [writeString]

/-! ## Texts that read back -/

/-- A text begins neither with white space nor like the end of a container. -/
def BeginsValue (t : Text) : Prop :=
  ∃ c rest, t = c :: rest ∧ isSpace c = false ∧ c ≠ .char ']' ∧ c ≠ .char '}'

/-- A text is read as a value from the beginning of every text that does not prolong it. -/
structure ReadsBack (text : Text) (v : Value) : Prop where
  begins : BeginsValue text
  reads : ∀ fuel rest, 2 * text.length ≤ fuel → (∀ c ∈ rest.head?, goesOn c = false) →
    readValue fuel (text ++ rest) = .ok (v, rest)

theorem BeginsValue.length_pos {t : Text} (h : BeginsValue t) : 0 < t.length := by
  obtain ⟨c, rest, rfl, -⟩ := h
  exact Nat.succ_pos _

theorem skipSpace_append {gap : Text} (hgap : ∀ c ∈ gap, isSpace c = true) (t : Text) :
    skipSpace (gap ++ t) = skipSpace t :=
  List.dropWhile_append_of_pos hgap

theorem skipSpace_cons {c : CodePoint} (hc : isSpace c = false) (t : Text) :
    skipSpace (c :: t) = c :: t := by
  rw [skipSpace, List.dropWhile_cons_of_neg (by simp [hc])]

theorem BeginsValue.skipSpace {t : Text} (h : BeginsValue t) (rest : Text) :
    Json.skipSpace (t ++ rest) = t ++ rest := by
  obtain ⟨c, more, rfl, hc, -⟩ := h
  exact skipSpace_cons hc _

theorem readsBack_string (t : Text) : ReadsBack (writeString t) (.string t) where
  begins := ⟨_, _, rfl, by decide, by decide, by decide⟩
  reads fuel rest hfuel _ := by
    cases fuel with
    | zero => simp [writeString] at hfuel
    | succ fuel =>
        rw [writeString_append, readValue, readChars_text]
        rfl

/-! ## Words and numbers -/

theorem readsBack_atom {text : Text} {v : Value} (hbegins : BeginsValue text)
    (hplain : ∀ c ∈ text.head?, c ≠ .char '"' ∧ c ≠ .char '[' ∧ c ≠ .char '\x7b')
    (hreads : ∀ rest : Text, (∀ c ∈ rest.head?, goesOn c = false) →
      readAtom (text ++ rest) = .ok (v, rest)) : ReadsBack text v where
  begins := hbegins
  reads fuel rest hfuel hrest := by
    have hpositive := hbegins.length_pos
    obtain ⟨c, more, rfl, -⟩ := hbegins
    obtain ⟨hquote, hbracket, hbrace⟩ := hplain c rfl
    cases fuel with
    | zero => omega
    | succ fuel =>
        rw [List.cons_append, readValue]
        · exact hreads rest hrest
        · exact fun _ h => hquote (List.cons.inj h).1
        · exact fun _ h => hbracket (List.cons.inj h).1
        · exact fun _ h => hbrace (List.cons.inj h).1

theorem readsBack_boolean (b : Bool) :
    ReadsBack (if b then "true" else "false") (.boolean b) := by
  cases b with
  | true =>
      refine readsBack_atom ⟨_, _, rfl, by decide, by decide, by decide⟩ ?_ fun rest _ => rfl
      rintro c ⟨⟩
      decide
  | false =>
      refine readsBack_atom ⟨_, _, rfl, by decide, by decide, by decide⟩ ?_ fun rest _ => rfl
      rintro c ⟨⟩
      decide

theorem digitRun_ofNat (n : Nat) {rest : Text} (hrest : ∀ c ∈ rest.head?, goesOn c = false) :
    digitRun (Numeral.ofNat n ++ rest) = (Numeral.ofNat n, rest) := by
  have hdigits : ∀ c ∈ Numeral.ofNat n, c.isDigit = true := fun _ => Numeral.isDigit_of_mem_ofNat
  have hend : ∀ c ∈ rest.head?, c.isDigit = false := by
    intro c hc
    have hgoes := hrest c hc
    simp only [goesOn, Bool.or_eq_false_iff] at hgoes
    exact hgoes.1.1.1
  rw [digitRun, Text.takeWhile_run_append hdigits hend, Text.dropWhile_run_append hdigits hend]

/-- The rest of a number whose sign has been read. -/
def readMagnitude? (negative : Bool) (magnitude : Text) : Option (NumberLiteral × Text) :=
  match magnitude with
  | .char '0' :: rest => some (readTail digitRun negative [.char '0'] rest)
  | c :: _ =>
      if c.isDigit then
        some (readTail digitRun negative (digitRun magnitude).1 (digitRun magnitude).2)
      else none
  | [] => none

theorem readNumber?_minus (t : Text) : readNumber? (.char '-' :: t) = readMagnitude? true t := rfl

theorem readNumber?_of_ne {t : Text} (h : ∀ c ∈ t.head?, c ≠ .char '-') :
    readNumber? t = readMagnitude? false t := by
  unfold readNumber?
  split
  rename_i hsign
  split at hsign
  · exact absurd rfl (h _ rfl)
  · cases hsign
    rfl

theorem readMagnitude?_ofNat (negative : Bool) (n : Nat) {rest : Text}
    (hrest : ∀ c ∈ rest.head?, goesOn c = false) :
    readMagnitude? negative (Numeral.ofNat n ++ rest) =
      some (⟨negative, Numeral.ofNat n, none, none⟩, rest) := by
  obtain ⟨c, digits, hdigits, hdigit, hzero⟩ := Numeral.exists_ofNat_eq_cons n
  have hrun := digitRun_ofNat n hrest
  have hend := readTail_of_end digitRun negative (Numeral.ofNat n) hrest
  rw [hdigits, List.cons_append] at hrun ⊢
  rw [hdigits] at hend
  by_cases hc : c = .char '0'
  · -- A numeral that begins with zero has no further digits.
    rw [hzero hc, hc] at hend ⊢
    exact congrArg some hend
  · rw [readMagnitude?]
    · rw [if_pos hdigit, hrun, hend]
    · exact hc

theorem readNumber?_ofInt (i : Int) {rest : Text} (hrest : ∀ c ∈ rest.head?, goesOn c = false) :
    readNumber? (Numeral.ofInt i ++ rest) = some (NumberLiteral.ofInt i, rest) := by
  unfold Numeral.ofInt NumberLiteral.ofInt
  by_cases hneg : i < 0
  · rw [if_pos hneg, decide_eq_true hneg, List.cons_append, readNumber?_minus]
    exact readMagnitude?_ofNat true _ hrest
  · rw [if_neg hneg, decide_eq_false hneg]
    rw [readNumber?_of_ne, readMagnitude?_ofNat false _ hrest]
    obtain ⟨c, digits, hdigits, hdigit, -⟩ := Numeral.exists_ofNat_eq_cons i.natAbs
    rw [hdigits]
    rintro d ⟨⟩ rfl
    exact absurd hdigit (by decide)

/-- A text begins like an integer: with a digit, or with a minus sign before one. -/
def BeginsInteger (t : Text) : Prop :=
  ∃ c rest, c.isDigit = true ∧ (t = c :: rest ∨ t = .char '-' :: c :: rest)

theorem beginsInteger_ofInt (i : Int) (rest : Text) : BeginsInteger (Numeral.ofInt i ++ rest) := by
  obtain ⟨c, digits, hdigits, hdigit, -⟩ := Numeral.exists_ofNat_eq_cons i.natAbs
  refine ⟨c, digits ++ rest, hdigit, ?_⟩
  unfold Numeral.ofInt
  rw [hdigits]
  split
  · exact Or.inr rfl
  · exact Or.inl rfl

/-- No word begins like an integer. -/
theorem readWord?_eq_none {t : Text} (h : BeginsInteger t) : readWord? t = none := by
  obtain ⟨c, rest, hdigit, ht⟩ := h
  have hwords : ∀ entry ∈ words, ∃ first ∈ entry.1.head?, ∃ second ∈ entry.1[1]?,
      first.isDigit = false ∧ second.isDigit = false := by decide
  rw [readWord?, Option.map_eq_none_iff, List.find?_eq_none]
  rintro ⟨word, value⟩ hmem hstarts
  obtain ⟨after, rfl⟩ := List.isPrefixOf_iff_prefix.mp hstarts
  obtain ⟨first, hfirst, second, hsecond, hfirst', hsecond'⟩ := hwords _ hmem
  cases word with
  | nil => cases hfirst
  | cons _ word =>
      cases word with
      | nil => cases hsecond
      | cons _ _ =>
          cases hfirst
          cases hsecond
          rcases ht with heq | heq
          · rw [(List.cons.inj heq).1, hdigit] at hfirst'
            cases hfirst'
          · rw [(List.cons.inj (List.cons.inj heq).2).1, hdigit] at hsecond'
            cases hsecond'

theorem readsBack_integer {i : Int} (h : Numeral.isWritable i = true) :
    ReadsBack (Numeral.ofInt i) (.integer i) := by
  obtain ⟨c, rest, hdigit, htext⟩ := beginsInteger_ofInt i []
  rw [List.append_nil] at htext
  have hne {d : CodePoint} (hd : d.isDigit = false) : c ≠ d := by
    rintro rfl
    rw [hdigit] at hd
    cases hd
  refine readsBack_atom ?_ ?_ fun rest hrest => ?_
  · rcases htext with htext | htext
    · have hspace : isSpace c = false := by
        simp [isSpace, hne (d := .char ' ') rfl, hne (d := .char '\t') rfl,
          hne (d := .char '\n') rfl, hne (d := .char '\r') rfl]
      exact ⟨c, rest, htext, hspace, hne rfl, hne rfl⟩
    · exact ⟨_, _, htext, by decide, by decide, by decide⟩
  · rintro d hd
    rcases htext with htext | htext
    · rw [htext] at hd
      cases hd
      exact ⟨hne rfl, hne rfl, hne rfl⟩
    · rw [htext] at hd
      cases hd
      decide
  · rw [readAtom, readWord?_eq_none (beginsInteger_ofInt i rest), readNumber?_ofInt i hrest]
    dsimp only
    rw [NumberLiteral.toInt_ofInt h]
    rfl

/-! ## Containers -/

theorem isSpace_of_mem_lineBreak {layout : Layout} {depth : Nat} {c : CodePoint}
    (h : c ∈ layout.lineBreak depth) : isSpace c = true := by
  cases layout with
  | compact => cases h
  | indented =>
      rcases List.mem_cons.mp h with rfl | hblank
      · rfl
      · rw [List.eq_of_mem_replicate hblank]
        rfl

/-- What follows a part of a container does not prolong a number. -/
theorem head?_gap {gap : Text} (hgap : ∀ c ∈ gap, isSpace c = true) (closing : CodePoint)
    (hclosing : goesOn closing = false) (rest : Text) :
    ∀ c ∈ (gap ++ closing :: rest).head?, goesOn c = false := by
  intro c hc
  cases gap with
  | nil =>
      cases hc
      exact hclosing
  | cons d gap =>
      cases hc
      have hd := hgap c List.mem_cons_self
      simp only [isSpace, Bool.or_eq_true, decide_eq_true_eq] at hd
      rcases hd with ((rfl | rfl) | rfl) | rfl
      · rfl
      · rfl
      · rfl
      · rfl

theorem BeginsValue.joined {first : Text} (h : BeginsValue first) (separator : Text)
    (others : List Text) : BeginsValue (Text.joined separator (first :: others)) := by
  obtain ⟨more, hmore⟩ := Text.exists_joined_eq_append separator first others
  obtain ⟨c, rest, rfl, hc⟩ := h
  exact ⟨c, rest ++ more, hmore, hc⟩

/-- The text of a member of an object: the key, a colon and perhaps a blank, and the value. -/
def IsMember (layout : Layout) (text : Text) (entry : Text × Value) : Prop :=
  ∃ valueText, text = writeString entry.1 ++ layout.colon ++ valueText ∧
    ReadsBack valueText entry.2

theorem IsMember.begins {layout : Layout} {text : Text} {entry : Text × Value}
    (h : IsMember layout text entry) : BeginsValue text := by
  obtain ⟨valueText, rfl, -⟩ := h
  exact ⟨_, _, rfl, rfl, by decide, by decide⟩

/-- The colon and the blank after it are passed. -/
theorem exists_colon_eq (layout : Layout) :
    ∃ gap : Text, layout.colon = .char ':' :: gap ∧ ∀ c ∈ gap, isSpace c = true := by
  cases layout with
  | compact => exact ⟨[], rfl, nofun⟩
  | indented => exact ⟨[.char ' '], rfl, by simp [isSpace]⟩

/-- What becomes of a member whose key is new, given what follows it. -/
theorem readMembers_member {layout : Layout} {text : Text} {entry : Text × Value}
    (h : IsMember layout text entry) {before : Entries}
    (hkey : entry.1 ∉ before.map Prod.fst) {fuel : Nat} (hfuel : 2 * text.length ≤ fuel)
    {rest : Text} (hrest : ∀ c ∈ rest.head?, goesOn c = false) :
    readMembers (fuel + 1) before (text ++ rest) =
      match skipSpace rest with
      | .char '}' :: after => .ok (before ++ [entry], after)
      | .char ',' :: after => readMembers fuel (before ++ [entry]) (skipSpace after)
      | unread => .error (.fault .expectingComma unread) := by
  obtain ⟨valueText, rfl, hvalue⟩ := h
  obtain ⟨gap, hcolon, hgap⟩ := exists_colon_eq layout
  have hread := hvalue.reads fuel rest (by simp only [List.length_append] at hfuel; omega) hrest
  have htext : writeString entry.1 ++ layout.colon ++ valueText ++ rest =
      .char '"' :: (entry.1.flatMap escaped ++ .char '"' ::
        (.char ':' :: (gap ++ (valueText ++ rest)))) := by
    rw [List.append_assoc, List.append_assoc, writeString_append, hcolon]
    simp
  rw [htext, readMembers, readChars_text, ok_bind]
  dsimp only
  rw [skipSpace_cons rfl]
  change (readValue fuel (skipSpace (gap ++ (valueText ++ rest))) >>= _) = _
  rw [skipSpace_append hgap, hvalue.begins.skipSpace, hread, ok_bind]
  dsimp only
  rw [Entries.put_of_not_mem _ hkey]
  rfl

section

variable {gap last : Text} (hgap : ∀ c ∈ gap, isSpace c = true)
  (hlast : ∀ c ∈ last, isSpace c = true)
include hgap hlast

/-- The items of an array are read up to the closing bracket. -/
theorem readItems_joined {texts : List Text} {items : List Value} (hne : texts ≠ [])
    (hitems : List.Forall₂ ReadsBack texts items) (fuel : Nat)
    (hfuel : 2 * (Text.joined (.char ',' :: gap) texts).length + 1 ≤ fuel) (rest : Text) :
    readItems fuel (Text.joined (.char ',' :: gap) texts ++ (last ++ .char ']' :: rest)) =
      .ok (items, rest) := by
  induction hitems generalizing fuel with
  | nil => exact absurd rfl hne
  | @cons text item texts items hitem hrest ih =>
      cases fuel with
      | zero => omega
      | succ fuel =>
          cases hrest with
          | nil =>
              rw [Text.joined_singleton] at hfuel ⊢
              have hends := head?_gap hlast (.char ']') rfl rest
              rw [readItems, hitem.reads fuel _ (by omega) hends, ok_bind]
              dsimp only
              rw [skipSpace_append hlast, skipSpace_cons rfl]
              rfl
          | @cons next other texts items hnext hmore =>
              have hlater := ih (List.cons_ne_nil _ _) fuel
              have hbegins := (hnext.begins.joined (.char ',' :: gap) texts).skipSpace
                (last ++ .char ']' :: rest)
              rw [Text.joined_cons_cons] at hfuel ⊢
              generalize Text.joined (.char ',' :: gap) (next :: texts) = later at *
              simp only [List.length_append, List.length_cons] at hfuel
              simp only [List.append_assoc, List.cons_append]
              rw [readItems, hitem.reads fuel _ (by omega) (by rintro c ⟨⟩; rfl), ok_bind]
              dsimp only
              rw [skipSpace_cons rfl]
              change (readItems fuel (skipSpace (gap ++ (later ++ (last ++ .char ']' :: rest)))) >>=
                _) = _
              rw [skipSpace_append hgap, hbegins, hlater (by omega)]
              rfl

/-- The members of an object are read up to the closing brace, and their keys are new. -/
theorem readMembers_joined {layout : Layout} {texts : List Text} {entries : Entries}
    (hne : texts ≠ []) (hentries : List.Forall₂ (IsMember layout) texts entries)
    (before : Entries) (hdistinct : ((before ++ entries).map Prod.fst).Nodup) (fuel : Nat)
    (hfuel : 2 * (Text.joined (.char ',' :: gap) texts).length + 1 ≤ fuel) (rest : Text) :
    readMembers fuel before
        (Text.joined (.char ',' :: gap) texts ++ (last ++ .char '}' :: rest)) =
      .ok (before ++ entries, rest) := by
  induction hentries generalizing before fuel with
  | nil => exact absurd rfl hne
  | @cons text entry texts entries hentry hrest ih =>
      have hkey := Entries.not_mem_of_nodup hdistinct
      cases fuel with
      | zero => omega
      | succ fuel =>
          cases hrest with
          | nil =>
              rw [Text.joined_singleton] at hfuel ⊢
              have hends := head?_gap hlast (.char '}') rfl rest
              rw [readMembers_member hentry hkey (by omega) hends, skipSpace_append hlast,
                skipSpace_cons rfl]
              rfl
          | @cons next other texts entries hnext hmore =>
              have hlater := ih (List.cons_ne_nil _ _) (before ++ [entry])
                (by simpa using hdistinct) fuel
              have hbegins := (hnext.begins.joined (.char ',' :: gap) texts).skipSpace
                (last ++ .char '}' :: rest)
              rw [Text.joined_cons_cons] at hfuel ⊢
              generalize Text.joined (.char ',' :: gap) (next :: texts) = later at *
              simp only [List.length_append, List.length_cons] at hfuel
              simp only [List.append_assoc, List.cons_append]
              rw [readMembers_member hentry hkey (by omega) (by rintro c ⟨⟩; rfl),
                skipSpace_cons rfl]
              change readMembers fuel (before ++ [entry])
                (skipSpace (gap ++ (later ++ (last ++ .char '}' :: rest)))) = _
              rw [skipSpace_append hgap, hbegins, hlater (by omega), List.append_assoc]
              rfl

end

theorem container_of_ne_nil (layout : Layout) (depth : Nat) (opening closing : Char)
    {parts : List Text} (hne : parts ≠ []) (rest : Text) :
    layout.container depth opening closing parts ++ rest =
      .char opening :: (layout.lineBreak (depth + 1) ++
        (Text.joined (.char ',' :: layout.lineBreak (depth + 1)) parts ++
          (layout.lineBreak depth ++ .char closing :: rest))) := by
  have hnonempty : parts.isEmpty = false := by simpa using hne
  simp [Layout.container, hnonempty]

theorem readValue_items {gap t : Text} (hgap : ∀ c ∈ gap, isSpace c = true) (ht : BeginsValue t)
    (fuel : Nat) (rest : Text) :
    readValue (fuel + 1) (.char '[' :: (gap ++ (t ++ rest))) =
      (readItems fuel (t ++ rest) >>= fun (items, after) => .ok (.array .list items, after)) := by
  rw [readValue, skipSpace_append hgap, ht.skipSpace]
  obtain ⟨c, more, rfl, -, hbracket, -⟩ := ht
  split
  · rename_i heq
    exact absurd (List.cons.inj heq).1 hbracket
  · rfl

theorem readValue_members {gap t : Text} (hgap : ∀ c ∈ gap, isSpace c = true) (ht : BeginsValue t)
    (fuel : Nat) (rest : Text) :
    readValue (fuel + 1) (.char '{' :: (gap ++ (t ++ rest))) =
      (readMembers fuel [] (t ++ rest) >>=
        fun (entries, after) => .ok (.table entries, after)) := by
  rw [readValue, skipSpace_append hgap, ht.skipSpace]
  obtain ⟨c, more, rfl, -, -, hbrace⟩ := ht
  split
  · rename_i heq
    exact absurd (List.cons.inj heq).1 hbrace
  · rfl

section

variable (layout : Layout) (depth : Nat)

theorem begins_container (closing : Char) {opening : Char} (hspace : isSpace opening = false)
    (hbracket : opening ≠ ']') (hbrace : opening ≠ '}') (parts : List Text) :
    BeginsValue (layout.container depth opening closing parts) := by
  have hopening : CodePoint.char opening ≠ .char ']' ∧ CodePoint.char opening ≠ .char '}' := by
    simp [hbracket, hbrace]
  unfold Layout.container
  split
  · exact ⟨_, _, rfl, hspace, hopening⟩
  · exact ⟨_, _, rfl, hspace, hopening⟩

theorem readsBack_array {texts : List Text} {items : List Value}
    (h : List.Forall₂ ReadsBack texts items) :
    ReadsBack (layout.container depth '[' ']' texts) (.array .list items) where
  begins := begins_container layout depth ']' rfl (by decide) (by decide) texts
  reads fuel rest hfuel _ := by
    cases fuel with
    | zero => exact absurd hfuel (by unfold Layout.container; split <;> simp)
    | succ fuel =>
        cases h with
        | nil => rfl
        | @cons text item texts items hitem hrest =>
            have hne : text :: texts ≠ [] := List.cons_ne_nil _ _
            have hgap {depth : Nat} : ∀ c ∈ layout.lineBreak depth, isSpace c = true :=
              fun c => isSpace_of_mem_lineBreak
            have hlength := congrArg List.length (container_of_ne_nil layout depth '[' ']' hne [])
            simp only [List.length_append, List.length_cons, List.length_nil] at hlength
            rw [container_of_ne_nil layout depth '[' ']' hne,
              readValue_items hgap (hitem.begins.joined _ texts),
              readItems_joined hgap hgap hne (.cons hitem hrest) fuel (by omega)]
            rfl

theorem readsBack_table {texts : List Text} {entries : Entries}
    (h : List.Forall₂ (IsMember layout) texts entries)
    (hdistinct : (entries.map Prod.fst).Nodup) :
    ReadsBack (layout.container depth '{' '}' texts) (.table entries) where
  begins := begins_container layout depth '}' rfl (by decide) (by decide) texts
  reads fuel rest hfuel _ := by
    cases fuel with
    | zero => exact absurd hfuel (by unfold Layout.container; split <;> simp)
    | succ fuel =>
        cases h with
        | nil => rfl
        | @cons text entry texts entries hentry hrest =>
            have hne : text :: texts ≠ [] := List.cons_ne_nil _ _
            have hgap {depth : Nat} : ∀ c ∈ layout.lineBreak depth, isSpace c = true :=
              fun c => isSpace_of_mem_lineBreak
            have hlength := congrArg List.length (container_of_ne_nil layout depth '{' '}' hne [])
            simp only [List.length_append, List.length_cons, List.length_nil] at hlength
            rw [container_of_ne_nil layout depth '{' '}' hne,
              readValue_members hgap (hentry.begins.joined _ texts),
              readMembers_joined hgap hgap hne (.cons hentry hrest) [] hdistinct fuel (by omega)]
            rfl

end

/-! ## Values -/

open Value

/-- The moment and array forms that JSON is asked to carry: all of them. -/
abbrev IsPlain (v : Value) : Prop :=
  v.IsBuilt (fun _ => True) (fun _ => True)

theorem exists_writeItems {layout : Layout} {depth : Nat} {items : List Value}
    (h : ∀ item ∈ items,
      ∃ text, writeAt layout depth item = .ok text ∧ ReadsBack text item.inJson) :
    ∃ texts, writeItems layout depth items = .ok texts ∧
      List.Forall₂ ReadsBack texts (inJsonItems items) := by
  induction items with
  | nil => exact ⟨[], rfl, .nil⟩
  | cons item rest ih =>
      obtain ⟨⟨text, htext, hitem⟩, hrest⟩ := List.forall_mem_cons.mp h
      obtain ⟨texts, htexts, hitems⟩ := ih hrest
      exact ⟨text :: texts, by rw [writeItems, htext, htexts]; rfl, .cons hitem hitems⟩

theorem exists_writeMembers {layout : Layout} {depth : Nat} {entries : Entries}
    (h : ∀ entry ∈ entries,
      ∃ text, writeAt layout depth entry.2 = .ok text ∧ ReadsBack text entry.2.inJson) :
    ∃ texts, writeMembers layout depth entries = .ok texts ∧
      List.Forall₂ (IsMember layout) texts (inJsonEntries entries) := by
  induction entries with
  | nil => exact ⟨[], rfl, .nil⟩
  | cons entry rest ih =>
      obtain ⟨key, value⟩ := entry
      obtain ⟨⟨text, htext, hvalue⟩, hrest⟩ := List.forall_mem_cons.mp h
      obtain ⟨texts, htexts, hentries⟩ := ih hrest
      refine ⟨(writeString key ++ layout.colon ++ text) :: texts, ?_, ?_⟩
      · rw [writeMembers, htext, htexts]
        rfl
      · exact .cons ⟨text, rfl, hvalue⟩ hentries

section

-- Otherwise the power of ten in the limit is computed when the writer is unfolded.
attribute [local irreducible] Numeral.isWritable

variable (layout : Layout) (depth : Nat)

theorem writeAt_integer (i : Int) :
    writeAt layout depth (.integer i) =
      match Numeral.write i with
      | .ok t => .ok t
      | .error e => .error (.limit e) := rfl

theorem writeAt_array (form : ArrayForm) (items : List Value) :
    writeAt layout depth (.array form items) =
      (writeItems layout (depth + 1) items >>= fun texts =>
        .ok (layout.container depth '[' ']' texts)) := rfl

theorem writeAt_table (entries : Entries) :
    writeAt layout depth (.table entries) =
      (writeMembers layout (depth + 1) entries >>= fun texts =>
        .ok (layout.container depth '{' '}' texts)) := rfl

end

/-- Every value has a text at every depth, and the text reads back as what JSON keeps of it. -/
theorem exists_writeAt (layout : Layout) {v : Value} (h : IsPlain v) (depth : Nat) :
    ∃ text, writeAt layout depth v = .ok text ∧ ReadsBack text v.inJson := by
  induction h generalizing depth with
  | string text => exact ⟨writeString text, rfl, readsBack_string text⟩
  | integer i hwritable =>
      refine ⟨Numeral.ofInt i, ?_, readsBack_integer hwritable⟩
      rw [writeAt_integer, Numeral.write, if_pos hwritable]
  | boolean b => exact ⟨_, rfl, readsBack_boolean b⟩
  | moment m _ => exact ⟨writeString m.render, rfl, readsBack_string m.render⟩
  | array _ _ ih =>
      obtain ⟨texts, htexts, hitems⟩ :=
        exists_writeItems fun item hitem => ih item hitem (depth + 1)
      refine ⟨_, ?_, readsBack_array layout depth hitems⟩
      rw [writeAt_array, htexts]
      rfl
  | table hdistinct _ ih =>
      obtain ⟨texts, htexts, hentries⟩ :=
        exists_writeMembers fun entry hentry => ih entry hentry (depth + 1)
      refine ⟨_, ?_, readsBack_table layout depth hentries ?_⟩
      · rw [writeAt_table, htexts]
        rfl
      · rwa [inJsonEntries_keys]

/-- What JSON keeps of a value holds no null. -/
theorem everywhere_inJson {v : Value} (h : IsPlain v) : v.inJson.Everywhere (· ≠ .null) := by
  induction h with
  | array _ _ ih =>
      refine everywhere_array_iff.mpr ⟨nofun, ?_⟩
      rw [inJsonItems_eq_map]
      exact List.forall_mem_map.mpr ih
  | table _ _ ih =>
      refine everywhere_table_iff.mpr ⟨nofun, ?_⟩
      rw [inJsonEntries_eq_map]
      exact List.forall_mem_map.mpr ih
  | _ => exact everywhere_of_isLeaf ⟨nofun, nofun⟩ nofun

/-- A text that reads back is the whole text of its value. -/
theorem read_of_readsBack {text : Text} {v : Value} (h : ReadsBack text v)
    (hmark : text.head? ≠ some (.char '\uFEFF')) : read text = .ok v := by
  have hskip : skipSpace text = text := by
    have hbegins := h.begins.skipSpace []
    rwa [List.append_nil] at hbegins
  have hread := h.reads (2 * text.length + 2) [] (by omega) nofun
  rw [List.append_nil] at hread
  have hwhole : readWhole text = .ok v := by
    unfold readWhole
    split
    · exact absurd rfl hmark
    · rw [hskip, hread]
      rfl
  rw [read, hwhole]

theorem head?_container (layout : Layout) (depth : Nat) (opening closing : Char)
    (parts : List Text) : (layout.container depth opening closing parts).head? = some opening := by
  unfold Layout.container
  split
  · rfl
  · rfl

end Json

namespace Document

open Value

theorem dump_json_of_write {pretty : Bool} {v : Value} {text : Text}
    (h : Json.write (if pretty then .indented else .compact) v = .ok text) :
    dump .json pretty v = .ok text := by
  rw [dump, h]

/-- **JSON reads back to the same document.**  In either layout a table of a document has a text,
and the text is loaded as what JSON keeps of the table. -/
theorem load_dump_json {entries : Entries} (h : Json.IsPlain (.table entries)) (pretty : Bool) :
    ∃ text, dump .json pretty (.table entries) = .ok text ∧
      load .json text = .ok (inJsonEntries entries) := by
  obtain ⟨text, hwrite, hreads⟩ := Json.exists_writeAt (if pretty then .indented else .compact) h 0
  refine ⟨text, dump_json_of_write hwrite, ?_⟩
  have hmark : text.head? ≠ some (.char '\uFEFF') := by
    rw [Json.writeAt_table] at hwrite
    obtain ⟨texts, -, htext⟩ := exists_of_bind_eq_ok hwrite
    rw [← Except.ok.inj htext, Json.head?_container]
    decide
  have hread : Json.read text = .ok (.table (inJsonEntries entries)) :=
    Json.read_of_readsBack hreads hmark
  have hload : load .json text = ofJson (.table (inJsonEntries entries)) := loadJson_of_read hread
  rw [hload]
  exact ofJson_eq_ok_iff.mpr ⟨rfl, Json.everywhere_inJson h⟩

/-- A tuple becomes a list and a date a string; the quote in the key is escaped. -/
theorem load_dump_json_tuple :
    let day : Date := ⟨2024, 2, 29, by decide⟩
    let entries : Entries :=
      [([.char '"'], .array .tuple [.moment (.date day), .integer (-7), .table []])]
    Json.IsPlain (.table entries) ∧
      ∃ text, dump .json true (.table entries) = .ok text ∧
        load .json text =
          .ok [([.char '"'], .array .list [.string day.render, .integer (-7), .table []])] := by
  intro day entries
  have hseven : (-7 : Int).natAbs = Numeral.value [.char '7'] := rfl
  have hinteger : Numeral.isWritable (-7) = true :=
    Numeral.isWritable_of_length_le hseven (by decide)
  have hitems : Json.IsPlain (.array .tuple [.moment (.date day), .integer (-7), .table []]) := by
    refine .array trivial (List.forall_mem_cons.mpr ⟨.moment _ trivial, ?_⟩)
    refine List.forall_mem_cons.mpr ⟨.integer _ hinteger, ?_⟩
    exact List.forall_mem_singleton.mpr (.table .nil nofun)
  have hplain : Json.IsPlain (.table entries) :=
    .table (by decide) (List.forall_mem_singleton.mpr hitems)
  exact ⟨hplain, load_dump_json hplain true⟩

end Document

end DocumentQuery
