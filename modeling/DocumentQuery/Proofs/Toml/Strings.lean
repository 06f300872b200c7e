import DocumentQuery.Proofs.Toml.Reading
import DocumentQuery.Toml.Item

/-!
# Strings and keys of TOML read back

A written value reads back from the beginning of a longer text if a line end, a comma or a closing
bracket follows it; this is what `Ends` says and all that a writer ever puts there.  A key is
followed by an equals sign, a dot or a closing bracket, and perhaps by blanks before them.

No text that is written holds a carriage return, so the reader does not change its line endings.
-/

namespace DocumentQuery

namespace Toml

/-! ## What stands around a value -/

/-- The code points that end a value: a line end, a comma or a closing bracket. -/
def valueEnds : List CodePoint :=
  [.char '\n', .char ',', .char ']', .char '}']

/-- A text begins with the end of a value, or it is empty. -/
def Ends (t : Text) : Prop :=
  ∀ c ∈ t.head?, c ∈ valueEnds

theorem ends_cons {c : CodePoint} (hc : c ∈ valueEnds) (rest : Text) : Ends (c :: rest) := by
  rintro d ⟨⟩
  exact hc

/-- What holds of all ends holds of the first code point after a value. -/
theorem Ends.head {P : CodePoint → Prop} {t : Text} (h : Ends t) (hends : ∀ c ∈ valueEnds, P c) :
    ∀ c ∈ t.head?, P c :=
  fun c hc => hends c (h c hc)

/-- A text begins like a value: not with a blank or a comment, and not with the end of a
container. -/
def BeginsValue (t : Text) : Prop :=
  ∃ c rest, t = c :: rest ∧ isSpace c = false ∧ c ≠ .char '#' ∧ c ≠ .char ']' ∧ c ≠ .char '}'

/-- A text is read as a value from the beginning of every text in which an end follows it. -/
structure ReadsBack (text : Text) (v : Value) : Prop where
  begins : BeginsValue text
  clean : .char '\r' ∉ text
  reads : ∀ fuel rest, 2 * text.length ≤ fuel → Ends rest →
    readValue fuel (text ++ rest) = .ok (v, rest)

theorem BeginsValue.length_pos {t : Text} (h : BeginsValue t) : 0 < t.length := by
  obtain ⟨c, rest, rfl, -⟩ := h
  exact Nat.succ_pos _

theorem skipBlanks_cons {c : CodePoint} (hc : isBlank c = false) (t : Text) :
    skipBlanks (c :: t) = c :: t := by
  rw [skipBlanks, List.dropWhile_cons_of_neg (by simp [hc])]

theorem skipBlanks_blank (t : Text) : skipBlanks (.char ' ' :: t) = skipBlanks t :=
  List.dropWhile_cons_of_pos rfl

theorem isBlank_of_isSpace_eq_false {c : CodePoint} (h : isSpace c = false) :
    isBlank c = false := by
  simp only [isSpace, Bool.or_eq_false_iff] at h
  exact h.1

/-! ## Strings -/

/-- The number of four hexadecimal digits is the one that they were made of. -/
theorem hexValue?_hex {n : Nat} (h : n < 0x10000) : hexValue? (Text.hex 4 n) = some n := by
  have hdigit (m : Nat) : (CodePoint.char (m % 16).digitChar).hexValue? = some (m % 16) :=
    CodePoint.hexValue?_digitChar (Nat.mod_lt m (by decide))
  rw [Text.hex_four]
  simp only [hexValue?, List.foldlM_cons, List.foldlM_nil, hdigit, Option.map_some,
    Option.bind_eq_bind, Option.bind_some]
  refine congrArg some ?_
  omega

theorem readBasic_unicode {n : Nat} (h : n < 0x80) (rest : Text) :
    readBasic false .text (.char '\\' :: .char 'u' :: (Text.hex 4 n ++ rest)) =
      prepend (.ofNat n) (readBasic false .text rest) := by
  have hvalid : n.isValidChar := Or.inl (by omega)
  have hread : readHex (Text.hex 4 n) rest = .ok (.ofNat n) := by
    rw [readHex, hexValue?_hex (by omega)]
    exact if_pos hvalid
  rw [Text.hex_four] at hread ⊢
  exact (readBasic_hex _ _ _ _ rest).trans (by rw [hread])

/-- Reading undoes the escape of a code point. -/
theorem readBasic_escaped (c : CodePoint) (rest : Text) :
    readBasic false .text (escaped c ++ rest) = prepend c (readBasic false .text rest) := by
  unfold escaped
  -- The first seven cases are the escapes by a letter.
  iterate 7
    split
    next hc =>
      rw [hc]
      exact readBasic_letter (by decide) (by decide) rest
  split
  · rename_i hcontrol
    have hread := readBasic_unicode (n := c.toNat) (by omega) rest
    rw [CodePoint.ofNat_toNat] at hread
    exact hread
  · rename_i htab _ _ _ hquote hbackslash hcontrol
    have hplain : isControl c = false := by
      rw [not_or] at hcontrol
      simp [isControl, hcontrol.1, hcontrol.2]
    change readBasic false .text (c :: rest) = _
    rw [readBasic_plain hquote hbackslash, hplain]
    rfl

theorem readBasic_text (t rest : Text) :
    readBasic false .text (t.flatMap escaped ++ .char '"' :: rest) = .ok (t, rest) := by
  induction t with
  | nil => exact readBasic_quote rest
  | cons c t ih =>
      rw [List.flatMap_cons, List.append_assoc, readBasic_escaped, ih]
      rfl

theorem spellString_append (t rest : Text) :
    spellString t ++ rest = .char '"' :: (t.flatMap escaped ++ .char '"' :: rest) := by
  simp [spellString]

theorem digitChar_ne_return (n : Nat) : CodePoint.char (n % 16).digitChar ≠ .char '\r' := by
  intro h
  have hvalue := CodePoint.hexValue?_digitChar (Nat.mod_lt n (Nat.succ_pos 15))
  rw [h] at hvalue
  cases hvalue

/-- No escape is empty or begins with a quote, and none holds a carriage return. -/
theorem exists_escaped_eq_cons (c : CodePoint) :
    ∃ d more, escaped c = d :: more ∧ d ≠ .char '"' ∧ .char '\r' ∉ d :: more := by
  unfold escaped
  iterate 7
    split
    next => exact ⟨_, _, rfl, by decide, by decide⟩
  split
  · refine ⟨.char '\\', .char 'u' :: Text.hex 4 c.toNat, rfl, by decide, ?_⟩
    rw [Text.hex_four]
    simp [(digitChar_ne_return _).symm]
  · rename_i hreturn hquote _ _
    refine ⟨c, [], rfl, hquote, ?_⟩
    simpa using Ne.symm hreturn

theorem clean_spellString (t : Text) : .char '\r' ∉ spellString t := by
  intro h
  simp only [spellString, List.cons_append, List.mem_cons, List.mem_append, List.mem_flatMap,
    List.not_mem_nil, or_false] at h
  rcases h with hquote | ⟨c, -, hc⟩ | hquote
  · exact absurd hquote (by decide)
  · obtain ⟨d, more, heq, -, hclean⟩ := exists_escaped_eq_cons c
    rw [heq] at hc
    exact hclean hc
  · exact absurd hquote (by decide)

/-- A string of one line begins with a quote that no two further ones follow. -/
theorem readString?_single {t : Text} (h : ∀ rest, t ≠ .char '"' :: .char '"' :: rest) :
    readString? (.char '"' :: t) = some (readBasic false .text t) := by
  unfold readString?
  split
  · rename_i rest heq
    exact absurd (List.cons.inj heq).2 (h rest)
  · rename_i heq
    rw [(List.cons.inj heq).2]
  · rename_i heq
    cases heq
  · rename_i heq
    cases heq
  · rename_i hquote _ _
    exact absurd rfl (hquote t)

theorem readString?_spellString (t : Text) {rest : Text} (hrest : ∀ c ∈ rest.head?, c ≠ .char '"') :
    readString? (spellString t ++ rest) = some (.ok (t, rest)) := by
  rw [spellString_append, readString?_single, readBasic_text]
  intro more heq
  cases t with
  | nil =>
      rw [List.flatMap_nil, List.nil_append] at heq
      rw [(List.cons.inj heq).2] at hrest
      exact hrest _ rfl rfl
  | cons c t =>
      obtain ⟨d, others, hescaped, hquote, -⟩ := exists_escaped_eq_cons c
      rw [List.flatMap_cons, hescaped] at heq
      exact hquote (List.cons.inj heq).1

/-- A value that begins with a quote is a string. -/
theorem readValue_of_readString? {t : Text} {found : Except Stop (Text × Text)}
    (h : readString? t = some found) (fuel : Nat) :
    readValue (fuel + 1) t = found.map fun (s, rest) => (.string s, rest) := by
  unfold readValue
  rw [h]

/-- A value that begins with no quote and no bracket is a scalar. -/
theorem readValue_of_scalar {t : Text} (hstring : readString? t = none)
    (hbracket : ∀ rest, t ≠ .char '[' :: rest) (hbrace : ∀ rest, t ≠ .char '{' :: rest)
    (fuel : Nat) : readValue (fuel + 1) t = readScalar t := by
  unfold readValue
  rw [hstring]
  dsimp only
  split
  · exact absurd rfl (hbracket _)
  · exact absurd rfl (hbrace _)
  · rfl

theorem readsBack_string (t : Text) : ReadsBack (spellString t) (.string t) where
  begins := ⟨_, _, rfl, by decide, by decide, by decide, by decide⟩
  clean := clean_spellString t
  reads fuel rest hfuel hrest := by
    have hquote : ∀ c ∈ rest.head?, c ≠ .char '"' := hrest.head (by decide)
    cases fuel with
    | zero => simp [spellString] at hfuel
    | succ fuel =>
        rw [readValue_of_readString? (readString?_spellString t hquote)]
        rfl

/-! ## Keys -/

theorem readKeyPart_spellKey (key : Text) {rest : Text}
    (hrest : ∀ c ∈ rest.head?, c.isBare = false) :
    readKeyPart (spellKey key ++ rest) = .ok (key, rest) := by
  unfold spellKey
  split
  · rename_i hbare
    rw [Bool.and_eq_true, List.all_eq_true] at hbare
    obtain ⟨hne, hbare⟩ := hbare
    have hnonempty : key.isEmpty = false := by simpa using hne
    have hunquoted (c : CodePoint) (hc : c.isBare = false) : ∀ more, key ++ rest ≠ c :: more := by
      intro more heq
      cases key with
      | nil => cases hnonempty
      | cons d key =>
          have hd : d.isBare = true := hbare d List.mem_cons_self
          rw [(List.cons.inj heq).1, hc] at hd
          cases hd
    unfold readKeyPart
    split
    · rename_i heq
      exact absurd heq (hunquoted _ rfl _)
    · rename_i heq
      exact absurd heq (hunquoted _ rfl _)
    · rw [Text.takeWhile_run_append hbare hrest, Text.dropWhile_run_append hbare hrest]
      dsimp only
      rw [hnonempty]
      rfl
  · rw [spellString_append, readKeyPart, readBasic_text]

theorem exists_spellKey_eq_cons (key : Text) :
    ∃ c more, spellKey key = c :: more ∧ beginsKey c = true ∧ .char '\r' ∉ c :: more := by
  unfold spellKey
  split
  · rename_i hbare
    rw [Bool.and_eq_true, List.all_eq_true] at hbare
    obtain ⟨hne, hbare⟩ := hbare
    cases key with
    | nil => cases hne
    | cons c more =>
        refine ⟨c, more, rfl, ?_, fun hmem => ?_⟩
        · simp [beginsKey, hbare c List.mem_cons_self]
        · exact absurd (hbare _ hmem) (by decide)
  · exact ⟨_, _, rfl, rfl, clean_spellString key⟩

theorem clean_spellKey (key : Text) : .char '\r' ∉ spellKey key := by
  obtain ⟨c, more, heq, -, hclean⟩ := exists_spellKey_eq_cons key
  rw [heq]
  exact hclean

/-- What may begin a key is no blank and begins nothing else. -/
theorem plain_of_beginsKey {c : CodePoint} (h : beginsKey c = true) :
    isSpace c = false ∧ c ≠ .char '[' ∧ c ≠ .char '#' ∧ c ≠ .char '}' := by
  have hne {d : CodePoint} (hd : beginsKey d = false) : c ≠ d := by
    rintro rfl
    rw [h] at hd
    cases hd
  refine ⟨?_, hne rfl, hne rfl, hne rfl⟩
  simp only [isSpace, isBlank, Bool.or_eq_false_iff, decide_eq_false_iff_not]
  exact ⟨⟨hne rfl, hne rfl⟩, hne rfl⟩

theorem skipBlanks_spellKey (key rest : Text) :
    skipBlanks (spellKey key ++ rest) = spellKey key ++ rest := by
  obtain ⟨c, more, heq, hbegins, -⟩ := exists_spellKey_eq_cons key
  rw [heq]
  exact skipBlanks_cons (isBlank_of_isSpace_eq_false (plain_of_beginsKey hbegins).1) _

theorem spellPath_singleton (key : Text) : spellPath [key] = spellKey key :=
  Text.joined_singleton _ _

theorem spellPath_cons_cons (first second : Text) (path : Path) (rest : Text) :
    spellPath (first :: second :: path) ++ rest =
      spellKey first ++ (.char '.' :: (spellPath (second :: path) ++ rest)) := by
  simp only [spellPath, List.map_cons, Text.joined_cons_cons, List.append_assoc]
  rfl

theorem exists_spellPath_eq (key : Text) (path : Path) :
    ∃ more, spellPath (key :: path) = spellKey key ++ more := by
  cases path with
  | nil => exact ⟨[], by rw [spellPath_singleton, List.append_nil]⟩
  | cons second path =>
      refine ⟨.char '.' :: spellPath (second :: path), ?_⟩
      have heq := spellPath_cons_cons key second path []
      rwa [List.append_nil, List.append_nil] at heq

theorem length_le_spellPath (path : Path) : path.length ≤ (spellPath path).length := by
  induction path with
  | nil => exact Nat.zero_le _
  | cons key path ih =>
      obtain ⟨c, more, heq, -⟩ := exists_spellKey_eq_cons key
      cases path with
      | nil =>
          rw [spellPath_singleton, heq]
          exact Nat.succ_le_succ (Nat.zero_le _)
      | cons second path =>
          have htext := spellPath_cons_cons key second path []
          rw [List.append_nil, List.append_nil] at htext
          rw [htext, heq]
          simp only [List.length_append, List.length_cons] at ih ⊢
          omega

theorem clean_spellPath (path : Path) : .char '\r' ∉ spellPath path := by
  induction path with
  | nil => exact List.not_mem_nil
  | cons key path ih =>
      cases path with
      | nil =>
          rw [spellPath_singleton]
          exact clean_spellKey key
      | cons second path =>
          have htext := spellPath_cons_cons key second path []
          rw [List.append_nil, List.append_nil] at htext
          rw [htext, List.mem_append, List.mem_cons]
          rintro (hkey | hdot | hpath)
          · exact clean_spellKey key hkey
          · exact absurd hdot (by decide)
          · exact ih hpath

/-- A dotted key is read up to a code point that neither belongs to a part nor joins another
one. -/
theorem readKeyParts_spellPath {path : Path} (hne : path ≠ []) {count : Nat}
    (hcount : path.length ≤ count) {rest : Text} (hrest : ∀ c ∈ rest.head?, c.isBare = false)
    (hdot : ∀ c ∈ (skipBlanks rest).head?, c ≠ .char '.') :
    readKeyParts count (spellPath path ++ rest) = .ok (path, skipBlanks rest) := by
  induction path generalizing count with
  | nil => exact absurd rfl hne
  | cons key path ih =>
      cases count with
      | zero => cases hcount
      | succ count =>
          cases path with
          | nil =>
              rw [spellPath_singleton, readKeyParts, readKeyPart_spellKey key hrest, ok_bind]
              dsimp only
              split
              · rename_i heq
                rw [heq] at hdot
                exact absurd rfl (hdot _ rfl)
              · rfl
          | cons second path =>
              obtain ⟨more, hmore⟩ := exists_spellPath_eq second path
              have hskip : skipBlanks (spellPath (second :: path) ++ rest) =
                  spellPath (second :: path) ++ rest := by
                rw [hmore, List.append_assoc]
                exact skipBlanks_spellKey second _
              have hparts := ih (List.cons_ne_nil _ _) (Nat.le_of_succ_le_succ hcount)
              have hend : ∀ c ∈ (CodePoint.char '.' :: (spellPath (second :: path) ++ rest)).head?,
                  c.isBare = false := by
                rintro c ⟨⟩
                rfl
              rw [spellPath_cons_cons, readKeyParts, readKeyPart_spellKey key hend, ok_bind]
              dsimp only
              rw [skipBlanks_cons rfl]
              change (readKeyParts count (skipBlanks (spellPath (second :: path) ++ rest)) >>=
                _) = _
              rw [hskip, hparts]
              rfl

theorem readKey_spellPath {path : Path} (hne : path ≠ []) {rest : Text}
    (hrest : ∀ c ∈ rest.head?, c.isBare = false)
    (hdot : ∀ c ∈ (skipBlanks rest).head?, c ≠ .char '.') :
    readKey (spellPath path ++ rest) = .ok (path, skipBlanks rest) := by
  have hlength := length_le_spellPath path
  refine readKeyParts_spellPath hne ?_ hrest hdot
  rw [List.length_append]
  omega

end Toml

end DocumentQuery
