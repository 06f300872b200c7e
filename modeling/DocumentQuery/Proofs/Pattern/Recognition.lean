import DocumentQuery.Pattern.Parser
import DocumentQuery.Proofs.Pattern.Grammar

/-!
# Reading recognizes the language of patterns

Each reader is related to the forms of what it reads, in both directions: it takes the text of a
form from the beginning of a longer text, and whatever it takes is the text of a form.  The first
direction asks that what follows cannot be taken for a part of the form.
-/

namespace DocumentQuery

namespace Pattern

/-! ## Quoted keys -/

theorem readQuoted?_ordinary {c : CodePoint} {t : Text} (hquote : c ≠ .char '"')
    (hescape : c = .char '\\' → ∀ d ∈ t.head?, ¬IsSpecial d) :
    readQuoted? (c :: t) = (readQuoted? t).map fun (key, rest) => (c :: key, rest) := by
  rw [readQuoted?]
  · exact hquote
  · rintro r rfl rfl
    exact hescape rfl _ rfl (Or.inl rfl)
  · rintro r rfl rfl
    exact hescape rfl _ rfl (Or.inr rfl)

theorem readQuoted?_item (item : QuotedItem) (t : Text) :
    readQuoted? (item.text ++ t) =
      (readQuoted? t).map fun (key, rest) => (item.denoted ++ key, rest) := by
  cases item with
  | escaped c hspecial =>
      rcases hspecial with rfl | rfl
      · rfl
      · rfl
  | backslash next hplain =>
      have hnext : readQuoted? (next :: t) =
          (readQuoted? t).map fun (key, rest) => (next :: key, rest) :=
        readQuoted?_ordinary (fun h => hplain (Or.inl h)) fun h => absurd (Or.inr h) hplain
      change readQuoted? (.char '\\' :: next :: t) = _
      rw [readQuoted?_ordinary (by decide) (by simpa using hplain), hnext, Option.map_map]
      rfl
  | plain c hplain =>
      exact readQuoted?_ordinary (fun h => hplain (Or.inl h)) fun h => absurd (Or.inr h) hplain

/-- Items are read up to the closing quote. -/
theorem readQuoted?_items (items : List QuotedItem) (rest : Text) :
    readQuoted? (items.flatMap QuotedItem.text ++ .char '"' :: rest) =
      some (items.flatMap QuotedItem.denoted, rest) := by
  induction items with
  | nil => rfl
  | cons item items ih =>
      rw [List.flatMap_cons, List.append_assoc, readQuoted?_item, ih]
      rfl

/-- An ordinary code point before some items is an item itself, or the backslash of one. -/
theorem exists_items_cons {c : CodePoint} {items : List QuotedItem} {rest : Text}
    (hquote : c ≠ .char '"')
    (hescape : c = .char '\\' →
      ∀ d ∈ (items.flatMap QuotedItem.text ++ .char '"' :: rest).head?, ¬IsSpecial d) :
    ∃ more : List QuotedItem,
      more.flatMap QuotedItem.text = c :: items.flatMap QuotedItem.text ∧
        more.flatMap QuotedItem.denoted = c :: items.flatMap QuotedItem.denoted := by
  by_cases hc : c = .char '\\'
  · subst hc
    -- The reader keeps a backslash only if no item that follows it begins with a special one.
    cases items with
    | nil => exact absurd (Or.inl rfl) (hescape rfl _ rfl)
    | cons item items =>
        cases item with
        | escaped d hspecial => exact absurd (Or.inr rfl) (hescape rfl _ rfl)
        | backslash d hplain => exact absurd (Or.inr rfl) (hescape rfl _ rfl)
        | plain d hplain => exact ⟨.backslash d hplain :: items, rfl, rfl⟩
  · have hplain : ¬IsSpecial c := fun h => h.elim hquote hc
    exact ⟨.plain c hplain :: items, rfl, rfl⟩

/-- Whatever is read up to a closing quote consists of items. -/
theorem exists_items_of_readQuoted? {t key rest : Text} (h : readQuoted? t = some (key, rest)) :
    ∃ items : List QuotedItem,
      t = items.flatMap QuotedItem.text ++ .char '"' :: rest ∧
        items.flatMap QuotedItem.denoted = key := by
  -- The cases are those of the reader: no quote closes the key, one does, one or the other special
  -- code point is escaped, or a code point stands for itself.
  fun_induction readQuoted? t generalizing key with
  | case1 => cases h
  | case2 r =>
      cases h
      exact ⟨[], rfl, rfl⟩
  | case3 r ih =>
      obtain ⟨found, hfound, hpair⟩ := Option.map_eq_some_iff.mp h
      cases hpair
      obtain ⟨items, rfl, hkey⟩ := ih hfound
      exact ⟨.escaped (.char '"') (Or.inl rfl) :: items, rfl, by rw [← hkey]; rfl⟩
  | case4 r ih =>
      obtain ⟨found, hfound, hpair⟩ := Option.map_eq_some_iff.mp h
      cases hpair
      obtain ⟨items, rfl, hkey⟩ := ih hfound
      exact ⟨.escaped (.char '\\') (Or.inr rfl) :: items, rfl, by rw [← hkey]; rfl⟩
  | case5 c r hquote hnoQuote hnoBackslash ih =>
      obtain ⟨⟨shorter, after⟩, hfound, hpair⟩ := Option.map_eq_some_iff.mp h
      cases hpair
      obtain ⟨items, rfl, hkey⟩ := ih hfound
      have hescape : c = .char '\\' →
          ∀ d ∈ (items.flatMap QuotedItem.text ++ .char '"' :: rest).head?, ¬IsSpecial d := by
        intro hc d hd hspecial
        obtain ⟨tail, htail⟩ := List.head?_eq_some_iff.mp hd
        rcases hspecial with rfl | rfl
        · exact hnoQuote tail hc htail
        · exact hnoBackslash tail hc htail
      obtain ⟨more, htext, hdenoted⟩ := exists_items_cons hquote hescape
      exact ⟨more, by rw [htext, List.cons_append], by rw [hdenoted, hkey]⟩

/-! ## Keys -/

theorem readBare_name {name rest : Text} (hne : name ≠ []) (hbare : ∀ c ∈ name, c.isBare = true)
    (hrest : ∀ c ∈ rest.head?, c.isBare = false) : readBare (name ++ rest) = .ok (name, rest) := by
  have hempty : name.isEmpty = false := by
    cases name with
    | nil => exact absurd rfl hne
    | cons c name => rfl
  unfold readBare
  rw [Text.takeWhile_run_append hbare hrest, Text.dropWhile_run_append hbare hrest]
  simp only [hempty, Bool.false_eq_true, if_false]

/-- What follows a key does not prolong it.  Only a bare key can go on. -/
def KeyForm.EndsBefore : KeyForm → Text → Prop
  | .bare _ _ _, rest => ∀ c ∈ rest.head?, c.isBare = false
  | .quoted _, _ => True

theorem KeyForm.endsBefore_of_head? (form : KeyForm) {rest : Text}
    (hrest : ∀ c ∈ rest.head?, c.isBare = false) : form.EndsBefore rest := by
  cases form with
  | bare name hne hbare => exact hrest
  | quoted items => trivial

theorem KeyForm.EndsBefore.of_head?_eq {form : KeyForm} {rest other : Text}
    (h : form.EndsBefore rest) (heq : other.head? = rest.head?) : form.EndsBefore other := by
  cases form with
  | bare name hne hbare =>
      intro c hc
      rw [heq] at hc
      exact h c hc
  | quoted items => trivial

/-- A key is read from the beginning of a text if what follows does not prolong it. -/
theorem readKey_text (form : KeyForm) {rest : Text} (hrest : form.EndsBefore rest) :
    readKey (form.text ++ rest) = .ok (form.name, rest) := by
  cases form with
  | bare name hne hbare =>
      -- A bare key does not begin with a double quote.
      have hread : readKey (name ++ rest) = readBare (name ++ rest) := by
        unfold readKey
        split
        · rename_i tail htext
          have hquote : CodePoint.isBare (.char '"') = true := by
            apply hbare
            cases name with
            | nil => exact absurd rfl hne
            | cons c name =>
                rw [List.cons_append] at htext
                rw [(List.cons.inj htext).1]
                exact List.mem_cons_self
          exact absurd hquote (by decide)
        · rfl
      exact hread.trans (readBare_name hne hbare hrest)
  | quoted items =>
      change readKey (.char '"' :: (items.flatMap QuotedItem.text ++ [.char '"']) ++ rest) = _
      rw [List.cons_append, List.append_assoc, List.singleton_append, readKey,
        readQuoted?_items]
      rfl

theorem exists_name_of_readBare {t name rest : Text} (h : readBare t = .ok (name, rest)) :
    t = name ++ rest ∧ name ≠ [] ∧ (∀ c ∈ name, c.isBare = true) ∧
      ∀ c ∈ rest.head?, c.isBare = false := by
  unfold readBare at h
  dsimp only at h
  split at h
  · split at h <;> cases h
  · rename_i hne
    cases h
    refine ⟨List.takeWhile_append_dropWhile.symm, ?_, fun c hc => List.mem_takeWhile_imp hc,
      Text.head?_dropWhile _ t⟩
    rintro hnil
    exact hne (by rw [hnil]; rfl)

/-- Whatever is read as a key is the text of one, and the key is read to its end. -/
theorem exists_form_of_readKey {t name rest : Text} (h : readKey t = .ok (name, rest)) :
    ∃ form : KeyForm, t = form.text ++ rest ∧ form.name = name ∧ form.EndsBefore rest := by
  unfold readKey at h
  split at h
  · split at h
    · rename_i found hfound
      cases h
      obtain ⟨items, rfl, hname⟩ := exists_items_of_readQuoted? hfound
      refine ⟨.quoted items, ?_, hname, trivial⟩
      simp [KeyForm.text]
    · cases h
  · obtain ⟨htext, hne, hbare, hrest⟩ := exists_name_of_readBare h
    exact ⟨.bare name hne hbare, htext, rfl, hrest⟩

/-! ## Positions -/

theorem ne_of_isDigit {c d : CodePoint} (hc : c.isDigit = true) (hd : d.isDigit = false) :
    c ≠ d := by
  rintro rfl
  rw [hc] at hd
  cases hd

/-- The sign and the digits of a position stand before the closing bracket. -/
theorem PositionForm.ne_bracket (form : PositionForm) :
    ∀ c ∈ form.sign ++ form.digits, decide (c ≠ .char ']') = true := by
  intro c hc
  rw [decide_eq_true_eq]
  rcases List.mem_append.mp hc with hsign | hdigit
  · unfold PositionForm.sign at hsign
    split at hsign
    · rw [List.mem_singleton.mp hsign]
      decide
    · cases hsign
  · exact ne_of_isDigit (form.hdigits c hdigit) (by decide)

theorem readSign_body (form : PositionForm) (t : Text) :
    readSign (form.sign ++ form.digits ++ t) = (form.negative, form.digits ++ t) := by
  unfold PositionForm.sign
  cases form.negative with
  | true => rfl
  | false =>
      -- Without a sign the first code point is a digit, which no minus sign is.
      rw [if_neg Bool.false_ne_true, List.nil_append]
      unfold readSign
      split
      · rename_i tail htext
        cases hdigits : form.digits with
        | nil => exact absurd hdigits form.hne
        | cons d digits =>
            rw [hdigits, List.cons_append] at htext
            have hd : d.isDigit = true := form.hdigits d (by rw [hdigits]; exact List.mem_cons_self)
            exact absurd (List.cons.inj htext).1 (ne_of_isDigit hd (by decide))
      · rfl

theorem numeral_read_digits (form : PositionForm) :
    Numeral.read form.digits =
      if form.digits.length ≤ Numeral.maxDigits then .ok form.magnitude
      else .error (.reading form.digits.length) := by
  rw [Numeral.read, PositionForm.magnitude, Numeral.value_eq_ofDigits]

/-- A position is read from the beginning of a text if it is short, and stops the reader if it
is not. -/
theorem readIndex_body (form : PositionForm) (rest : Text) :
    readIndex (form.body ++ rest) =
      if form.digits.length ≤ Numeral.maxDigits then .ok (form.position, rest)
      else .error (.limit (.reading form.digits.length)) := by
  have hbody : form.body ++ rest = form.sign ++ form.digits ++ (.char ']' :: rest) := by
    simp [PositionForm.body]
  -- The reader looks for the closing bracket first, and only then at what stands before it.
  have hclose : (form.body ++ rest).dropWhile (· ≠ CodePoint.char ']') = .char ']' :: rest := by
    rw [hbody]
    exact Text.dropWhile_run_append form.ne_bracket fun c hc => by
      rw [← Option.some.inj hc]
      decide
  have hstop : ∀ c ∈ (CodePoint.char ']' :: rest).head?, c.isDigit = false := by
    intro c hc
    rw [← Option.some.inj hc]
    decide
  have hdigits : (form.digits ++ .char ']' :: rest).takeWhile CodePoint.isDigit = form.digits :=
    Text.takeWhile_run_append form.hdigits hstop
  have hunread : (form.digits ++ .char ']' :: rest).dropWhile CodePoint.isDigit =
      .char ']' :: rest :=
    Text.dropWhile_run_append form.hdigits hstop
  have hnonempty : ¬(form.digits.isEmpty = true ∨
      (CodePoint.char ']' :: rest).head? ≠ some (CodePoint.char ']')) := by
    simp [form.hne]
  unfold readIndex
  rw [hclose, hbody, readSign_body]
  dsimp only
  rw [hdigits, hunread, if_neg hnonempty, numeral_read_digits]
  by_cases hshort : form.digits.length ≤ Numeral.maxDigits
  · rw [if_pos hshort, if_pos hshort]
    rfl
  · rw [if_neg hshort, if_neg hshort]

theorem readSign_append {t magnitude : Text} {negative : Bool}
    (h : readSign t = (negative, magnitude)) :
    t = (if negative then [.char '-'] else []) ++ magnitude := by
  unfold readSign at h
  split at h
  · cases h
    rfl
  · cases h
    rfl

/-- Whatever is read as a position is the text of a short one. -/
theorem exists_form_of_readIndex {t rest : Text} {i : Int} (h : readIndex t = .ok (i, rest)) :
    ∃ form : PositionForm, t = form.body ++ rest ∧ form.position = i ∧ form.IsShort := by
  have hread := h
  unfold readIndex at h
  split at h
  · cases h
  · cases hsign : readSign t with
    | mk negative magnitude =>
        rw [hsign] at h
        dsimp only at h
        split at h
        · cases h
        · rename_i hform
          rw [not_or, not_not] at hform
          obtain ⟨hne, hclose⟩ := hform
          obtain ⟨tail, htail⟩ := List.head?_eq_some_iff.mp hclose
          let form : PositionForm :=
            { negative := negative
              digits := magnitude.takeWhile CodePoint.isDigit
              hne := fun hnil => hne (by rw [hnil]; rfl)
              hdigits := fun c hc => List.mem_takeWhile_imp hc }
          have hmagnitude : magnitude = form.digits ++ .char ']' :: tail := by
            rw [← htail]
            exact List.takeWhile_append_dropWhile.symm
          have htext : t = form.body ++ tail := by
            rw [readSign_append hsign, hmagnitude]
            simp [PositionForm.body, PositionForm.sign, form]
          -- What was read is now known to be the text of a form, and how that is read as well.
          rw [htext, readIndex_body] at hread
          split at hread
          · rename_i hshort
            cases hread
            exact ⟨form, htext, rfl, hshort⟩
          · cases hread

theorem readIndices_of_head?_ne {t : Text} (h : ∀ c ∈ t.head?, c ≠ .char '[') :
    readIndices t = .ok ([], t) := by
  unfold readIndices
  split
  · exact absurd rfl (h _ rfl)
  · rfl

theorem readIndices_bracket (t : Text) :
    readIndices (.char '[' :: t) =
      match readIndex t with
      | .error stop => .error stop
      | .ok (i, after) =>
          match readIndices after with
          | .error stop => .error stop
          | .ok (more, rest) => .ok (i :: more, rest) := by
  rw [readIndices]
  split
  · rename_i h
    simp only [h]
  · rename_i h
    exact h ▸ rfl

theorem positionsText_cons (form : PositionForm) (forms : List PositionForm) (rest : Text) :
    (form :: forms).flatMap PositionForm.text ++ rest =
      .char '[' :: (form.body ++ (forms.flatMap PositionForm.text ++ rest)) := by
  simp [PositionForm.text]

/-- Short positions are read, and then those that begin what follows. -/
theorem readIndices_append (forms : List PositionForm) (rest : Text)
    (hshort : ∀ form ∈ forms, form.IsShort) :
    readIndices (forms.flatMap PositionForm.text ++ rest) =
      match readIndices rest with
      | .error stop => .error stop
      | .ok (more, after) => .ok (forms.map PositionForm.position ++ more, after) := by
  induction forms with
  | nil =>
      rw [List.flatMap_nil, List.nil_append]
      cases readIndices rest <;> rfl
  | cons form forms ih =>
      have hhead : form.digits.length ≤ Numeral.maxDigits := hshort form List.mem_cons_self
      have hread := readIndex_body form (forms.flatMap PositionForm.text ++ rest)
      rw [if_pos hhead] at hread
      have hmore := ih fun other hother => hshort other (List.mem_cons_of_mem form hother)
      rw [positionsText_cons, readIndices_bracket, hread]
      dsimp only
      rw [hmore]
      cases readIndices rest <;> rfl

/-- The first position that is not short stops the reader. -/
theorem readIndices_long (forms : List PositionForm) (rest : Text)
    (hlong : ¬∀ form ∈ forms, form.IsShort) :
    ∃ n, Numeral.maxDigits < n ∧
      readIndices (forms.flatMap PositionForm.text ++ rest) = .error (.limit (.reading n)) := by
  induction forms with
  | nil => exact absurd (fun form hform => absurd hform List.not_mem_nil) hlong
  | cons form forms ih =>
      have hread := readIndex_body form (forms.flatMap PositionForm.text ++ rest)
      rw [positionsText_cons, readIndices_bracket, hread]
      by_cases hshort : form.digits.length ≤ Numeral.maxDigits
      · -- The long position is one of the later ones.
        have hlater : ¬∀ other ∈ forms, other.IsShort := by
          intro hall
          apply hlong
          intro other hother
          rcases List.mem_cons.mp hother with rfl | hother
          · exact hshort
          · exact hall other hother
        obtain ⟨n, hn, hstop⟩ := ih hlater
        refine ⟨n, hn, ?_⟩
        rw [if_pos hshort]
        dsimp only
        rw [hstop]
      · refine ⟨form.digits.length, Nat.lt_of_not_le hshort, ?_⟩
        rw [if_neg hshort]

/-- Whatever is read as positions is the text of short ones, and what follows opens no further
one. -/
theorem exists_forms_of_readIndices {t rest : Text} {is : List Int}
    (h : readIndices t = .ok (is, rest)) :
    ∃ forms : List PositionForm,
      t = forms.flatMap PositionForm.text ++ rest ∧
        forms.map PositionForm.position = is ∧ (∀ form ∈ forms, form.IsShort) ∧
        ∀ c ∈ rest.head?, c ≠ .char '[' := by
  fun_induction readIndices t generalizing is rest with
  | case1 => cases h
  | case2 => cases h
  | case3 r i after hindex more last hmore ih =>
      cases h
      obtain ⟨form, rfl, hposition, hshort⟩ := exists_form_of_readIndex hindex
      obtain ⟨forms, rfl, hpositions, hshorts, hrest⟩ := ih hmore
      refine ⟨form :: forms, (positionsText_cons form forms _).symm, ?_, ?_, hrest⟩
      · rw [List.map_cons, hposition, hpositions]
      · exact List.forall_mem_cons.mpr ⟨hshort, hshorts⟩
  | case4 t hbracket =>
      cases h
      refine ⟨[], rfl, rfl, fun form hform => absurd hform List.not_mem_nil, ?_⟩
      rintro c hc rfl
      obtain ⟨tail, rfl⟩ := List.head?_eq_some_iff.mp hc
      exact hbracket tail rfl

/-! ## Steps -/

/-- What becomes of the steps that have been read, given what follows them. -/
def readFurther (steps : List Step) : Text → Except Stop (List Step)
  | [] => .ok steps
  | c :: more =>
      if c ≠ .char '.' then .error (.fault .unexpectedCharacter (c :: more))
      else if more.isEmpty then .error (.fault .trailingDot (c :: more))
      else
        match readSteps more with
        | .error stop => .error stop
        | .ok others => .ok (steps ++ others)

theorem readSteps_eq (t : Text) :
    readSteps t =
      match readKey t with
      | .error stop => .error stop
      | .ok (name, afterKey) =>
          match readIndices afterKey with
          | .error stop => .error stop
          | .ok (positions, afterStep) =>
              readFurther (.field name :: positions.map .index) afterStep := by
  rw [readSteps]
  split
  · rename_i h
    rw [h]
  · rename_i name afterKey h
    rw [h]
    dsimp only
    split
    · rename_i h
      rw [h]
    · rename_i positions afterStep h
      simp only [h]
      split
      · rfl
      · rfl

theorem head?_textOfOthers (others : List StepForm) :
    ∀ c ∈ (Form.textOfOthers others).head?, c = .char '.' := by
  intro c hc
  cases others with
  | nil => cases hc
  | cons other others => exact (Option.some.inj hc).symm

/-- What follows a step does not prolong it.  Only a step that ends with a bare key can go on. -/
def StepForm.EndsBefore (form : StepForm) (rest : Text) : Prop :=
  form.positions = [] → form.key.EndsBefore rest

theorem StepForm.endsBefore_of_head? (form : StepForm) {rest : Text}
    (hrest : ∀ c ∈ rest.head?, c.isBare = false) : form.EndsBefore rest :=
  fun _ => form.key.endsBefore_of_head? hrest

/-- A position begins with a bracket, which no bare key holds. -/
theorem StepForm.key_endsBefore {form : StepForm} {rest : Text} (hrest : form.EndsBefore rest) :
    form.key.EndsBefore (form.positions.flatMap PositionForm.text ++ rest) := by
  cases hpositions : form.positions with
  | nil => exact hrest hpositions
  | cons position positions =>
      refine form.key.endsBefore_of_head? fun c hc => ?_
      rw [← Option.some.inj hc]
      decide

/-- The key of a step is read, whatever its positions are. -/
theorem readSteps_key (form : StepForm) {rest : Text} (hrest : form.EndsBefore rest) :
    readSteps (form.text ++ rest) =
      match readIndices (form.positions.flatMap PositionForm.text ++ rest) with
      | .error stop => .error stop
      | .ok (positions, afterStep) =>
          readFurther (.field form.key.name :: positions.map .index) afterStep := by
  rw [readSteps_eq, StepForm.text, List.append_assoc,
    readKey_text form.key (form.key_endsBefore hrest)]

/-- The key and the positions of a step are read, and what follows is treated further. -/
theorem readSteps_append (form : StepForm) {rest : Text} (hrest : form.EndsBefore rest)
    (hshort : form.IsShort) :
    readSteps (form.text ++ rest) =
      match readIndices rest with
      | .error stop => .error stop
      | .ok (more, after) => readFurther (form.steps ++ more.map .index) after := by
  rw [readSteps_key form hrest, readIndices_append form.positions rest hshort]
  cases readIndices rest with
  | error stop => rfl
  | ok found =>
      dsimp only
      rw [List.map_append, List.map_map]
      rfl

/-- Where no bracket follows, a step has no further positions. -/
theorem readSteps_step (form : StepForm) {rest : Text} (hrest : form.EndsBefore rest)
    (hbracket : ∀ c ∈ rest.head?, c ≠ .char '[') (hshort : form.IsShort) :
    readSteps (form.text ++ rest) = readFurther form.steps rest := by
  rw [readSteps_append form hrest hshort, readIndices_of_head?_ne hbracket]
  simp

theorem StepForm.endsBefore_others (form : StepForm) (others : List StepForm) :
    form.EndsBefore (Form.textOfOthers others) := by
  refine form.endsBefore_of_head? fun c hc => ?_
  rw [head?_textOfOthers others c hc]
  decide

/-- The steps after a step are treated further. -/
theorem readSteps_others (form : StepForm) (others : List StepForm) (hshort : form.IsShort) :
    readSteps (form.text ++ Form.textOfOthers others) =
      readFurther form.steps (Form.textOfOthers others) := by
  refine readSteps_step form (form.endsBefore_others others) (fun c hc => ?_) hshort
  rw [head?_textOfOthers others c hc]
  decide

theorem readFurther_others (steps : List Step) (other : StepForm) (others : List StepForm) :
    readFurther steps (Form.textOfOthers (other :: others)) =
      match readSteps (other.text ++ Form.textOfOthers others) with
      | .error stop => .error stop
      | .ok more => .ok (steps ++ more) := by
  have htext : Form.textOfOthers (other :: others) =
      .char '.' :: (other.text ++ Form.textOfOthers others) := rfl
  have hne : (other.text ++ Form.textOfOthers others).isEmpty = false := by
    simp [StepForm.text, other.key.text_ne_nil]
  rw [htext, readFurther, if_neg (not_not_intro rfl), hne]
  rfl

/-- The text of a pattern with short positions is read as the steps that it denotes. -/
theorem readSteps_text (first : StepForm) (others : List StepForm)
    (hfirst : first.IsShort) (hothers : ∀ other ∈ others, other.IsShort) :
    readSteps (first.text ++ Form.textOfOthers others) =
      .ok (first.steps ++ others.flatMap StepForm.steps) := by
  induction others generalizing first with
  | nil =>
      rw [readSteps_others first [] hfirst, List.flatMap_nil, List.append_nil]
      rfl
  | cons other others ih =>
      have hmore := ih other (hothers other List.mem_cons_self)
        fun later hlater => hothers later (List.mem_cons_of_mem other hlater)
      rw [readSteps_others first _ hfirst, readFurther_others, hmore, List.flatMap_cons]

theorem readSteps_long_positions (form : StepForm) (others : List StepForm)
    (hlong : ¬form.IsShort) :
    ∃ n, Numeral.maxDigits < n ∧
      readSteps (form.text ++ Form.textOfOthers others) = .error (.limit (.reading n)) := by
  obtain ⟨n, hn, hstop⟩ := readIndices_long form.positions (Form.textOfOthers others) hlong
  refine ⟨n, hn, ?_⟩
  rw [readSteps_key form (form.endsBefore_others others), hstop]

/-- The first position that is not short stops the reader. -/
theorem readSteps_long (first : StepForm) (others : List StepForm)
    (hlong : ¬(first.IsShort ∧ ∀ other ∈ others, other.IsShort)) :
    ∃ n, Numeral.maxDigits < n ∧
      readSteps (first.text ++ Form.textOfOthers others) = .error (.limit (.reading n)) := by
  by_cases hfirst : first.IsShort
  · -- The first step is read, so the long position is in the steps after it.
    induction others generalizing first with
    | nil => exact absurd ⟨hfirst, fun other hother => absurd hother List.not_mem_nil⟩ hlong
    | cons other others ih =>
        have hstop : ∃ n, Numeral.maxDigits < n ∧
            readSteps (other.text ++ Form.textOfOthers others) = .error (.limit (.reading n)) := by
          by_cases hother : other.IsShort
          · apply ih other _ hother
            rintro ⟨-, hlater⟩
            exact hlong ⟨hfirst, List.forall_mem_cons.mpr ⟨hother, hlater⟩⟩
          · exact readSteps_long_positions other others hother
        obtain ⟨n, hn, hstop⟩ := hstop
        refine ⟨n, hn, ?_⟩
        rw [readSteps_others first _ hfirst, readFurther_others, hstop]
  · exact readSteps_long_positions first others hfirst

/-- Whatever is read as a key and positions is the text of a step with short positions, and the
step is read to its end. -/
theorem exists_form_of_readStep {t name afterKey rest : Text} {positions : List Int}
    (hkey : readKey t = .ok (name, afterKey))
    (hpositions : readIndices afterKey = .ok (positions, rest)) :
    ∃ form : StepForm,
      t = form.text ++ rest ∧ form.steps = .field name :: positions.map .index ∧
        form.IsShort ∧ form.EndsBefore rest ∧ ∀ c ∈ rest.head?, c ≠ .char '[' := by
  obtain ⟨key, rfl, rfl, hend⟩ := exists_form_of_readKey hkey
  obtain ⟨forms, rfl, rfl, hshort, hbracket⟩ := exists_forms_of_readIndices hpositions
  refine ⟨⟨key, forms⟩, ?_, ?_, hshort, ?_, hbracket⟩
  · rw [StepForm.text, List.append_assoc]
  · rw [StepForm.steps, List.map_map]
    rfl
  · rintro rfl
    exact hend

/-- Whatever is read as steps is the text of a pattern with short positions. -/
theorem exists_form_of_readSteps {t : Text} {steps : List Step} (h : readSteps t = .ok steps) :
    ∃ form : Form, form.text = t ∧ form.steps = steps ∧ form.IsShort := by
  -- Only two cases read steps: nothing follows the first one, or a dot and further steps do.
  fun_induction readSteps t generalizing steps with
  | case1 => cases h
  | case2 => cases h
  | case3 t name afterKey hkey positions _ hpositions =>
      cases h
      obtain ⟨form, rfl, hsteps, hshort, -⟩ := exists_form_of_readStep hkey hpositions
      refine ⟨⟨form, []⟩, rfl, ?_, hshort, fun other hother => absurd hother List.not_mem_nil⟩
      rw [Form.steps, List.flatMap_nil, List.append_nil, hsteps]
  | case4 => cases h
  | case5 => cases h
  | case6 => cases h
  | case7 t name afterKey hkey positions _ c more hpositions hdot _ others hread =>
      rename_i ih
      cases h
      obtain ⟨form, rfl, hsteps, hshort, -⟩ := exists_form_of_readStep hkey hpositions
      obtain ⟨rest, rfl, rfl, hrest⟩ := ih hread
      have hc : c = .char '.' := not_not.mp hdot
      refine ⟨⟨form, rest.first :: rest.others⟩, ?_, ?_, hshort, ?_⟩
      · rw [hc]
        rfl
      · rw [Form.steps, List.flatMap_cons, hsteps]
        rfl
      · exact List.forall_mem_cons.mpr hrest

/-! ## Patterns -/

theorem parse_of_trim_eq_nil {t : Text} (h : t.trim = []) : parse t = .ok ⟨[]⟩ := by
  simp [parse, h]

/-- If a text is not blank, its trimmed body is read as steps. -/
theorem parse_eq {t : Text} (hne : t.trim ≠ []) :
    parse t =
      match readSteps t.trim with
      | .ok steps => .ok ⟨steps⟩
      | .error (.limit e) => .error (.limit e)
      | .error (.fault fault unread) =>
          .error (.malformed
            ⟨fault, t.length - t.trimStart.length + (t.trim.length - unread.length), t⟩) := by
  have hbody : t.trim.isEmpty = false := by simpa using hne
  unfold parse
  dsimp only
  rw [hbody]
  rfl

/-- A text that is the text of a form once it is trimmed denotes what the form does. -/
theorem parse_text {t : Text} (form : Form) (htext : form.text = t.trim) (hshort : form.IsShort) :
    parse t = .ok ⟨form.steps⟩ := by
  have hread : readSteps form.text = .ok form.steps :=
    readSteps_text form.first form.others hshort.1 hshort.2
  rw [parse_eq (htext ▸ form.text_ne_nil), ← htext, hread]

/-- A position with too many digits stops the reader, wherever it stands in a pattern. -/
theorem parse_long {t : Text} (form : Form) (htext : form.text = t.trim)
    (hlong : ¬form.IsShort) :
    ∃ n, Numeral.maxDigits < n ∧ parse t = .error (.limit (.reading n)) := by
  obtain ⟨n, hn, hstop⟩ := readSteps_long form.first form.others hlong
  have hread : readSteps form.text = .error (.limit (.reading n)) := hstop
  refine ⟨n, hn, ?_⟩
  rw [parse_eq (htext ▸ form.text_ne_nil), ← htext, hread]

/-- A text that denotes a pattern is blank, or the text of a form with blanks around it. -/
theorem exists_form_of_parse {t : Text} {p : Pattern} (h : parse t = .ok p) :
    (t.trim = [] ∧ p.steps = []) ∨
      ∃ form : Form, form.text = t.trim ∧ form.steps = p.steps ∧ form.IsShort := by
  by_cases hempty : t.trim = []
  · rw [parse_of_trim_eq_nil hempty] at h
    cases h
    exact Or.inl ⟨hempty, rfl⟩
  · rw [parse_eq hempty] at h
    split at h
    · rename_i hread
      cases h
      exact Or.inr (exists_form_of_readSteps hread)
    · cases h
    · cases h

/-- **Reading accepts the language of patterns and nothing else.**  A text is read exactly if its
trimmed body is empty, or is in the language and has no position of too many digits.  The empty
body denotes no steps, any other body what each form with this text denotes. -/
theorem parse_accepts_language (t : Text) :
    ((∃ p, parse t = .ok p) ↔
        t.trim = [] ∨
          (∃ form : Form, form.text = t.trim) ∧
            ∀ form : Form, form.text = t.trim → form.IsShort) ∧
      (t.trim = [] → parse t = .ok ⟨[]⟩) ∧
      ∀ form : Form, form.text = t.trim → form.IsShort → parse t = .ok ⟨form.steps⟩ := by
  refine ⟨⟨?_, ?_⟩, parse_of_trim_eq_nil, parse_text⟩
  · rintro ⟨p, hp⟩
    rcases exists_form_of_parse hp with ⟨hempty, -⟩ | ⟨form, htext, -, -⟩
    · exact Or.inl hempty
    · refine Or.inr ⟨⟨form, htext⟩, fun other hother => ?_⟩
      by_contra hlong
      obtain ⟨n, -, hstop⟩ := parse_long other hother hlong
      rw [hstop] at hp
      cases hp
  · rintro (hempty | ⟨⟨form, htext⟩, hshort⟩)
    · exact ⟨_, parse_of_trim_eq_nil hempty⟩
    · exact ⟨_, parse_text form htext (hshort form htext)⟩

/-- Blanks around, an escaped quote, a lone backslash, a leading zero and a second key. -/
theorem parse_accepts_language_spaced :
    let t : Text := Text.ofString " \"x\\\"\\y\"[-07].b\n"
    (∃ form : Form, form.text = t.trim ∧ form.IsShort) ∧
      parse t = .ok ⟨[.field (Text.ofString "x\"\\y"), .index (-7), .field [.char 'b']]⟩ := by
  intro t
  let key : KeyForm := .quoted
    [.plain (.char 'x') (by decide), .escaped (.char '"') (by decide),
      .backslash (.char 'y') (by decide)]
  let position : PositionForm := ⟨true, [.char '0', .char '7'], by decide, by decide⟩
  let form : Form :=
    ⟨⟨key, [position]⟩, [⟨.bare [.char 'b'] (by decide) (by decide), []⟩]⟩
  have htext : form.text = t.trim := by decide
  have hshort : form.IsShort := by
    refine ⟨List.forall_mem_singleton.mpr ?_, List.forall_mem_singleton.mpr ?_⟩
    · change 2 ≤ 4300
      decide
    · exact fun p hp => absurd hp List.not_mem_nil
  exact ⟨⟨form, htext, hshort⟩, (parse_accepts_language t).2.2 form htext hshort⟩

end Pattern

end DocumentQuery
