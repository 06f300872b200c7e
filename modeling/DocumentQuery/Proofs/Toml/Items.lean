import DocumentQuery.Proofs.Parts
import DocumentQuery.Proofs.Toml.Scalars
import DocumentQuery.Toml.Writer
import Mathlib.Data.List.Forall2

/-!
# Items read back

An item is sound if its scalars read back and no table in it has a key twice.  A sound item reads
back in every layout: in one line, with or without blanks between the entries of inline tables, and
with the items of an outermost array on lines of their own.
-/

namespace DocumentQuery

namespace Toml

/-! ## What an item denotes -/

/-- The value that is read from a spelling, and null if there is none. -/
def scalarValue (spelling : Text) : Value :=
  match readValue (2 * spelling.length) spelling with
  | .ok (v, _) => v
  | .error _ => .null

namespace Item

mutual

/-- The value of an item. -/
def value : Item → Value
  | .scalar spelling => scalarValue spelling
  | .array items => .array .list (valueItems items)
  | .table entries => .table (valueEntries entries)

/-- The values of the items of an array. -/
def valueItems : List Item → List Value
  | [] => []
  | item :: rest => item.value :: valueItems rest

/-- The values of the entries of a table. -/
def valueEntries : List (Text × Item) → List (Text × Value)
  | [] => []
  | (key, item) :: rest => (key, item.value) :: valueEntries rest

end

theorem valueItems_eq_map (items : List Item) : valueItems items = items.map value := by
  induction items with
  | nil => rfl
  | cons item rest ih => rw [valueItems, ih, List.map_cons]

theorem valueEntries_eq_map (entries : List (Text × Item)) :
    valueEntries entries = entries.map fun entry => (entry.1, entry.2.value) := by
  induction entries with
  | nil => rfl
  | cons entry rest ih => rw [valueEntries, ih, List.map_cons]

theorem valueEntries_keys (entries : List (Text × Item)) :
    (valueEntries entries).map Prod.fst = entries.map Prod.fst := by
  rw [valueEntries_eq_map, List.map_map]
  rfl

/-- The scalars of an item read back, and the keys of every table in it are distinct. -/
inductive IsSound : Item → Prop
  | scalar {spelling : Text} {v : Value} (h : ReadsBack spelling v) : IsSound (.scalar spelling)
  | array {items : List Item} (hitems : ∀ item ∈ items, IsSound item) : IsSound (.array items)
  | table {entries : List (Text × Item)} (hdistinct : (entries.map Prod.fst).Nodup)
      (hentries : ∀ entry ∈ entries, IsSound entry.2) : IsSound (.table entries)

end Item

theorem ReadsBack.scalarValue_eq {text : Text} {v : Value} (h : ReadsBack text v) :
    scalarValue text = v := by
  have hread := h.reads (2 * text.length) [] (Nat.le_refl _) nofun
  rw [List.append_nil] at hread
  rw [scalarValue, hread]

/-! ## Blanks around values -/

theorem BeginsValue.append {t : Text} (h : BeginsValue t) (rest : Text) :
    BeginsValue (t ++ rest) := by
  obtain ⟨c, more, rfl, hc⟩ := h
  exact ⟨c, more ++ rest, rfl, hc⟩

theorem BeginsValue.joined {first : Text} (h : BeginsValue first) (separator : Text)
    (others : List Text) : BeginsValue (Text.joined separator (first :: others)) := by
  obtain ⟨more, hmore⟩ := Text.exists_joined_eq_append separator first others
  rw [hmore]
  exact h.append more

theorem BeginsValue.skipBlanks {t : Text} (h : BeginsValue t) : Toml.skipBlanks t = t := by
  obtain ⟨c, more, rfl, hc, -⟩ := h
  exact skipBlanks_cons (isBlank_of_isSpace_eq_false hc) more

theorem skipFiller_cons {c : CodePoint} (hspace : isSpace c = false) (hcomment : c ≠ .char '#')
    (t : Text) : skipFiller false (c :: t) = .ok (c :: t) := by
  rw [skipFiller, Bool.false_and, hspace]
  simp [hcomment]

theorem skipFiller_append {gap : Text} (hgap : ∀ c ∈ gap, isSpace c = true) (t : Text) :
    skipFiller false (gap ++ t) = skipFiller false t := by
  induction gap with
  | nil => rfl
  | cons c gap ih =>
      obtain ⟨hc, hrest⟩ := List.forall_mem_cons.mp hgap
      rw [List.cons_append, skipFiller, Bool.false_and, hc]
      exact ih hrest

theorem BeginsValue.skipFiller {t : Text} (h : BeginsValue t) :
    Toml.skipFiller false t = .ok t := by
  obtain ⟨c, more, rfl, hspace, hcomment, -⟩ := h
  exact skipFiller_cons hspace hcomment more

theorem exists_of_forall₂ {α β : Type} {R : α → β → Prop} {as : List α} {bs : List β}
    (h : List.Forall₂ R as bs) : ∀ a ∈ as, ∃ b ∈ bs, R a b := by
  induction h with
  | nil => exact fun a ha => absurd ha List.not_mem_nil
  | @cons a b as bs hab _ ih =>
      refine List.forall_mem_cons.mpr ⟨⟨b, List.mem_cons_self, hab⟩, fun other hother => ?_⟩
      obtain ⟨partner, hpartner, hrelated⟩ := ih other hother
      exact ⟨partner, List.mem_cons_of_mem b hpartner, hrelated⟩

theorem clean_joined {separator : Text} (hseparator : .char '\r' ∉ separator) {parts : List Text}
    (hparts : ∀ part ∈ parts, .char '\r' ∉ part) : .char '\r' ∉ Text.joined separator parts := by
  induction parts with
  | nil => exact List.not_mem_nil
  | cons part parts ih =>
      obtain ⟨hpart, hrest⟩ := List.forall_mem_cons.mp hparts
      cases parts with
      | nil => rwa [Text.joined_singleton]
      | cons second parts =>
          rw [Text.joined_cons_cons, List.mem_append, List.mem_append]
          rintro (hmem | hmem | hmem)
          · exact hpart hmem
          · exact hseparator hmem
          · exact ih hrest hmem

/-! ## Arrays -/

/-- What may stand between the last item of an array and its closing bracket. -/
def ClosesArray (last : Text) : Prop :=
  last = [] ∨ last = [.char ',', .char '\n']

theorem readItems_last {item : Value} {text last : Text} (h : ReadsBack text item)
    (hlast : ClosesArray last) {fuel : Nat} (hfuel : 2 * text.length ≤ fuel) (rest : Text) :
    readItems (fuel + 1) (text ++ (last ++ .char ']' :: rest)) = .ok ([item], rest) := by
  have hends : Ends (last ++ .char ']' :: rest) := by
    rcases hlast with rfl | rfl
    · exact ends_cons (by decide) _
    · exact ends_cons (by decide) _
  rw [readItems, h.reads fuel _ hfuel hends, ok_bind]
  rcases hlast with rfl | rfl
  · rfl
  · rfl

theorem readItems_comma {item : Value} {text gap next : Text} (h : ReadsBack text item)
    (hgap : ∀ c ∈ gap, isSpace c = true) (hnext : BeginsValue next) {fuel : Nat}
    (hfuel : 2 * text.length ≤ fuel) :
    readItems (fuel + 1) (text ++ (.char ',' :: (gap ++ next))) =
      (readItems fuel next >>= fun (items, after) => .ok (item :: items, after)) := by
  rw [readItems, h.reads fuel _ hfuel (ends_cons (by decide) _), ok_bind]
  dsimp only
  rw [skipFiller_cons rfl (by decide), ok_bind]
  change (skipFiller false (gap ++ next) >>= _) = _
  rw [skipFiller_append hgap, hnext.skipFiller, ok_bind]
  obtain ⟨c, more, rfl, -, -, hbracket, -⟩ := hnext
  split
  · rename_i heq
    exact absurd (List.cons.inj heq).1 hbracket
  · rfl

/-- The items of an array are read up to the closing bracket. -/
theorem readItems_joined {gap last : Text} (hgap : ∀ c ∈ gap, isSpace c = true)
    (hlast : ClosesArray last) {texts : List Text} {items : List Value} (hne : texts ≠ [])
    (hitems : List.Forall₂ ReadsBack texts items) (fuel : Nat)
    (hfuel : 2 * (Text.joined (.char ',' :: gap) texts).length + 1 ≤ fuel) (rest : Text) :
    readItems fuel (Text.joined (.char ',' :: gap) texts ++ (last ++ .char ']' :: rest)) =
      .ok (items, rest) := by
  induction hitems generalizing fuel with
  | nil => exact absurd rfl hne
  | @cons text item texts items hitem hrest ih =>
      cases fuel with
      | zero => omega
      | succ fuel =>
          cases hrest with
          | nil =>
              rw [Text.joined_singleton] at hfuel ⊢
              exact readItems_last hitem hlast (by omega) rest
          | @cons next other texts items hnext hmore =>
              have hlater := ih (List.cons_ne_nil _ _) fuel
              have hbegins := (hnext.begins.joined (.char ',' :: gap) texts).append
                (last ++ .char ']' :: rest)
              rw [Text.joined_cons_cons] at hfuel ⊢
              generalize Text.joined (.char ',' :: gap) (next :: texts) = later at *
              simp only [List.length_append, List.length_cons] at hfuel
              simp only [List.append_assoc, List.cons_append]
              rw [readItems_comma hitem hgap hbegins (by omega), hlater (by omega)]
              rfl

theorem readValue_bracket (fuel : Nat) {gap t : Text} (hgap : ∀ c ∈ gap, isSpace c = true)
    (ht : BeginsValue t) :
    readValue (fuel + 1) (.char '[' :: (gap ++ t)) =
      (readItems fuel t >>= fun (items, after) => .ok (.array .list items, after)) := by
  unfold readValue
  change (skipFiller false (gap ++ t) >>= _) = _
  rw [skipFiller_append hgap, ht.skipFiller, ok_bind]
  obtain ⟨c, more, rfl, -, -, hbracket, -⟩ := ht
  split
  · rename_i heq
    exact absurd (List.cons.inj heq).1 hbracket
  · rfl

theorem clean_of_isSpace {gap : Text} (hgap : ∀ c ∈ gap, isSpace c = true) : .char '\r' ∉ gap :=
  fun h => absurd (hgap _ h) (by decide)

/-- An array reads back whatever blanks and newlines stand around its items. -/
theorem readsBack_array (gap between last : Text) (hgap : ∀ c ∈ gap, isSpace c = true)
    (hbetween : ∀ c ∈ between, isSpace c = true) (hlast : ClosesArray last) {texts : List Text}
    {items : List Value} (hne : texts ≠ []) (hitems : List.Forall₂ ReadsBack texts items) :
    ReadsBack (.char '[' :: (gap ++ (Text.joined (.char ',' :: between) texts ++
      (last ++ [.char ']'])))) (.array .list items) where
  begins := ⟨_, _, rfl, by decide, by decide, by decide, by decide⟩
  clean := by
    have hseparator : .char '\r' ∉ CodePoint.char ',' :: between := by
      simpa using clean_of_isSpace hbetween
    have htexts : ∀ text ∈ texts, .char '\r' ∉ text := by
      intro text htext
      obtain ⟨item, -, hitem⟩ := exists_of_forall₂ hitems text htext
      exact hitem.clean
    have hend : .char '\r' ∉ last := by
      rcases hlast with rfl | rfl
      · decide
      · decide
    simp [clean_of_isSpace hgap, clean_joined hseparator htexts, hend]
  reads fuel rest hfuel _ := by
    cases fuel with
    | zero => simp at hfuel
    | succ fuel =>
        have hread := readItems_joined hbetween hlast hne hitems fuel
        cases hitems with
        | nil => exact absurd rfl hne
        | @cons text item texts items hitem hrest =>
            have hbegins := (hitem.begins.joined (.char ',' :: between) texts).append
              (last ++ .char ']' :: rest)
            generalize Text.joined (.char ',' :: between) (text :: texts) = joined at *
            simp only [List.length_append, List.length_cons] at hfuel
            simp only [List.append_assoc, List.cons_append, List.nil_append]
            rw [readValue_bracket fuel hgap hbegins, hread (by omega)]
            rfl

/-- What stands before an item that has a line of its own. -/
def lineBreak : Text :=
  "\n    "

theorem isSpace_of_mem_lineBreak : ∀ c ∈ lineBreak, isSpace c = true := by
  decide

/-- Items on lines of their own are items with longer gaps and a comma after the last one. -/
theorem flatten_splitLine {texts : List Text} (hne : texts ≠ []) :
    .char '\n' :: (texts.map splitLine).flatten =
      lineBreak ++ (Text.joined (.char ',' :: lineBreak) texts ++ [.char ',', .char '\n']) := by
  have hline (text : Text) : CodePoint.char '\n' :: splitLine text =
      lineBreak ++ (text ++ [.char ',', .char '\n']) := by
    simp [splitLine, lineBreak, Text.ofString]
  induction texts with
  | nil => exact absurd rfl hne
  | cons text texts ih =>
      rw [List.map_cons, List.flatten_cons, ← List.cons_append, hline]
      cases texts with
      | nil => simp [Text.joined_singleton]
      | cons next texts =>
          have hnext := ih (List.cons_ne_nil _ _)
          rw [Text.joined_cons_cons]
          simp only [List.append_assoc, List.cons_append, List.nil_append] at hnext ⊢
          rw [hnext]

/-- An array reads back in one line and with a line for every item. -/
theorem readsBack_items (split : Bool) {texts : List Text} {items : List Value}
    (h : List.Forall₂ ReadsBack texts items) :
    ReadsBack ((Piece.array texts).render split) (.array .list items) := by
  by_cases hempty : texts = []
  · rw [hempty] at h
    cases h
    have htext : (Piece.array []).render split = [.char '[', .char ']'] := by
      cases split with
      | false => rfl
      | true => rfl
    rw [hempty, htext]
    refine ⟨⟨_, _, rfl, by decide, by decide, by decide, by decide⟩, by decide, ?_⟩
    intro fuel rest hfuel _
    cases fuel with
    | zero => cases hfuel
    | succ fuel => rfl
  · have hnonempty : texts.isEmpty = false := by simpa using hempty
    cases split with
    | false =>
        exact readsBack_array [] [.char ' '] [] nofun (by decide) (Or.inl rfl) hempty h
    | true =>
        have hreads := readsBack_array lineBreak lineBreak _ isSpace_of_mem_lineBreak
          isSpace_of_mem_lineBreak (Or.inr rfl) hempty h
        have htext : (Piece.array texts).render true =
            .char '[' :: ((.char '\n' :: (texts.map splitLine).flatten) ++ [.char ']']) := by
          simp [Piece.render, hnonempty, Text.ofString]
        rw [htext, flatten_splitLine hempty]
        simpa only [List.append_assoc] using hreads

/-! ## Inline tables -/

theorem Draft.addEntry_of_not_mem (clash : Fault) {key : Text} {entries : Entries}
    (hkey : key ∉ entries.map Prod.fst) (value : Value) :
    Draft.addEntry clash key value entries = .ok (entries ++ [(key, value)]) := by
  have hnew : entries.hasKey key = false := by
    rw [Entries.hasKey, Value.lookup_eq_none_iff.mpr hkey]
    rfl
  rw [Draft.addEntry, hnew, Entries.put_of_not_mem value hkey]
  rfl

/-- No path in an inline table is frozen but those of its own keys. -/
def InlineDraft.IsFlat (d : InlineDraft) : Prop :=
  ∀ path ∈ d.frozen, ∃ key ∈ d.entries.map Prod.fst, path = [key]

/-- The draft after a pair with a new key. -/
def InlineDraft.extended (d : InlineDraft) (key : Text) (value : Value) : InlineDraft :=
  ⟨d.entries ++ [(key, value)], if Draft.isContainer value then [key] :: d.frozen else d.frozen⟩

theorem InlineDraft.IsFlat.extended {d : InlineDraft} (h : d.IsFlat) (key : Text) (value : Value) :
    (d.extended key value).IsFlat := by
  have hold : ∀ path ∈ d.frozen, ∃ other ∈ (d.extended key value).entries.map Prod.fst,
      path = [other] := by
    intro path hpath
    obtain ⟨other, hother, hpath⟩ := h path hpath
    refine ⟨other, ?_, hpath⟩
    rw [InlineDraft.extended, List.map_append]
    exact List.mem_append_left _ hother
  intro path hpath
  unfold InlineDraft.extended at hpath
  dsimp only at hpath
  split at hpath
  · rcases List.mem_cons.mp hpath with rfl | hmem
    · exact ⟨key, by simp [InlineDraft.extended], rfl⟩
    · exact hold path hmem
  · exact hold path hpath

theorem InlineDraft.addPair_of_not_mem {d : InlineDraft} (hflat : d.IsFlat) {key : Text}
    (hkey : key ∉ d.entries.map Prod.fst) (value : Value) :
    d.addPair [key] value = .ok (d.extended key value) := by
  -- A frozen path has one name, and the name of another key.
  have hfree : ¬d.frozen.any (·.isPrefixOf [key]) = true := by
    rw [List.any_eq_true]
    rintro ⟨path, hpath, hstarts⟩
    obtain ⟨other, hother, rfl⟩ := hflat path hpath
    have hsame : other = key := by simpa using hstarts
    exact hkey (hsame ▸ hother)
  have hentry := Draft.addEntry_of_not_mem (.duplicateInlineKey key) hkey value
  rw [InlineDraft.addPair, if_neg hfree]
  change changeAt false (Draft.addEntry (.duplicateInlineKey key) key value) [] d.entries >>= _ = _
  rw [changeAt, hentry]
  rfl

/-- The text of a pair: its key, an equals sign and its value. -/
def IsPair (text : Text) (entry : Text × Value) : Prop :=
  ∃ valueText, text = spellKey entry.1 ++ " = " ++ valueText ∧ ReadsBack valueText entry.2

/-- A text begins like a key. -/
def BeginsKey (t : Text) : Prop :=
  ∃ c more, t = c :: more ∧ beginsKey c = true

theorem BeginsKey.append {t : Text} (h : BeginsKey t) (rest : Text) : BeginsKey (t ++ rest) := by
  obtain ⟨c, more, rfl, hc⟩ := h
  exact ⟨c, more ++ rest, rfl, hc⟩

theorem BeginsKey.skipBlanks {t : Text} (h : BeginsKey t) : Toml.skipBlanks t = t := by
  obtain ⟨c, more, rfl, hc⟩ := h
  exact skipBlanks_cons (isBlank_of_isSpace_eq_false (plain_of_beginsKey hc).1) more

theorem IsPair.begins {text : Text} {entry : Text × Value} (h : IsPair text entry) :
    BeginsKey text := by
  obtain ⟨valueText, rfl, -⟩ := h
  obtain ⟨c, more, hkey, hc, -⟩ := exists_spellKey_eq_cons entry.1
  exact ⟨c, _, by rw [hkey]; rfl, hc⟩

theorem BeginsKey.joined {first : Text} (h : BeginsKey first) (separator : Text)
    (others : List Text) : BeginsKey (Text.joined separator (first :: others)) := by
  obtain ⟨more, hmore⟩ := Text.exists_joined_eq_append separator first others
  rw [hmore]
  exact h.append more

theorem IsPair.clean {text : Text} {entry : Text × Value} (h : IsPair text entry) :
    .char '\r' ∉ text := by
  obtain ⟨valueText, rfl, hvalue⟩ := h
  simp [Text.ofString, clean_spellKey, hvalue.clean]

theorem readKey_pair (key : Text) (t : Text) :
    readKey (spellKey key ++ (" = " ++ t)) = .ok ([key], .char '=' :: .char ' ' :: t) := by
  have hread : readKey (spellPath [key] ++ (" = " ++ t)) = .ok ([key], skipBlanks (" = " ++ t)) :=
    readKey_spellPath (List.cons_ne_nil _ _) (by rintro c ⟨⟩; rfl) (by rintro c ⟨⟩; decide)
  rwa [spellPath_singleton] at hread

theorem readEquals_pair {t : Text} (h : BeginsValue t) :
    readEquals (.char '=' :: .char ' ' :: t) = .ok t := by
  rw [readEquals, skipBlanks_blank, h.skipBlanks]

/-- What becomes of a pair whose key is new, given what follows it. -/
theorem readPairs_pair {text : Text} {entry : Text × Value} (h : IsPair text entry)
    {before : InlineDraft} (hflat : before.IsFlat) (hkey : entry.1 ∉ before.entries.map Prod.fst)
    {fuel : Nat} (hfuel : 2 * text.length ≤ fuel) {rest : Text} (hrest : Ends rest) :
    readPairs (fuel + 1) before (text ++ rest) =
      match skipBlanks rest with
      | .char '}' :: after => .ok ((before.extended entry.1 entry.2).entries, after)
      | .char ',' :: after => readPairs fuel (before.extended entry.1 entry.2) (skipBlanks after)
      | unread => .error (.fault .unclosedInlineTable unread) := by
  obtain ⟨valueText, rfl, hvalue⟩ := h
  have hread := hvalue.reads fuel rest (by simp only [List.length_append] at hfuel; omega) hrest
  rw [List.append_assoc, List.append_assoc, readPairs, readKey_pair, ok_bind]
  dsimp only
  rw [readEquals_pair (hvalue.begins.append rest), ok_bind, hread, ok_bind]
  dsimp only
  rw [InlineDraft.addPair_of_not_mem hflat hkey]
  rfl

/-- The pairs of an inline table are read up to the closing brace, and their keys are new. -/
theorem readPairs_joined {gap : Text} (hgap : ∀ c ∈ gap, isBlank c = true) {texts : List Text}
    {entries : Entries} (hne : texts ≠ []) (hentries : List.Forall₂ IsPair texts entries)
    {before : InlineDraft} (hflat : before.IsFlat)
    (hdistinct : ((before.entries ++ entries).map Prod.fst).Nodup) (fuel : Nat)
    (hfuel : 2 * (Text.joined (.char ',' :: gap) texts).length + 1 ≤ fuel) (rest : Text) :
    readPairs fuel before (Text.joined (.char ',' :: gap) texts ++ .char '}' :: rest) =
      .ok (before.entries ++ entries, rest) := by
  induction hentries generalizing before fuel with
  | nil => exact absurd rfl hne
  | @cons text entry texts entries hentry hrest ih =>
      have hkey := Entries.not_mem_of_nodup hdistinct
      cases fuel with
      | zero => omega
      | succ fuel =>
          cases hrest with
          | nil =>
              rw [Text.joined_singleton] at hfuel ⊢
              rw [readPairs_pair hentry hflat hkey (by omega) (ends_cons (by decide) _),
                skipBlanks_cons rfl]
              rfl
          | @cons next other texts entries hnext hmore =>
              have hlater := ih (List.cons_ne_nil _ _) (hflat.extended entry.1 entry.2)
                (by simpa [InlineDraft.extended] using hdistinct) fuel
              have hbegins := (hnext.begins.joined (.char ',' :: gap) texts).append
                (.char '}' :: rest)
              rw [Text.joined_cons_cons] at hfuel ⊢
              generalize Text.joined (.char ',' :: gap) (next :: texts) = later at *
              simp only [List.length_append, List.length_cons] at hfuel
              simp only [List.append_assoc, List.cons_append]
              rw [readPairs_pair hentry hflat hkey (by omega) (ends_cons (by decide) _),
                skipBlanks_cons rfl]
              change readPairs fuel (before.extended entry.1 entry.2)
                (skipBlanks (gap ++ (later ++ .char '}' :: rest))) = _
              have hskip : skipBlanks (gap ++ (later ++ .char '}' :: rest)) =
                  skipBlanks (later ++ .char '}' :: rest) := List.dropWhile_append_of_pos hgap
              rw [hskip, hbegins.skipBlanks, hlater (by omega)]
              simp [InlineDraft.extended]

theorem readValue_brace (fuel : Nat) {t : Text} (ht : BeginsKey t) :
    readValue (fuel + 1) (.char '{' :: t) =
      (readPairs fuel ⟨[], []⟩ t >>= fun (entries, after) => .ok (.table entries, after)) := by
  have hstring : readString? (.char '{' :: t) = none := rfl
  simp only [readValue, hstring, ht.skipBlanks]
  obtain ⟨c, more, rfl, hc⟩ := ht
  split
  · rename_i heq
    exact absurd (List.cons.inj heq).1 (plain_of_beginsKey hc).2.2.2
  · rfl

theorem readsBack_table (gap : Text) (hgap : ∀ c ∈ gap, isBlank c = true) {texts : List Text}
    {entries : Entries} (h : List.Forall₂ IsPair texts entries)
    (hdistinct : (entries.map Prod.fst).Nodup) :
    ReadsBack (.char '{' :: (Text.joined (.char ',' :: gap) texts ++ [.char '}']))
      (.table entries) where
  begins := ⟨_, _, rfl, by decide, by decide, by decide, by decide⟩
  clean := by
    have hclean : .char '\r' ∉ CodePoint.char ',' :: gap := by
      have hspace : ∀ c ∈ gap, isSpace c = true := fun c hc => by simp [isSpace, hgap c hc]
      simpa using clean_of_isSpace hspace
    have htexts : ∀ text ∈ texts, .char '\r' ∉ text := by
      intro text htext
      obtain ⟨entry, -, hpair⟩ := exists_of_forall₂ h text htext
      exact hpair.clean
    simp [clean_joined hclean htexts]
  reads fuel rest hfuel _ := by
    cases fuel with
    | zero => simp at hfuel
    | succ fuel =>
        cases h with
        | nil => rfl
        | @cons text entry texts entries hentry hrest =>
            have hflat : InlineDraft.IsFlat ⟨[], []⟩ := by
              rintro path ⟨⟩
            have hread := readPairs_joined hgap (List.cons_ne_nil _ _) (.cons hentry hrest) hflat
              hdistinct fuel
            have hbegins := (hentry.begins.joined (.char ',' :: gap) texts).append
              (.char '}' :: rest)
            generalize Text.joined (.char ',' :: gap) (text :: texts) = joined at *
            simp only [List.length_append, List.length_cons] at hfuel
            simp only [List.append_assoc, List.cons_append, List.nil_append]
            rw [readValue_brace fuel hbegins, hread (by omega)]
            rfl

/-! ## Items -/

namespace Item

theorem inlineItems_eq_map (document : Bool) (items : List Item) :
    inlineItems document items = items.map (inline document false) := by
  induction items with
  | nil => rfl
  | cons item rest ih => rw [inlineItems, ih, List.map_cons]

theorem inlineEntries_eq_map (document : Bool) (entries : List (Text × Item)) :
    inlineEntries document entries =
      entries.map fun entry => spellKey entry.1 ++ " = " ++ entry.2.inline document true := by
  induction entries with
  | nil => rfl
  | cons entry rest ih => rw [inlineEntries, ih, List.map_cons]

/-- If the items of an array read back in one line, so do their texts together. -/
theorem forall₂_inlineItems {document : Bool} {items : List Item}
    (h : ∀ item ∈ items, ReadsBack (item.inline document false) item.value) :
    List.Forall₂ ReadsBack (inlineItems document items) (valueItems items) := by
  rw [inlineItems_eq_map, valueItems_eq_map, List.forall₂_map_left_iff, List.forall₂_map_right_iff,
    List.forall₂_same]
  exact h

theorem forall₂_inlineEntries {document : Bool} {entries : List (Text × Item)}
    (h : ∀ entry ∈ entries, ReadsBack (entry.2.inline document true) entry.2.value) :
    List.Forall₂ IsPair (inlineEntries document entries) (valueEntries entries) := by
  rw [inlineEntries_eq_map, valueEntries_eq_map, List.forall₂_map_left_iff,
    List.forall₂_map_right_iff, List.forall₂_same]
  exact fun entry hentry => ⟨_, rfl, h entry hentry⟩

/-- A sound item reads back in one line. -/
theorem readsBack_inline {item : Item} (h : item.IsSound) (document tight : Bool) :
    ReadsBack (item.inline document tight) item.value := by
  induction h generalizing tight with
  | scalar hspelling =>
      rw [inline, value, hspelling.scalarValue_eq]
      exact hspelling
  | @array items _ ih =>
      exact readsBack_items false (forall₂_inlineItems fun item hitem => ih item hitem false)
  | @table entries hdistinct _ ih =>
      have hentries := forall₂_inlineEntries fun entry hentry => ih entry hentry true
      have hkeys : ((valueEntries entries).map Prod.fst).Nodup := by rwa [valueEntries_keys]
      rw [inline, value]
      cases document && tight with
      | true => exact readsBack_table [] nofun hentries hkeys
      | false => exact readsBack_table [.char ' '] (by decide) hentries hkeys

/-- A sound item reads back in the place of an outermost array. -/
theorem readsBack_outermost {item : Item} (h : item.IsSound) (document split : Bool) :
    ReadsBack ((item.outermost document).render split) item.value := by
  cases h with
  | array hitems =>
      exact readsBack_items split
        (forall₂_inlineItems fun item hitem => readsBack_inline (hitems item hitem) document false)
  | scalar hspelling => exact readsBack_inline (.scalar hspelling) document false
  | table hdistinct hentries => exact readsBack_inline (.table hdistinct hentries) document false

end Item

end Toml

end DocumentQuery
