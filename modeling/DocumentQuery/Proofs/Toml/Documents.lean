import DocumentQuery.Proofs.Toml.Drafts
import DocumentQuery.Proofs.Toml.Reading

/-!
# Written documents read back

A document is written as lines, and reading its lines one after the other runs from one draft to the
next.  Plain entries stand right under the header of their table, so they are added to the table
that has just begun.  Whatever has a header of its own comes later; it is told apart from what was
read before by the marks that it leaves.

A table that holds nothing but such entries has no header.  It comes into being with the first of
them, which is why a table in focus need not be there yet.
-/

namespace DocumentQuery

namespace Toml

/-! ## Lines -/

/-- Reading a text that consists of whole lines leads from one draft to another. -/
structure Runs (d : Draft) (text : Text) (after : Draft) : Prop where
  clean : .char '\r' ∉ text
  reads : ∃ lines ≤ text.length, ∀ count rest,
    readStatements (count + lines) d (text ++ rest) = readStatements count after rest

theorem runs_nil (d : Draft) : Runs d [] d :=
  ⟨List.not_mem_nil, 0, Nat.le_refl _, fun _ _ => rfl⟩

theorem Runs.append {d d' d'' : Draft} {text more : Text} (h : Runs d text d')
    (hmore : Runs d' more d'') : Runs d (text ++ more) d'' := by
  obtain ⟨hclean, lines, hlines, hreads⟩ := h
  obtain ⟨hcleanMore, others, hothers, hreadsMore⟩ := hmore
  refine ⟨fun hmem => ?_, others + lines, ?_, fun count rest => ?_⟩
  · exact (List.mem_append.mp hmem).elim hclean hcleanMore
  · rw [List.length_append]
    omega
  · rw [List.append_assoc, ← Nat.add_assoc, hreads, hreadsMore]

/-- A line that does not begin with a blank begins with a statement. -/
theorem readStatements_succ {t : Text} (hbegins : ∃ c more, t = c :: more ∧ isSpace c = false)
    (count : Nat) (d : Draft) :
    readStatements (count + 1) d t = (do
      let (d, rest) ← readStatement d t
      match ← skipComment (skipBlanks rest) with
      | [] => return d
      | .char '\n' :: rest => readStatements count d rest
      | unread => .error (.fault .expectedLineEnd unread)) := by
  obtain ⟨c, more, rfl, hc⟩ := hbegins
  rw [readStatements, skipBlanks_cons (isBlank_of_isSpace_eq_false hc)]
  split
  · rename_i heq
    cases heq
  · rename_i heq
    rw [(List.cons.inj heq).1] at hc
    cases hc
  · rfl

/-- A line of one statement. -/
theorem runs_line {d after : Draft} {text : Text} (hclean : .char '\r' ∉ text)
    (hbegins : ∃ c more, text = c :: more ∧ isSpace c = false)
    (hreads : ∀ rest,
      readStatement d (text ++ .char '\n' :: rest) = .ok (after, .char '\n' :: rest)) :
    Runs d (text ++ [.char '\n']) after := by
  refine ⟨by simpa using hclean, 1, by simp, fun count rest => ?_⟩
  have hline : ∃ c more, text ++ .char '\n' :: rest = c :: more ∧ isSpace c = false := by
    obtain ⟨c, more, rfl, hc⟩ := hbegins
    exact ⟨c, _, rfl, hc⟩
  rw [List.append_assoc, List.singleton_append, readStatements_succ hline, hreads, ok_bind]
  dsimp only
  rw [skipBlanks_cons rfl]
  rfl

theorem runs_blank (d : Draft) : Runs d [.char '\n'] d :=
  ⟨by decide, 1, Nat.le_refl _, fun _ _ => rfl⟩

theorem BeginsKey.isLine {t : Text} (h : BeginsKey t) :
    ∃ c more, t = c :: more ∧ isSpace c = false := by
  obtain ⟨c, more, rfl, hc⟩ := h
  exact ⟨c, more, rfl, (plain_of_beginsKey hc).1⟩

theorem readStatement_pair {d : Draft} {t : Text} (h : BeginsKey t) :
    readStatement d t = readPair d t := by
  obtain ⟨c, more, rfl, hc⟩ := h
  have hbracket : c ≠ .char '[' := (plain_of_beginsKey hc).2.1
  unfold readStatement
  split
  · rename_i heq
    cases heq
  · rename_i heq
    exact absurd (List.cons.inj heq).1 hbracket
  · rename_i heq
    exact absurd (List.cons.inj heq).1 hbracket
  · rename_i heq
    rw [← (List.cons.inj heq).1, if_pos hc]

/-- A pair is read up to whatever ends its value. -/
theorem readPair_of_isPair {d : Draft} {text : Text} {entry : Text × Value} (h : IsPair text entry)
    {rest : Text} (hrest : Ends rest) :
    readPair d (text ++ rest) =
      (placed rest (d.addPair [entry.1] entry.2) >>= fun after => .ok (after, rest)) := by
  obtain ⟨valueText, rfl, hvalue⟩ := h
  have hread := hvalue.reads (2 * (valueText ++ rest).length + 2) rest
    (by rw [List.length_append]; omega) hrest
  rw [List.append_assoc, List.append_assoc, readPair, readKey_pair, ok_bind]
  dsimp only
  rw [readEquals_pair (hvalue.begins.append rest), ok_bind, hread, ok_bind]
  rfl

theorem runs_pair {d after : Draft} {text : Text} {entry : Text × Value} (h : IsPair text entry)
    (hadd : d.addPair [entry.1] entry.2 = .ok after) : Runs d (text ++ [.char '\n']) after := by
  refine runs_line h.clean h.begins.isLine fun rest => ?_
  rw [readStatement_pair (h.begins.append _), readPair_of_isPair h (ends_cons (by decide) rest),
    hadd]
  rfl

theorem beginsKey_spellPath {path : Path} (hne : path ≠ []) : BeginsKey (spellPath path) := by
  cases path with
  | nil => exact absurd rfl hne
  | cons key path =>
      obtain ⟨more, hmore⟩ := exists_spellPath_eq key path
      obtain ⟨c, others, hkey, hc, -⟩ := exists_spellKey_eq_cons key
      exact ⟨c, _, by rw [hmore, hkey]; rfl, hc⟩

theorem readKey_header {path : Path} (hne : path ≠ []) (rest : Text) :
    readKey (skipBlanks (spellPath path ++ .char ']' :: rest)) = .ok (path, .char ']' :: rest) := by
  rw [((beginsKey_spellPath hne).append _).skipBlanks,
    readKey_spellPath hne (by rintro c ⟨⟩; rfl) (by rintro c ⟨⟩; decide), skipBlanks_cons rfl]

theorem runs_tableHeader {d after : Draft} {path : Path} (hne : path ≠ [])
    (hdeclare : d.closeSection.declareTable path = .ok after) :
    Runs d ("[" ++ spellPath path ++ "]\n") after := by
  have hline : Text.ofString "[" ++ spellPath path ++ Text.ofString "]\n" =
      (.char '[' :: (spellPath path ++ [.char ']'])) ++ [.char '\n'] := by
    simp [Text.ofString]
  rw [hline]
  refine runs_line (by simp [clean_spellPath]) ⟨_, _, rfl, rfl⟩ fun rest => ?_
  have hkey := readKey_header hne (.char '\n' :: rest)
  obtain ⟨c, more, hbegins, hc⟩ := beginsKey_spellPath hne
  -- The path does not begin with a bracket, so the header is not that of an element.
  have hheader :
      readStatement d (.char '[' :: (spellPath path ++ .char ']' :: .char '\n' :: rest)) =
        readTableHeader d (spellPath path ++ .char ']' :: .char '\n' :: rest) := by
    rw [hbegins]
    unfold readStatement
    split
    · rename_i heq
      cases heq
    · rename_i heq
      exact absurd (List.cons.inj (List.cons.inj heq).2).1 (plain_of_beginsKey hc).2.1
    · rename_i heq
      rw [(List.cons.inj heq).2]
    · rename_i hbracket heq
      exact absurd (List.cons.inj heq).1.symm hbracket
  rw [List.cons_append, List.append_assoc, List.singleton_append, hheader, readTableHeader, hkey,
    ok_bind]
  dsimp only
  rw [hdeclare]
  rfl

theorem runs_elementHeader {d after : Draft} {path : Path} (hne : path ≠ [])
    (hdeclare : d.closeSection.declareElement path = .ok after) :
    Runs d ("[[" ++ spellPath path ++ "]]\n") after := by
  have hline : Text.ofString "[[" ++ spellPath path ++ Text.ofString "]]\n" =
      (.char '[' :: .char '[' :: (spellPath path ++ [.char ']', .char ']'])) ++ [.char '\n'] := by
    simp [Text.ofString]
  rw [hline]
  refine runs_line (by simp [clean_spellPath]) ⟨_, _, rfl, rfl⟩ fun rest => ?_
  have hkey := readKey_header hne (.char ']' :: .char '\n' :: rest)
  rw [List.cons_append, List.cons_append, List.append_assoc, List.cons_append,
    List.singleton_append, readStatement, readElementHeader, hkey, ok_bind]
  dsimp only
  rw [hdeclare]
  rfl

/-! ## What a document holds -/

namespace Item

mutual

/-- The value that an item has in a document: in a table with a header, the entries with headers
come after the others. -/
def laidOut : Item → Value
  | .scalar spelling => scalarValue spelling
  | .array items =>
      .array .list (if (Item.array items).hasHeader then laidOutItems items else valueItems items)
  | .table entries => .table (laidOutWhere false entries ++ laidOutWhere true entries)

/-- The values of the elements of an array of tables. -/
def laidOutItems : List Item → List Value
  | [] => []
  | item :: rest => item.laidOut :: laidOutItems rest

/-- The entries of a table that have headers, or those that have none. -/
def laidOutWhere (headed : Bool) : List (Text × Item) → List (Text × Value)
  | [] => []
  | (key, item) :: rest =>
      if item.hasHeader = headed then (key, item.laidOut) :: laidOutWhere headed rest
      else laidOutWhere headed rest

end

/-- All entries of a table in the order of a document. -/
def laidOutEntries (entries : List (Text × Item)) : Entries :=
  laidOutWhere false entries ++ laidOutWhere true entries

theorem laidOut_of_not_hasHeader {item : Item} (h : item.hasHeader = false) :
    item.laidOut = item.value := by
  cases item with
  | scalar spelling => rfl
  | array items => rw [laidOut, h, if_neg Bool.false_ne_true, value]
  | table entries => cases h

section

variable {headed : Bool} {item : Item} (key : Text) (rest : List (Text × Item))

theorem laidOutWhere_of_eq (h : item.hasHeader = headed) :
    laidOutWhere headed ((key, item) :: rest) =
      (key, item.laidOut) :: laidOutWhere headed rest := by
  rw [laidOutWhere, if_pos h]

theorem laidOutWhere_of_ne (h : item.hasHeader ≠ headed) :
    laidOutWhere headed ((key, item) :: rest) = laidOutWhere headed rest := by
  rw [laidOutWhere, if_neg h]

end

theorem laidOutWhere_eq_map (headed : Bool) (entries : List (Text × Item)) :
    laidOutWhere headed entries =
      (entries.filter fun entry => entry.2.hasHeader = headed).map fun entry =>
        (entry.1, entry.2.laidOut) := by
  induction entries with
  | nil => rfl
  | cons entry rest ih =>
      rw [laidOutWhere, ih]
      by_cases h : entry.2.hasHeader = headed
      · rw [if_pos h, List.filter_cons_of_pos (by simpa using h), List.map_cons]
      · rw [if_neg h, List.filter_cons_of_neg (by simpa using h)]

/-- A document changes the order of entries only. -/
theorem laidOutEntries_perm (entries : List (Text × Item)) :
    (laidOutEntries entries).Perm (entries.map fun entry => (entry.1, entry.2.laidOut)) := by
  have hsplit :=
    List.filter_append_perm (fun entry : Text × Item => entry.2.hasHeader = false) entries
  have hmapped := hsplit.map fun entry => (entry.1, entry.2.laidOut)
  rw [List.map_append] at hmapped
  rw [laidOutEntries, laidOutWhere_eq_map, laidOutWhere_eq_map]
  simpa using hmapped

theorem laidOutEntries_keys (entries : List (Text × Item)) :
    ((laidOutEntries entries).map Prod.fst).Perm (entries.map Prod.fst) := by
  have hkeys := (laidOutEntries_perm entries).map Prod.fst
  rwa [List.map_map] at hkeys

end Item

/-! ## Plain entries -/

theorem renderPieces_append (split : Bool) (pieces more : List Piece) :
    renderPieces split (pieces ++ more) = renderPieces split pieces ++ renderPieces split more :=
  List.flatMap_append

theorem renderPieces_entryLine (split : Bool) (key : Text) (item : Item) :
    renderPieces split (entryLine key item) =
      (spellKey key ++ Text.ofString " = " ++ (item.outermost true).render split) ++
        [.char '\n'] := by
  simp [renderPieces, entryLine, Piece.render, Text.ofString]

theorem plainLines_cons (key : Text) (item : Item) (rest : List (Text × Item)) :
    plainLines ((key, item) :: rest) =
      (if item.hasHeader then [] else entryLine key item) ++ plainLines rest :=
  List.flatMap_cons

theorem runs_emptyLine (split wanted : Bool) (d : Draft) :
    Runs d (renderPieces split (emptyLine wanted)) d := by
  cases wanted with
  | false => exact runs_nil d
  | true => exact runs_blank d

section

variable (split : Bool) {path : Path} {wrap : Entries → Entries}

open Item Draft

/-- The plain entries of a table are added to it one after the other. -/
theorem runs_plainLines (hhole : Hole path wrap) {entries : List (Text × Item)}
    (hsound : ∀ entry ∈ entries, entry.2.IsSound) {before : Entries} {d : Draft}
    (hdistinct : ((before ++ laidOutWhere false entries).map Prod.fst).Nodup)
    (hroot : d.root = wrap before) (hheader : d.header = path) (hopen : d.IsOpen path) :
    ∃ after, Runs d (renderPieces split (plainLines entries)) after ∧
      after.root = wrap (before ++ laidOutWhere false entries) ∧
      Grows path ((laidOutWhere false entries).map Prod.fst) d after := by
  induction entries generalizing before d with
  | nil => exact ⟨d, runs_nil d, by rw [hroot, laidOutWhere, List.append_nil], grows_refl _ _ d⟩
  | cons entry rest ih =>
      obtain ⟨key, item⟩ := entry
      obtain ⟨hitem, hrest⟩ := List.forall_mem_cons.mp hsound
      rw [plainLines_cons]
      cases hplain : item.hasHeader with
      | true =>
          rw [laidOutWhere_of_ne key rest (by simp [hplain])] at hdistinct ⊢
          rw [if_pos rfl, List.nil_append]
          exact ih hrest hdistinct hroot hheader hopen
      | false =>
          rw [laidOutWhere_of_eq key rest hplain, laidOut_of_not_hasHeader hplain] at hdistinct ⊢
          rw [if_neg Bool.false_ne_true]
          have hkey := Entries.not_mem_of_nodup hdistinct
          have hfocus : Focus d.root d.header before wrap := by
            rw [hroot, hheader]
            exact hhole before
          obtain ⟨next, hadd, hnext, hheaderNext, hgrows⟩ :=
            exists_addPair (hheader ▸ hopen) hfocus hkey item.value
          have hpair : IsPair
              (spellKey key ++ Text.ofString " = " ++ (item.outermost true).render split)
              (key, item.value) := ⟨_, rfl, readsBack_outermost hitem true split⟩
          have hline := runs_pair hpair hadd
          rw [hheader] at hgrows hheaderNext
          obtain ⟨after, hruns, hafter, hgrowsRest⟩ := ih hrest (by simpa using hdistinct) hnext
            hheaderNext (hgrows.isOpen hopen)
          refine ⟨after, ?_, ?_, ?_⟩
          · rw [renderPieces_append, renderPieces_entryLine]
            exact hline.append hruns
          · rw [hafter, List.append_assoc]
            rfl
          · exact (hgrows.mono (by simp)).trans (hgrowsRest.mono (by simp))

/-! ## Entries with headers -/

/-- Reading the lines of an item with a header adds the item to the table in focus. -/
def HeadedRun (split : Bool) (item : Item) : Prop :=
  ∀ (path : Path) (wrap : Entries → Entries) (before : Entries) (d : Draft) (key : Text)
    (blank first : Bool), Hole path wrap → Focus d.root path before wrap →
    key ∉ before.map Prod.fst → d.opened = [] → d.Fresh (path ++ [key]) →
    ∃ after, Runs d (renderPieces split (headed (path ++ [key]) blank first item)) after ∧
      after.root = wrap (before ++ [(key, item.laidOut)]) ∧ Grows path [key] d after

/-- Reading the lines of the entries that have headers adds them to the table in focus; without such
entries nothing is read. -/
def SectionsRun (split : Bool) (entries : List (Text × Item)) : Prop :=
  ∀ (path : Path) (wrap : Entries → Entries) (before : Entries) (d : Draft) (blank first : Bool),
    Hole path wrap → Focus d.root path before wrap →
    ((before ++ laidOutWhere true entries).map Prod.fst).Nodup → d.opened = [] →
    (∀ key ∈ (laidOutWhere true entries).map Prod.fst, d.Fresh (path ++ [key])) →
    ∃ after, Runs d (renderPieces split (sections path blank first entries)) after ∧
      (after.root = d.root ∧ laidOutWhere true entries = [] ∨
        after.root = wrap (before ++ laidOutWhere true entries)) ∧
      Grows path ((laidOutWhere true entries).map Prod.fst) d after

theorem headed_of_not_hasHeader {item : Item} (h : item.hasHeader = false) (path : Path)
    (blank first : Bool) : headed path blank first item = [] := by
  cases item with
  | scalar spelling => rfl
  | array items => rw [headed, h, if_neg Bool.false_ne_true]
  | table entries => cases h

theorem sectionsRun {entries : List (Text × Item)}
    (hentries : ∀ entry ∈ entries, entry.2.hasHeader = true → HeadedRun split entry.2) :
    SectionsRun split entries := by
  intro path wrap before d blank first hhole hfocus hdistinct hopened hfresh
  induction entries generalizing before d blank first with
  | nil => exact ⟨d, runs_nil d, Or.inl ⟨rfl, rfl⟩, grows_refl _ _ d⟩
  | cons entry rest ih =>
      obtain ⟨key, item⟩ := entry
      obtain ⟨hitem, hrest⟩ := List.forall_mem_cons.mp hentries
      rw [sections, renderPieces_append]
      cases hheader : item.hasHeader with
      | false =>
          rw [laidOutWhere_of_ne key rest (by simp [hheader])] at hdistinct hfresh ⊢
          rw [headed_of_not_hasHeader hheader]
          exact ih hrest before d _ _ hfocus hdistinct hopened hfresh
      | true =>
          rw [laidOutWhere_of_eq key rest hheader] at hdistinct hfresh ⊢
          obtain ⟨hfreshKey, hfreshRest⟩ := List.forall_mem_cons.mp hfresh
          obtain ⟨next, hfirst, hnext, hgrows⟩ := hitem hheader path wrap before d key blank first
            hhole hfocus (Entries.not_mem_of_nodup hdistinct) hopened hfreshKey
          -- The keys of the rest differ from the key that has just been added.
          have hnew : key ∉ (laidOutWhere true rest).map Prod.fst := by
            rw [List.map_append] at hdistinct
            exact (List.nodup_cons.mp (List.nodup_append.mp hdistinct).2.1).1
          obtain ⟨after, hruns, hafter, hgrowsRest⟩ := ih hrest
            (before ++ [(key, item.laidOut)]) next (blank || true) false
            (hnext ▸ hhole _) (by simpa using hdistinct) (hgrows.opened hopened)
            fun other hother => (hfreshRest other hother).of_grows hgrows fun hmem =>
              hnew (List.mem_singleton.mp hmem ▸ hother)
          refine ⟨after, hfirst.append hruns, Or.inr ?_, ?_⟩
          · rcases hafter with ⟨hsame, hnone⟩ | hafter
            · rw [hsame, hnext, hnone]
            · rw [hafter, List.append_assoc]
              rfl
          · exact (hgrows.mono (by simp)).trans (hgrowsRest.mono (by simp))

/-- What stands under a header: the plain entries of the table and then the others. -/
theorem exists_runs_body {entries : List (Text × Item)} (hsound : (Item.table entries).IsSound)
    (hsections : SectionsRun split entries) (hhole : Hole path wrap) {d : Draft}
    (hbegins : d.Begins path) (hroot : d.root = wrap []) (blank : Bool) :
    ∃ after, Runs d (renderPieces split
        (plainLines entries ++ sections path blank true entries)) after ∧
      after.root = wrap (laidOutEntries entries) ∧
      Grows path ((laidOutEntries entries).map Prod.fst) d after := by
  cases hsound with
  | table hdistinct hentries =>
      have hkeys : ((laidOutEntries entries).map Prod.fst).Nodup :=
        (laidOutEntries_keys entries).nodup_iff.mpr hdistinct
      have hparts := hkeys
      rw [laidOutEntries, List.map_append] at hparts
      -- The keys with headers are apart from the plain ones, so they have not been met yet.
      obtain ⟨hplainKeys, -, hapart⟩ := List.nodup_append.mp hparts
      obtain ⟨next, hplain, hnext, hgrows⟩ := runs_plainLines split hhole hentries hplainKeys hroot
        hbegins.header hbegins.isOpen
      rw [List.nil_append] at hnext
      obtain ⟨after, hruns, hafter, hgrowsRest⟩ := hsections path wrap _ next blank true hhole
        (hnext ▸ hhole _) hkeys (hgrows.opened hbegins.opened) fun key hkey =>
          (hbegins.fresh key).of_grows hgrows fun hmem => hapart _ hmem _ hkey rfl
      refine ⟨after, ?_, ?_, ?_⟩
      · rw [renderPieces_append]
        exact hplain.append hruns
      · rcases hafter with ⟨hsame, hnone⟩ | hafter
        · rw [hsame, hnext, laidOutEntries, hnone, List.append_nil]
        · exact hafter
      · rw [laidOutEntries, List.map_append]
        exact (hgrows.mono (by simp)).trans (hgrowsRest.mono (by simp))

/-- Where every entry has a header, there are no plain entries. -/
theorem plainLines_of_onlyHeaders {entries : List (Text × Item)}
    (h : onlyHeaders entries = true) :
    plainLines entries = [] ∧ laidOutWhere false entries = [] := by
  induction entries with
  | nil => exact ⟨rfl, rfl⟩
  | cons entry rest ih =>
      obtain ⟨key, item⟩ := entry
      rw [onlyHeaders, List.all_cons, Bool.and_eq_true] at h
      obtain ⟨hlines, hvalues⟩ := ih h.2
      rw [plainLines_cons, if_pos h.1, laidOutWhere_of_ne key rest (by simp [h.1])]
      exact ⟨hlines, hvalues⟩

theorem laidOutWhere_ne_nil {entries : List (Text × Item)} (hne : entries ≠ [])
    (h : onlyHeaders entries = true) : laidOutWhere true entries ≠ [] := by
  cases entries with
  | nil => exact absurd rfl hne
  | cons entry rest =>
      obtain ⟨key, item⟩ := entry
      rw [onlyHeaders, List.all_cons, Bool.and_eq_true] at h
      rw [laidOutWhere_of_eq key rest h.1]
      exact List.cons_ne_nil _ _

theorem headedRun_table {entries : List (Text × Item)} (hsound : (Item.table entries).IsSound)
    (hsections : SectionsRun split entries) : HeadedRun split (.table entries) := by
  intro path wrap before d key blank first hhole hfocus hkey hopened hfresh
  have hinner := hhole.table hkey
  have hmissing := hfocus.missing hkey
  rw [headed, List.append_assoc, List.append_assoc, renderPieces_append, renderPieces_append]
  unfold tableHeader
  split
  · -- The header is left out; the first entry creates the table.
    rename_i homitted
    rw [Bool.and_eq_true, Bool.not_eq_true'] at homitted
    obtain ⟨hnonempty, honly⟩ := homitted
    obtain ⟨hlines, hplain⟩ := plainLines_of_onlyHeaders honly
    have hnone := laidOutWhere_ne_nil (by simpa using hnonempty) honly
    cases hsound with
    | table hdistinct _ =>
        have hkeys := (laidOutEntries_keys entries).nodup_iff.mpr hdistinct
        rw [laidOutEntries, hplain] at hkeys
        have hbelow : ∀ below ∈ (laidOutWhere true entries).map Prod.fst,
            d.Fresh (path ++ [key] ++ [below]) := fun below _ => hfresh.child below
        obtain ⟨after, hruns, hafter, hgrows⟩ := hsections (path ++ [key]) _ [] d
          (!onlyHeaders entries) true hinner hmissing hkeys hopened hbelow
        refine ⟨after, ?_, ?_, hgrows.below⟩
        · rw [hlines]
          exact (runs_emptyLine split blank d).append hruns
        · rw [hafter.resolve_left fun h => hnone h.2, laidOut, hplain]
  · obtain ⟨next, hdeclare, hnext, hbegins, hgrows⟩ := exists_declareTable hopened hfresh hmissing
    obtain ⟨after, hruns, hafter, hgrowsBody⟩ :=
      exists_runs_body split hsound hsections hinner hbegins hnext (!onlyHeaders entries)
    have hheader := runs_tableHeader (List.concat_ne_nil _ _) hdeclare
    refine ⟨after, ?_, hafter, hgrows.trans hgrowsBody.below⟩
    refine (runs_emptyLine split blank d).append (Runs.append ?_ hruns)
    simpa [renderPieces, Piece.render] using hheader

/-- Reading the lines of elements adds them to an array of tables, the array being created with its
first element. -/
theorem exists_runs_elements {items : List Item}
    (hitems : ∀ item ∈ items, item.IsSound ∧ ∃ entries, item = .table entries ∧
      SectionsRun split entries)
    (hhole : Hole path wrap) {before : Entries} {key : Text} (hkey : key ∉ before.map Prod.fst)
    (earlier : List Value) (blank : Bool) {d : Draft} (hopened : d.opened = [])
    (hopen : d.IsOpen (path ++ [key]))
    (happend : changeAt true (appendTable key) path d.root =
      .ok (wrap (before ++ [(key, .array .list (earlier ++ [.table []]))]))) :
    ∃ after, Runs d (renderPieces split (elements (path ++ [key]) blank items)) after ∧
      (after.root = d.root ∧ items = [] ∨
        after.root = wrap (before ++ [(key, .array .list (earlier ++ laidOutItems items))])) ∧
      Grows path [key] d after := by
  induction items generalizing earlier blank d with
  | nil => exact ⟨d, runs_nil d, Or.inl ⟨rfl, rfl⟩, grows_refl _ _ d⟩
  | cons item rest ih =>
      obtain ⟨⟨hsound, entries, rfl, hsections⟩, hrest⟩ := List.forall_mem_cons.mp hitems
      obtain ⟨next, hdeclare, hnext, hbegins, hgrows⟩ :=
        exists_declareElement hopened hopen happend
      obtain ⟨later, hbody, hlater, hgrowsBody⟩ := exists_runs_body split hsound hsections
        (hhole.element hkey earlier) hbegins hnext (!onlyHeaders entries)
      have hheader := runs_elementHeader (List.concat_ne_nil _ _) hdeclare
      -- The next element comes after this one, with everything in it in place.
      have hagain := hhole.appendTable hkey (earlier ++ [.table (laidOutEntries entries)])
      rw [← hlater] at hagain
      obtain ⟨after, hruns, hafter, hgrowsRest⟩ := ih hrest
        (earlier ++ [.table (laidOutEntries entries)]) (!entries.isEmpty)
        (hgrowsBody.opened hbegins.opened) (hgrowsBody.isOpen hbegins.isOpen) hagain
      refine ⟨after, ?_, Or.inr ?_, (hgrows.trans hgrowsBody.below).trans hgrowsRest⟩
      · have hlines : Runs d (renderPieces split (elementHeader (path ++ [key]))) next := by
          simpa [renderPieces, elementHeader, Piece.render] using hheader
        have hall := (runs_emptyLine split blank d).append (hlines.append (hbody.append hruns))
        rw [elements]
        simpa only [List.append_assoc, renderPieces_append] using hall
      · rcases hafter with ⟨hsame, rfl⟩ | hafter
        · rw [hsame, hlater]
          rfl
        · rw [hafter, List.append_assoc]
          rfl

theorem headedRun_array {items : List Item}
    (hitems : ∀ item ∈ items, item.IsSound ∧ ∃ entries, item = .table entries ∧
      SectionsRun split entries)
    (hheader : (Item.array items).hasHeader = true) : HeadedRun split (.array items) := by
  intro path wrap before d key blank first hhole hfocus hkey hopened hfresh
  have hnonempty : items ≠ [] := by
    rw [hasHeader, Bool.and_eq_true] at hheader
    simpa using hheader.1
  obtain ⟨after, hruns, hafter, hgrows⟩ := exists_runs_elements split hitems hhole hkey []
    (!first) hopened hfresh.isOpen (hfocus.appendTable hkey)
  refine ⟨after, ?_, ?_, hgrows⟩
  · rwa [headed, if_pos hheader]
  · rw [hafter.resolve_left fun h => hnonempty h.2, laidOut, if_pos hheader, List.nil_append]

/-- Every item with a header is read, and so is what stands below the header of a table. -/
theorem headedRun_and_sectionsRun {item : Item} (h : item.IsSound) :
    (item.hasHeader = true → HeadedRun split item) ∧
      ∀ entries, item = .table entries → SectionsRun split entries := by
  -- An element is read like a table but added like an item of an array, so an array needs more of
  -- its tables than that they are read with headers of their own.
  induction h with
  | scalar _ => exact ⟨nofun, nofun⟩
  | @array items hsound ih =>
      refine ⟨fun hheader => headedRun_array split (fun item hitem => ?_) hheader, nofun⟩
      rw [hasHeader, Bool.and_eq_true, List.all_eq_true] at hheader
      refine ⟨hsound item hitem, ?_⟩
      have htable := hheader.2 item hitem
      cases item with
      | table entries => exact ⟨entries, rfl, (ih _ hitem).2 entries rfl⟩
      | scalar _ => cases htable
      | array _ => cases htable
  | @table entries hdistinct hentries ih =>
      have hsections := sectionsRun split fun entry hentry => (ih entry hentry).1
      refine ⟨fun _ => headedRun_table split (.table hdistinct hentries) hsections, ?_⟩
      rintro _ ⟨⟩
      exact hsections

end

/-! ## Whole texts -/

theorem unixNewlines_of_clean {t : Text} (h : .char '\r' ∉ t) : t.unixNewlines = t := by
  fun_induction Text.unixNewlines t with
  | case1 => exact absurd List.mem_cons_self h
  | case2 c rest _ ih => rw [ih fun hmem => h (List.mem_cons_of_mem c hmem)]
  | case3 => rfl

theorem read_of_readStatements {t : Text} {d : Draft} (hclean : .char '\r' ∉ t)
    (h : readStatements (t.length + 1) .empty t = .ok d) : read t = .ok d.root := by
  rw [read, unixNewlines_of_clean hclean, h]

theorem read_of_runs {text : Text} {after : Draft} (h : Runs .empty text after) :
    read text = .ok after.root := by
  obtain ⟨hclean, lines, hlines, hreads⟩ := h
  have hwhole := hreads (text.length - lines + 1) []
  have hcount : text.length - lines + 1 + lines = text.length + 1 := by omega
  rw [List.append_nil, hcount] at hwhole
  exact read_of_readStatements hclean hwhole

/-- A document reads back in both layouts. -/
theorem read_document (split : Bool) {entries : List (Text × Item)}
    (h : (Item.table entries).IsSound) :
    read (renderPieces split (document entries)) = .ok (Item.laidOutEntries entries) := by
  obtain ⟨after, hruns, hafter, -⟩ := exists_runs_body split h
    ((headedRun_and_sectionsRun split h).2 entries rfl) hole_root Draft.begins_empty rfl
    (!onlyHeaders entries)
  rw [document, read_of_runs hruns, hafter]
  rfl

/-- A text that reads back is the value of a key if it follows the key and an equals sign. -/
theorem read_pair {text : Text} {entry : Text × Value} (h : IsPair text entry) :
    read text = .ok [entry] := by
  have hfocus : Focus Draft.empty.root Draft.empty.header [] id := hole_root []
  have hkey : entry.1 ∉ ([] : Entries).map Prod.fst := List.not_mem_nil
  obtain ⟨after, hadd, hafter, -⟩ := Draft.exists_addPair (d := .empty) nofun hfocus hkey entry.2
  have hread : readPair .empty (text ++ []) =
      (placed [] (Draft.empty.addPair [entry.1] entry.2) >>= fun after => .ok (after, [])) :=
    readPair_of_isPair h nofun
  rw [hadd, List.append_nil] at hread
  have hstatements : readStatements (text.length + 1) .empty text = .ok after := by
    rw [readStatements_succ h.begins.isLine, readStatement_pair h.begins, hread]
    rfl
  rw [read_of_readStatements h.clean hstatements, hafter]
  rfl

end Toml

end DocumentQuery
