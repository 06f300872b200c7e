import DocumentQuery.Document
import DocumentQuery.Proofs.Toml.Documents

/-!
# TOML reads back what it wrote

A value is written by way of an item.  The item carries the value: it is sound, and what is read
from its text, in a document or in one line, is the value up to the order of keys.  Items are made
in several contexts, but those differ in the order of entries only.
-/

namespace DocumentQuery

namespace Value

/-! ## Values up to the order of keys -/

/-- The values are the same but for the order of the entries in their tables: two tables have the
same keys, and like values for every key. -/
inductive Alike : Value → Value → Prop
  | leaf {v : Value} (hleaf : v.IsLeaf) : Alike v v
  | array {form : ArrayForm} {items others : List Value} (hlength : items.length = others.length)
      (hitems : ∀ item other, (item, other) ∈ items.zip others → Alike item other) :
      Alike (.array form items) (.array form others)
  | table {entries others : Entries} (hkeys : (entries.map Prod.fst).Perm (others.map Prod.fst))
      (hvalues : ∀ key v w, (key, v) ∈ entries → (key, w) ∈ others → Alike v w) :
      Alike (.table entries) (.table others)

theorem Alike.of_forall₂ {form : ArrayForm} {items others : List Value}
    (h : List.Forall₂ Alike items others) : Alike (.array form items) (.array form others) := by
  obtain ⟨hlength, hitems⟩ := List.forall₂_iff_zip.mp h
  exact .array hlength fun _ _ hmem => hitems hmem

theorem Alike.of_perm {entries rearranged others : Entries}
    (h : Alike (.table entries) (.table others)) (hperm : rearranged.Perm entries) :
    Alike (.table rearranged) (.table others) := by
  cases h with
  | leaf hleaf => exact absurd rfl (hleaf.1 _)
  | table hkeys hvalues =>
      exact .table ((hperm.map _).trans hkeys) fun key v w hv => hvalues key v w (hperm.subset hv)

theorem keys_eq_of_forall₂ {α β : Type} {R : α → β → Prop} {entries : List (Text × α)}
    {others : List (Text × β)}
    (h : List.Forall₂ (fun entry other => entry.1 = other.1 ∧ R entry.2 other.2) entries others) :
    entries.map Prod.fst = others.map Prod.fst := by
  induction h with
  | nil => rfl
  | cons hentry _ ih => rw [List.map_cons, List.map_cons, hentry.1, ih]

/-- Entries that correspond one by one make tables that are alike. -/
theorem Alike.of_entries {entries others : Entries} (hdistinct : (others.map Prod.fst).Nodup)
    (h : List.Forall₂ (fun entry other => entry.1 = other.1 ∧ Alike entry.2 other.2)
      entries others) : Alike (.table entries) (.table others) := by
  refine .table (.of_eq (keys_eq_of_forall₂ h)) fun key v w hv hw => ?_
  obtain ⟨⟨other, w'⟩, hother, hsame, hlike⟩ := Toml.exists_of_forall₂ h _ hv
  cases hsame
  -- The keys are distinct, so the partner is the entry in question.
  have hlookup := lookup_of_mem hdistinct hother
  rw [lookup_of_mem hdistinct hw] at hlookup
  cases hlookup
  exact hlike

end Value

namespace Toml

open Value

/-- The arrays and moments that TOML can carry: lists, and all moments but times of day with an
offset. -/
abbrev IsPlain (v : Value) : Prop :=
  v.IsBuilt (· = .list) HasSpelling

/-! ## Items that carry values -/

namespace Item

/-- An item reads back as a value, up to the order of keys, wherever it stands. -/
structure Carries (item : Item) (v : Value) : Prop where
  sound : item.IsSound
  inLine : item.value.Alike v
  inDocument : item.laidOut.Alike v

theorem carries_scalar {spelling : Text} {v : Value} (h : ReadsBack spelling v) {kind : Kind}
    (hkind : v.kind = .ok kind) (hscalar : kind.isScalar = true) :
    (Item.scalar spelling).Carries v where
  sound := .scalar h
  inLine := by
    rw [value, h.scalarValue_eq]
    exact .leaf (isLeaf_of_isScalar hkind hscalar)
  inDocument := by
    rw [laidOut, h.scalarValue_eq]
    exact .leaf (isLeaf_of_isScalar hkind hscalar)

theorem laidOutItems_eq_map (items : List Item) : laidOutItems items = items.map laidOut := by
  induction items with
  | nil => rfl
  | cons item rest ih => rw [laidOutItems, ih, List.map_cons]

theorem carries_array {items : List Item} {values : List Value}
    (h : List.Forall₂ Carries items values) : (Item.array items).Carries (.array .list values) := by
  have hvalues : List.Forall₂ Alike (valueItems items) values := by
    rw [valueItems_eq_map, List.forall₂_map_left_iff]
    exact h.imp fun _ _ hitem => hitem.inLine
  have hlaidOut : List.Forall₂ Alike (laidOutItems items) values := by
    rw [laidOutItems_eq_map, List.forall₂_map_left_iff]
    exact h.imp fun _ _ hitem => hitem.inDocument
  have hsound : ∀ item ∈ items, item.IsSound := by
    intro item hitem
    obtain ⟨v, -, hcarries⟩ := exists_of_forall₂ h item hitem
    exact hcarries.sound
  refine ⟨.array hsound, .of_forall₂ hvalues, ?_⟩
  rw [laidOut]
  split
  · exact .of_forall₂ hlaidOut
  · exact .of_forall₂ hvalues

theorem carries_table {items : List (Text × Item)} {entries : Entries}
    (hdistinct : (entries.map Prod.fst).Nodup)
    (h : List.Forall₂ (fun item entry => item.1 = entry.1 ∧ Carries item.2 entry.2) items entries) :
    (Item.table items).Carries (.table entries) := by
  have hsound : ∀ item ∈ items, item.2.IsSound := by
    intro item hitem
    obtain ⟨entry, -, -, hcarries⟩ := exists_of_forall₂ h item hitem
    exact hcarries.sound
  refine ⟨.table (keys_eq_of_forall₂ h ▸ hdistinct) hsound, ?_, ?_⟩
  · refine .of_entries hdistinct ?_
    rw [valueEntries_eq_map, List.forall₂_map_left_iff]
    exact h.imp fun _ _ hitem => ⟨hitem.1, hitem.2.inLine⟩
  · refine Alike.of_perm (.of_entries hdistinct ?_) (laidOutEntries_perm items)
    rw [List.forall₂_map_left_iff]
    exact h.imp fun _ _ hitem => ⟨hitem.1, hitem.2.inDocument⟩

/-- The order of the entries of an item does not matter. -/
theorem Carries.of_perm {items rearranged : List (Text × Item)} {entries : Entries}
    (h : (Item.table items).Carries (.table entries)) (hperm : rearranged.Perm items) :
    (Item.table rearranged).Carries (.table entries) where
  sound := by
    cases h.sound with
    | table hdistinct hitems =>
        exact .table ((hperm.map _).nodup_iff.mpr hdistinct) fun e he => hitems e (hperm.subset he)
  inLine := by
    refine h.inLine.of_perm ?_
    rw [valueEntries_eq_map, valueEntries_eq_map]
    exact hperm.map _
  inDocument := by
    have hentries := (laidOutEntries_perm rearranged).trans (hperm.map _)
    exact h.inDocument.of_perm (hentries.trans (laidOutEntries_perm items).symm)

/-! ## Making items -/

section

-- Otherwise the power of ten in the limit is computed when the item is unfolded.
attribute [local irreducible] Numeral.isWritable

variable (context : Context)

theorem of_integer {i : Int} (h : Numeral.isWritable i = true) :
    Item.of context (.integer i) = .ok (.scalar (Numeral.ofInt i)) := by
  have hwrite : Numeral.write i = .ok (Numeral.ofInt i) := by
    rw [Numeral.write, if_pos h]
  have hspell : spellInteger i = .ok (Numeral.ofInt i) := by
    delta spellInteger
    rw [hwrite]
  rw [Item.of, hspell]
  rfl

theorem of_array (form : ArrayForm) (values : List Value) :
    Item.of context (.array form values) =
      (Item.ofItems (context.ofItems values) values >>= fun items => .ok (.array items)) := rfl

theorem of_table (entries : Entries) :
    Item.of context (.table entries) =
      (Item.ofEntries context entries >>= fun items => .ok (.table items)) := rfl

theorem ofItems_of_not_table {v : Value} (h : v.isTable = false) (rest : List Value) :
    Item.ofItems context (v :: rest) =
      (Item.of context v >>= fun item =>
        Item.ofItems context rest >>= fun items => .ok (item :: items)) := by
  cases v with
  | table entries => cases h
  | _ => rfl

end

theorem isTable_of_of {context : Context} {v : Value} {item : Item}
    (h : Item.of context v = .ok item) : item.isTable = v.isTable := by
  cases v with
  | string _ => cases h; rfl
  | float _ => cases h; rfl
  | boolean _ => cases h; rfl
  | moment _ => cases h; rfl
  | null => cases h
  | foreign _ => cases h
  | integer i =>
      obtain ⟨spelling, -, hitem⟩ := exists_of_bind_eq_ok h
      cases hitem
      rfl
  | array form values =>
      rw [of_array] at h
      obtain ⟨items, -, hitem⟩ := exists_of_bind_eq_ok h
      cases hitem
      rfl
  | table entries =>
      rw [of_table] at h
      obtain ⟨items, -, hitem⟩ := exists_of_bind_eq_ok h
      cases hitem
      rfl

/-- The items of some of the entries are found among those of all. -/
theorem ofEntriesWhere_eq {context : Context} {entries : Entries} {items : List (Text × Item)}
    (h : Item.ofEntries context entries = .ok items) (tables : Bool) :
    Item.ofEntriesWhere tables context entries =
      .ok (items.filter fun item => item.2.isTable = tables) := by
  induction entries generalizing items with
  | nil =>
      cases h
      rfl
  | cons entry rest ih =>
      obtain ⟨key, v⟩ := entry
      obtain ⟨item, hitem, h⟩ := exists_of_bind_eq_ok h
      obtain ⟨others, hothers, h⟩ := exists_of_bind_eq_ok h
      cases h
      rw [Item.ofEntriesWhere, ih hothers, hitem, ← isTable_of_of hitem]
      by_cases htable : item.isTable = tables
      · rw [if_pos htable, List.filter_cons_of_pos (by simpa using htable)]
        rfl
      · rw [if_neg htable, List.filter_cons_of_neg (by simpa using htable)]

/-- In an element of an array of tables, the entries of the item of the table are rearranged. -/
theorem exists_ofItems_table {context : Context} {entries : Entries} {inner : List (Text × Item)}
    (h : Item.ofEntries context entries = .ok inner) (rest : List Value) :
    ∃ rearranged : List (Text × Item), rearranged.Perm inner ∧
      Item.ofItems context (.table entries :: rest) =
        (Item.ofItems context rest >>= fun items => .ok (.table rearranged :: items)) := by
  by_cases hblock : context = .block
  · refine ⟨inner.filter (fun item => item.2.isTable = false) ++
      inner.filter fun item => item.2.isTable = true, ?_, ?_⟩
    · have hperm := List.filter_append_perm (fun item : Text × Item => item.2.isTable = false) inner
      simpa using hperm
    · rw [Item.ofItems, if_pos hblock, ofEntriesWhere_eq h, ofEntriesWhere_eq h]
      rfl
  · refine ⟨inner, .refl inner, ?_⟩
    rw [Item.ofItems, if_neg hblock, h]
    rfl

theorem exists_ofItems {values : List Value}
    (h : ∀ v ∈ values, ∀ context, ∃ item, Item.of context v = .ok item ∧ item.Carries v)
    (context : Context) :
    ∃ items, Item.ofItems context values = .ok items ∧ List.Forall₂ Carries items values := by
  induction values with
  | nil => exact ⟨[], rfl, .nil⟩
  | cons v rest ih =>
      obtain ⟨hv, hrest⟩ := List.forall_mem_cons.mp h
      obtain ⟨item, hof, hcarries⟩ := hv context
      obtain ⟨items, hitems, hall⟩ := ih hrest
      cases htable : v.isTable with
      | false =>
          refine ⟨item :: items, ?_, .cons hcarries hall⟩
          rw [ofItems_of_not_table context htable, hof, ok_bind, hitems]
          rfl
      | true =>
          cases v with
          | table entries =>
              rw [of_table] at hof
              obtain ⟨inner, hinner, hitem⟩ := exists_of_bind_eq_ok hof
              cases hitem
              obtain ⟨rearranged, hperm, hof⟩ := exists_ofItems_table hinner rest
              refine ⟨.table rearranged :: items, ?_, .cons (hcarries.of_perm hperm) hall⟩
              rw [hof, hitems]
              rfl
          | _ => cases htable

theorem exists_ofEntries {context : Context} {entries : Entries}
    (h : ∀ entry ∈ entries, ∃ item, Item.of context entry.2 = .ok item ∧ item.Carries entry.2) :
    ∃ items, Item.ofEntries context entries = .ok items ∧
      List.Forall₂ (fun item entry => item.1 = entry.1 ∧ Carries item.2 entry.2) items entries := by
  induction entries with
  | nil => exact ⟨[], rfl, .nil⟩
  | cons entry rest ih =>
      obtain ⟨key, v⟩ := entry
      obtain ⟨⟨item, hof, hcarries⟩, hrest⟩ := List.forall_mem_cons.mp h
      obtain ⟨items, hitems, hall⟩ := ih hrest
      refine ⟨(key, item) :: items, ?_, .cons ⟨rfl, hcarries⟩ hall⟩
      rw [Item.ofEntries, hof, ok_bind, hitems]
      rfl

/-- Every value has an item in every context, and the item carries the value. -/
theorem exists_of {v : Value} (h : IsPlain v) (context : Context) :
    ∃ item, Item.of context v = .ok item ∧ item.Carries v := by
  induction h generalizing context with
  | string t => exact ⟨_, rfl, carries_scalar (readsBack_string t) rfl rfl⟩
  | integer i hwritable =>
      exact ⟨_, of_integer context hwritable,
        carries_scalar (readsBack_integer hwritable) rfl rfl⟩
  | boolean b => exact ⟨_, rfl, carries_scalar (readsBack_boolean b) rfl rfl⟩
  | moment m hmoment => exact ⟨_, rfl, carries_scalar (readsBack_moment hmoment) rfl rfl⟩
  | @array form values hform _ ih =>
      cases hform
      obtain ⟨items, hitems, hall⟩ := exists_ofItems ih (context.ofItems values)
      refine ⟨.array items, ?_, carries_array hall⟩
      rw [of_array, hitems]
      rfl
  | @table entries hdistinct _ ih =>
      obtain ⟨items, hitems, hall⟩ := exists_ofEntries fun entry hentry => ih entry hentry context
      refine ⟨.table items, ?_, carries_table hdistinct hall⟩
      rw [of_table, hitems]
      rfl

end Item

end Toml

namespace Document

open Value Toml

theorem dump_toml_of_write {pretty : Bool} {v : Value} {text : Text}
    (h : Toml.write pretty v = .ok text) : dump .toml pretty v = .ok text := by
  rw [dump, h]

theorem load_toml_of_read {text : Text} {entries : Entries} (h : Toml.read text = .ok entries) :
    load .toml text = .ok entries := by
  rw [load, loadToml, h]

theorem pieces_of_not_table {v : Value} (h : v.isTable = false) :
    pieces v = (Item.of .outside v >>= fun item => .ok [item.outermost false]) := by
  cases v with
  | table entries => cases h
  | _ => rfl

/-- **TOML output is not lossy.**  In either layout every value of a document has a text.  The text
of a table is loaded as that table, and the text of any other value as the value of a key that it
follows, up to the order of keys in both cases. -/
theorem load_dump_toml {v : Value} (h : IsPlain v) (pretty : Bool) :
    ∃ text, dump .toml pretty v = .ok text ∧
      (v.isTable = true → ∃ loaded, load .toml text = .ok loaded ∧ (Value.table loaded).Alike v) ∧
      (v.isTable = false → ∃ loaded,
        load .toml (Text.ofString "x = " ++ text) = .ok [(Text.ofString "x", loaded)] ∧
          loaded.Alike v) := by
  cases htable : v.isTable with
  | true =>
      obtain ⟨item, hof, hcarries⟩ := Item.exists_of h .block
      cases v with
      | table entries =>
          rw [Item.of_table] at hof
          obtain ⟨items, hitems, hitem⟩ := exists_of_bind_eq_ok hof
          cases hitem
          refine ⟨renderPieces pretty (document items), ?_, fun _ => ?_, nofun⟩
          · refine dump_toml_of_write ?_
            rw [write, pieces, hitems]
            rfl
          · exact ⟨_, load_toml_of_read (read_document pretty hcarries.sound), hcarries.inDocument⟩
      | _ => cases htable
  | false =>
      obtain ⟨item, hof, hcarries⟩ := Item.exists_of h .outside
      have hreads := Item.readsBack_outermost hcarries.sound false pretty
      have hpair : IsPair (Text.ofString "x = " ++ (item.outermost false).render pretty)
          (Text.ofString "x", item.value) := ⟨_, rfl, hreads⟩
      refine ⟨(item.outermost false).render pretty, ?_, nofun, fun _ => ?_⟩
      · refine dump_toml_of_write ?_
        rw [write, pieces_of_not_table htable, hof]
        exact congrArg Except.ok (List.append_nil _)
      · exact ⟨_, load_toml_of_read (read_pair hpair), hcarries.inLine⟩

/-- A table inside an element of an array of tables comes after the other entries of the element,
and the key `"` needs quotes.  The same array by itself stays in one line. -/
theorem load_dump_toml_nested :
    let element : Value := .table [([.char '"'], .table []), ([.char 'b'], .integer (-7))]
    let elements : Value := .array .list [element, .table []]
    let v : Value := .table [([.char 'a'], elements), ([], .boolean true)]
    (IsPlain v ∧ ∃ text, dump .toml true v = .ok text ∧
        ∃ loaded, load .toml text = .ok loaded ∧ (Value.table loaded).Alike v) ∧
      IsPlain elements ∧ ∃ text, dump .toml false elements = .ok text ∧
        ∃ loaded,
          load .toml (Text.ofString "x = " ++ text) = .ok [(Text.ofString "x", loaded)] ∧
            loaded.Alike elements := by
  intro element elements v
  have hseven : (-7 : Int).natAbs = Numeral.value [.char '7'] := rfl
  have hinteger : Numeral.isWritable (-7) = true :=
    Numeral.isWritable_of_length_le hseven (by decide)
  have helement : IsPlain element := by
    refine .table (by decide) (List.forall_mem_cons.mpr ⟨.table .nil nofun, ?_⟩)
    exact List.forall_mem_singleton.mpr (.integer _ hinteger)
  have helements : IsPlain elements := by
    refine .array rfl (List.forall_mem_cons.mpr ⟨helement, ?_⟩)
    exact List.forall_mem_singleton.mpr (.table .nil nofun)
  have hv : IsPlain v := by
    refine .table (by decide) (List.forall_mem_cons.mpr ⟨helements, ?_⟩)
    exact List.forall_mem_singleton.mpr (.boolean true)
  obtain ⟨text, hdump, hload, -⟩ := load_dump_toml hv true
  obtain ⟨line, hline, -, hpair⟩ := load_dump_toml helements false
  exact ⟨⟨hv, text, hdump, hload rfl⟩, helements, line, hline, hpair rfl⟩

end Document

end DocumentQuery
