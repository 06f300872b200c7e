import DocumentQuery.Proofs.Refusals

/-!
# Outermost arrays on lines of their own

The two layouts of TOML differ only in the outermost arrays.  Which arrays these are is told from
the value alone: headers lead from a table to the values of its keys and from an array of tables to
its elements, and an array that they lead to is outermost unless its own elements have headers.  An
array that is no part of a document is outermost itself.

* `mem_outermostArrays_iff` — the list of the outermost arrays of a value with the paths to them.
* `Splits` — two texts that agree but for some arrays, which stand in one line in the first and on
  lines of their own in the second.
* `headedSplits` — the lines of an item hold the outermost arrays of its value, each of them once.
* `Document.toml_layouts_agree_but_for_outermost_arrays` — what this says about the two texts of a
  value.

A document puts plain entries before those with headers, and an element of an array of tables puts
its tables last.  So the arrays stand in the texts in another order than in the value.
-/

namespace DocumentQuery

namespace Value

/-! ## Outermost arrays -/

/-- These are the elements of an array of tables: there are some, and all of them are tables. -/
def areElements (items : List Value) : Bool :=
  !items.isEmpty && items.all isTable

/-- An array inside a value: the path to it, and its items. -/
abbrev LocatedArray : Type :=
  List Step × List Value

mutual

/-- The outermost arrays of a value that headers can lead to, at the given path. -/
def arraysAt (path : List Step) : Value → List LocatedArray
  | .array _ items => if areElements items then arraysInItems path 0 items else [(path, items)]
  | .table entries => arraysInEntries path entries
  | _ => []

/-- The outermost arrays of the elements of an array of tables, from a position on. -/
def arraysInItems (path : List Step) (position : Nat) : List Value → List LocatedArray
  | [] => []
  | item :: rest =>
      item.arraysAt (path ++ [.index position]) ++ arraysInItems path (position + 1) rest

/-- The outermost arrays of the entries of a table. -/
def arraysInEntries (path : List Step) : List (Text × Value) → List LocatedArray
  | [] => []
  | (key, value) :: rest => value.arraysAt (path ++ [.field key]) ++ arraysInEntries path rest

end

/-- The outermost arrays of a value.  A value that is an array is no document, so it is the only
one. -/
def outermostArrays : Value → List LocatedArray
  | .array _ items => [([], items)]
  | v => v.arraysAt []

/-- A path that headers lead along: from a table to the value of a key, and from an array of tables
to an element. -/
inductive HeadersLead : Value → List Step → Value → Prop
  | here (v : Value) : HeadersLead v [] v
  | entry {entries : Entries} {key : Text} {next found : Value} {rest : List Step}
      (hmem : (key, next) ∈ entries) (hrest : HeadersLead next rest found) :
      HeadersLead (.table entries) (.field key :: rest) found
  | element {form : ArrayForm} {items : List Value} {position : Nat} {next found : Value}
      {rest : List Step} (helements : areElements items = true)
      (hitem : items[position]? = some next) (hrest : HeadersLead next rest found) :
      HeadersLead (.array form items) (.index position :: rest) found

/-- Where headers lead is a part of the value. -/
theorem HeadersLead.leads {v found : Value} {steps : List Step} (h : HeadersLead v steps found) :
    Leads v steps found := by
  induction h with
  | here v => exact .here v
  | entry hmem _ ih => exact .step (.entry hmem) ih
  | element _ hitem _ ih => exact .step (.item hitem) ih

/-- Headers lead to the array, and its own elements have none. -/
def IsOutermostAt (v : Value) (steps : List Step) (items : List Value) : Prop :=
  ∃ form, HeadersLead v steps (.array form items) ∧ areElements items = false

theorem arraysInEntries_eq_flatMap (path : List Step) (entries : Entries) :
    arraysInEntries path entries =
      entries.flatMap fun entry => entry.2.arraysAt (path ++ [.field entry.1]) := by
  induction entries with
  | nil => rfl
  | cons entry rest ih => rw [arraysInEntries, ih, List.flatMap_cons]

theorem mem_arraysInItems_iff {path : List Step} {position : Nat} {items : List Value}
    {located : LocatedArray} :
    located ∈ arraysInItems path position items ↔ ∃ (offset : Nat) (item : Value),
      items[offset]? = some item ∧
        located ∈ item.arraysAt (path ++ [.index ((position + offset : Nat) : Int)]) := by
  induction items generalizing position with
  | nil => simp [arraysInItems]
  | cons item rest ih =>
      rw [arraysInItems, List.mem_append, ih]
      constructor
      · rintro (hhere | ⟨offset, next, hnext, hlocated⟩)
        · exact ⟨0, item, rfl, hhere⟩
        · refine ⟨offset + 1, next, hnext, ?_⟩
          rwa [← Nat.add_assoc, Nat.add_right_comm]
      · rintro ⟨offset, next, hnext, hlocated⟩
        cases offset with
        | zero =>
            cases hnext
            exact Or.inl hlocated
        | succ offset =>
            refine Or.inr ⟨offset, next, hnext, ?_⟩
            rwa [← Nat.add_assoc, Nat.add_right_comm] at hlocated

section

variable {form : ArrayForm} {values items : List Value} {entries : Entries} {steps : List Step}

theorem isOutermostAt_table_iff :
    (Value.table entries).IsOutermostAt steps items ↔
      ∃ entry ∈ entries, ∃ rest, steps = .field entry.1 :: rest ∧
        entry.2.IsOutermostAt rest items := by
  constructor
  · rintro ⟨form, hlead, hitems⟩
    cases hlead with
    | entry hmem hrest => exact ⟨_, hmem, _, rfl, form, hrest, hitems⟩
  · rintro ⟨entry, hmem, rest, rfl, form, hrest, hitems⟩
    exact ⟨form, .entry hmem hrest, hitems⟩

theorem isOutermostAt_elements_iff (h : areElements values = true) :
    (Value.array form values).IsOutermostAt steps items ↔
      ∃ (position : Nat) (value : Value), values[position]? = some value ∧
        ∃ rest, steps = .index position :: rest ∧ value.IsOutermostAt rest items := by
  constructor
  · rintro ⟨_, hlead, hitems⟩
    cases hlead with
    | here _ =>
        rw [h] at hitems
        cases hitems
    | element _ hitem hrest => exact ⟨_, _, hitem, _, rfl, _, hrest, hitems⟩
  · rintro ⟨position, value, hvalue, rest, rfl, form, hrest, hitems⟩
    exact ⟨form, .element h hvalue hrest, hitems⟩

theorem isOutermostAt_array_iff (h : areElements values = false) :
    (Value.array form values).IsOutermostAt steps items ↔ steps = [] ∧ items = values := by
  constructor
  · rintro ⟨_, hlead, -⟩
    cases hlead with
    | here _ => exact ⟨rfl, rfl⟩
    | element helements _ _ =>
        rw [h] at helements
        cases helements
  · rintro ⟨rfl, rfl⟩
    exact ⟨form, .here _, h⟩

theorem not_isOutermostAt_of_isLeaf {v : Value} (h : v.IsLeaf) : ¬v.IsOutermostAt steps items := by
  rintro ⟨form, hlead, -⟩
  cases hlead with
  | here _ => exact h.2 _ _ rfl
  | entry _ _ => exact h.1 _ rfl
  | element _ _ _ => exact h.2 _ _ rfl

end

/-- The arrays listed for a value at a path are those that headers lead to. -/
def Locates (v : Value) : Prop :=
  ∀ path steps items, (steps, items) ∈ v.arraysAt path ↔
    ∃ rest, steps = path ++ rest ∧ v.IsOutermostAt rest items

theorem locates_table {entries : Entries} (h : ∀ entry ∈ entries, Locates entry.2) :
    Locates (.table entries) := by
  intro path steps items
  simp only [arraysAt, arraysInEntries_eq_flatMap, List.mem_flatMap, isOutermostAt_table_iff]
  constructor
  · rintro ⟨entry, hmem, hlocated⟩
    obtain ⟨rest, rfl, hrest⟩ := (h entry hmem _ _ _).mp hlocated
    exact ⟨.field entry.1 :: rest, List.append_assoc _ _ _, entry, hmem, rest, rfl, hrest⟩
  · rintro ⟨_, rfl, entry, hmem, rest, rfl, hrest⟩
    exact ⟨entry, hmem, (h entry hmem _ _ _).mpr ⟨rest, List.append_cons _ _ _, hrest⟩⟩

theorem locates_array {form : ArrayForm} {values : List Value}
    (h : ∀ value ∈ values, Locates value) : Locates (.array form values) := by
  intro path steps items
  rw [arraysAt]
  cases helements : areElements values with
  | false =>
      simp only [isOutermostAt_array_iff helements, Bool.false_eq_true, if_false,
        List.mem_singleton, Prod.mk.injEq]
      constructor
      · rintro ⟨rfl, rfl⟩
        exact ⟨[], (List.append_nil steps).symm, rfl, rfl⟩
      · rintro ⟨_, rfl, rfl, rfl⟩
        exact ⟨List.append_nil path, rfl⟩
  | true =>
      simp only [isOutermostAt_elements_iff helements, if_true, mem_arraysInItems_iff, Nat.zero_add]
      constructor
      · rintro ⟨position, value, hvalue, hlocated⟩
        obtain ⟨rest, rfl, hrest⟩ := (h value (List.mem_of_getElem? hvalue) _ _ _).mp hlocated
        exact ⟨.index position :: rest, List.append_assoc _ _ _, position, value, hvalue, rest, rfl,
          hrest⟩
      · rintro ⟨_, rfl, position, value, hvalue, rest, rfl, hrest⟩
        exact ⟨position, value, hvalue, (h value (List.mem_of_getElem? hvalue) _ _ _).mpr
          ⟨rest, List.append_cons _ _ _, hrest⟩⟩

mutual

theorem locates (v : Value) : Locates v := by
  cases v with
  | array form items => exact locates_array (locates_items items)
  | table entries => exact locates_table (locates_entries entries)
  | _ =>
      intro path steps items
      refine iff_of_false List.not_mem_nil ?_
      rintro ⟨rest, -, hrest⟩
      exact absurd hrest (not_isOutermostAt_of_isLeaf ⟨nofun, nofun⟩)

theorem locates_items (items : List Value) : ∀ item ∈ items, Locates item := by
  cases items with
  | nil => exact nofun
  | cons item rest => exact List.forall_mem_cons.mpr ⟨locates item, locates_items rest⟩

theorem locates_entries (entries : List (Text × Value)) : ∀ entry ∈ entries, Locates entry.2 := by
  cases entries with
  | nil => exact nofun
  | cons entry rest => exact List.forall_mem_cons.mpr ⟨locates entry.2, locates_entries rest⟩

end

/-- The array is the whole value, or headers lead to it in a document and its own elements have
none. -/
inductive IsOutermost : Value → List Step → List Value → Prop
  | whole (form : ArrayForm) (items : List Value) : IsOutermost (.array form items) [] items
  | inside {entries : Entries} {steps : List Step} {items : List Value}
      (h : IsOutermostAt (.table entries) steps items) : IsOutermost (.table entries) steps items

/-- An outermost array is the part of the value that its path leads to. -/
theorem IsOutermost.leads {v : Value} {steps : List Step} {items : List Value}
    (h : IsOutermost v steps items) : ∃ form, Leads v steps (.array form items) := by
  cases h with
  | whole form items => exact ⟨form, .here _⟩
  | inside h =>
      obtain ⟨form, hlead, -⟩ := h
      exact ⟨form, hlead.leads⟩

theorem mem_outermostArrays_iff (v : Value) (steps : List Step) (items : List Value) :
    (steps, items) ∈ v.outermostArrays ↔ IsOutermost v steps items := by
  cases v with
  | array form values =>
      rw [outermostArrays, List.mem_singleton, Prod.mk.injEq]
      constructor
      · rintro ⟨rfl, rfl⟩
        exact .whole form items
      · rintro ⟨⟩
        exact ⟨rfl, rfl⟩
  | table entries =>
      have hlocates := locates (.table entries) [] steps items
      simp only [List.nil_append, exists_eq_left'] at hlocates
      refine hlocates.trans ⟨.inside, ?_⟩
      rintro ⟨⟩
      assumption
  | _ => exact iff_of_false List.not_mem_nil nofun

/-- Headers lead into the elements of an array of tables, but not to the array itself. -/
example :
    outermostArrays (.table [("a", .array .list [.table [("b", .array .tuple [.boolean true])]]),
      ("c", .array .list [])]) =
      [([.field "a", .index 0, .field "b"], [.boolean true]), ([.field "c"], [])] := rfl

end Value

open Value

namespace Toml

/-! ## Two texts that differ in arrays -/

/-- The text of a value in one line, as it stands in an array; `document` says whether the array is
part of a document. -/
def IsLine (document : Bool) (v : Value) (line : Text) : Prop :=
  ∃ item, Item.of (if document then .inline else .outside) v = .ok item ∧
    line = item.inline document false

/-- An array in one line. -/
def inOneLine (lines : List Text) : Text :=
  "[" ++ Text.joined ", " lines ++ "]"

/-- An array with a line for every item, indented by four blanks and followed by a comma.  An array
without items stays as it is. -/
def onLines (lines : List Text) : Text :=
  if lines = [] then "[]"
  else "[\n" ++ (lines.map fun line : Text => "    " ++ line ++ ",\n").flatten ++ "]"

/-- What stands before an array: its key, or nothing if the array is the whole value. -/
inductive Introduces : Text → List Step → Prop
  | key (path : List Step) (key : Text) : Introduces (spellKey key ++ " = ") (path ++ [.field key])
  | root : Introduces [] []

/-- Two texts agree but for some arrays.  In the first text these stand in one line, in the second
on lines of their own. -/
inductive Splits (document : Bool) : Text → Text → List LocatedArray → Prop
  | nil : Splits document [] [] []
  | same (t : Text) {compact pretty : Text} {arrays : List LocatedArray}
      (h : Splits document compact pretty arrays) :
      Splits document (t ++ compact) (t ++ pretty) arrays
  | array {lead : Text} {path : List Step} {items : List Value} {lines : List Text}
      {compact pretty : Text} {arrays : List LocatedArray} (hlead : Introduces lead path)
      (hlines : List.Forall₂ (IsLine document) items lines)
      (h : Splits document compact pretty arrays) :
      Splits document (lead ++ (inOneLine lines ++ compact)) (lead ++ (onLines lines ++ pretty))
        ((path, items) :: arrays)

theorem Splits.append {document : Bool} {compact pretty compact' pretty' : Text}
    {arrays arrays' : List LocatedArray} (h : Splits document compact pretty arrays)
    (h' : Splits document compact' pretty' arrays') :
    Splits document (compact ++ compact') (pretty ++ pretty') (arrays ++ arrays') := by
  induction h with
  | nil => exact h'
  | same t _ ih =>
      rw [List.append_assoc, List.append_assoc]
      exact .same t ih
  | array hlead hlines _ ih =>
      simp only [List.append_assoc, List.cons_append]
      exact .array hlead hlines ih

/-- The two texts of the pieces differ in the given arrays, in whatever order these stand there. -/
def HoldArrays (document : Bool) (pieces : List Piece) (arrays : List LocatedArray) : Prop :=
  ∃ order, order.Perm arrays ∧
    Splits document (renderPieces false pieces) (renderPieces true pieces) order

namespace HoldArrays

variable {document : Bool} {pieces more : List Piece} {arrays others : List LocatedArray}

theorem nil : HoldArrays document [] [] :=
  ⟨[], .nil, .nil⟩

theorem append (h : HoldArrays document pieces arrays) (hmore : HoldArrays document more others) :
    HoldArrays document (pieces ++ more) (arrays ++ others) := by
  obtain ⟨order, hperm, hsplits⟩ := h
  obtain ⟨order', hperm', hsplits'⟩ := hmore
  refine ⟨order ++ order', hperm.append hperm', ?_⟩
  rw [renderPieces_append, renderPieces_append]
  exact hsplits.append hsplits'

theorem of_perm (h : HoldArrays document pieces arrays) (hperm : arrays.Perm others) :
    HoldArrays document pieces others := by
  obtain ⟨order, horder, hsplits⟩ := h
  exact ⟨order, horder.trans hperm, hsplits⟩

/-- Text that never changes holds no array. -/
theorem verbatim (text : Text) : HoldArrays document [.verbatim text] [] :=
  ⟨[], .nil, .same text .nil⟩

end HoldArrays

theorem render_array_false (lines : List Text) :
    (Piece.array lines).render false = inOneLine lines := rfl

theorem render_array_true (lines : List Text) :
    (Piece.array lines).render true = onLines lines := by
  cases lines with
  | nil => rfl
  | cons line lines => rfl

/-- An array that is set out as a piece of its own. -/
theorem holdArrays_array {document : Bool} {lead : Text} {path : List Step} {items : List Value}
    {lines : List Text} (hlead : Introduces lead path)
    (hlines : List.Forall₂ (IsLine document) items lines) :
    HoldArrays document [.verbatim lead, .array lines] [(path, items)] := by
  refine ⟨_, .refl _, ?_⟩
  have hsplits := Splits.array hlead hlines .nil
  simpa only [renderPieces, List.flatMap_cons, List.flatMap_nil, Piece.render.eq_1,
    render_array_false, render_array_true] using hsplits

/-! ## Items of a document -/

namespace Item

/-- The items of some entries of a document, in the order of the entries. -/
def Make (entries : Entries) (items : List (Text × Item)) : Prop :=
  List.Forall₂ (fun entry item => entry.1 = item.1 ∧ Item.of .block entry.2 = .ok item.2) entries
    items

theorem make_of_ofEntries {entries : Entries} {items : List (Text × Item)}
    (h : Item.ofEntries .block entries = .ok items) : Make entries items := by
  induction entries generalizing items with
  | nil =>
      cases h
      exact .nil
  | cons entry rest ih =>
      obtain ⟨item, hitem, h⟩ := exists_of_bind_eq_ok h
      obtain ⟨others, hothers, h⟩ := exists_of_bind_eq_ok h
      cases h
      exact .cons ⟨rfl, hitem⟩ (ih hothers)

theorem make_of_ofEntriesWhere {tables : Bool} {entries : Entries} {items : List (Text × Item)}
    (h : Item.ofEntriesWhere tables .block entries = .ok items) :
    Make (entries.filter fun entry => entry.2.isTable = tables) items := by
  induction entries generalizing items with
  | nil =>
      cases h
      exact .nil
  | cons entry rest ih =>
      rw [Item.ofEntriesWhere] at h
      split at h
      · rename_i htable
        obtain ⟨item, hitem, h⟩ := exists_of_bind_eq_ok h
        obtain ⟨others, hothers, h⟩ := exists_of_bind_eq_ok h
        cases h
        rw [List.filter_cons_of_pos (by simpa using htable)]
        exact .cons ⟨rfl, hitem⟩ (ih hothers)
      · rename_i htable
        rw [List.filter_cons_of_neg (by simpa using htable)]
        exact ih h

/-- An item is made and then the others, unless it is a table in a block. -/
theorem ofItems_cons {context : Context} {v : Value}
    (h : context = .block → v.isTable = false) (rest : List Value) :
    Item.ofItems context (v :: rest) =
      (Item.of context v >>= fun item =>
        Item.ofItems context rest >>= fun items => .ok (item :: items)) := by
  cases v with
  | table entries =>
      have hcontext : context ≠ .block := fun hblock => nomatch h hblock
      rw [Item.ofItems, if_neg hcontext, of_table]
      cases Item.ofEntries context entries <;> rfl
  | _ => exact ofItems_of_not_table context rfl rest

/-- Outside blocks, the items of an array are made one by one. -/
theorem forall₂_ofItems {context : Context} (hcontext : context ≠ .block) {values : List Value}
    {items : List Item} (h : Item.ofItems context values = .ok items) :
    List.Forall₂ (fun v item => Item.of context v = .ok item) values items := by
  induction values generalizing items with
  | nil =>
      cases h
      exact .nil
  | cons v rest ih =>
      rw [ofItems_cons fun hblock => absurd hblock hcontext] at h
      obtain ⟨item, hitem, h⟩ := exists_of_bind_eq_ok h
      obtain ⟨others, hothers, h⟩ := exists_of_bind_eq_ok h
      cases h
      exact .cons hitem (ih hothers)

/-- The items of an array of tables are tables made of the entries in another order. -/
theorem exists_make_of_ofItems {entries : Entries} {rest : List Value} {items : List Item}
    (h : Item.ofItems .block (.table entries :: rest) = .ok items) :
    ∃ rearranged inner others, rearranged.Perm entries ∧ Make rearranged inner ∧
      Item.ofItems .block rest = .ok others ∧ items = .table inner :: others := by
  rw [Item.ofItems, if_pos rfl] at h
  obtain ⟨plain, hplain, h⟩ := exists_of_bind_eq_ok h
  obtain ⟨tables, htables, h⟩ := exists_of_bind_eq_ok h
  obtain ⟨inner, hinner, h⟩ := exists_of_bind_eq_ok h
  obtain ⟨others, hothers, h⟩ := exists_of_bind_eq_ok h
  cases hinner
  cases h
  refine ⟨_, _, _, ?_, List.rel_append (make_of_ofEntriesWhere hplain)
    (make_of_ofEntriesWhere htables), hothers, rfl⟩
  simpa using List.filter_append_perm (fun entry : Text × Value => entry.2.isTable = false) entries

theorem exists_cons_of_ofItems {context : Context} {v : Value} {rest : List Value}
    {items : List Item} (h : Item.ofItems context (v :: rest) = .ok items) :
    ∃ item others, items = item :: others ∧ item.isTable = v.isTable ∧
      Item.ofItems context rest = .ok others := by
  by_cases hmade : context = .block → v.isTable = false
  · rw [ofItems_cons hmade] at h
    obtain ⟨item, hitem, h⟩ := exists_of_bind_eq_ok h
    obtain ⟨others, hothers, h⟩ := exists_of_bind_eq_ok h
    cases h
    exact ⟨item, others, rfl, isTable_of_of hitem, hothers⟩
  · obtain ⟨rfl, htable⟩ := Classical.not_imp.mp hmade
    cases v with
    | table entries =>
        obtain ⟨_, inner, others, -, -, hothers, rfl⟩ := exists_make_of_ofItems h
        exact ⟨.table inner, others, rfl, rfl, hothers⟩
    | _ => exact absurd rfl htable

theorem map_isTable_of_ofItems {context : Context} {values : List Value} {items : List Item}
    (h : Item.ofItems context values = .ok items) :
    items.map isTable = values.map Value.isTable := by
  induction values generalizing items with
  | nil =>
      cases h
      rfl
  | cons v rest ih =>
      obtain ⟨item, others, rfl, htable, hothers⟩ := exists_cons_of_ofItems h
      rw [List.map_cons, List.map_cons, htable, ih hothers]

/-- Which items are written as arrays of tables is told by the values. -/
theorem hasHeader_of_ofItems {context : Context} {values : List Value} {items : List Item}
    (h : Item.ofItems context values = .ok items) :
    (Item.array items).hasHeader = areElements values := by
  have hmap := map_isTable_of_ofItems h
  have hempty : items.isEmpty = values.isEmpty := by
    simpa using congrArg List.isEmpty hmap
  have hall : items.all isTable = values.all Value.isTable := by
    simpa [List.all_map] using congrArg (List.all · id) hmap
  rw [hasHeader, areElements, hempty, hall]

/-- The items of an outermost array stand in one line each. -/
theorem forall₂_isLine (document : Bool) {values : List Value} {items : List Item}
    (h : Item.ofItems (if document then .inline else .outside) values = .ok items) :
    List.Forall₂ (IsLine document) values (inlineItems document items) := by
  rw [inlineItems_eq_map, List.forall₂_map_right_iff]
  refine (forall₂_ofItems ?_ h).imp fun v item hitem => ⟨item, hitem, rfl⟩
  cases document <;> exact nofun

theorem exists_scalar_of_isLeaf {context : Context} {v : Value} {item : Item}
    (h : Item.of context v = .ok item) (hleaf : v.IsLeaf) :
    ∃ spelling, item = .scalar spelling := by
  cases v with
  | array form items => exact absurd rfl (hleaf.2 form items)
  | table entries => exact absurd rfl (hleaf.1 entries)
  | null => cases h
  | foreign type => cases h
  | integer i =>
      obtain ⟨spelling, -, hitem⟩ := exists_of_bind_eq_ok h
      cases hitem
      exact ⟨spelling, rfl⟩
  | _ =>
      cases h
      exact ⟨_, rfl⟩

end Item

/-! ## Lines of a document -/

theorem Context.ofItems_block {values : List Value} (h : areElements values = false) :
    Context.block.ofItems values = .inline ∨ values = [] := by
  cases values with
  | nil => exact Or.inr rfl
  | cons v rest =>
      left
      rw [areElements, List.isEmpty_cons, Bool.not_false, Bool.true_and] at h
      rw [ofItems, h]
      rfl

/-- An entry of a table that has no header is an outermost array, or there is none in it. -/
theorem holdArrays_entryLine {v : Value} {item : Item} (h : Item.of .block v = .ok item)
    (hplain : item.hasHeader = false) (path : List Step) (key : Text) :
    HoldArrays true (entryLine key item) (v.arraysAt (path ++ [.field key])) := by
  cases v with
  | table entries =>
      obtain ⟨items, -, hitem⟩ := exists_of_bind_eq_ok h
      cases hitem
      cases hplain
  | array form values =>
      rw [Item.of_array] at h
      obtain ⟨items, hitems, hitem⟩ := exists_of_bind_eq_ok h
      cases hitem
      rw [Item.hasHeader_of_ofItems hitems] at hplain
      -- An array without items stands in a block, but then there is nothing to be made in it.
      have hlines : List.Forall₂ (IsLine true) values (Item.inlineItems true items) := by
        rcases Context.ofItems_block hplain with hcontext | rfl
        · rw [hcontext] at hitems
          exact Item.forall₂_isLine true hitems
        · cases hitems
          exact .nil
      rw [arraysAt, hplain]
      exact (holdArrays_array (.key path key) hlines).append (.verbatim _)
  | _ =>
      obtain ⟨spelling, rfl⟩ := Item.exists_scalar_of_isLeaf h ⟨nofun, nofun⟩
      exact ((HoldArrays.verbatim _).append (.verbatim _)).append (.verbatim _)

/-- The lines of an item with a header hold the outermost arrays of its value. -/
def HeadedSplits (v : Value) : Prop :=
  ∀ item, Item.of .block v = .ok item → item.hasHeader = true →
    ∀ path keys blank first, HoldArrays true (headed keys blank first item) (v.arraysAt path)

/-- The lines of all entries of a table hold the outermost arrays of the table.  Those of the plain
entries come first. -/
theorem holdArrays_content {entries : Entries} {items : List (Text × Item)}
    (h : Item.Make entries items) (hall : ∀ entry ∈ entries, HeadedSplits entry.2)
    (path : List Step) (keys : List Text) (blank first : Bool) :
    HoldArrays true (plainLines items ++ sections keys blank first items)
      (arraysInEntries path entries) := by
  -- What stands before an entry only decides about an empty line, so the flags stay open.
  have hparts : ∃ plain headed, HoldArrays true (plainLines items) plain ∧
      (∀ blank first, HoldArrays true (sections keys blank first items) headed) ∧
        (plain ++ headed).Perm (arraysInEntries path entries) := by
    induction h with
    | nil => exact ⟨[], [], .nil, fun _ _ => .nil, .nil⟩
    | @cons entry item entries items hitem _ ih =>
        obtain ⟨hentry, hrest⟩ := List.forall_mem_cons.mp hall
        obtain ⟨plain, headed, hplain, hheaded, hperm⟩ := ih hrest
        obtain ⟨hkey, hof⟩ := hitem
        obtain ⟨key, item⟩ := item
        obtain ⟨_, v⟩ := entry
        cases hkey
        cases hheader : item.hasHeader with
        | false =>
            refine ⟨v.arraysAt (path ++ [.field key]) ++ plain, headed, ?_, fun blank first => ?_,
              ?_⟩
            · rw [plainLines_cons, hheader]
              exact (holdArrays_entryLine hof hheader path key).append hplain
            · rw [sections, headed_of_not_hasHeader hheader]
              exact hheaded _ _
            · rw [List.append_assoc]
              exact hperm.append_left _
        | true =>
            refine ⟨plain, v.arraysAt (path ++ [.field key]) ++ headed, ?_, fun blank first => ?_,
              ?_⟩
            · rw [plainLines_cons, hheader]
              exact hplain
            · rw [sections]
              exact (hentry item hof hheader _ _ _ _).append (hheaded _ _)
            · rw [arraysInEntries]
              exact (List.perm_append_comm_assoc _ _ _).trans (hperm.append_left _)
  obtain ⟨plain, headed, hplain, hheaded, hperm⟩ := hparts
  exact (hplain.append (hheaded blank first)).of_perm hperm

theorem holdArrays_emptyLine (document wanted : Bool) :
    HoldArrays document (emptyLine wanted) [] := by
  cases wanted with
  | false => exact .nil
  | true => exact .verbatim _

theorem holdArrays_tableHeader (keys : List Text) (items : List (Text × Item)) :
    HoldArrays true (tableHeader keys items) [] := by
  unfold tableHeader
  split
  · exact .nil
  · exact .verbatim _

/-- The lines of the elements of an array of tables hold the outermost arrays of the elements. -/
theorem holdArrays_elements {values : List Value} {items : List Item}
    (h : Item.ofItems .block values = .ok items) (htables : values.all Value.isTable = true)
    (hall : ∀ v ∈ values, ∀ entries, v = .table entries → ∀ entry ∈ entries, HeadedSplits entry.2)
    (path : List Step) (position : Nat) (keys : List Text) (blank : Bool) :
    HoldArrays true (elements keys blank items) (arraysInItems path position values) := by
  induction values generalizing items position blank with
  | nil =>
      cases h
      exact .nil
  | cons v rest ih =>
      rw [List.all_cons, Bool.and_eq_true] at htables
      obtain ⟨hv, hrest⟩ := List.forall_mem_cons.mp hall
      cases v with
      | table entries =>
          obtain ⟨rearranged, inner, others, hperm, hmake, hothers, rfl⟩ :=
            Item.exists_make_of_ofItems h
          have hcontent := holdArrays_content hmake
            (fun entry hmem => hv entries rfl entry (hperm.subset hmem)) (path ++ [.index position])
            keys (!onlyHeaders inner) true
          have hsame : (arraysInEntries (path ++ [.index position]) rearranged).Perm
              ((Value.table entries).arraysAt (path ++ [.index position])) := by
            rw [arraysAt, arraysInEntries_eq_flatMap, arraysInEntries_eq_flatMap]
            exact hperm.flatMap_right _
          rw [elements, arraysInItems]
          have hhead := (holdArrays_emptyLine true blank).append
            (.verbatim ("[[" ++ spellPath keys ++ "]]\n"))
          have helement := (hhead.append hcontent).of_perm hsame
          simpa only [elementHeader, List.append_assoc] using
            helement.append (ih hothers htables.2 hrest (position + 1) (!inner.isEmpty))
      | _ => cases htables.1

theorem headedSplits_table {entries : Entries} (h : ∀ entry ∈ entries, HeadedSplits entry.2) :
    HeadedSplits (.table entries) := by
  intro item hof _ path keys blank first
  rw [Item.of_table] at hof
  obtain ⟨inner, hinner, hitem⟩ := exists_of_bind_eq_ok hof
  cases hitem
  have hcontent := holdArrays_content (Item.make_of_ofEntries hinner) h path keys
    (!onlyHeaders inner) true
  have hhead := (holdArrays_emptyLine true blank).append (holdArrays_tableHeader keys inner)
  rw [headed, arraysAt]
  simpa only [List.append_assoc, List.nil_append] using hhead.append hcontent

theorem headedSplits_array {form : ArrayForm} {values : List Value}
    (h : ∀ v ∈ values, ∀ entries, v = .table entries → ∀ entry ∈ entries, HeadedSplits entry.2) :
    HeadedSplits (.array form values) := by
  intro item hof hheader path keys blank first
  rw [Item.of_array] at hof
  obtain ⟨items, hitems, hitem⟩ := exists_of_bind_eq_ok hof
  cases hitem
  have helements := (Item.hasHeader_of_ofItems hitems).symm.trans hheader
  have htables : values.all Value.isTable = true := by
    rw [areElements, Bool.and_eq_true] at helements
    exact helements.2
  rw [Context.ofItems, if_pos htables] at hitems
  rw [headed, if_pos hheader, arraysAt, if_pos helements]
  exact holdArrays_elements hitems htables h path 0 keys (!first)

mutual

/-- The lines of every item with a header hold the outermost arrays of its value. -/
theorem headedSplits (v : Value) : HeadedSplits v := by
  cases v with
  | array form items => exact headedSplits_array (headedSplits_items items)
  | table entries => exact headedSplits_table (headedSplits_entries entries)
  | _ =>
      intro item hof hheader
      obtain ⟨spelling, rfl⟩ := Item.exists_scalar_of_isLeaf hof ⟨nofun, nofun⟩
      cases hheader

theorem headedSplits_items (values : List Value) :
    ∀ v ∈ values, ∀ entries, v = .table entries → ∀ entry ∈ entries, HeadedSplits entry.2 := by
  cases values with
  | nil => exact nofun
  | cons v rest =>
      refine List.forall_mem_cons.mpr ⟨?_, headedSplits_items rest⟩
      cases v with
      | table entries =>
          rintro _ ⟨⟩
          exact headedSplits_entries entries
      | _ => exact nofun

theorem headedSplits_entries (entries : List (Text × Value)) :
    ∀ entry ∈ entries, HeadedSplits entry.2 := by
  cases entries with
  | nil => exact nofun
  | cons entry rest =>
      exact List.forall_mem_cons.mpr ⟨headedSplits entry.2, headedSplits_entries rest⟩

end

/-! ## Whole values -/

/-- The pieces of a value hold its outermost arrays. -/
theorem holdArrays_pieces {v : Value} {written : List Piece} (h : pieces v = .ok written) :
    HoldArrays v.isTable written v.outermostArrays := by
  cases v with
  | table entries =>
      obtain ⟨items, hitems, hwritten⟩ := exists_of_bind_eq_ok h
      cases hwritten
      exact holdArrays_content (Item.make_of_ofEntries hitems) (headedSplits_entries entries) [] []
        (!onlyHeaders items) true
  | array form values =>
      rw [Document.pieces_of_not_table rfl, Item.of_array] at h
      obtain ⟨item, hitem, hwritten⟩ := exists_of_bind_eq_ok h
      obtain ⟨items, hitems, hitem⟩ := exists_of_bind_eq_ok hitem
      cases hitem
      cases hwritten
      exact holdArrays_array .root (Item.forall₂_isLine false hitems)
  | _ =>
      rw [Document.pieces_of_not_table rfl] at h
      obtain ⟨item, hitem, hwritten⟩ := exists_of_bind_eq_ok h
      obtain ⟨spelling, rfl⟩ := Item.exists_scalar_of_isLeaf hitem ⟨nofun, nofun⟩
      cases hwritten
      exact .verbatim spelling

end Toml

namespace Document

open Toml

theorem dump_toml_of_pieces {v : Value} {written : List Piece} (h : pieces v = .ok written)
    (split : Bool) : dump .toml split v = .ok (renderPieces split written) := by
  refine dump_toml_of_write ?_
  rw [Toml.write, h]
  rfl

/-- The layout does not decide for what reason a value has no text. -/
theorem exists_dump_toml_eq_error {v : Value} {e : Toml.WriteError} (h : pieces v = .error e) :
    ∃ failure, ∀ split, dump .toml split v = .error failure := by
  have hwrite (split : Bool) : Toml.write split v = .error e := by
    rw [Toml.write, h]
    rfl
  cases e with
  | unsupported type => exact ⟨.unsupported type, fun split => by rw [dump, hwrite]⟩
  | inconvertible type => exact ⟨.inconvertible type, fun split => by rw [dump, hwrite]⟩
  | limit e => exact ⟨.limit e, fun split => by rw [dump, hwrite]⟩

theorem IsLacking.not_everywhere {v : Value} {e : Failure} (h : IsLacking v e) :
    ¬(v.Everywhere HasKind ∧ v.Everywhere IsShort) := by
  rintro ⟨hkind, hshort⟩
  cases h with
  | unsupported _ h => exact h hkind
  | inconvertible _ h => exact h hkind
  | limit _ h => exact h hshort

/-- **Pretty TOML splits exactly the outermost arrays.**  The two texts of a value agree but for
some arrays, which stand in one line in the compact text and, unless they are empty, with a line for
every item in the other one.  These are the outermost arrays of the value, each of them once.  A
value that has no text has none in either layout, for the same reason, and then it holds something
that is no part of a document or an integer too long to be written. -/
theorem toml_layouts_agree_but_for_outermost_arrays (v : Value) :
    (∃ compact pretty order, dump .toml false v = .ok compact ∧ dump .toml true v = .ok pretty ∧
        Splits v.isTable compact pretty order ∧ order.Perm v.outermostArrays ∧
        ∀ steps items, (steps, items) ∈ order ↔ IsOutermost v steps items) ∨
      ∃ e, dump .toml false v = .error e ∧ dump .toml true v = .error e ∧
        ¬(v.Everywhere HasKind ∧ v.Everywhere IsShort) := by
  cases hpieces : pieces v with
  | ok written =>
      obtain ⟨order, hperm, hsplits⟩ := holdArrays_pieces hpieces
      refine Or.inl ⟨_, _, order, dump_toml_of_pieces hpieces false,
        dump_toml_of_pieces hpieces true, hsplits, hperm, fun steps items => ?_⟩
      rw [hperm.mem_iff]
      exact mem_outermostArrays_iff v steps items
  | error e =>
      obtain ⟨failure, hdump⟩ := exists_dump_toml_eq_error hpieces
      exact Or.inr ⟨failure, hdump false, hdump true,
        ((meets_dump .toml false v).of_eq_error (hdump false)).not_everywhere⟩

end Document

end DocumentQuery
