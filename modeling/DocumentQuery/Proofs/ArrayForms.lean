import DocumentQuery.Proofs.Json.RoundTrip
import DocumentQuery.Proofs.Toml.RoundTrip

/-!
# The two forms of arrays

Programs may store an array as a list or as a tuple, and a document may hold both at any depth.
`Value.listed` stores every array as a list.  Walks and both writers meet the form of an array only
where they take it apart, so each of their functions commutes with `listed` or ignores it.

* `navigate_listed` — a walk reaches the same part, or is blocked in the same way.
* `Json.writeAt_listed`, `Toml.Item.of_listed` — both writers make the same of a value.
-/

namespace DocumentQuery

namespace Value

mutual

/-- The value with every array in it stored as a list. -/
def listed : Value → Value
  | .array _ items => .array .list (listedItems items)
  | .table entries => .table (listedEntries entries)
  | v => v

/-- The items of an array with every array in them stored as a list. -/
def listedItems : List Value → List Value
  | [] => []
  | item :: rest => item.listed :: listedItems rest

/-- The entries of a table with every array in them stored as a list. -/
def listedEntries : List (Text × Value) → List (Text × Value)
  | [] => []
  | (key, value) :: rest => (key, value.listed) :: listedEntries rest

end

theorem listedItems_eq_map (items : List Value) : listedItems items = items.map listed := by
  induction items with
  | nil => rfl
  | cons item rest ih => rw [listedItems, ih, List.map_cons]

/-- The value is no tuple. -/
def IsNoTuple (v : Value) : Prop :=
  ∀ items, v ≠ .array .tuple items

mutual

theorem everywhere_isNoTuple_listed (v : Value) : v.listed.Everywhere IsNoTuple := by
  cases v with
  | array form items =>
      refine everywhere_array_iff.mpr ⟨nofun, ?_⟩
      exact forall_mem_listedItems items
  | table entries =>
      refine everywhere_table_iff.mpr ⟨nofun, ?_⟩
      exact forall_mem_listedEntries entries
  | _ => exact everywhere_of_isLeaf ⟨nofun, nofun⟩ nofun

theorem forall_mem_listedItems (items : List Value) :
    ∀ item ∈ listedItems items, item.Everywhere IsNoTuple := by
  cases items with
  | nil => exact nofun
  | cons item rest =>
      exact List.forall_mem_cons.mpr ⟨everywhere_isNoTuple_listed item, forall_mem_listedItems rest⟩

theorem forall_mem_listedEntries (entries : Entries) :
    ∀ entry ∈ listedEntries entries, entry.2.Everywhere IsNoTuple := by
  cases entries with
  | nil => exact nofun
  | cons entry rest =>
      exact List.forall_mem_cons.mpr
        ⟨everywhere_isNoTuple_listed entry.2, forall_mem_listedEntries rest⟩

end

/-! ## Walks -/

@[simp] theorem kind_listed (v : Value) : v.listed.kind = v.kind := by
  cases v <;> rfl

@[simp] theorem isTable_listed (v : Value) : v.listed.isTable = v.isTable := by
  cases v <;> rfl

theorem lookup_listedEntries (name : Text) (entries : Entries) :
    (listedEntries entries).lookup name = (entries.lookup name).map listed := by
  induction entries with
  | nil => rfl
  | cons entry rest ih =>
      obtain ⟨key, value⟩ := entry
      rw [listedEntries, List.lookup_cons, List.lookup_cons, ih]
      split
      · rfl
      · rfl

theorem follow_listed (path : List Step) (v : Value) (step : Step) :
    v.listed.follow path step = (v.follow path step).map listed := by
  by_cases hcontainer : v.kind = .ok step.container
  · cases step with
    | field name =>
        obtain ⟨entries, rfl⟩ := exists_table_of_kind hcontainer
        rw [listed, follow_field_table, follow_field_table, lookup_listedEntries]
        cases entries.lookup name with
        | some child => rfl
        | none => rfl
    | index position =>
        obtain ⟨form, items, rfl⟩ := exists_array_of_kind hcontainer
        rw [listed, follow_index_array, follow_index_array, listedItems_eq_map, List.getElem?_map,
          List.length_map]
        by_cases hposition : 0 ≤ position
        · rw [if_pos hposition, if_pos hposition]
          cases items[position.toNat]? with
          | some child => rfl
          | none => rfl
        · rw [if_neg hposition, if_neg hposition]
          rfl
  · cases hkind : v.kind with
    | error type => rw [follow, follow, kind_listed, hkind]; rfl
    | ok kind =>
        have hne : kind ≠ step.container := fun h => hcontainer (by rw [hkind, h])
        have hlisted : v.listed.kind = .ok kind := by rw [kind_listed, hkind]
        rw [follow_of_ne_container path hlisted hne, follow_of_ne_container path hkind hne]
        rfl

theorem walk_listed (path : List Step) (v : Value) (steps : List Step) :
    walk path v.listed steps = (walk path v steps).map listed := by
  induction steps generalizing path v with
  | nil => rfl
  | cons step rest ih =>
      rw [walk, walk, follow_listed]
      cases v.follow path step with
      | error e => rfl
      | ok child => exact ih (path ++ [step]) child

/-- A walk in lists reaches what is reached in tuples, with lists in it, or it is blocked by the
same obstacle at the same place. -/
theorem navigate_listed (v : Value) (p : Pattern) :
    v.listed.navigate p = (v.navigate p).map listed :=
  walk_listed [] v p.steps

end Value

open Value

/-! ## Writing JSON -/

namespace Json

mutual

theorem writeAt_listed (layout : Layout) (depth : Nat) (v : Value) :
    writeAt layout depth v.listed = writeAt layout depth v := by
  cases v with
  | array form items => rw [listed, writeAt_array, writeAt_array, writeItems_listed]
  | table entries => rw [listed, writeAt_table, writeAt_table, writeMembers_listed]
  | _ => rfl

theorem writeItems_listed (layout : Layout) (depth : Nat) (items : List Value) :
    writeItems layout depth (listedItems items) = writeItems layout depth items := by
  cases items with
  | nil => rfl
  | cons item rest =>
      rw [listedItems, writeItems, writeItems, writeAt_listed layout depth item,
        writeItems_listed layout depth rest]

theorem writeMembers_listed (layout : Layout) (depth : Nat) (entries : Entries) :
    writeMembers layout depth (listedEntries entries) = writeMembers layout depth entries := by
  cases entries with
  | nil => rfl
  | cons entry rest =>
      obtain ⟨key, value⟩ := entry
      rw [listedEntries, writeMembers, writeMembers, writeAt_listed layout depth value,
        writeMembers_listed layout depth rest]

end

end Json

/-! ## Writing TOML -/

namespace Toml

/-- The items of an array stand where they stood: this depends on which of them are tables. -/
theorem Context.ofItems_listed (context : Context) (items : List Value) :
    context.ofItems (listedItems items) = context.ofItems items := by
  have hall : (listedItems items).all isTable = items.all isTable := by
    rw [listedItems_eq_map, List.all_map]
    exact congrArg items.all (funext isTable_listed)
  unfold Context.ofItems
  rw [hall]

namespace Item

mutual

theorem of_listed (context : Context) (v : Value) :
    Item.of context v.listed = Item.of context v := by
  cases v with
  | array form items =>
      rw [listed, of_array, of_array, Context.ofItems_listed,
        ofItems_listed (context.ofItems items) items]
  | table entries => rw [listed, of_table, of_table, ofEntries_listed context entries]
  | _ => rfl

theorem ofItems_listed (context : Context) (values : List Value) :
    Item.ofItems context (listedItems values) = Item.ofItems context values := by
  cases values with
  | nil => rfl
  | cons v rest =>
      have hrest := ofItems_listed context rest
      cases v with
      | table entries =>
          rw [listedItems, listed, Item.ofItems, Item.ofItems, hrest,
            ofEntries_listed context entries, ofEntriesWhere_listed false context entries,
            ofEntriesWhere_listed true context entries]
      | _ =>
          rw [listedItems, ofItems_of_not_table context (isTable_listed _),
            ofItems_of_not_table context rfl, hrest, of_listed context]

theorem ofEntries_listed (context : Context) (entries : Entries) :
    Item.ofEntries context (listedEntries entries) = Item.ofEntries context entries := by
  cases entries with
  | nil => rfl
  | cons entry rest =>
      obtain ⟨key, value⟩ := entry
      rw [listedEntries, Item.ofEntries, Item.ofEntries, of_listed context value,
        ofEntries_listed context rest]

theorem ofEntriesWhere_listed (tables : Bool) (context : Context) (entries : Entries) :
    Item.ofEntriesWhere tables context (listedEntries entries) =
      Item.ofEntriesWhere tables context entries := by
  cases entries with
  | nil => rfl
  | cons entry rest =>
      obtain ⟨key, value⟩ := entry
      rw [listedEntries, Item.ofEntriesWhere, Item.ofEntriesWhere, isTable_listed,
        of_listed context value, ofEntriesWhere_listed tables context rest]

end

end Item

theorem pieces_listed (v : Value) : pieces v.listed = pieces v := by
  cases htable : v.isTable with
  | false =>
      have hlisted : v.listed.isTable = false := by rw [isTable_listed, htable]
      rw [Document.pieces_of_not_table htable, Document.pieces_of_not_table hlisted,
        Item.of_listed]
  | true =>
      cases v with
      | table entries => rw [listed, pieces, pieces, Item.ofEntries_listed]
      | _ => cases htable

theorem write_listed (split : Bool) (v : Value) : write split v.listed = write split v := by
  rw [write, write, pieces_listed]

end Toml

namespace Document

theorem dump_listed (format : Format) (pretty : Bool) (v : Value) :
    dump format pretty v.listed = dump format pretty v := by
  cases format with
  | json => rw [dump, dump, Json.write, Json.write, Json.writeAt_listed]
  | toml => rw [dump, dump, Toml.write_listed]

/-- **Tuples and lists are the same array everywhere.**  If every array of a value is stored as a
list, so that no tuple is left, a pattern selects the same part as before, with its arrays stored as
lists, or the walk ends in the same error; and in each format and layout the value has the same text
as before, or the same error. -/
theorem array_forms_indistinguishable (v : Value) :
    v.listed.Everywhere IsNoTuple ∧
      (∀ p, v.listed.navigate p = (v.navigate p).map listed) ∧
        ∀ format pretty, dump format pretty v.listed = dump format pretty v :=
  ⟨everywhere_isNoTuple_listed v, navigate_listed v, fun format pretty =>
    dump_listed format pretty v⟩

end Document

end DocumentQuery
