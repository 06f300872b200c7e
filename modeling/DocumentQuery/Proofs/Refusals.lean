import DocumentQuery.Proofs.Dumping

/-!
# What dumping refuses

Dumping is meant to refuse the values that are no values of documents, and to blame for it a part
that is none.  The writers decide for themselves: the writer of JSON has a text for null, and the
writer of TOML has an error of its own for parts of a document.

* `Json.accepts_writeAt` and `Toml.Item.accepts_of` — what is written has no part that the writer
  refuses, and what an error blames is a part of the value.
* `dump_exact_domain` — which values each writer accepts, and the error about any other value.
-/

namespace DocumentQuery

namespace Meets

theorem imp_ok {ε α : Type} {P P' : α → Prop} {Q : ε → Prop} {outcome : Except ε α}
    (himp : ∀ a, P a → P' a) (h : Meets P Q outcome) : Meets P' Q outcome := by
  cases h with
  | ok ha => exact .ok (himp _ ha)
  | error he => exact .error he

/-- A list is made item by item.  If each is accepted, all are. -/
theorem each {ε α β γ : Type} {Q : γ → Prop} {blames : ε → γ → Prop} {x : γ} {xs : List γ}
    {first : Except ε α} {others : Except ε (List β)} {f : α → β}
    (hfirst : Meets (fun _ => Q x) (blames · x) first)
    (hothers : Meets (fun _ => ∀ y ∈ xs, Q y) (fun e => ∃ y ∈ xs, blames e y) others) :
    Meets (fun _ : List β => ∀ y ∈ x :: xs, Q y) (fun e => ∃ y ∈ x :: xs, blames e y)
      (first >>= fun a => others >>= fun l => .ok (f a :: l)) := by
  cases hfirst with
  | error he => exact .error ⟨x, List.mem_cons_self, he⟩
  | ok hx =>
      cases hothers with
      | error he =>
          obtain ⟨y, hy, he⟩ := he
          exact .error ⟨y, List.mem_cons_of_mem x hy, he⟩
      | ok hxs => exact .ok (List.forall_mem_cons.mpr ⟨hx, hxs⟩)

end Meets

open Value

/-! ## JSON -/

namespace Json

/-- What holds of every part of a value that an error does not blame. -/
def WriteError.Spares : WriteError → Value → Prop
  | .unsupported type => (· ≠ .foreign type)
  | .limit _ => IsShort

mutual

/-- What is written consists of data, and what an error blames is a part of the value. -/
theorem accepts_writeAt (layout : Layout) (depth : Nat) (v : Value) :
    Meets (fun _ => v.Everywhere IsData) (fun e => ¬v.Everywhere e.Spares)
      (writeAt layout depth v) := by
  have hleaf (htable : ∀ entries, v ≠ .table entries) (harray : ∀ form items, v ≠ .array form items)
      (hdata : IsData v) : v.Everywhere IsData := everywhere_of_isLeaf ⟨htable, harray⟩ hdata
  cases v with
  | integer i =>
      rw [writeAt_integer]
      have hwrite := Numeral.meets_write i
      split
      · exact .ok (hleaf nofun nofun (Or.inl ⟨_, rfl⟩))
      · rename_i e heq
        exact .error (hwrite.of_eq_error heq)
  | null => exact .ok (hleaf nofun nofun (Or.inr rfl))
  | foreign type => exact .error fun hall => hall.here rfl
  | array form items =>
      rw [writeAt_array]
      refine ((accepts_writeItems layout (depth + 1) items).imp_error ?_).bind
        fun _ hitems => .ok ?_
      · exact fun e => not_everywhere_of_item
      · exact everywhere_array_iff.mpr ⟨Or.inl ⟨_, rfl⟩, hitems⟩
  | table entries =>
      rw [writeAt_table]
      refine ((accepts_writeMembers layout (depth + 1) entries).imp_error ?_).bind
        fun _ hentries => .ok ?_
      · exact fun e => not_everywhere_of_entry
      · exact everywhere_table_iff.mpr ⟨Or.inl ⟨_, rfl⟩, hentries⟩
  | _ => exact .ok (hleaf nofun nofun (Or.inl ⟨_, rfl⟩))

theorem accepts_writeItems (layout : Layout) (depth : Nat) (items : List Value) :
    Meets (fun _ => ∀ item ∈ items, item.Everywhere IsData)
      (fun e => ∃ item ∈ items, ¬item.Everywhere e.Spares) (writeItems layout depth items) := by
  cases items with
  | nil => exact .ok nofun
  | cons item rest =>
      exact .each (f := id) (accepts_writeAt layout depth item)
        (accepts_writeItems layout depth rest)

theorem accepts_writeMembers (layout : Layout) (depth : Nat) (entries : List (Text × Value)) :
    Meets (fun _ => ∀ entry ∈ entries, entry.2.Everywhere IsData)
      (fun e => ∃ entry ∈ entries, ¬entry.2.Everywhere e.Spares)
      (writeMembers layout depth entries) := by
  cases entries with
  | nil => exact .ok nofun
  | cons entry rest =>
      obtain ⟨key, value⟩ := entry
      exact .each (x := (key, value)) (accepts_writeAt layout depth value)
        (accepts_writeMembers layout depth rest)

end

end Json

/-! ## TOML -/

namespace Toml

namespace Item

/-- What holds of every part of a value that an error does not blame.  Which of the two errors about
foreign types there can be depends on whether the item stands in a document. -/
def Spares (context : Context) : WriteError → Value → Prop
  | .unsupported type => fun v => context = .outside → v.kind ≠ .error type
  | .inconvertible type => fun v => context ≠ .outside → v.kind ≠ .error type
  | .limit _ => IsShort

/-- The items of an array stand in a document if the array does. -/
theorem spares_ofItems (context : Context) (items : List Value) :
    Spares (context.ofItems items) = Spares context := by
  have houtside : context.ofItems items = .outside ↔ context = .outside := by
    cases context with
    | block => cases hall : items.all Value.isTable <;> simp [Context.ofItems, hall]
    | _ => simp [Context.ofItems]
  funext e
  cases e <;> simp [Spares, houtside]

theorem not_everywhere_spares {context : Context} {v : Value} {type : ForeignType}
    (h : v.kind = .error type) : ¬v.Everywhere (Spares context (context.refuse type)) := by
  intro hall
  have hspared := hall.here
  cases context <;> exact hspared (by decide) h

mutual

/-- What has an item consists of values of documents, and what an error blames is a part of it. -/
theorem accepts_of (context : Context) (v : Value) :
    Meets (fun _ => v.Everywhere HasKind) (fun e => ¬v.Everywhere (Spares context e))
      (Item.of context v) := by
  have hleaf (htable : ∀ entries, v ≠ .table entries) (harray : ∀ form items, v ≠ .array form items)
      (hkind : HasKind v) : v.Everywhere HasKind := everywhere_of_isLeaf ⟨htable, harray⟩ hkind
  cases v with
  | integer i =>
      have hinteger := hleaf nofun nofun ⟨_, rfl⟩
      refine Meets.bind (P := fun _ => True) ?_ fun _ _ => .ok hinteger
      have hwrite := Numeral.meets_write i
      unfold spellInteger
      split
      · exact .ok trivial
      · rename_i e heq
        exact .error (hwrite.of_eq_error heq)
  | null => exact .error (not_everywhere_spares rfl)
  | foreign type => exact .error (not_everywhere_spares rfl)
  | array form items =>
      have hitems := accepts_ofItems (context.ofItems items) items
      rw [spares_ofItems] at hitems
      rw [of_array]
      refine (hitems.imp_error fun e => not_everywhere_of_item).bind fun _ hall => .ok ?_
      exact everywhere_array_iff.mpr ⟨⟨_, rfl⟩, hall⟩
  | table entries =>
      rw [of_table]
      refine ((accepts_ofEntries context entries).imp_error fun e => not_everywhere_of_entry).bind
        fun _ hall => .ok ?_
      exact everywhere_table_iff.mpr ⟨⟨_, rfl⟩, hall⟩
  | _ => exact .ok (hleaf nofun nofun ⟨_, rfl⟩)

theorem accepts_ofItems (context : Context) (values : List Value) :
    Meets (fun _ => ∀ v ∈ values, v.Everywhere HasKind)
      (fun e => ∃ v ∈ values, ¬v.Everywhere (Spares context e)) (Item.ofItems context values) := by
  cases values with
  | nil => exact .ok nofun
  | cons v rest =>
      have hrest := accepts_ofItems context rest
      cases v with
      | table entries =>
          rw [Item.ofItems]
          split
          · -- The two rounds make the items of all entries together.
            refine ((accepts_ofEntriesWhere false context entries).imp_error fun e he =>
              ⟨_, List.mem_cons_self, not_everywhere_of_entry he⟩).bind fun _ hothers => ?_
            refine ((accepts_ofEntriesWhere true context entries).imp_error fun e he =>
              ⟨_, List.mem_cons_self, not_everywhere_of_entry he⟩).bind fun _ htables => ?_
            have hall : (Value.table entries).Everywhere HasKind := by
              refine everywhere_table_iff.mpr ⟨⟨_, rfl⟩, fun entry hmem => ?_⟩
              cases htable : entry.2.isTable with
              | false => exact hothers entry hmem htable
              | true => exact htables entry hmem htable
            exact .each (f := Item.table) (.ok hall) hrest
          · have hentries := (accepts_ofEntries context entries).imp_error
              fun e => not_everywhere_of_entry
            exact .each (f := Item.table)
              (hentries.imp_ok fun _ hall => everywhere_table_iff.mpr ⟨⟨_, rfl⟩, hall⟩) hrest
      | _ => exact .each (f := id) (accepts_of context _) hrest

theorem accepts_ofEntries (context : Context) (entries : List (Text × Value)) :
    Meets (fun _ => ∀ entry ∈ entries, entry.2.Everywhere HasKind)
      (fun e => ∃ entry ∈ entries, ¬entry.2.Everywhere (Spares context e))
      (Item.ofEntries context entries) := by
  cases entries with
  | nil => exact .ok nofun
  | cons entry rest =>
      obtain ⟨key, v⟩ := entry
      exact .each (x := (key, v)) (f := fun item => (key, item)) (accepts_of context v)
        (accepts_ofEntries context rest)

theorem accepts_ofEntriesWhere (tables : Bool) (context : Context)
    (entries : List (Text × Value)) :
    Meets (fun _ => ∀ entry ∈ entries, entry.2.isTable = tables → entry.2.Everywhere HasKind)
      (fun e => ∃ entry ∈ entries, ¬entry.2.Everywhere (Spares context e))
      (Item.ofEntriesWhere tables context entries) := by
  cases entries with
  | nil => exact .ok nofun
  | cons entry rest =>
      obtain ⟨key, v⟩ := entry
      have hrest := accepts_ofEntriesWhere tables context rest
      rw [Item.ofEntriesWhere]
      split
      · exact .each (x := (key, v)) (f := fun item => (key, item))
          ((accepts_of context v).imp_ok fun _ hv _ => hv) hrest
      · rename_i hother
        refine (hrest.imp_ok fun _ hall => ?_).imp_error fun e ⟨other, hmem, he⟩ =>
          ⟨other, List.mem_cons_of_mem _ hmem, he⟩
        exact List.forall_mem_cons.mpr ⟨fun htable => absurd htable hother, hall⟩

end

end Item

/-- Where the item of a whole value stands: a table is a document. -/
def contextOf (v : Value) : Context :=
  if v.isTable then .block else .outside

theorem accepts_pieces (v : Value) :
    Meets (fun _ => v.Everywhere HasKind) (fun e => ¬v.Everywhere (Item.Spares (contextOf v) e))
      (pieces v) := by
  cases htable : v.isTable with
  | false =>
      have hcontext : contextOf v = .outside := by simp [contextOf, htable]
      rw [Document.pieces_of_not_table htable, hcontext]
      exact (Item.accepts_of .outside v).bind fun _ hall => .ok hall
  | true =>
      cases v with
      | table entries =>
          rw [pieces]
          refine ((Item.accepts_ofEntries .block entries).imp_error
            fun e => not_everywhere_of_entry).bind fun _ hall => .ok ?_
          exact everywhere_table_iff.mpr ⟨⟨_, rfl⟩, hall⟩
      | _ => cases htable

theorem accepts_write (split : Bool) (v : Value) :
    Meets (fun _ => v.Everywhere HasKind) (fun e => ¬v.Everywhere (Item.Spares (contextOf v) e))
      (write split v) :=
  (accepts_pieces v).bind fun _ hall => .ok hall

end Toml

/-! ## Both formats -/

namespace Document

theorem exists_of_not_everywhere {P : Value → Prop} {v : Value} (h : ¬v.Everywhere P) :
    ∃ steps found, Leads v steps found ∧ ¬P found := by
  simpa [Everywhere] using h

/-- The error about a part of a value: it depends on whether the value is a document. -/
def refusal (v : Value) (type : ForeignType) : Failure :=
  if v.isTable then .inconvertible type else .unsupported type

theorem refusal_eq_unsupported {v : Value} (h : Toml.contextOf v = .outside) (type : ForeignType) :
    refusal v type = .unsupported type := by
  cases htable : v.isTable <;> simp [Toml.contextOf, refusal, htable] at h ⊢

theorem refusal_eq_inconvertible {v : Value} (h : Toml.contextOf v ≠ .outside)
    (type : ForeignType) : refusal v type = .inconvertible type := by
  cases htable : v.isTable <;> simp [Toml.contextOf, refusal, htable] at h ⊢

/-- An error blames a part of no kind, unless there is an integer too long to be written. -/
theorem accepts_dump_toml (pretty : Bool) (v : Value) :
    Meets (fun _ => v.Everywhere HasKind)
      (fun e => (∃ steps found type, Leads v steps found ∧ found.kind = .error type ∧
        e = refusal v type) ∨ ¬v.Everywhere IsShort) (dump .toml pretty v) := by
  have hwrite := Toml.accepts_write pretty v
  rw [dump]
  cases houtcome : Toml.write pretty v with
  | ok text => exact .ok (hwrite.of_eq_ok houtcome)
  | error e =>
      have he := hwrite.of_eq_error houtcome
      cases e with
      | limit e => exact .error (Or.inr he)
      | unsupported type =>
          obtain ⟨steps, found, hleads, hfound⟩ := exists_of_not_everywhere he
          obtain ⟨hcontext, hkind⟩ := Classical.not_imp.mp hfound
          exact .error (Or.inl ⟨steps, found, type, hleads, not_not.mp hkind,
            (refusal_eq_unsupported hcontext type).symm⟩)
      | inconvertible type =>
          obtain ⟨steps, found, hleads, hfound⟩ := exists_of_not_everywhere he
          obtain ⟨hcontext, hkind⟩ := Classical.not_imp.mp hfound
          exact .error (Or.inl ⟨steps, found, type, hleads, not_not.mp hkind,
            (refusal_eq_inconvertible hcontext type).symm⟩)

/-- An error blames an object of a foreign type, unless there is an integer too long to be
written. -/
theorem accepts_dump_json (pretty : Bool) (v : Value) :
    Meets (fun _ => v.Everywhere Json.IsData)
      (fun e => (∃ steps type, Leads v steps (.foreign type) ∧ e = .unsupported type) ∨
        ¬v.Everywhere IsShort) (dump .json pretty v) := by
  have hwrite := Json.accepts_writeAt (if pretty then .indented else .compact) 0 v
  rw [dump, Json.write]
  cases houtcome : Json.writeAt (if pretty then .indented else .compact) 0 v with
  | ok text => exact .ok (hwrite.of_eq_ok houtcome)
  | error e =>
      have he := hwrite.of_eq_error houtcome
      cases e with
      | limit e => exact .error (Or.inr he)
      | unsupported type =>
          obtain ⟨steps, found, hleads, hfound⟩ := exists_of_not_everywhere he
          obtain rfl := not_not.mp hfound
          exact .error (Or.inl ⟨steps, type, hleads, rfl⟩)

/-- An object of a foreign type is no data, and a part of no kind is in no document. -/
theorem not_isData_foreign (type : ForeignType) : ¬Json.IsData (.foreign type) := by
  rintro (⟨kind, hkind⟩ | hnull)
  · cases hkind
  · cases hnull

/-- **What can be dumped.**  If no integer in a value is too long, the value has a TOML text exactly
if every part of it is of a kind that documents hold, and a JSON text exactly if every part is of
such a kind or null.  An error blames the type of a part that is not: about JSON it says that the
type is not supported; about TOML it says so only if the value is no table, and otherwise that an
object of the type cannot be converted. -/
theorem dump_exact_domain (v : Value) (hshort : v.Everywhere IsShort) (pretty : Bool) :
    ((∃ text, dump .toml pretty v = .ok text) ↔ v.Everywhere HasKind) ∧
      ((∃ text, dump .json pretty v = .ok text) ↔
        v.Everywhere fun found => HasKind found ∨ found = .null) ∧
      (∀ e, dump .toml pretty v = .error e →
        ∃ steps found type, Leads v steps found ∧ found.kind = .error type ∧
          e = if v.isTable then .inconvertible type else .unsupported type) ∧
      ∀ e, dump .json pretty v = .error e →
        ∃ steps type, Leads v steps (.foreign type) ∧ e = .unsupported type := by
  have htoml := accepts_dump_toml pretty v
  have hjson := accepts_dump_json pretty v
  have htomlError (e : Failure) (h : dump .toml pretty v = .error e) :=
    (htoml.of_eq_error h).resolve_right (not_not.mpr hshort)
  have hjsonError (e : Failure) (h : dump .json pretty v = .error e) :=
    (hjson.of_eq_error h).resolve_right (not_not.mpr hshort)
  refine ⟨⟨fun ⟨text, h⟩ => htoml.of_eq_ok h, fun hall => ?_⟩,
    ⟨fun ⟨text, h⟩ => hjson.of_eq_ok h, fun hall => ?_⟩, htomlError, hjsonError⟩
  · cases h : dump .toml pretty v with
    | ok text => exact ⟨text, rfl⟩
    | error e =>
        obtain ⟨steps, found, type, hleads, hkind, -⟩ := htomlError e h
        exact absurd (hall.of_leads hleads) (not_everywhere_hasKind hkind)
  · cases h : dump .json pretty v with
    | ok text => exact ⟨text, rfl⟩
    | error e =>
        obtain ⟨steps, type, hleads, -⟩ := hjsonError e h
        exact absurd (hall steps _ hleads) (not_isData_foreign type)

/-- An object of a foreign type in a tuple in a document. -/
theorem dump_exact_domain_in_tuple :
    let bytes : ForeignType := ⟨"bytes", "bytes"⟩
    let v : Value := .table [([.char 'a'], .array .tuple [.integer 7, .foreign bytes])]
    v.Everywhere IsShort ∧ (¬∃ text, dump .toml true v = .ok text) ∧
      (¬∃ text, dump .json true v = .ok text) ∧
      (∃ steps found type, Leads v steps found ∧ found.kind = .error type ∧
        Failure.inconvertible bytes =
          if v.isTable then .inconvertible type else .unsupported type) ∧
      ∃ steps type, Leads v steps (.foreign type) ∧
        Failure.unsupported bytes = .unsupported type := by
  intro bytes v
  have hseven : (Value.integer 7).Everywhere IsShort := by
    refine everywhere_of_isLeaf (isLeaf_of_isScalar rfl rfl) fun i h => ?_
    cases h
    decide +kernel
  have hbytes : (Value.foreign bytes).Everywhere IsShort :=
    everywhere_of_isLeaf ⟨by simp, by simp⟩ (by simp [IsShort])
  have htuple : (Value.array .tuple [.integer 7, .foreign bytes]).Everywhere IsShort :=
    everywhere_array_iff.mpr ⟨by simp [IsShort],
      List.forall_mem_cons.mpr ⟨hseven, List.forall_mem_singleton.mpr hbytes⟩⟩
  have hshort : v.Everywhere IsShort :=
    everywhere_table_iff.mpr ⟨by simp [IsShort], List.forall_mem_singleton.mpr htuple⟩
  have hleads : Leads v [.field [.char 'a'], .index 1] (.foreign bytes) :=
    .step (.entry List.mem_cons_self) (.step (.item rfl) (.here _))
  obtain ⟨htoml, hjson, htomlError, hjsonError⟩ := dump_exact_domain v hshort true
  refine ⟨hshort, fun htext => ?_, fun htext => ?_, htomlError _ (by decide +kernel),
    hjsonError _ (by decide +kernel)⟩
  · obtain ⟨kind, hkind⟩ := htoml.mp htext _ _ hleads
    cases hkind
  · exact not_isData_foreign bytes (hjson.mp htext _ _ hleads)

/-- The error about the same part depends on the format, and null is refused in one format only. -/
theorem dump_refuses_differently :
    let bytes : ForeignType := ⟨"bytes", "bytes"⟩
    let v : Value := .table [([.char 'a'], .foreign bytes)]
    dump .toml false v = .error (.inconvertible bytes) ∧
      dump .json false v = .error (.unsupported bytes) ∧
      dump .toml false .null = .error (.unsupported nullType) ∧
      dump .json false .null = .ok "null" := by
  decide +kernel

end Document

end DocumentQuery
