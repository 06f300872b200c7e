import DocumentQuery.Proofs.Navigation

/-!
# The parts of a value

A predicate holds everywhere in a value if it holds of every part that keys and positions lead to,
the value itself included.  For tables and arrays this comes down to their immediate parts.

`IsBuilt` delimits the values that a text format can be asked to carry: tables whose keys are
distinct, arrays, texts, integers that can be written, truth values and moments.  Which forms of
arrays and which moments are meant depends on the format, so both are parameters.
-/

namespace DocumentQuery

namespace Value

/-! ## Predicates on all parts -/

/-- Every part of a value satisfies a predicate. -/
def Everywhere (P : Value → Prop) (v : Value) : Prop :=
  ∀ steps found, Leads v steps found → P found

/-- The value is of one of the kinds that documents hold. -/
def HasKind (v : Value) : Prop :=
  ∃ kind, v.kind = .ok kind

variable {P : Value → Prop}

theorem Everywhere.here {v : Value} (h : Everywhere P v) : P v :=
  h [] v (.here v)

/-- A predicate holds everywhere if it holds of the value and everywhere in what one step
selects. -/
theorem everywhere_iff_child {v : Value} :
    Everywhere P v ↔ P v ∧ ∀ step next, Child v step next → Everywhere P next := by
  constructor
  · intro h
    refine ⟨h.here, fun step next hchild steps found hleads => ?_⟩
    exact h (step :: steps) found (.step hchild hleads)
  · rintro ⟨hv, hnext⟩ steps found hleads
    cases hleads with
    | here _ => exact hv
    | step hchild hrest => exact hnext _ _ hchild _ _ hrest

theorem Everywhere.of_leads {v found : Value} {steps : List Step} (h : Everywhere P v)
    (hleads : Leads v steps found) : Everywhere P found := by
  induction hleads with
  | here _ => exact h
  | step hchild _ ih => exact ih ((everywhere_iff_child.mp h).2 _ _ hchild)

theorem everywhere_table_iff {entries : Entries} :
    Everywhere P (.table entries) ↔
      P (.table entries) ∧ ∀ entry ∈ entries, Everywhere P entry.2 := by
  rw [everywhere_iff_child]
  refine and_congr_right fun _ => ⟨fun h entry hmem => h _ _ (.entry hmem), ?_⟩
  rintro h step next hchild
  cases hchild with
  | entry hmem => exact h _ hmem

theorem everywhere_array_iff {form : ArrayForm} {items : List Value} :
    Everywhere P (.array form items) ↔
      P (.array form items) ∧ ∀ item ∈ items, Everywhere P item := by
  rw [everywhere_iff_child]
  refine and_congr_right fun _ => ⟨fun h item hmem => ?_, ?_⟩
  · obtain ⟨position, hitem⟩ := List.getElem?_of_mem hmem
    exact h _ _ (.item hitem)
  · rintro h step next hchild
    cases hchild with
    | item hitem => exact h _ (List.mem_of_getElem? hitem)

/-- The value is neither a table nor an array. -/
def IsLeaf (v : Value) : Prop :=
  (∀ entries, v ≠ .table entries) ∧ ∀ form items, v ≠ .array form items

/-- The values of the scalar kinds are leaves. -/
theorem isLeaf_of_isScalar {v : Value} {kind : Kind} (hkind : v.kind = .ok kind)
    (hscalar : kind.isScalar = true) : v.IsLeaf := by
  constructor
  · rintro entries rfl
    cases hkind
    cases hscalar
  · rintro form items rfl
    cases hkind
    cases hscalar

/-- A value that is neither a table nor an array has no part but itself. -/
theorem everywhere_of_isLeaf {v : Value} (hleaf : v.IsLeaf) (h : P v) : Everywhere P v := by
  rw [everywhere_iff_child]
  refine ⟨h, fun step next hchild => ?_⟩
  cases hchild with
  | entry _ => exact absurd rfl (hleaf.1 _)
  | item _ => exact absurd rfl (hleaf.2 _ _)

/-! ## Values that texts can carry -/

/-- The value consists of tables with distinct keys, of arrays of the given forms, of texts,
integers that can be written and truth values, and of the given moments. -/
inductive IsBuilt (forms : ArrayForm → Prop) (moments : Moment → Prop) : Value → Prop
  | string (text : Text) : IsBuilt forms moments (.string text)
  | integer (i : Int) (hwritable : Numeral.isWritable i = true) : IsBuilt forms moments (.integer i)
  | boolean (truth : Bool) : IsBuilt forms moments (.boolean truth)
  | moment (m : Moment) (hmoment : moments m) : IsBuilt forms moments (.moment m)
  | array {form : ArrayForm} {items : List Value} (hform : forms form)
      (hitems : ∀ item ∈ items, IsBuilt forms moments item) :
      IsBuilt forms moments (.array form items)
  | table {entries : Entries} (hdistinct : (entries.map Prod.fst).Nodup)
      (hentries : ∀ entry ∈ entries, IsBuilt forms moments entry.2) :
      IsBuilt forms moments (.table entries)

end Value

namespace Entries

/-! ## Keys that are put into tables -/

/-- Where keys are distinct, no entry has a key of those before it. -/
theorem not_mem_of_nodup {before rest : Entries} {entry : Text × Value}
    (h : ((before ++ entry :: rest).map Prod.fst).Nodup) : entry.1 ∉ before.map Prod.fst := by
  rw [List.map_append, List.map_cons] at h
  exact fun hmem => (List.nodup_append.mp h).2.2 _ hmem _ List.mem_cons_self rfl

/-- A new key comes last. -/
theorem put_of_not_mem {key : Text} {entries : Entries} (value : Value)
    (hkey : key ∉ entries.map Prod.fst) : entries.put key value = entries ++ [(key, value)] := by
  induction entries with
  | nil => rfl
  | cons entry rest ih =>
      obtain ⟨k, v⟩ := entry
      rw [List.map_cons, List.mem_cons, not_or] at hkey
      rw [put, if_neg (Ne.symm hkey.1), ih hkey.2, List.cons_append]

/-- Whatever is in a table after a key was set was there before or is the value of the key. -/
theorem mem_put {key : Text} {value : Value} {entries : Entries} {entry : Text × Value}
    (h : entry ∈ entries.put key value) : entry ∈ entries ∨ entry = (key, value) := by
  induction entries with
  | nil => exact Or.inr (List.mem_singleton.mp h)
  | cons other rest ih =>
      obtain ⟨k, v⟩ := other
      rw [put] at h
      split at h
      · rename_i heq
        rcases List.mem_cons.mp h with rfl | hrest
        · exact Or.inr (by rw [heq])
        · exact Or.inl (List.mem_cons_of_mem _ hrest)
      · rcases List.mem_cons.mp h with rfl | hput
        · exact Or.inl List.mem_cons_self
        · exact (ih hput).imp_left (List.mem_cons_of_mem _)

/-! ## Predicates on all parts of a table -/

variable {P : Value → Prop}

/-- Every part of every value in a table satisfies a predicate. -/
def Everywhere (P : Value → Prop) (entries : Entries) : Prop :=
  ∀ entry ∈ entries, entry.2.Everywhere P

theorem everywhere_nil : Everywhere P [] :=
  fun _ h => absurd h List.not_mem_nil

theorem Everywhere.put {entries : Entries} {value : Value} (h : entries.Everywhere P) (key : Text)
    (hvalue : value.Everywhere P) : (entries.put key value).Everywhere P := by
  intro entry hmem
  rcases mem_put hmem with hold | rfl
  · exact h entry hold
  · exact hvalue

theorem Everywhere.of_lookup {entries : Entries} {key : Text} {value : Value}
    (h : entries.Everywhere P) (hlookup : entries.lookup key = some value) : value.Everywhere P :=
  h _ (Value.mem_of_lookup hlookup)

end Entries

end DocumentQuery
