import DocumentQuery.Proofs.Addressing
import DocumentQuery.Proofs.Json.Reading
import DocumentQuery.Proofs.Pattern.Stops
import DocumentQuery.Proofs.Toml.Reading

/-!
# What loading yields

Whatever is loaded consists of values of documents at every depth.  The readers see to it, except
for the nulls of JSON; for these the loader goes through the whole value.

A walk meets a value of no document only where one is, so a pattern fails on a loaded document in
two ways only: it is no pattern, or it leads nowhere.
-/

namespace DocumentQuery

namespace Document

open Value

/-! ## The search for nulls -/

mutual

/-- The search finds nothing exactly if there is no null at any depth. -/
theorem firstNull?_eq_none_iff (place : Text) (v : Value) :
    firstNull? place v = none ↔ v.Everywhere (· ≠ .null) := by
  cases v with
  | table entries =>
      rw [firstNull?, firstNullInEntries?_eq_none_iff, everywhere_table_iff]
      exact (and_iff_right nofun).symm
  | array form items =>
      rw [firstNull?, firstNullInItems?_eq_none_iff, everywhere_array_iff]
      exact (and_iff_right nofun).symm
  | null => exact iff_of_false nofun fun h => h.here rfl
  | _ => exact iff_of_true rfl (everywhere_of_isLeaf ⟨nofun, nofun⟩ nofun)

theorem firstNullInEntries?_eq_none_iff (place : Text) (entries : Entries) :
    firstNullInEntries? place entries = none ↔ entries.Everywhere (· ≠ .null) := by
  cases entries with
  | nil => exact iff_of_true rfl Entries.everywhere_nil
  | cons entry rest =>
      obtain ⟨key, value⟩ := entry
      have hvalue := firstNull?_eq_none_iff (placeOfKey place key) value
      have hrest := firstNullInEntries?_eq_none_iff place rest
      rw [Entries.Everywhere, List.forall_mem_cons, ← hvalue]
      rw [Entries.Everywhere] at hrest
      rw [← hrest, firstNullInEntries?]
      cases firstNull? (placeOfKey place key) value with
      | none => simp
      | some found => simp

theorem firstNullInItems?_eq_none_iff (place : Text) (index : Nat) (items : List Value) :
    firstNullInItems? place index items = none ↔ ∀ item ∈ items, item.Everywhere (· ≠ .null) := by
  cases items with
  | nil => exact iff_of_true rfl fun _ h => absurd h List.not_mem_nil
  | cons item rest =>
      have hitem := firstNull?_eq_none_iff (placeOfIndex place index) item
      have hrest := firstNullInItems?_eq_none_iff place (index + 1) rest
      rw [List.forall_mem_cons, ← hitem, ← hrest, firstNullInItems?]
      cases firstNull? (placeOfIndex place index) item with
      | none => simp
      | some found => simp

end

theorem ofJson_eq_ok_iff {v : Value} {entries : Entries} :
    ofJson v = .ok entries ↔ v = .table entries ∧ v.Everywhere (· ≠ .null) := by
  rw [← firstNull?_eq_none_iff []]
  unfold ofJson
  split
  · rename_i entries'
    cases hnull : firstNull? [] (.table entries') with
    | none => simp
    | some place => simp
  · rename_i htable
    simp only [reduceCtorEq, false_iff, not_and]
    rintro rfl
    exact absurd rfl (htable entries)

/-- A table with a null in it is refused, and the error tells a place. -/
theorem exists_place_of_null {entries : Entries}
    (h : ¬(Value.table entries).Everywhere (· ≠ .null)) :
    ∃ place, ofJson (.table entries) = .error (.document (.nullAt place)) := by
  rw [← firstNull?_eq_none_iff []] at h
  obtain ⟨place, hplace⟩ := Option.ne_none_iff_exists'.mp h
  exact ⟨place, by rw [ofJson, hplace]⟩

/-! ## Loading -/

theorem loadToml_eq_ok_iff {t : Text} {entries : Entries} :
    loadToml t = .ok entries ↔ Toml.read t = .ok entries := by
  unfold loadToml
  split
  · rename_i heq
    rw [heq]
    exact ⟨fun h => by cases h; rfl, fun h => by cases h; rfl⟩
  · rename_i heq
    rw [heq]
    exact ⟨nofun, nofun⟩
  · rename_i heq
    rw [heq]
    exact ⟨nofun, nofun⟩

theorem loadJson_of_read {t : Text} {v : Value} (h : Json.read t = .ok v) :
    loadJson t = ofJson v := by
  rw [loadJson, h]

/-- What is loaded as JSON is an object without nulls, or the text is no JSON but TOML. -/
theorem loadJson_cases {t : Text} {entries : Entries} (h : loadJson t = .ok entries) :
    (Json.read t = .ok (.table entries) ∧ (Value.table entries).Everywhere (· ≠ .null)) ∨
      (∃ e, Json.read t = .error (.malformed e)) ∧ Toml.read t = .ok entries := by
  unfold loadJson at h
  split at h
  · rename_i v hread
    obtain ⟨rfl, hnull⟩ := ofJson_eq_ok_iff.mp h
    exact Or.inl ⟨hread, hnull⟩
  · cases h
  · rename_i e hread
    split at h
    · cases h
    · exact Or.inr ⟨⟨e, hread⟩, loadToml_eq_ok_iff.mp h⟩

theorem everywhere_hasKind_of_load {format : Format} {t : Text} {entries : Entries}
    (h : load format t = .ok entries) : (Value.table entries).Everywhere HasKind := by
  have htoml (hread : Toml.read t = .ok entries) : (Value.table entries).Everywhere HasKind :=
    Toml.everywhere_table (Toml.everywhere_hasKind_of_read hread)
  cases format with
  | toml => exact htoml (loadToml_eq_ok_iff.mp h)
  | json =>
      rcases loadJson_cases h with ⟨hread, hnull⟩ | ⟨-, hread⟩
      · intro steps found hleads
        exact (Json.everywhere_isData_of_read hread steps found hleads).resolve_right
          (hnull steps found hleads)
      · exact htoml hread

/-- Loading fails because the text yields no document, or at a numeral that is too long. -/
def IsLoadFailure : Failure → Prop
  | .document _ => True
  | .limit _ => True
  | _ => False

theorem isLoadFailure_of_loadToml {t : Text} {e : Failure} (h : loadToml t = .error e) :
    IsLoadFailure e := by
  unfold loadToml at h
  split at h
  · cases h
  · cases h
    trivial
  · cases h
    trivial

theorem isLoadFailure_of_ofJson {v : Value} {e : Failure} (h : ofJson v = .error e) :
    IsLoadFailure e := by
  unfold ofJson at h
  split at h
  · split at h
    · cases h
      trivial
    · cases h
  · cases h
    trivial

theorem isLoadFailure_of_load {format : Format} {t : Text} {e : Failure}
    (h : load format t = .error e) : IsLoadFailure e := by
  cases format with
  | toml => exact isLoadFailure_of_loadToml h
  | json =>
      rw [load, loadJson] at h
      split at h
      · exact isLoadFailure_of_ofJson h
      · cases h
        trivial
      · split at h
        · cases h
          trivial
        · exact isLoadFailure_of_loadToml h

/-! ## Extracting -/

/-- What is extracted from a value is a part of it. -/
theorem exists_leads_of_extract {v found : Value} {pattern : Text}
    (h : extract v pattern = .ok found) : ∃ steps, Leads v steps found := by
  obtain ⟨p, -, hwalk⟩ := exists_walk_of_extract h
  exact ⟨p.steps, leads_of_walk hwalk⟩

theorem exists_blocked_of_isWritable (path : List Step) {position : Int} (length : Nat)
    (h : Numeral.isWritable position = true) :
    ∃ reason, blockedAt path (.outOfBounds position length) = .blocked reason := by
  rw [blockedAt, if_pos h]
  exact ⟨_, rfl⟩

/-- A walk in a value of documents, along positions that can be written, is blocked if it fails. -/
theorem blocked_of_walk {path steps : List Step} {v : Value} {e : WalkError}
    (hv : v.Everywhere HasKind) (hsteps : ∀ step ∈ steps, step.isWritable = true)
    (h : walk path v steps = .error e) : ∃ reason, e = .blocked reason := by
  induction steps generalizing path v with
  | nil => cases h
  | cons step rest ih =>
      obtain ⟨hstep, hrest⟩ := List.forall_mem_cons.mp hsteps
      rw [walk] at h
      rcases follow_cases path v step with ⟨child, hfollow, hchild⟩ | ⟨obstacle, hfollow, hblocks⟩ |
        ⟨type, -, hkind⟩
      · rw [hfollow] at h
        exact ih ((everywhere_iff_child.mp hv).2 step child hchild) hrest h
      · rw [hfollow] at h
        cases h
        cases hblocks with
        | kind _ _ => exact ⟨_, rfl⟩
        | key _ => exact ⟨_, rfl⟩
        | bounds _ => exact exists_blocked_of_isWritable path _ hstep
      · obtain ⟨kind, hkind'⟩ := hv.here
        rw [hkind] at hkind'
        cases hkind'

theorem extract_of_everywhere {v : Value} (hv : v.Everywhere HasKind) {pattern : Text}
    (hshort : pattern.HasShortRuns) :
    (∃ found, extract v pattern = .ok found) ∨
      (∃ e, extract v pattern = .error (.pattern e)) ∨
        ∃ e, extract v pattern = .error (.navigation e) := by
  cases hparse : Pattern.parse pattern with
  | error e =>
      cases e with
      | malformed e => exact Or.inr (Or.inl ⟨e, by rw [extract, hparse]; rfl⟩)
      | limit e => exact absurd hparse (Pattern.parse_ne_limit hshort e)
  | ok p =>
      rw [extract_of_parse hparse]
      cases hwalk : v.navigate p with
      | ok found => exact Or.inl ⟨found, rfl⟩
      | error e =>
          obtain ⟨reason, rfl⟩ := blocked_of_walk hv (Pattern.isWritable_of_parse hparse) hwalk
          exact Or.inr (Or.inr ⟨reason, rfl⟩)

/-- **A loaded document lies in the document model, at every depth.**  A JSON object is loaded
unchanged exactly if there is no null in it, and a pattern fails on what was loaded only because it
is none or because it leads nowhere. -/
theorem load_within_documents (t : Text) :
    (∀ format entries, load format t = .ok entries →
      (Value.table entries).Everywhere HasKind ∧
        ∀ pattern : Text, pattern.HasShortRuns →
          (∃ found, extract (.table entries) pattern = .ok found) ∨
            (∃ e, extract (.table entries) pattern = .error (.pattern e)) ∨
              ∃ e, extract (.table entries) pattern = .error (.navigation e)) ∧
      (t.HasShortRuns → ∀ e, Json.read t ≠ .error (.limit e)) ∧
        ∀ entries, Json.read t = .ok (.table entries) →
          (load .json t = .ok entries ↔ (Value.table entries).Everywhere (· ≠ .null)) ∧
            (¬(Value.table entries).Everywhere (· ≠ .null) →
              ∃ place, load .json t = .error (.document (.nullAt place))) := by
  refine ⟨fun format entries h => ?_, Json.read_ne_limit, fun entries hread => ?_⟩
  · have hkinds := everywhere_hasKind_of_load h
    exact ⟨hkinds, fun pattern hshort => extract_of_everywhere hkinds hshort⟩
  · have hload : load .json t = ofJson (.table entries) := loadJson_of_read hread
    rw [hload]
    refine ⟨ofJson_eq_ok_iff.trans (and_iff_right rfl), exists_place_of_null⟩

/-- Values have no decidable equality, so that an object with one key, which has an array of one
truth value or `null`, is recognised by its shape. -/
theorem read_eq_of_single {t key : Text} {b : Option Bool}
    (h : (match Json.read t with
      | .ok (.table [(name, .array .list [.boolean truth])]) => decide (name = key ∧ b = some truth)
      | .ok (.table [(name, .array .list [.null])]) => decide (name = key ∧ b = none)
      | _ => false) = true) :
    Json.read t = .ok (.table [(key, .array .list [b.elim .null .boolean])]) := by
  split at h
  · rename_i heq
    obtain ⟨rfl, rfl⟩ := of_decide_eq_true h
    exact heq
  · rename_i heq
    obtain ⟨rfl, rfl⟩ := of_decide_eq_true h
    exact heq
  · cases h

/-- An array in an object is loaded, unless there is a null in it. -/
theorem load_within_documents_nested :
    let t : Text := Text.ofString "\x7b\"a\":[true]\x7d"
    let entries : Entries := [([.char 'a'], .array .list [.boolean true])]
    let u : Text := Text.ofString "\x7b\"a\":[null]\x7d"
    let others : Entries := [([.char 'a'], .array .list [.null])]
    let pattern : Text := Text.ofString "a[1]"
    (load .json t = .ok entries ∧ (Value.table entries).Everywhere HasKind ∧
        t.HasShortRuns ∧ (∀ e, Json.read t ≠ .error (.limit e)) ∧
        pattern.HasShortRuns ∧
        ((∃ found, extract (.table entries) pattern = .ok found) ∨
          (∃ e, extract (.table entries) pattern = .error (.pattern e)) ∨
            ∃ e, extract (.table entries) pattern = .error (.navigation e))) ∧
      Json.read u = .ok (.table others) ∧ ¬(Value.table others).Everywhere (· ≠ .null) ∧
        ∃ place, load .json u = .error (.document (.nullAt place)) := by
  intro t entries u others pattern
  have hread : Json.read t = .ok (.table entries) :=
    read_eq_of_single (b := some true) (by decide +kernel)
  have hother : Json.read u = .ok (.table others) :=
    read_eq_of_single (b := none) (by decide +kernel)
  have hnull : ¬(Value.table others).Everywhere (· ≠ .null) := by
    intro h
    exact h [.field [.char 'a'], .index 0] .null
      (.step (.entry List.mem_cons_self) (.step (.item rfl) (.here _))) rfl
  have hfull : (Value.table entries).Everywhere (· ≠ .null) :=
    (firstNull?_eq_none_iff [] _).mp rfl
  have hshort : t.HasShortRuns := Text.HasShortRuns.of_length (by decide +kernel)
  have hpattern : pattern.HasShortRuns := Text.HasShortRuns.of_length (by decide +kernel)
  obtain ⟨hall, hlimit, hobject⟩ := load_within_documents t
  obtain ⟨-, -, hrefused⟩ := load_within_documents u
  have hload : load .json t = .ok entries := (hobject entries hread).1.mpr hfull
  obtain ⟨hkinds, hextract⟩ := hall .json entries hload
  exact ⟨⟨hload, hkinds, hshort, hlimit hshort, hpattern, hextract pattern hpattern⟩,
    hother, hnull, (hrefused others hother).2 hnull⟩

end Document

end DocumentQuery
