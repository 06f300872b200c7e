import DocumentQuery.Proofs.Toml.Items
import DocumentQuery.Toml.Draft

/-!
# Drafts of documents that are read back

While a written document is read, every statement changes one table, and the table lies where the
last of all entries so far has been put.  A `Focus` says what such a table holds and how a change to
it changes the whole document, so the place need not be found again.

A statement must not meet what has been frozen or declared before.  `Fresh` says that nothing has
been at or around a path, and `Grows` that new marks lie below given keys only; together they carry
the freshness of one key over all that is read below the others.
-/

namespace DocumentQuery

namespace Entries

variable {key : Text} {entries : Entries} (hkey : key ∉ entries.map Prod.fst)
include hkey

theorem lookup_append (value : Value) : (entries ++ [(key, value)]).lookup key = some value := by
  rw [List.lookup_append, Value.lookup_eq_none_iff.mpr hkey]
  simp

theorem put_append (old value : Value) :
    (entries ++ [(key, old)]).put key value = entries ++ [(key, value)] := by
  induction entries with
  | nil => exact if_pos rfl
  | cons entry rest ih =>
      obtain ⟨k, v⟩ := entry
      rw [List.map_cons, List.mem_cons, not_or] at hkey
      rw [List.cons_append, put, if_neg (Ne.symm hkey.1), ih hkey.2, List.cons_append]

end Entries

namespace Toml

/-! ## The place of a change -/

theorem changeAt_append (throughArrays : Bool) (change : Entries → Except Fault Entries)
    (path more : Path) (entries : Entries) :
    changeAt throughArrays change (path ++ more) entries =
      changeAt throughArrays (changeAt throughArrays change more) path entries := by
  induction path generalizing entries with
  | nil => rw [List.nil_append, changeAt]
  | cons key path ih =>
      rw [List.cons_append, changeAt, changeAt]
      simp only [ih]

/-- The table at a path holds the given entries, and whatever it is changed into, the document
becomes what `wrap` makes of it. -/
def Focus (root : Entries) (path : Path) (entries : Entries) (wrap : Entries → Entries) : Prop :=
  ∀ change, changeAt true change path root = (change entries).map wrap

/-- There is a focus on the table at a path whatever it holds. -/
def Hole (path : Path) (wrap : Entries → Entries) : Prop :=
  ∀ entries, Focus (wrap entries) path entries wrap

theorem hole_root : Hole [] id := by
  intro entries change
  rw [changeAt, Except.map_id]
  rfl

section

variable {path : Path} {wrap : Entries → Entries} {root entries : Entries} {key : Text}
  (hkey : key ∉ entries.map Prod.fst)
include hkey

/-- What a document becomes when an entry is added to the table in focus. -/
theorem Focus.addEntry (h : Focus root path entries wrap) (clash : Fault) (value : Value) :
    changeAt true (Draft.addEntry clash key value) path root =
      .ok (wrap (entries ++ [(key, value)])) := by
  rw [h, Draft.addEntry_of_not_mem clash hkey]
  rfl

/-- A table that is not there is created. -/
theorem Focus.missing (h : Focus root path entries wrap) :
    Focus root (path ++ [key]) [] fun inner => wrap (entries ++ [(key, .table inner)]) := by
  intro change
  rw [changeAt_append, h, changeAt, Value.lookup_eq_none_iff.mpr hkey]
  dsimp only
  rw [changeAt]
  cases change [] with
  | error fault => rfl
  | ok inner =>
      rw [ok_bind, Entries.put_of_not_mem _ hkey]
      rfl

theorem Hole.table (h : Hole path wrap) :
    Hole (path ++ [key]) fun inner => wrap (entries ++ [(key, .table inner)]) := by
  intro inner change
  rw [changeAt_append, h, changeAt, Entries.lookup_append hkey]
  dsimp only
  rw [changeAt]
  cases change inner with
  | error fault => rfl
  | ok changed =>
      rw [ok_bind, Entries.put_append hkey]
      rfl

/-- In an array of tables the last table is the one that is changed. -/
theorem Hole.element (h : Hole path wrap) (items : List Value) :
    Hole (path ++ [key]) fun inner =>
      wrap (entries ++ [(key, .array .list (items ++ [.table inner]))]) := by
  intro inner change
  rw [changeAt_append, h, changeAt, Entries.lookup_append hkey]
  dsimp only
  rw [List.getLast?_concat]
  dsimp only
  rw [changeAt, if_pos rfl]
  cases change inner with
  | error fault => rfl
  | ok changed =>
      rw [ok_bind, Entries.put_append hkey, List.dropLast_concat]
      rfl

/-- The first element of an array of tables creates the array. -/
theorem Focus.appendTable (h : Focus root path entries wrap) :
    changeAt true (Draft.appendTable key) path root =
      .ok (wrap (entries ++ [(key, .array .list [.table []])])) := by
  rw [h, Draft.appendTable, Value.lookup_eq_none_iff.mpr hkey]
  dsimp only
  rw [Entries.put_of_not_mem _ hkey]
  rfl

/-- A later element comes after those that are there. -/
theorem Hole.appendTable (h : Hole path wrap) (items : List Value) :
    changeAt true (Draft.appendTable key) path (wrap (entries ++ [(key, .array .list items)])) =
      .ok (wrap (entries ++ [(key, .array .list (items ++ [.table []]))])) := by
  rw [h, Draft.appendTable, Entries.lookup_append hkey]
  dsimp only
  rw [Entries.put_append hkey]
  rfl

end

/-! ## Marks -/

namespace Draft

/-- Nothing at the path or above it is frozen. -/
def IsOpen (d : Draft) (path : Path) : Prop :=
  ∀ mark ∈ d.frozen, ¬mark <+: path

/-- The path has not been met: nothing is marked at it or below it, and nothing above it is
frozen. -/
structure Fresh (d : Draft) (path : Path) : Prop where
  isOpen : d.IsOpen path
  frozen : ∀ mark ∈ d.frozen, ¬path <+: mark
  declared : ∀ mark ∈ d.declared, ¬path <+: mark

/-- The marks of a draft come from an earlier one, or they lie below one of the given keys of the
table at the path; no dotted key has opened a table. -/
structure Grows (path : Path) (keys : List Text) (before after : Draft) : Prop where
  opened : before.opened = [] → after.opened = []
  frozen : ∀ mark ∈ after.frozen, mark ∈ before.frozen ∨ ∃ key ∈ keys, path ++ [key] <+: mark
  declared : ∀ mark ∈ after.declared, mark ∈ before.declared ∨ ∃ key ∈ keys, path ++ [key] <+: mark

/-- The draft is at the beginning of the table at a path: its pairs are next, and nothing in it has
been met. -/
structure Begins (d : Draft) (path : Path) : Prop where
  header : d.header = path
  opened : d.opened = []
  isOpen : d.IsOpen path
  fresh : ∀ key, d.Fresh (path ++ [key])

theorem begins_empty : Draft.empty.Begins [] where
  header := rfl
  opened := rfl
  isOpen := nofun
  fresh _ := ⟨nofun, nofun, nofun⟩

theorem grows_refl (path : Path) (keys : List Text) (d : Draft) : Grows path keys d d :=
  ⟨id, fun _ h => Or.inl h, fun _ h => Or.inl h⟩

theorem Grows.trans {path : Path} {keys : List Text} {d d' d'' : Draft}
    (h : Grows path keys d d') (hnext : Grows path keys d' d'') : Grows path keys d d'' where
  opened hd := hnext.opened (h.opened hd)
  frozen mark hmark := (hnext.frozen mark hmark).elim (h.frozen mark) Or.inr
  declared mark hmark := (hnext.declared mark hmark).elim (h.declared mark) Or.inr

theorem Grows.mono {path : Path} {keys more : List Text} {d d' : Draft} (h : Grows path keys d d')
    (hsub : keys ⊆ more) : Grows path more d d' where
  opened := h.opened
  frozen mark hmark :=
    (h.frozen mark hmark).imp_right fun ⟨key, hkey, hstarts⟩ => ⟨key, hsub hkey, hstarts⟩
  declared mark hmark :=
    (h.declared mark hmark).imp_right fun ⟨key, hkey, hstarts⟩ => ⟨key, hsub hkey, hstarts⟩

/-- What lies below keys of a table lies below the table. -/
theorem Grows.below {path : Path} {key : Text} {keys : List Text} {d d' : Draft}
    (h : Grows (path ++ [key]) keys d d') : Grows path [key] d d' where
  opened := h.opened
  frozen mark hmark := (h.frozen mark hmark).imp_right fun ⟨_, _, hstarts⟩ =>
    ⟨key, List.mem_singleton_self key, (List.prefix_append _ _).trans hstarts⟩
  declared mark hmark := (h.declared mark hmark).imp_right fun ⟨_, _, hstarts⟩ =>
    ⟨key, List.mem_singleton_self key, (List.prefix_append _ _).trans hstarts⟩

theorem not_below_itself (path : Path) (key : Text) : ¬path ++ [key] <+: path := by
  intro h
  have hlength := h.length_le
  rw [List.length_append] at hlength
  exact absurd hlength (by simp)

/-- What lies below the keys of a table does not freeze the table itself. -/
theorem Grows.isOpen {path : Path} {keys : List Text} {d d' : Draft} (h : Grows path keys d d')
    (hopen : d.IsOpen path) : d'.IsOpen path := by
  intro mark hmark hstarts
  rcases h.frozen mark hmark with hold | ⟨key, -, hbelow⟩
  · exact hopen mark hold hstarts
  · exact not_below_itself path key (hbelow.trans hstarts)

theorem append_singleton_ne {path mark : Path} {key other : Text} (hne : key ≠ other)
    (hkey : path ++ [key] <+: mark) : ¬path ++ [other] <+: mark := by
  intro hother
  have heq := (List.prefix_of_prefix_length_le hkey hother (by simp)).eq_of_length (by simp)
  exact hne (List.singleton_inj.mp (List.append_cancel_left heq))

/-- A key that has not been met is not met below other keys. -/
theorem Fresh.of_grows {path : Path} {keys : List Text} {key : Text} {d d' : Draft}
    (h : d.Fresh (path ++ [key])) (hgrows : Grows path keys d d') (hkey : key ∉ keys) :
    d'.Fresh (path ++ [key]) where
  isOpen mark hmark hstarts := by
    rcases hgrows.frozen mark hmark with hold | ⟨other, hother, hbelow⟩
    · exact h.isOpen mark hold hstarts
    · have heq := (hbelow.trans hstarts).eq_of_length (by simp)
      have hsame := List.singleton_inj.mp (List.append_cancel_left heq)
      exact hkey (hsame ▸ hother)
  frozen mark hmark := by
    rcases hgrows.frozen mark hmark with hold | ⟨other, hother, hbelow⟩
    · exact h.frozen mark hold
    · exact append_singleton_ne (fun heq => hkey (heq ▸ hother)) hbelow
  declared mark hmark := by
    rcases hgrows.declared mark hmark with hold | ⟨other, hother, hbelow⟩
    · exact h.declared mark hold
    · exact append_singleton_ne (fun heq => hkey (heq ▸ hother)) hbelow

/-- What is below a path that has not been met has not been met. -/
theorem Fresh.child {d : Draft} {path : Path} (h : d.Fresh path) (key : Text) :
    d.Fresh (path ++ [key]) where
  isOpen mark hmark hstarts := by
    rcases List.prefix_concat_iff.mp hstarts with heq | hshorter
    · exact h.frozen mark hmark (heq ▸ List.prefix_append path [key])
    · exact h.isOpen mark hmark hshorter
  frozen mark hmark hbelow := h.frozen mark hmark ((List.prefix_append _ _).trans hbelow)
  declared mark hmark hbelow := h.declared mark hmark ((List.prefix_append _ _).trans hbelow)

/-! ## Statements -/

theorem isFrozen_eq_false {d : Draft} {path : Path} (h : d.IsOpen path) :
    d.isFrozen path = false := by
  rw [isFrozen, List.any_eq_false]
  exact fun mark hmark hstarts => h mark hmark (List.isPrefixOf_iff_prefix.mp hstarts)

theorem closeSection_eq {d : Draft} (h : d.opened = []) : d.closeSection = d := by
  obtain ⟨root, frozen, declared, opened, header⟩ := d
  cases h
  rfl

/-- A pair with a new key goes to the table of the last header. -/
theorem exists_addPair {d : Draft} (hopen : d.IsOpen d.header) {entries : Entries}
    {wrap : Entries → Entries} (hfocus : Focus d.root d.header entries wrap) {key : Text}
    (hkey : key ∉ entries.map Prod.fst) (value : Value) :
    ∃ after, d.addPair [key] value = .ok after ∧ after.root = wrap (entries ++ [(key, value)]) ∧
      after.header = d.header ∧ Grows d.header [key] d after := by
  have hchange := hfocus.addEntry hkey .overwrittenValue value
  have hadd : d.addPair [key] value = .ok { d with
      root := wrap (entries ++ [(key, value)])
      frozen := if isContainer value then (d.header ++ [key]) :: d.frozen else d.frozen } := by
    -- The key has one part, so no table is opened on the way to it.
    unfold addPair
    change (if d.isFrozen (d.header ++ []) = true then _
      else changeAt true (addEntry .overwrittenValue key value) (d.header ++ []) d.root >>= _) = _
    rw [List.append_nil, isFrozen_eq_false hopen, if_neg Bool.false_ne_true, hchange]
    rfl
  refine ⟨_, hadd, rfl, rfl, id, ?_, fun _ hmark => Or.inl hmark⟩
  intro mark hmark
  dsimp only at hmark
  split at hmark
  · rcases List.mem_cons.mp hmark with rfl | hold
    · exact Or.inr ⟨key, List.mem_singleton_self key, List.prefix_refl _⟩
    · exact Or.inl hold
  · exact Or.inl hmark

/-- A header of a table that has not been met begins the table. -/
theorem exists_declareTable {d : Draft} {path : Path} {key : Text} (hopened : d.opened = [])
    (hfresh : d.Fresh (path ++ [key])) {entries : Entries} {wrap : Entries → Entries}
    (hfocus : Focus d.root (path ++ [key]) entries wrap) :
    ∃ after, d.closeSection.declareTable (path ++ [key]) = .ok after ∧ after.root = wrap entries ∧
      after.Begins (path ++ [key]) ∧ Grows path [key] d after := by
  have hnew : d.isDeclared (path ++ [key]) = false := by
    rw [isDeclared, List.contains_eq_mem, decide_eq_false_iff_not]
    exact fun hmark => hfresh.declared _ hmark (List.prefix_refl _)
  have hdeclare : d.closeSection.declareTable (path ++ [key]) = .ok { d with
      root := wrap entries
      declared := (path ++ [key]) :: d.declared
      header := path ++ [key] } := by
    rw [closeSection_eq hopened, declareTable, hnew, isFrozen_eq_false hfresh.isOpen, Bool.or_false,
      if_neg Bool.false_ne_true, hfocus]
    rfl
  refine ⟨_, hdeclare, rfl, ⟨rfl, hopened, hfresh.isOpen, fun below => ?_⟩, id,
    fun _ hmark => Or.inl hmark, fun mark hmark => ?_⟩
  · -- The one new mark is the path of the header, which is not below itself.
    have hchild := hfresh.child below
    refine ⟨hchild.isOpen, hchild.frozen, fun mark hmark => ?_⟩
    rcases List.mem_cons.mp hmark with rfl | hold
    · exact not_below_itself _ below
    · exact hchild.declared mark hold
  · rcases List.mem_cons.mp hmark with rfl | hold
    · exact Or.inr ⟨key, List.mem_singleton_self key, List.prefix_refl _⟩
    · exact Or.inl hold

/-- A header of an element of an array of tables begins a table in which nothing has been met. -/
theorem exists_declareElement {d : Draft} {path : Path} {key : Text} (hopened : d.opened = [])
    (hopen : d.IsOpen (path ++ [key])) {root : Entries}
    (happend : changeAt true (appendTable key) path d.root = .ok root) :
    ∃ after, d.closeSection.declareElement (path ++ [key]) = .ok after ∧ after.root = root ∧
      after.Begins (path ++ [key]) ∧ Grows path [key] d after := by
  let outside : Path → Bool := fun mark => !(path ++ [key]).isPrefixOf mark
  have houtside {mark : Path} (h : outside mark = true) : ¬path ++ [key] <+: mark := by
    intro hstarts
    simp [outside, List.isPrefixOf_iff_prefix.mpr hstarts] at h
  have hdeclare : d.closeSection.declareElement (path ++ [key]) = .ok { d with
      root
      frozen := d.frozen.filter outside
      declared := (path ++ [key]) :: d.declared.filter outside
      header := path ++ [key] } := by
    have hsplit : splitLast (path ++ [key]) = (path, key) := by
      rw [splitLast, List.dropLast_concat, List.getLastD_concat]
    rw [closeSection_eq hopened, declareElement, isFrozen_eq_false hopen,
      if_neg Bool.false_ne_true, hsplit]
    dsimp only
    rw [happend]
    rfl
  have hbelow (below : Text) {mark : Path} (h : outside mark = true) :
      ¬path ++ [key] ++ [below] <+: mark :=
    fun hstarts => houtside h ((List.prefix_append _ _).trans hstarts)
  refine ⟨_, hdeclare, rfl, ⟨rfl, hopened, fun mark hmark => ?_, fun below => ?_⟩, id,
    fun mark hmark => ?_, fun mark hmark => ?_⟩
  · exact hopen mark (List.mem_of_mem_filter hmark)
  · -- What was marked below the path belongs to the element before and is forgotten.
    refine ⟨fun mark hmark hstarts => ?_, fun mark hmark => ?_, fun mark hmark => ?_⟩
    · rcases List.prefix_concat_iff.mp hstarts with heq | hshorter
      · exact houtside (List.of_mem_filter hmark) (heq ▸ List.prefix_append _ _)
      · exact hopen mark (List.mem_of_mem_filter hmark) hshorter
    · exact hbelow below (List.of_mem_filter hmark)
    · rcases List.mem_cons.mp hmark with rfl | hold
      · exact not_below_itself _ below
      · exact hbelow below (List.of_mem_filter hold)
  · exact Or.inl (List.mem_of_mem_filter hmark)
  · rcases List.mem_cons.mp hmark with rfl | hold
    · exact Or.inr ⟨key, List.mem_singleton_self key, List.prefix_refl _⟩
    · exact Or.inl (List.mem_of_mem_filter hold)

end Draft

end Toml

end DocumentQuery
