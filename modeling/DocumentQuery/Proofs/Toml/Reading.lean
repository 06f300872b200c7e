import DocumentQuery.Proofs.Parts
import DocumentQuery.Proofs.Toml.Scanning
import DocumentQuery.Toml.Reader

/-!
# What reading TOML yields

A statement changes the document at one place, and only by what has been read or by an empty table.
So every part of a document that has been read is a value of a document; the grammar has no null.

The reader drops carriage returns before newlines.  This joins no digits, so the numbers of a text
are short if no run of digits in it, underscores aside, is long.
-/

namespace DocumentQuery

namespace Toml

open Value

/-! ## Changes to a document -/

/-- A change to a table keeps the parts of values within the documents. -/
def Keeps (change : Entries → Except Fault Entries) : Prop :=
  ∀ before after, change before = .ok after → before.Everywhere HasKind → after.Everywhere HasKind

theorem everywhere_table {entries : Entries} (h : entries.Everywhere HasKind) :
    (Value.table entries).Everywhere HasKind :=
  everywhere_table_iff.mpr ⟨⟨_, rfl⟩, h⟩

theorem everywhere_of_table {entries : Entries} (h : (Value.table entries).Everywhere HasKind) :
    entries.Everywhere HasKind :=
  (everywhere_table_iff.mp h).2

theorem everywhere_array {form : ArrayForm} {items : List Value}
    (h : ∀ item ∈ items, item.Everywhere HasKind) : (Value.array form items).Everywhere HasKind :=
  everywhere_array_iff.mpr ⟨⟨_, rfl⟩, h⟩

theorem keeps_changeAt (throughArrays : Bool) {change : Entries → Except Fault Entries}
    (hchange : Keeps change) (path : Path) : Keeps (changeAt throughArrays change path) := by
  intro before after h hbefore
  fun_induction changeAt throughArrays change path before generalizing after with
  | case1 entries => exact hchange entries after h hbefore
  | case2 key path entries _ ih =>
      obtain ⟨inner, hinner, hafter⟩ := exists_of_bind_eq_ok h
      cases hafter
      exact hbefore.put key (everywhere_table (ih inner hinner Entries.everywhere_nil))
  | case3 key path entries inner hlookup ih =>
      obtain ⟨changed, hchanged, hafter⟩ := exists_of_bind_eq_ok h
      cases hafter
      have hinner := everywhere_of_table (hbefore.of_lookup hlookup)
      exact hbefore.put key (everywhere_table (ih changed hchanged hinner))
  | case4 key path entries form items hlookup inner hlast _ ih =>
      obtain ⟨changed, hchanged, hafter⟩ := exists_of_bind_eq_ok h
      cases hafter
      have hitems := (everywhere_array_iff.mp (hbefore.of_lookup hlookup)).2
      have hinner := everywhere_of_table (hitems _ (List.mem_of_getLast? hlast))
      refine hbefore.put key (everywhere_array fun item hitem => ?_)
      rcases List.mem_append.mp hitem with hearlier | hnew
      · exact hitems item (List.dropLast_subset _ hearlier)
      · rw [List.mem_singleton.mp hnew]
        exact everywhere_table (ih changed hchanged hinner)
  | case5 => cases h
  | case6 => cases h
  | case7 => cases h

theorem keeps_ok : Keeps .ok := by
  rintro before after ⟨⟩ hbefore
  exact hbefore

theorem keeps_addEntry (clash : Fault) (key : Text) {value : Value}
    (hvalue : value.Everywhere HasKind) : Keeps (Draft.addEntry clash key value) := by
  intro before after h hbefore
  unfold Draft.addEntry at h
  split at h
  · cases h
  · cases h
    exact hbefore.put key hvalue

theorem keeps_appendTable (key : Text) : Keeps (Draft.appendTable key) := by
  intro before after h hbefore
  have hempty : (Value.table []).Everywhere HasKind := everywhere_table Entries.everywhere_nil
  unfold Draft.appendTable at h
  split at h
  · cases h
    exact hbefore.put key (everywhere_array (List.forall_mem_singleton.mpr hempty))
  · rename_i form items hlookup
    cases h
    have hitems := (everywhere_array_iff.mp (hbefore.of_lookup hlookup)).2
    refine hbefore.put key (everywhere_array fun item hitem => ?_)
    rcases List.mem_append.mp hitem with hearlier | hnew
    · exact hitems item hearlier
    · rw [List.mem_singleton.mp hnew]
      exact hempty
  · cases h

/-! ## Values -/

/-- A reader goes on after blanks or a comment. -/
theorem Skips.bind {β : Type} {Q : β → Prop} {t : Text} {outcome : Except Stop Text}
    {next : Text → Except Stop (β × Text)} (h : Skips t outcome)
    (hnext : ∀ rest, rest <:+ t → Proper Stop.Blames rest Q (next rest)) :
    Proper Stop.Blames t Q (outcome >>= next) := by
  cases outcome with
  | error stop =>
      cases stop with
      | fault _ _ => exact .error trivial
      | limit e => exact absurd rfl (h.2 e)
  | ok rest =>
      have hrest := h.1 rest rfl
      exact proper_of_suffix hrest (hnext rest hrest)

/-- A reader goes on after a change to a draft. -/
theorem proper_placed_bind {α β : Type} {Q : β → Prop} {t unread : Text} {change : Except Fault α}
    {next : α → Except Stop (β × Text)}
    (hnext : ∀ a, change = .ok a → Proper Stop.Blames t Q (next a)) :
    Proper Stop.Blames t Q (placed unread change >>= next) := by
  cases change with
  | error fault => exact .error trivial
  | ok a => exact hnext a rfl

theorem readEquals_skips (t : Text) : Skips t (readEquals t) := by
  unfold readEquals
  split
  · rename_i rest
    exact (skips_ok _).of_suffix ((skipBlanks_suffix rest).trans (List.suffix_cons _ rest))
  · exact skips_fault _ _ _

/-- A value without parts of one of the kinds of documents. -/
theorem everywhere_leaf {v : Value} {kind : Kind} (hkind : v.kind = .ok kind)
    (hscalar : kind.isScalar = true) : v.Everywhere HasKind :=
  everywhere_of_isLeaf (isLeaf_of_isScalar hkind hscalar) ⟨kind, hkind⟩

theorem readScalar_proper (t : Text) :
    Proper Stop.Blames t (Everywhere HasKind) (readScalar t) := by
  unfold readScalar
  split
  · exact .ok (List.drop_suffix _ _) (everywhere_leaf rfl rfl)
  split
  · exact .ok (List.drop_suffix _ _) (everywhere_leaf rfl rfl)
  split
  · rename_i found hmoment
    exact (proper_of_readMoment? hmoment).bind_pure (fun _ _ => rfl) fun _ _ =>
      everywhere_leaf rfl rfl
  split
  · rename_i hbased
    exact .ok (suffix_of_readBased? hbased) (everywhere_leaf rfl rfl)
  split
  · rename_i literal rest hdecimal
    obtain ⟨hrest, run, hrun, hdigits⟩ := spaced_of_readDecimal? hdecimal
    split
    · split
      · exact .ok hrest (everywhere_leaf rfl rfl)
      · rename_i e hlimit
        refine .error fun hshort => ?_
        rw [NumberLiteral.toInt, Numeral.read, if_pos (hshort run _ hrun hdigits)] at hlimit
        cases hlimit
    · exact .ok hrest (everywhere_leaf rfl rfl)
  split
  · rename_i hspecial
    exact .ok (suffix_of_readSpecialFloat? hspecial) (everywhere_leaf rfl rfl)
  · exact .error trivial

theorem everywhere_of_addPair {before after : InlineDraft} {path : Path} {value : Value}
    (h : before.addPair path value = .ok after) (hbefore : before.entries.Everywhere HasKind)
    (hvalue : value.Everywhere HasKind) : after.entries.Everywhere HasKind := by
  unfold InlineDraft.addPair at h
  split at h
  · cases h
  · obtain ⟨entries, hentries, hafter⟩ := exists_of_bind_eq_ok h
    cases hafter
    exact keeps_changeAt false (keeps_addEntry _ _ hvalue) _ _ _ hentries hbefore

mutual

theorem readValue_proper (fuel : Nat) (t : Text) :
    Proper Stop.Blames t (Everywhere HasKind) (readValue fuel t) := by
  cases fuel with
  | zero => exact .error trivial
  | succ fuel =>
      unfold readValue
      split
      · rename_i found hstring
        exact (proper_of_readString? hstring).bind_pure (fun _ _ => rfl) fun _ _ =>
          everywhere_leaf rfl rfl
      · split
        · refine proper_of_suffix (List.suffix_cons _ _) ?_
          refine (skipFiller_skips false _).bind fun inner _ => ?_
          split
          · exact .ok (List.suffix_cons _ _) (everywhere_array nofun)
          · exact (readItems_proper fuel _).bind_pure (fun _ _ => rfl) fun _ => everywhere_array
        · refine proper_of_suffix (List.suffix_cons _ _) ?_
          refine proper_of_suffix (skipBlanks_suffix _) ?_
          split
          · rename_i after heq
            rw [heq]
            exact .ok (List.suffix_cons _ _) (everywhere_table Entries.everywhere_nil)
          · exact (readPairs_proper fuel ⟨[], []⟩ Entries.everywhere_nil _).bind_pure
              (fun _ _ => rfl) fun _ => everywhere_table
        · exact readScalar_proper t

theorem readItems_proper (fuel : Nat) (t : Text) :
    Proper Stop.Blames t (fun items => ∀ item ∈ items, item.Everywhere HasKind)
      (readItems fuel t) := by
  cases fuel with
  | zero => exact .error trivial
  | succ fuel =>
      unfold readItems
      refine (readValue_proper fuel t).bind inherits_blames fun item rest hitem _ => ?_
      have hsingle := List.forall_mem_singleton.mpr hitem
      refine (skipFiller_skips false rest).bind fun afterItem _ => ?_
      split
      · exact .ok (List.suffix_cons _ _) hsingle
      · refine proper_of_suffix (List.suffix_cons _ _) ?_
        refine (skipFiller_skips false _).bind fun inner _ => ?_
        split
        · exact .ok (List.suffix_cons _ _) hsingle
        · exact (readItems_proper fuel _).bind_pure (fun _ _ => rfl) fun items hitems =>
            List.forall_mem_cons.mpr ⟨hitem, hitems⟩
      · exact .error trivial

theorem readPairs_proper (fuel : Nat) (before : InlineDraft)
    (hbefore : before.entries.Everywhere HasKind) (t : Text) :
    Proper Stop.Blames t (Entries.Everywhere HasKind) (readPairs fuel before t) := by
  cases fuel with
  | zero => exact .error trivial
  | succ fuel =>
      unfold readPairs
      refine (readKey_proper t).bind inherits_blames fun path rest _ _ => ?_
      refine (readEquals_skips rest).bind fun start _ => ?_
      refine (readValue_proper fuel start).bind inherits_blames fun value rest hvalue _ => ?_
      refine proper_placed_bind fun draft hdraft => ?_
      have hentries := everywhere_of_addPair hdraft hbefore hvalue
      refine proper_of_suffix (skipBlanks_suffix rest) ?_
      split
      · rename_i after heq
        rw [heq]
        exact .ok (List.suffix_cons _ _) hentries
      · rename_i after heq
        rw [heq]
        have hs := (skipBlanks_suffix after).trans (List.suffix_cons (CodePoint.char ',') after)
        exact proper_of_suffix hs (readPairs_proper fuel draft hentries _)
      · exact .error trivial

end

/-! ## Statements -/

/-- Every part of what a draft holds so far is a value of a document. -/
def Draft.HasKinds (d : Draft) : Prop :=
  d.root.Everywhere HasKind

theorem hasKinds_empty : Draft.empty.HasKinds :=
  Entries.everywhere_nil

theorem hasKinds_of_addPair {d after : Draft} {path : Path} {value : Value}
    (h : d.addPair path value = .ok after) (hd : d.HasKinds) (hvalue : value.Everywhere HasKind) :
    after.HasKinds := by
  unfold Draft.addPair at h
  dsimp only at h
  split at h
  · cases h
  · split at h
    · cases h
    · obtain ⟨root, hroot, hafter⟩ := exists_of_bind_eq_ok h
      cases hafter
      exact keeps_changeAt true (keeps_addEntry _ _ hvalue) _ _ _ hroot hd

theorem hasKinds_of_declareTable {d after : Draft} {path : Path}
    (h : d.declareTable path = .ok after) (hd : d.HasKinds) : after.HasKinds := by
  unfold Draft.declareTable at h
  split at h
  · cases h
  · obtain ⟨root, hroot, hafter⟩ := exists_of_bind_eq_ok h
    cases hafter
    exact keeps_changeAt true keeps_ok _ _ _ hroot hd

theorem hasKinds_of_declareElement {d after : Draft} {path : Path}
    (h : d.declareElement path = .ok after) (hd : d.HasKinds) : after.HasKinds := by
  unfold Draft.declareElement at h
  split at h
  · cases h
  · obtain ⟨root, hroot, hafter⟩ := exists_of_bind_eq_ok h
    cases hafter
    exact keeps_changeAt true (keeps_appendTable _) _ _ _ hroot hd

theorem readPair_proper {d : Draft} (hd : d.HasKinds) (t : Text) :
    Proper Stop.Blames t Draft.HasKinds (readPair d t) := by
  unfold readPair
  refine (readKey_proper t).bind inherits_blames fun path rest _ _ => ?_
  refine (readEquals_skips rest).bind fun start _ => ?_
  refine (readValue_proper _ start).bind inherits_blames fun value rest hvalue _ => ?_
  refine proper_placed_bind fun after hafter => ?_
  exact .ok (List.suffix_refl _) (hasKinds_of_addPair hafter hd hvalue)

theorem readTableHeader_proper {d : Draft} (hd : d.HasKinds) (t : Text) :
    Proper Stop.Blames t Draft.HasKinds (readTableHeader d t) := by
  unfold readTableHeader
  refine proper_of_suffix (skipBlanks_suffix t) ?_
  refine (readKey_proper _).bind inherits_blames fun path rest _ _ => ?_
  refine proper_placed_bind fun after hafter => ?_
  split
  · exact .ok (List.suffix_cons _ _) (hasKinds_of_declareTable hafter hd)
  · exact .error trivial

theorem readElementHeader_proper {d : Draft} (hd : d.HasKinds) (t : Text) :
    Proper Stop.Blames t Draft.HasKinds (readElementHeader d t) := by
  unfold readElementHeader
  refine proper_of_suffix (skipBlanks_suffix t) ?_
  refine (readKey_proper _).bind inherits_blames fun path rest _ _ => ?_
  refine proper_placed_bind fun after hafter => ?_
  split
  · exact .ok ⟨[_, _], rfl⟩ (hasKinds_of_declareElement hafter hd)
  · exact .error trivial

theorem readStatement_proper {d : Draft} (hd : d.HasKinds) (t : Text) :
    Proper Stop.Blames t Draft.HasKinds (readStatement d t) := by
  unfold readStatement
  split
  · exact .ok (List.suffix_refl _) hd
  · exact proper_of_suffix ⟨[_, _], rfl⟩ (readElementHeader_proper hd _)
  · exact proper_of_suffix (List.suffix_cons _ _) (readTableHeader_proper hd _)
  · split
    · exact readPair_proper hd _
    · split
      · exact .ok (List.suffix_refl _) hd
      · exact .error trivial

/-- A draft that has been built from a text holds values of documents only, or the text is to blame
for a stop. -/
structure Completes (t : Text) (outcome : Except Stop Draft) : Prop where
  yields : ∀ d, outcome = .ok d → d.HasKinds
  stops : ∀ stop, outcome = .error stop → stop.Blames t

theorem completes_ok {d : Draft} (hd : d.HasKinds) (t : Text) : Completes t (.ok d) :=
  ⟨fun _ h => Except.ok.inj h ▸ hd, nofun⟩

theorem completes_error {stop : Stop} {t : Text} (h : stop.Blames t) : Completes t (.error stop) :=
  ⟨nofun, fun _ heq => Except.error.inj heq ▸ h⟩

theorem Completes.of_suffix {s t : Text} {outcome : Except Stop Draft} (hs : s <:+ t)
    (h : Completes s outcome) : Completes t outcome :=
  ⟨h.yields, fun stop hstop => inherits_blames stop s t hs (h.stops stop hstop)⟩

theorem Skips.completes_bind {t : Text} {outcome : Except Stop Text}
    {next : Text → Except Stop Draft} (h : Skips t outcome)
    (hnext : ∀ rest, Completes rest (next rest)) : Completes t (outcome >>= next) := by
  cases outcome with
  | error stop =>
      cases stop with
      | fault _ _ => exact completes_error trivial
      | limit e => exact absurd rfl (h.2 e)
  | ok rest => exact (hnext rest).of_suffix (h.1 rest rfl)

theorem completes_bind {t : Text} {outcome : Except Stop (Draft × Text)}
    {next : Draft × Text → Except Stop Draft} (h : Proper Stop.Blames t Draft.HasKinds outcome)
    (hnext : ∀ d rest, d.HasKinds → Completes rest (next (d, rest))) :
    Completes t (outcome >>= next) := by
  cases outcome with
  | error stop => exact completes_error (h.stops stop rfl)
  | ok found =>
      obtain ⟨d, rest⟩ := found
      exact (hnext d rest (h.yields d rest rfl)).of_suffix (h.leaves d rest rfl)

theorem readStatements_completes (count : Nat) {d : Draft} (hd : d.HasKinds) (t : Text) :
    Completes t (readStatements count d t) := by
  -- Every statement leaves an end piece of the text, so what is to blame for a stop is inherited.
  induction count generalizing d t with
  | zero => exact completes_ok hd t
  | succ count ih =>
      refine Completes.of_suffix (skipBlanks_suffix t) ?_
      unfold readStatements
      split
      · exact completes_ok hd _
      · rename_i rest heq
        rw [heq]
        exact (ih hd rest).of_suffix (List.suffix_cons _ rest)
      · refine completes_bind (readStatement_proper hd _) fun after rest hafter => ?_
        have hrest := (skipComment_skips (skipBlanks rest)).of_suffix (skipBlanks_suffix rest)
        refine hrest.completes_bind fun unread => ?_
        split
        · exact completes_ok hafter _
        · exact (ih hafter _).of_suffix (List.suffix_cons _ _)
        · exact completes_error trivial

/-! ## Whole texts -/

theorem exists_draft_of_read {t : Text} {entries : Entries} (h : read t = .ok entries) :
    ∃ d, readStatements (t.unixNewlines.length + 1) .empty t.unixNewlines = .ok d ∧
      d.root = entries := by
  unfold read at h
  dsimp only at h
  split at h
  · rename_i d hread
    exact ⟨d, hread, Except.ok.inj h⟩
  · cases h
  · cases h

/-- Every part of a document that has been read is a value of a document. -/
theorem everywhere_hasKind_of_read {t : Text} {entries : Entries} (h : read t = .ok entries) :
    entries.Everywhere HasKind := by
  obtain ⟨d, hread, rfl⟩ := exists_draft_of_read h
  exact (readStatements_completes _ hasKinds_empty _).yields d hread

theorem prefix_of_unixNewlines {run t : Text} (hrun : .char '\n' ∉ run)
    (h : run <+: t.unixNewlines) : run <+: t := by
  fun_induction Text.unixNewlines t generalizing run with
  | case1 rest _ =>
      cases run with
      | nil => exact List.nil_prefix
      | cons c run =>
          have hc := (List.cons_prefix_cons.mp h).1
          exact absurd List.mem_cons_self (hc ▸ hrun)
  | case2 c rest _ ih =>
      cases run with
      | nil => exact List.nil_prefix
      | cons d run =>
          obtain ⟨hd, htail⟩ := List.cons_prefix_cons.mp h
          rw [List.mem_cons, not_or] at hrun
          exact List.cons_prefix_cons.mpr ⟨hd, ih hrun.2 htail⟩
  | case3 => exact h

/-- Dropping carriage returns before newlines makes no new piece without newlines. -/
theorem infix_of_unixNewlines {run t : Text} (hrun : .char '\n' ∉ run)
    (h : run <:+: t.unixNewlines) : run <:+: t := by
  have hstarts := prefix_of_unixNewlines (t := t) hrun
  fun_induction Text.unixNewlines t with
  | case1 rest ih =>
      rcases List.infix_cons_iff.mp h with hfirst | hlater
      · exact (hstarts hfirst).isInfix
      · exact List.infix_cons (List.infix_cons (ih hlater (prefix_of_unixNewlines hrun)))
  | case2 c rest _ ih =>
      rcases List.infix_cons_iff.mp h with hfirst | hlater
      · exact (hstarts hfirst).isInfix
      · exact List.infix_cons (ih hlater (prefix_of_unixNewlines hrun))
  | case3 => exact h

theorem HasShortNumbers.unixNewlines {t : Text} (h : HasShortNumbers t) :
    HasShortNumbers t.unixNewlines := by
  intro run digits hrun hdigits
  refine h run digits (infix_of_unixNewlines (fun hmem => ?_) hrun) hdigits
  rcases hdigits.eq_or_isDigit _ hmem with hunderscore | hdigit
  · exact absurd hunderscore (by decide)
  · exact absurd hdigit (by decide)

/-- Only a number of too many digits can be too long to be read. -/
theorem read_ne_limit {t : Text} (hshort : HasShortNumbers t) (e : Numeral.LimitError) :
    read t ≠ .error (.limit e) := by
  intro h
  unfold read at h
  dsimp only at h
  split at h
  · cases h
  · rename_i hread
    exact (readStatements_completes _ hasKinds_empty _).stops _ hread hshort.unixNewlines
  · cases h

end Toml

end DocumentQuery
