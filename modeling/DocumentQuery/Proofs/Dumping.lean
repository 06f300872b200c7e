import DocumentQuery.Proofs.Display
import DocumentQuery.Proofs.Json.RoundTrip
import DocumentQuery.Proofs.Toml.RoundTrip

/-!
# What dumping yields

Whatever is dumped is a steady text.  Dumping fails only if some part of the value is to blame: a
part of no kind that documents hold, or an integer whose numeral is too long.

Both writers go through a value part by part, so both statements are made together about each of
their functions.  A steady text is written to the console in one way only, so it does not matter
whether what was dumped is highlighted.
-/

namespace DocumentQuery

/-! ## Outcomes -/

/-- What an outcome yields satisfies `P`, and the error that it ends with satisfies `Q`. -/
inductive Meets {ε α : Type} (P : α → Prop) (Q : ε → Prop) : Except ε α → Prop
  | ok {a : α} (h : P a) : Meets P Q (.ok a)
  | error {e : ε} (h : Q e) : Meets P Q (.error e)

namespace Meets

variable {ε α β : Type} {P : α → Prop} {P' : β → Prop} {Q Q' : ε → Prop}

theorem bind {first : Except ε α} {next : α → Except ε β} (h : Meets P Q first)
    (hnext : ∀ a, P a → Meets P' Q (next a)) : Meets P' Q (first >>= next) := by
  cases h with
  | ok ha => exact hnext _ ha
  | error he => exact .error he

/-- A list is made item by item.  What an error blames for the first item or for one of the others
it blames for one of them all. -/
theorem cons {γ : Type} {blames : ε → γ → Prop} {x : γ} {xs : List γ} {first : Except ε α}
    {others : Except ε (List β)} {f : α → β} (hfirst : Meets P (blames · x) first)
    (hf : ∀ a, P a → P' (f a))
    (hothers : Meets (fun l => ∀ b ∈ l, P' b) (fun e => ∃ y ∈ xs, blames e y) others) :
    Meets (fun l => ∀ b ∈ l, P' b) (fun e => ∃ y ∈ x :: xs, blames e y)
      (first >>= fun a => others >>= fun l => .ok (f a :: l)) := by
  cases hfirst with
  | error he => exact .error ⟨x, List.mem_cons_self, he⟩
  | ok ha =>
      cases hothers with
      | error he =>
          obtain ⟨y, hy, he⟩ := he
          exact .error ⟨y, List.mem_cons_of_mem x hy, he⟩
      | ok hl => exact .ok (List.forall_mem_cons.mpr ⟨hf _ ha, hl⟩)

theorem imp_error {outcome : Except ε α} (himp : ∀ e, Q e → Q' e) (h : Meets P Q outcome) :
    Meets P Q' outcome := by
  cases h with
  | ok ha => exact .ok ha
  | error he => exact .error (himp _ he)

theorem of_eq_ok {outcome : Except ε α} {a : α} (h : Meets P Q outcome) (heq : outcome = .ok a) :
    P a := by
  subst heq
  cases h with
  | ok ha => exact ha

theorem of_eq_error {outcome : Except ε α} {e : ε} (h : Meets P Q outcome)
    (heq : outcome = .error e) : Q e := by
  subst heq
  cases h with
  | error he => exact he

end Meets

namespace Value

/-! ## Parts that are to blame -/

/-- The value is no integer whose numeral is too long. -/
def IsShort (v : Value) : Prop :=
  ∀ i, v = .integer i → Numeral.isWritable i = true

variable {P : Value → Prop}

theorem not_everywhere_of_item {form : ArrayForm} {items : List Value}
    (h : ∃ item ∈ items, ¬item.Everywhere P) : ¬(Value.array form items).Everywhere P := by
  obtain ⟨item, hmem, hitem⟩ := h
  exact fun hall => hitem ((everywhere_array_iff.mp hall).2 item hmem)

theorem not_everywhere_of_entry {entries : Entries}
    (h : ∃ entry ∈ entries, ¬entry.2.Everywhere P) : ¬(Value.table entries).Everywhere P := by
  obtain ⟨entry, hmem, hentry⟩ := h
  exact fun hall => hentry ((everywhere_table_iff.mp hall).2 entry hmem)

theorem not_everywhere_hasKind {v : Value} {type : ForeignType} (h : v.kind = .error type) :
    ¬v.Everywhere HasKind := by
  intro hall
  obtain ⟨kind, hkind⟩ := hall.here
  rw [h] at hkind
  cases hkind

theorem not_everywhere_isShort {i : Int} (h : ¬Numeral.isWritable i = true) :
    ¬(Value.integer i).Everywhere IsShort :=
  fun hall => h (hall.here i rfl)

end Value

open Value

theorem Numeral.meets_write (i : Int) :
    Meets Text.IsSteady (fun _ => ¬(Value.integer i).Everywhere IsShort) (Numeral.write i) := by
  unfold Numeral.write
  split
  · exact .ok (isPlain_ofInt i).isSteady
  · rename_i h
    exact .error (not_everywhere_isShort h)

theorem isPlain_truth (b : Bool) : Text.IsPlain (if b then "true" else "false") := by
  cases b <;> decide +kernel

/-- The escape of a code point by its number holds no control character. -/
theorem isOrdinary_hexEscape (n : Nat) :
    ∀ d ∈ Text.ofString "\\u" ++ Text.hex 4 n, d.IsOrdinary := by
  have hbegin : Text.IsPlain "\\u" := by decide +kernel
  exact fun d hd => (hbegin.append (Text.isPlain_hex 4 n) d hd).1

/-! ## JSON -/

namespace Json

/-- What some part of a value lacks if there is no text for the value. -/
def WriteError.Lacked : WriteError → Value → Prop
  | .unsupported _ => HasKind
  | .limit _ => IsShort

theorem isOrdinary_escaped (c : CodePoint) : ∀ d ∈ escaped c, d.IsOrdinary := by
  unfold escaped
  split_ifs
  -- What is not escaped lies above the control characters.
  case neg => exact List.forall_mem_singleton.mpr (Or.inr (by omega))
  all_goals first
    | exact isOrdinary_hexEscape c.toNat
    | decide +kernel

theorem isSteady_writeString (t : Text) : (writeString t).IsSteady :=
  Text.isSteady_quoted isOrdinary_escaped t

theorem isPlain_lineBreak (layout : Layout) (depth : Nat) : (layout.lineBreak depth).IsPlain := by
  cases layout with
  | compact => exact Text.isPlain_nil
  | indented => exact (Text.isPlain_repeated (by decide) _).cons (by decide)

theorem isSteady_container (layout : Layout) (depth : Nat) {opening closing : Char}
    (hopening : (CodePoint.char opening).IsPlain) (hclosing : (CodePoint.char closing).IsPlain)
    {parts : List Text} (h : ∀ part ∈ parts, part.IsSteady) :
    (layout.container depth opening closing parts).IsSteady := by
  have hinner := isPlain_lineBreak layout (depth + 1)
  have hend := (isPlain_lineBreak layout depth).isSteady
  have hseparator : Text.IsPlain (.char ',' :: layout.lineBreak (depth + 1)) :=
    hinner.cons (by decide)
  unfold Layout.container
  split
  · exact (Text.IsPlain.cons hopening (Text.isPlain_nil.cons hclosing)).isSteady
  · refine (Text.IsSteady.append (Text.IsSteady.append ?_ ?_) hend).append
      (Text.isPlain_nil.cons hclosing).isSteady
    · exact (hinner.cons hopening).isSteady
    · exact .joined hseparator.isSteady h

theorem isPlain_colon (layout : Layout) : layout.colon.IsPlain := by
  cases layout <;> decide +kernel

mutual

/-- The text of a value is steady, and where there is none some part of the value is to blame. -/
theorem meets_writeAt (layout : Layout) (depth : Nat) (v : Value) :
    Meets Text.IsSteady (fun e => ¬v.Everywhere e.Lacked) (writeAt layout depth v) := by
  cases v with
  | string t => exact .ok (isSteady_writeString t)
  | integer i =>
      rw [writeAt_integer]
      have hwrite := Numeral.meets_write i
      split
      · rename_i t heq
        exact .ok (hwrite.of_eq_ok heq)
      · rename_i e heq
        exact .error (hwrite.of_eq_error heq)
  | float x =>
      exact .ok (FloatStyle.isPlain_render (by decide +kernel) (by decide +kernel) x).isSteady
  | boolean b => exact .ok (isPlain_truth b).isSteady
  | moment m => exact .ok (isSteady_writeString m.render)
  | null => exact .ok (show Text.IsPlain "null" by decide +kernel).isSteady
  | foreign type => exact .error (not_everywhere_hasKind rfl)
  | array form items =>
      rw [writeAt_array]
      refine ((meets_writeItems layout (depth + 1) items).imp_error ?_).bind fun texts htexts => ?_
      · exact fun e => not_everywhere_of_item
      · exact .ok (isSteady_container layout depth (by decide) (by decide) htexts)
  | table entries =>
      rw [writeAt_table]
      refine ((meets_writeMembers layout (depth + 1) entries).imp_error ?_).bind
        fun texts htexts => ?_
      · exact fun e => not_everywhere_of_entry
      · exact .ok (isSteady_container layout depth (by decide) (by decide) htexts)

theorem meets_writeItems (layout : Layout) (depth : Nat) (items : List Value) :
    Meets (fun texts : List Text => ∀ text ∈ texts, text.IsSteady)
      (fun e => ∃ item ∈ items, ¬item.Everywhere e.Lacked) (writeItems layout depth items) := by
  cases items with
  | nil => exact .ok nofun
  | cons item rest =>
      exact .cons (f := id) (meets_writeAt layout depth item) (fun _ => id)
        (meets_writeItems layout depth rest)

theorem meets_writeMembers (layout : Layout) (depth : Nat) (entries : List (Text × Value)) :
    Meets (fun texts : List Text => ∀ text ∈ texts, text.IsSteady)
      (fun e => ∃ entry ∈ entries, ¬entry.2.Everywhere e.Lacked)
      (writeMembers layout depth entries) := by
  cases entries with
  | nil => exact .ok nofun
  | cons entry rest =>
      obtain ⟨key, value⟩ := entry
      have hname := (isSteady_writeString key).append (isPlain_colon layout).isSteady
      exact .cons (x := (key, value)) (meets_writeAt layout depth value) (fun _ => hname.append)
        (meets_writeMembers layout depth rest)

end

theorem meets_write (layout : Layout) (v : Value) :
    Meets Text.IsSteady (fun e => ¬v.Everywhere e.Lacked) (write layout v) :=
  meets_writeAt layout 0 v

end Json

/-! ## TOML -/

namespace Toml

/-- What some part of a value lacks if there is no text for the value. -/
def WriteError.Lacked : WriteError → Value → Prop
  | .unsupported _ => HasKind
  | .inconvertible _ => HasKind
  | .limit _ => IsShort

theorem isOrdinary_escaped (c : CodePoint) : ∀ d ∈ escaped c, d.IsOrdinary := by
  unfold escaped
  split_ifs
  case neg h => exact List.forall_mem_singleton.mpr (Or.inr (by omega))
  all_goals first
    | exact isOrdinary_hexEscape c.toNat
    | decide +kernel

theorem isSteady_spellString (t : Text) : (spellString t).IsSteady :=
  Text.isSteady_quoted isOrdinary_escaped t

theorem isSteady_spellKey (key : Text) : (spellKey key).IsSteady := by
  unfold spellKey
  split
  · rename_i hbare
    rw [Bool.and_eq_true, List.all_eq_true] at hbare
    exact Text.IsPlain.isSteady fun c hc => CodePoint.isPlain_of_isBare (hbare.2 c hc)
  · exact isSteady_spellString key

theorem isSteady_spellPath (path : List Text) : (spellPath path).IsSteady := by
  refine .joined (show Text.IsPlain "." by decide +kernel).isSteady ?_
  exact List.forall_mem_map.mpr fun key _ => isSteady_spellKey key

theorem isPlain_spellMoment (m : Moment) : (spellMoment m).IsPlain := by
  cases m with
  | date d => exact d.isPlain_render
  | time c _ => exact c.isPlain_render.dropEndWhile _
  | dateTime d c offset =>
      have hletter : Text.IsPlain "T" := by decide +kernel
      refine ((d.isPlain_render.append hletter).append c.isPlain_render).append ?_
      cases offset with
      | none => exact Text.isPlain_nil
      | some o =>
          dsimp only
          split
          · decide +kernel
          · exact o.isPlain_render

/-! ### Making items -/

namespace Item

/-- All spellings of scalars in an item are steady. -/
inductive IsSteady : Item → Prop
  | scalar {spelling : Text} (h : spelling.IsSteady) : IsSteady (.scalar spelling)
  | array {items : List Item} (h : ∀ item ∈ items, IsSteady item) : IsSteady (.array items)
  | table {entries : List (Text × Item)} (h : ∀ entry ∈ entries, IsSteady entry.2) :
      IsSteady (.table entries)

theorem not_everywhere_of_refuse {context : Context} {v : Value} {type : ForeignType}
    (h : v.kind = .error type) : ¬v.Everywhere (context.refuse type).Lacked := by
  cases context <;> exact not_everywhere_hasKind h

mutual

/-- The item of a value is steady, and where there is none some part of the value is to blame. -/
theorem meets_of (context : Context) (v : Value) :
    Meets IsSteady (fun e => ¬v.Everywhere e.Lacked) (Item.of context v) := by
  cases v with
  | string t => exact .ok (.scalar (isSteady_spellString t))
  | integer i =>
      refine Meets.bind (P := Text.IsSteady) ?_ fun spelling hspelling => .ok (.scalar hspelling)
      have hwrite := Numeral.meets_write i
      unfold spellInteger
      split
      · rename_i t heq
        exact .ok (hwrite.of_eq_ok heq)
      · rename_i e heq
        exact .error (hwrite.of_eq_error heq)
  | float x =>
      have hx : (floatStyle.render x).IsPlain :=
        FloatStyle.isPlain_render (by decide +kernel) (by decide +kernel) x
      exact .ok (.scalar hx.isSteady)
  | boolean b => exact .ok (.scalar (isPlain_truth b).isSteady)
  | moment m => exact .ok (.scalar (isPlain_spellMoment m).isSteady)
  | null => exact .error (not_everywhere_of_refuse rfl)
  | foreign type => exact .error (not_everywhere_of_refuse rfl)
  | array form items =>
      rw [of_array]
      refine ((meets_ofItems (context.ofItems items) items).imp_error ?_).bind
        fun items hitems => ?_
      · exact fun e => not_everywhere_of_item
      · exact .ok (.array hitems)
  | table entries =>
      rw [of_table]
      refine ((meets_ofEntries context entries).imp_error ?_).bind fun items hitems => ?_
      · exact fun e => not_everywhere_of_entry
      · exact .ok (.table hitems)

theorem meets_ofItems (context : Context) (values : List Value) :
    Meets (fun items : List Item => ∀ item ∈ items, item.IsSteady)
      (fun e => ∃ v ∈ values, ¬v.Everywhere e.Lacked) (Item.ofItems context values) := by
  cases values with
  | nil => exact .ok nofun
  | cons v rest =>
      have hrest := meets_ofItems context rest
      cases v with
      | table entries =>
          have hblames (e : WriteError) (he : ∃ entry ∈ entries, ¬entry.2.Everywhere e.Lacked) :
              ∃ v ∈ Value.table entries :: rest, ¬v.Everywhere e.Lacked :=
            ⟨_, List.mem_cons_self, not_everywhere_of_entry he⟩
          rw [Item.ofItems]
          split
          · -- In a block the tables among the entries come last, so there are two rounds.
            refine ((meets_ofEntriesWhere false context entries).imp_error hblames).bind
              fun others hothers => ?_
            refine ((meets_ofEntriesWhere true context entries).imp_error hblames).bind
              fun tables htables => ?_
            exact .cons (f := Item.table) (.ok (List.forall_mem_append.mpr ⟨hothers, htables⟩))
              (fun _ => .table) hrest
          · exact .cons (f := Item.table)
              ((meets_ofEntries context entries).imp_error fun _ => not_everywhere_of_entry)
              (fun _ => .table) hrest
      | _ => exact .cons (f := id) (meets_of context _) (fun _ => id) hrest

theorem meets_ofEntries (context : Context) (entries : List (Text × Value)) :
    Meets (fun items : List (Text × Item) => ∀ item ∈ items, item.2.IsSteady)
      (fun e => ∃ entry ∈ entries, ¬entry.2.Everywhere e.Lacked)
      (Item.ofEntries context entries) := by
  cases entries with
  | nil => exact .ok nofun
  | cons entry rest =>
      obtain ⟨key, v⟩ := entry
      exact .cons (x := (key, v)) (f := fun item => (key, item)) (meets_of context v) (fun _ => id)
        (meets_ofEntries context rest)

theorem meets_ofEntriesWhere (tables : Bool) (context : Context) (entries : List (Text × Value)) :
    Meets (fun items : List (Text × Item) => ∀ item ∈ items, item.2.IsSteady)
      (fun e => ∃ entry ∈ entries, ¬entry.2.Everywhere e.Lacked)
      (Item.ofEntriesWhere tables context entries) := by
  cases entries with
  | nil => exact .ok nofun
  | cons entry rest =>
      obtain ⟨key, v⟩ := entry
      have hrest := meets_ofEntriesWhere tables context rest
      rw [Item.ofEntriesWhere]
      split
      · exact .cons (x := (key, v)) (f := fun item => (key, item)) (meets_of context v)
          (fun _ => id) hrest
      · exact hrest.imp_error fun e ⟨other, hmem, he⟩ => ⟨other, List.mem_cons_of_mem _ hmem, he⟩

end

/-! ### Setting items out -/

theorem isSteady_bracketed {texts : List Text} (h : ∀ text ∈ texts, text.IsSteady) :
    Text.IsSteady ("[" ++ Text.joined ", " texts ++ "]") := by
  have hopening : Text.IsPlain "[" := by decide +kernel
  have hcomma : Text.IsPlain ", " := by decide +kernel
  have hclosing : Text.IsPlain "]" := by decide +kernel
  exact (hopening.isSteady.append (.joined hcomma.isSteady h)).append hclosing.isSteady

theorem isSteady_inline {item : Item} (h : item.IsSteady) (document tight : Bool) :
    (item.inline document tight).IsSteady := by
  induction h generalizing tight with
  | scalar hspelling => exact hspelling
  | array _ ih =>
      rw [inline, inlineItems_eq_map]
      exact isSteady_bracketed (List.forall_mem_map.mpr fun item hitem => ih item hitem false)
  | table _ ih =>
      have hopening : Text.IsPlain [.char '\x7b'] := by decide
      have hcomma : Text.IsPlain (if document && tight then "," else ", ") := by
        split <;> decide +kernel
      have hclosing : Text.IsPlain [.char '\x7d'] := by decide
      have hequals : Text.IsPlain " = " := by decide +kernel
      rw [inline, inlineEntries_eq_map]
      refine (hopening.isSteady.append (.joined hcomma.isSteady ?_)).append hclosing.isSteady
      refine List.forall_mem_map.mpr fun entry hentry => ?_
      exact ((isSteady_spellKey entry.1).append hequals.isSteady).append (ih entry hentry true)

theorem isSteady_render_array {texts : List Text} (h : ∀ text ∈ texts, text.IsSteady)
    (split : Bool) : ((Piece.array texts).render split).IsSteady := by
  rw [Piece.render]
  split
  · have hopening : Text.IsPlain "[\n" := by decide +kernel
    have hindent : Text.IsPlain "    " := by decide +kernel
    have hcomma : Text.IsPlain ",\n" := by decide +kernel
    have hclosing : Text.IsPlain "]" := by decide +kernel
    refine (hopening.isSteady.append (.flatten ?_)).append hclosing.isSteady
    refine List.forall_mem_map.mpr fun text htext => ?_
    exact (hindent.isSteady.append (h text htext)).append hcomma.isSteady
  · exact isSteady_bracketed h

theorem isSteady_outermost {item : Item} (h : item.IsSteady) (document split : Bool) :
    ((item.outermost document).render split).IsSteady := by
  cases h with
  | scalar hspelling => exact hspelling
  | table hentries => exact isSteady_inline (.table hentries) document false
  | array hitems =>
      refine isSteady_render_array ?_ split
      rw [inlineItems_eq_map]
      exact List.forall_mem_map.mpr fun item hitem =>
        isSteady_inline (hitems item hitem) document false

end Item

section

variable (split : Bool)

theorem isSteady_singleton {piece : Piece} (h : (piece.render split).IsSteady) :
    (renderPieces split [piece]).IsSteady :=
  Text.IsSteady.flatten (List.forall_mem_singleton.mpr h)

theorem isSteady_emptyLine (wanted : Bool) : (renderPieces split (emptyLine wanted)).IsSteady := by
  cases wanted with
  | false => exact Text.isSteady_nil
  | true => exact isSteady_singleton split (show Text.IsPlain "\n" by decide +kernel).isSteady

theorem isSteady_tableHeader (path : List Text) (entries : List (Text × Item)) :
    (renderPieces split (tableHeader path entries)).IsSteady := by
  have hopening : Text.IsPlain "[" := by decide +kernel
  have hclosing : Text.IsPlain "]\n" := by decide +kernel
  unfold tableHeader
  split
  · exact Text.isSteady_nil
  · exact isSteady_singleton _
      ((hopening.isSteady.append (isSteady_spellPath path)).append hclosing.isSteady)

theorem isSteady_elementHeader (path : List Text) :
    (renderPieces split (elementHeader path)).IsSteady := by
  have hopening : Text.IsPlain "[[" := by decide +kernel
  have hclosing : Text.IsPlain "]]\n" := by decide +kernel
  exact isSteady_singleton split
    ((hopening.isSteady.append (isSteady_spellPath path)).append hclosing.isSteady)

theorem isSteady_plainLines {entries : List (Text × Item)}
    (h : ∀ entry ∈ entries, entry.2.IsSteady) :
    (renderPieces split (plainLines entries)).IsSteady := by
  induction entries with
  | nil => exact Text.isSteady_nil
  | cons entry rest ih =>
      obtain ⟨key, item⟩ := entry
      obtain ⟨hitem, hrest⟩ := List.forall_mem_cons.mp h
      rw [plainLines_cons, renderPieces_append]
      refine Text.IsSteady.append ?_ (ih hrest)
      split
      · exact Text.isSteady_nil
      · have hequals : Text.IsPlain " = " := by decide +kernel
        have hnewline : Text.IsPlain [.char '\n'] := by decide
        rw [renderPieces_entryLine]
        exact (((isSteady_spellKey key).append hequals.isSteady).append
          (Item.isSteady_outermost hitem true split)).append hnewline.isSteady

mutual

/-- Whatever is written of steady items below headers is steady. -/
theorem isSteady_headed (path : List Text) (blank first : Bool) {item : Item}
    (h : item.IsSteady) : (renderPieces split (headed path blank first item)).IsSteady := by
  cases item with
  | scalar _ => exact Text.isSteady_nil
  | table inner =>
      cases h with
      | table hinner =>
          rw [headed, renderPieces_append, renderPieces_append, renderPieces_append]
          exact (((isSteady_emptyLine split blank).append
            (isSteady_tableHeader split path inner)).append
            (isSteady_plainLines split hinner)).append (isSteady_sections path _ true hinner)
  | array items =>
      cases h with
      | array hitems =>
          rw [headed]
          split
          · exact isSteady_elements path (!first) hitems
          · exact Text.isSteady_nil

theorem isSteady_sections (path : List Text) (blank first : Bool) {entries : List (Text × Item)}
    (h : ∀ entry ∈ entries, entry.2.IsSteady) :
    (renderPieces split (sections path blank first entries)).IsSteady := by
  cases entries with
  | nil => exact Text.isSteady_nil
  | cons entry rest =>
      obtain ⟨key, item⟩ := entry
      obtain ⟨hitem, hrest⟩ := List.forall_mem_cons.mp h
      rw [sections, renderPieces_append]
      exact (isSteady_headed (path ++ [key]) blank first hitem).append
        (isSteady_sections path _ false hrest)

theorem isSteady_elements (path : List Text) (blank : Bool) {items : List Item}
    (h : ∀ item ∈ items, item.IsSteady) :
    (renderPieces split (elements path blank items)).IsSteady := by
  cases items with
  | nil => exact Text.isSteady_nil
  | cons item rest =>
      obtain ⟨hitem, hrest⟩ := List.forall_mem_cons.mp h
      cases item with
      | table inner =>
          cases hitem with
          | table hinner =>
              rw [elements, renderPieces_append, renderPieces_append, renderPieces_append,
                renderPieces_append]
              exact ((((isSteady_emptyLine split blank).append
                (isSteady_elementHeader split path)).append
                (isSteady_plainLines split hinner)).append
                (isSteady_sections path _ true hinner)).append (isSteady_elements path _ hrest)
      | scalar _ => exact isSteady_elements path false hrest
      | array _ => exact isSteady_elements path false hrest

end

end

theorem meets_pieces (split : Bool) (v : Value) :
    Meets (fun found => (renderPieces split found).IsSteady) (fun e => ¬v.Everywhere e.Lacked)
      (pieces v) := by
  cases htable : v.isTable with
  | false =>
      rw [Document.pieces_of_not_table htable]
      refine (Item.meets_of .outside v).bind fun item hitem => .ok ?_
      exact isSteady_singleton split (Item.isSteady_outermost hitem false split)
  | true =>
      cases v with
      | table entries =>
          rw [pieces]
          refine ((Item.meets_ofEntries .block entries).imp_error ?_).bind
            fun items hitems => .ok ?_
          · exact fun e => not_everywhere_of_entry
          · rw [document, renderPieces_append]
            exact (isSteady_plainLines split hitems).append
              (isSteady_sections split [] _ true hitems)
      | _ => cases htable

/-- The text of a value is steady, and where there is none some part of the value is to blame. -/
theorem meets_write (split : Bool) (v : Value) :
    Meets Text.IsSteady (fun e => ¬v.Everywhere e.Lacked) (write split v) :=
  (meets_pieces split v).bind fun _ hfound => .ok hfound

end Toml

/-! ## Both formats -/

namespace Document

/-- What some part of a value lacks if the value cannot be dumped. -/
inductive IsLacking (v : Value) : Failure → Prop
  | unsupported (type : ForeignType) (h : ¬v.Everywhere HasKind) : IsLacking v (.unsupported type)
  | inconvertible (type : ForeignType) (h : ¬v.Everywhere HasKind) :
      IsLacking v (.inconvertible type)
  | limit (e : Numeral.LimitError) (h : ¬v.Everywhere IsShort) : IsLacking v (.limit e)

/-- The text of a value is steady in both formats, and where there is none some part of the value
is to blame. -/
theorem meets_dump (format : Format) (pretty : Bool) (v : Value) :
    Meets Text.IsSteady (IsLacking v) (dump format pretty v) := by
  cases format with
  | json =>
      have hwrite := Json.meets_write (if pretty then .indented else .compact) v
      rw [dump]
      cases houtcome : Json.write (if pretty then .indented else .compact) v with
      | ok text => exact .ok (hwrite.of_eq_ok houtcome)
      | error e =>
          have he := hwrite.of_eq_error houtcome
          cases e with
          | unsupported type => exact .error (.unsupported type he)
          | limit e => exact .error (.limit e he)
  | toml =>
      have hwrite := Toml.meets_write pretty v
      rw [dump]
      cases houtcome : Toml.write pretty v with
      | ok text => exact .ok (hwrite.of_eq_ok houtcome)
      | error e =>
          have he := hwrite.of_eq_error houtcome
          cases e with
          | unsupported type => exact .error (.unsupported type he)
          | inconvertible type => exact .error (.inconvertible type he)
          | limit e => exact .error (.limit e he)

theorem isSteady_of_dump {format : Format} {pretty : Bool} {v : Value} {text : Text}
    (h : dump format pretty v = .ok text) : text.IsSteady :=
  (meets_dump format pretty v).of_eq_ok h

/-- Dumping a value of documents fails only at an integer whose numeral is too long. -/
theorem limit_of_dump {format : Format} {pretty : Bool} {v : Value} {e : Failure}
    (hv : v.Everywhere HasKind) (h : dump format pretty v = .error e) :
    (∃ limit, e = .limit limit) ∧ ¬v.Everywhere IsShort := by
  cases (meets_dump format pretty v).of_eq_error h with
  | unsupported _ hlack => exact absurd hv hlack
  | inconvertible _ hlack => exact absurd hv hlack
  | limit limit hlack => exact ⟨⟨limit, rfl⟩, hlack⟩

/-! ### On the console -/

/-- **Highlighting changes nothing in a dumped text.**  Newlines are the only control characters of
the text.  Without those at its end it is written as it is, followed by exactly one newline,
whatever the choice of colour and whatever the console. -/
theorem emitted_of_dump {format : Format} {pretty : Bool} {v : Value} {text : Text}
    (h : dump format pretty v = .ok text) :
    (∀ c ∈ text, c ≠ .char '\n' → 0x20 ≤ c.toNat) ∧
      ∃ body count, text = body ++ Text.repeated count '\n' ∧
        body.getLast? ≠ some (.char '\n') ∧
        ∀ color terminal,
          Display.emitted color terminal text = body ++ Text.ofString "\n" := by
  have hsteady := isSteady_of_dump h
  obtain ⟨count, htext⟩ := Text.exists_dropEndWhile_append (.char '\n') text
  refine ⟨fun c hc hne => (hsteady.ordinary c hc).resolve_left hne, _, count, htext.symm, ?_,
    Display.emitted_of_isSteady hsteady⟩
  intro hlast
  have hkept := Text.getLast?_dropEndWhile _ text _ hlast
  simp at hkept

/-- A tab in a key, and an escape character and newlines in a string: all of them are escaped, and
the only newlines of the text are those of its layout. -/
theorem emitted_of_dump_controls :
    let v : Value := .table [("a\tb", .array .tuple [.string "\x1B[31m\n\n"])]
    let text : Text := "\"a\\tb\" = [\n    \"\\u001b[31m\\n\\n\",\n]\n"
    dump .toml true v = .ok text ∧
      (∀ c ∈ text, c ≠ .char '\n' → 0x20 ≤ c.toNat) ∧
        ∃ body count, text = body ++ Text.repeated count '\n' ∧
          body.getLast? ≠ some (.char '\n') ∧
          ∀ color terminal,
            Display.emitted color terminal text = body ++ Text.ofString "\n" := by
  intro v text
  have hdump : dump .toml true v = .ok text := by decide +kernel
  exact ⟨hdump, emitted_of_dump hdump⟩

end Document

end DocumentQuery
