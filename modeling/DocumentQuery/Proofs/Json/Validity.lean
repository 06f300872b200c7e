import DocumentQuery.Proofs.Json.Numbers
import DocumentQuery.Proofs.Refusals

/-!
# Written JSON and the grammar of JSON

What is written for a value is a JSON text exactly if every floating-point number in the value is
finite.  Everything else has its counterpart in the grammar: moments become strings, control
characters are escaped, and both layouts put white space only where it is insignificant.  For what
is no finite number there are words, and these are none of the words of JSON.

`Judged` states both directions about the text of one part: it derives if the part is finite, and
shows a stray character if it is not.  A text that shows a stray character is part of no JSON text,
so this is kept when parts are put together.
-/

namespace DocumentQuery

/-- The value is no floating-point number that is infinite or none at all. -/
def Value.IsFinite (v : Value) : Prop :=
  ∀ x, v = .float x → ∃ negative mantissa exponent, x.reading = .finite negative mantissa exponent

namespace Json

open Grammar Value

/-! ## Strings -/

theorem isHexDigit_digitChar (n : Nat) : IsHexDigit (.char (n % 16).digitChar) := by
  have hall : ∀ d < 16, IsHexDigit (.char d.digitChar) := by
    unfold IsHexDigit
    decide +kernel
  exact hall _ (Nat.mod_lt n (by decide))

theorem isChar_escaped (c : CodePoint) : IsChar (escaped c) := by
  unfold escaped
  -- The first seven cases are the escapes by a letter.
  iterate 7
    split
    next => exact .escape (by decide +kernel)
  split
  · rw [Text.hex_four]
    refine .number ?_
    simp only [List.forall_mem_cons, isHexDigit_digitChar, true_and]
    exact nofun
  · rename_i hquote hbackslash _ _ _ _ _ hcontrol
    exact .unescaped (Nat.not_lt.mp hcontrol) hquote hbackslash

theorem isString_writeString (t : Text) : IsString (writeString t) := by
  refine ⟨t.map escaped, ?_, ?_⟩
  · rintro _ hchar
    obtain ⟨c, -, rfl⟩ := List.mem_map.mp hchar
    exact isChar_escaped c
  · rw [writeString, List.flatMap_def]
    rfl

/-! ## Stray characters -/

/-- Outside strings the text holds a character that no JSON text holds there. -/
def Strays (t : Text) : Prop :=
  ∃ s, Shows t s ∧ ∃ c ∈ s, ¬MayShow c

theorem Strays.not_isBare {t : Text} (h : Strays t) : ¬IsBare t := by
  rintro ⟨s, hs, hall⟩
  obtain ⟨s', hs', c, hc, hstray⟩ := h
  rw [← hs'.eq_shown, hs.eq_shown] at hc
  exact hstray (hall c hc)

theorem Strays.append_left {t : Text} (h : Strays t) {before s : Text} (hbefore : Shows before s) :
    Strays (before ++ t) := by
  obtain ⟨shown, hshown, c, hc, hstray⟩ := h
  exact ⟨s ++ shown, hbefore.append hshown, c, List.mem_append_right s hc, hstray⟩

theorem Strays.append_right {t : Text} (h : Strays t) {after s : Text} (hafter : Shows after s) :
    Strays (t ++ after) := by
  obtain ⟨shown, hshown, c, hc, hstray⟩ := h
  exact ⟨shown ++ s, hshown.append hafter, c, List.mem_append_left s hc, hstray⟩

/-- The text derives if `P` holds, and otherwise it strays. -/
structure Judged (symbol : Symbol) (t : Text) (P : Prop) : Prop where
  derives : P → Derives symbol t
  strays : ¬P → Strays t

namespace Judged

variable {symbol : Symbol} {t : Text} {P : Prop}

theorem of_derives (h : Derives symbol t) (hP : P) : Judged symbol t P :=
  ⟨fun _ => h, fun hnot => absurd hP hnot⟩

theorem of_strays (h : Strays t) (hP : ¬P) : Judged symbol t P :=
  ⟨fun hholds => absurd hholds hP, fun _ => h⟩

/-- In either case the text ends outside strings. -/
theorem exists_shows (h : Judged symbol t P) : ∃ s, Shows t s := by
  by_cases hP : P
  · obtain ⟨s, hs, -⟩ := (h.derives hP).isBare
    exact ⟨s, hs⟩
  · obtain ⟨s, hs, -⟩ := h.strays hP
    exact ⟨s, hs⟩

theorem iff (h : Judged symbol t P) {Q : Prop} (hiff : P ↔ Q) : Judged symbol t Q :=
  ⟨fun hQ => h.derives (hiff.mpr hQ), fun hQ => h.strays (mt hiff.mp hQ)⟩

theorem isText_iff (h : Judged (.one .value) t P) : IsText t ↔ P := by
  constructor
  · intro htext
    by_contra hP
    exact (h.strays hP).not_isBare htext.isBare
  · intro hP
    exact ⟨[], t, [], nofun, nofun, h.derives hP, (List.append_nil t).symm⟩

end Judged

/-! ## Containers -/

theorem isToken_of_isGap {c : Char} {before after : Text} (hbefore : IsGap before)
    (hafter : IsGap after) : IsToken c (before ++ .char c :: after) :=
  ⟨before, after, hbefore, hafter, rfl⟩

theorem isGap_lineBreak (layout : Layout) (depth : Nat) : IsGap (layout.lineBreak depth) := by
  cases layout with
  | compact => exact nofun
  | indented =>
      refine List.forall_mem_cons.mpr ⟨by decide, fun c hc => ?_⟩
      exact Or.inl (List.eq_of_mem_replicate hc)

theorem isToken_colon (layout : Layout) : IsToken ':' layout.colon := by
  cases layout with
  | compact => exact ⟨[], [], nofun, nofun, rfl⟩
  | indented => exact ⟨[], [.char ' '], nofun, by unfold IsGap; decide, rfl⟩

section

variable {α : Type} {part : Part} {P : α → Prop} {xs : List α} {texts : List Text}

/-- A list of parts is as good as its parts. -/
theorem judged_joined {comma : Text} (hcomma : IsToken ',' comma) (hne : texts ≠ [])
    (h : List.Forall₂ (fun x text => Judged (.one part) text (P x)) xs texts) :
    Judged (.list part) (Text.joined comma texts) (∀ x ∈ xs, P x) := by
  obtain ⟨c, hc, -⟩ := isBare_of_isToken (by decide +kernel) hcomma
  induction h with
  | nil => exact absurd rfl hne
  | @cons x text xs texts hfirst hrest ih =>
      cases hrest with
      | nil =>
          rw [Text.joined_singleton]
          exact ⟨fun hall => .last (hfirst.derives (List.forall_mem_singleton.mp hall)),
            fun hnot => hfirst.strays fun hx => hnot (List.forall_mem_singleton.mpr hx)⟩
      | cons _ _ =>
          have hothers := ih (List.cons_ne_nil _ _)
          rw [Text.joined_cons_cons]
          constructor
          · intro hall
            obtain ⟨hx, hxs⟩ := List.forall_mem_cons.mp hall
            exact .more (hfirst.derives hx) hcomma (hothers.derives hxs)
          · intro hnot
            obtain ⟨first, hshows⟩ := hfirst.exists_shows
            obtain ⟨rest, hrest⟩ := hothers.exists_shows
            -- The stray character is in this part or in a later one.
            by_cases hx : P x
            · have hstrays := hothers.strays fun hxs => hnot (List.forall_mem_cons.mpr ⟨hx, hxs⟩)
              exact (hstrays.append_left hc).append_left hshows
            · exact (hfirst.strays hx).append_right (hc.append hrest)

/-- A container is as good as its parts. -/
theorem judged_container (layout : Layout) (depth : Nat) (part : Part)
    (h : List.Forall₂ (fun x text => Judged (.one part) text (P x)) xs texts) :
    Judged (.one .value) (layout.container depth part.opening part.closing texts)
      (∀ x ∈ xs, P x) := by
  have hgap : IsGap [] := nofun
  by_cases hne : texts = []
  · subst hne
    cases h
    refine .of_derives (.empty part (isToken_of_isGap hgap hgap) (isToken_of_isGap hgap hgap)) nofun
  · have hinner := isGap_lineBreak layout (depth + 1)
    have hopening : IsToken part.opening (.char part.opening :: layout.lineBreak (depth + 1)) :=
      isToken_of_isGap hgap hinner
    have hcomma : IsToken ',' (.char ',' :: layout.lineBreak (depth + 1)) :=
      isToken_of_isGap hgap hinner
    have hclosing : IsToken part.closing (layout.lineBreak depth ++ [.char part.closing]) :=
      isToken_of_isGap (isGap_lineBreak layout depth) hgap
    have hparts := judged_joined hcomma hne h
    have htext := container_of_ne_nil layout depth part.opening part.closing hne []
    rw [List.append_nil, ← List.cons_append] at htext
    rw [htext]
    constructor
    · intro hall
      exact .container part hopening (hparts.derives hall) hclosing
    · intro hnot
      obtain ⟨first, hfirst, -⟩ := isBare_of_isToken (mayShow_opening part) hopening
      obtain ⟨last, hlast, -⟩ := isBare_of_isToken (mayShow_closing part) hclosing
      exact ((hparts.strays hnot).append_right hlast).append_left hfirst

end

theorem judged_member (layout : Layout) (key : Text) {t : Text} {P : Prop}
    (h : Judged (.one .value) t P) :
    Judged (.one .member) (writeString key ++ layout.colon ++ t) P := by
  have hname := isString_writeString key
  have hcolon := isToken_colon layout
  rw [List.append_assoc]
  constructor
  · intro hP
    exact .member hname hcolon (h.derives hP)
  · intro hP
    obtain ⟨s, hs, -⟩ := isBare_of_isToken (by decide +kernel) hcolon
    exact ((h.strays hP).append_left hs).append_left (shows_of_isString hname)

/-! ## Values -/

/-- The words for what is no finite number are none of JSON. -/
theorem judged_float (x : Binary64) :
    Judged (.one .value) (floatStyle.render x) (Value.float x).IsFinite := by
  have hstrays {t : Text} (hquote : .char '"' ∉ t) (hstray : ∃ c ∈ t, ¬MayShow c)
      (hreading : ∀ negative mantissa exponent, x.reading ≠ .finite negative mantissa exponent) :
      Judged (.one .value) t (Value.float x).IsFinite := by
    refine .of_strays ⟨t, shows_of_not_mem hquote, hstray⟩ fun hfinite => ?_
    obtain ⟨negative, mantissa, exponent, h⟩ := hfinite x rfl
    exact hreading negative mantissa exponent h
  cases hreading : x.reading with
  | nan =>
      have htext : floatStyle.render x = Text.ofString "NaN" := by
        rw [FloatStyle.render, hreading]
        rfl
      rw [htext]
      exact hstrays (by decide +kernel) (by decide +kernel) (by simp [hreading])
  | infinite negative =>
      have htext : floatStyle.render x =
          Text.ofString (if negative then "-" else "") ++ Text.ofString "Infinity" := by
        rw [FloatStyle.render, hreading]
        rfl
      rw [htext]
      cases negative <;>
        exact hstrays (by decide +kernel) (by decide +kernel) (by simp [hreading])
  | finite negative mantissa exponent =>
      refine .of_derives (.number (FloatStyle.isNumber_render (by decide) (by decide) hreading)) ?_
      rintro _ ⟨⟩
      exact ⟨negative, mantissa, exponent, hreading⟩

theorem everywhere_isFinite_of_isLeaf {v : Value} (hleaf : v.IsLeaf) :
    v.Everywhere IsFinite ↔ v.IsFinite :=
  ⟨fun h => h.here, everywhere_of_isLeaf hleaf⟩

theorem eq_ofInt_of_writeAt {layout : Layout} {depth : Nat} {i : Int} {t : Text}
    (h : writeAt layout depth (.integer i) = .ok t) : t = Numeral.ofInt i := by
  rw [writeAt_integer] at h
  unfold Numeral.write at h
  split_ifs at h
  cases h
  rfl

mutual

/-- The text of a value derives if all numbers in the value are finite, and otherwise it strays. -/
theorem judged_writeAt (layout : Layout) (depth : Nat) (v : Value) {t : Text}
    (h : writeAt layout depth v = .ok t) : Judged (.one .value) t (v.Everywhere IsFinite) := by
  cases v with
  | string text =>
      cases h
      exact .of_derives (.string (isString_writeString text))
        (everywhere_of_isLeaf ⟨nofun, nofun⟩ nofun)
  | integer i =>
      obtain rfl := eq_ofInt_of_writeAt h
      exact .of_derives (.number (Numeral.isNumber_ofInt i))
        (everywhere_of_isLeaf ⟨nofun, nofun⟩ nofun)
  | float x =>
      cases h
      have hleaf : (Value.float x).IsLeaf := ⟨nofun, nofun⟩
      exact (judged_float x).iff (everywhere_isFinite_of_isLeaf hleaf).symm
  | boolean b =>
      cases h
      refine .of_derives (.word ?_) (everywhere_of_isLeaf ⟨nofun, nofun⟩ nofun)
      cases b <;> decide +kernel
  | moment m =>
      cases h
      exact .of_derives (.string (isString_writeString m.render))
        (everywhere_of_isLeaf ⟨nofun, nofun⟩ nofun)
  | null =>
      cases h
      exact .of_derives (.word (by decide +kernel)) (everywhere_of_isLeaf ⟨nofun, nofun⟩ nofun)
  | foreign type => cases h
  | array form items =>
      rw [writeAt_array] at h
      obtain ⟨texts, htexts, h⟩ := exists_of_bind_eq_ok h
      cases h
      refine (judged_container layout depth .value
        (judged_writeItems layout (depth + 1) items htexts)).iff ?_
      rw [everywhere_array_iff, and_iff_right nofun]
  | table entries =>
      rw [writeAt_table] at h
      obtain ⟨texts, htexts, h⟩ := exists_of_bind_eq_ok h
      cases h
      refine (judged_container layout depth .member
        (judged_writeMembers layout (depth + 1) entries htexts)).iff ?_
      rw [everywhere_table_iff, and_iff_right nofun]

theorem judged_writeItems (layout : Layout) (depth : Nat) (items : List Value) {texts : List Text}
    (h : writeItems layout depth items = .ok texts) :
    List.Forall₂ (fun item text => Judged (.one .value) text (item.Everywhere IsFinite)) items
      texts := by
  cases items with
  | nil =>
      cases h
      exact .nil
  | cons item rest =>
      obtain ⟨text, htext, h⟩ := exists_of_bind_eq_ok h
      obtain ⟨others, hothers, h⟩ := exists_of_bind_eq_ok h
      cases h
      exact .cons (judged_writeAt layout depth item htext)
        (judged_writeItems layout depth rest hothers)

theorem judged_writeMembers (layout : Layout) (depth : Nat) (entries : List (Text × Value))
    {texts : List Text} (h : writeMembers layout depth entries = .ok texts) :
    List.Forall₂
      (fun entry text => Judged (.one .member) text (entry.2.Everywhere IsFinite)) entries
      texts := by
  cases entries with
  | nil =>
      cases h
      exact .nil
  | cons entry rest =>
      obtain ⟨text, htext, h⟩ := exists_of_bind_eq_ok h
      obtain ⟨others, hothers, h⟩ := exists_of_bind_eq_ok h
      cases h
      exact .cons (judged_member layout entry.1 (judged_writeAt layout depth entry.2 htext))
        (judged_writeMembers layout depth rest hothers)

end

end Json

namespace Document

open Json Value

theorem judged_of_dump {pretty : Bool} {v : Value} {text : Text}
    (h : dump .json pretty v = .ok text) :
    Judged (.one .value) text (v.Everywhere IsFinite) := by
  rw [dump, Json.write] at h
  split at h
  · rename_i hwrite
    cases h
    exact judged_writeAt _ 0 v hwrite
  · cases h
  · cases h

/-- **JSON output is JSON as far as it can be.**  Whatever is dumped as JSON, in either layout, is a
JSON text exactly if every floating-point number in the value is finite. -/
theorem dump_json_isText_iff {pretty : Bool} {v : Value} {text : Text}
    (h : dump .json pretty v = .ok text) : Json.IsText text ↔ v.Everywhere IsFinite :=
  (judged_of_dump h).isText_iff

/-- A number with a fraction, the negative zero and a text with a control character in it. -/
theorem dump_json_isText_iff_nested :
    let half : Value := .float (Binary64.ofDecimal false 5 (-1))
    let zero : Value := .float (Binary64.ofWord true 0)
    let v : Value := .table [("x", .array .tuple [half, zero, .string [.char '\x00']])]
    let text : Text :=
      "\x7b\n  \"x\": [\n    0.5,\n    -0.0,\n    \"\\u0000\"\n  ]\n\x7d"
    dump .json true v = .ok text ∧ (Json.IsText text ↔ v.Everywhere IsFinite) := by
  intro half zero v text
  have hdump : dump .json true v = .ok text := by decide +kernel
  exact ⟨hdump, dump_json_isText_iff hdump⟩

/-- What is no number is loaded from TOML and dumped as a word that JSON does not have. -/
theorem dump_json_of_nan :
    ∃ entries v text, load .toml "x = nan" = .ok entries ∧ extract (.table entries) [] = .ok v ∧
      dump .json false v = .ok text ∧ ¬Json.IsText text := by
  have hrun : (load .toml "x = nan" >>= fun entries =>
      extract (.table entries) [] >>= dump .json false) = .ok "\x7b\"x\":NaN\x7d" := by
    decide +kernel
  obtain ⟨entries, hload, hrun⟩ := exists_of_bind_eq_ok hrun
  obtain ⟨v, hextract, hdump⟩ := exists_of_bind_eq_ok hrun
  refine ⟨entries, v, _, hload, hextract, hdump, fun htext => ?_⟩
  obtain ⟨s, hshows, hall⟩ := htext.isBare
  -- What the text shows outside strings is the word, and no JSON text holds its first letter there.
  rw [← hshows.eq_shown] at hall
  exact absurd hall (by decide +kernel)

end Document

end DocumentQuery
