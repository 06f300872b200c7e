import DocumentQuery.Proofs.Loading

/-!
# The first null and the place that is named for it

The search for nulls keeps a text for the place it has come to.  The text is made by putting keys
and positions one after the other, without the quotes that a pattern would need; so it may lead
elsewhere when it is read as a pattern, or nowhere.

* `FirstNull` says which steps lead to the first null, without a search.
* `firstNull?_eq_some` — the search ends there, and `placeOf` gives the place it has come to.
* `parse_quotedPlace_iff` — the place leads to the null exactly if no key on the way needs quotes.
  It takes as many code points as the steps do at least, so nothing is left for quotes.
* `load_names_first_null` — what this means for the message about a null in a document.
-/

namespace DocumentQuery

open Value

/-! ## Steps without quotes -/

/-- The step is no key that needs quotes. -/
def Step.IsBare : Step → Prop
  | .field name => name ≠ [] ∧ ∀ c ∈ name, c.isBare = true
  | .index _ => True

/-- The number of code points that a step takes at least, with the dot before a key. -/
def Step.leastLength : Step → Nat
  | .field name => name.length + 1
  | .index position => (Numeral.ofInt position).length + 2

theorem Step.renderKey_of_isBare {name : Text} (h : (Step.field name).IsBare) :
    Step.renderKey name = name := by
  obtain ⟨hne, hbare⟩ := h
  rw [renderKey, if_pos (by simpa [hne] using hbare)]

namespace Pattern

/-- The number of code points that steps take at least, with the dot before the first one. -/
def leastLength (steps : List Step) : Nat :=
  (steps.map Step.leastLength).sum

/-- Steps can be written in a number of code points, and without quotes if none are left over. -/
structure Fits (steps : List Step) (count : Nat) : Prop where
  le : leastLength steps ≤ count
  bare : count ≤ leastLength steps → ∀ step ∈ steps, step.IsBare

theorem leastLength_append (steps others : List Step) :
    leastLength (steps ++ others) = leastLength steps + leastLength others := by
  simp [leastLength]

theorem leastLength_cons (step : Step) (steps : List Step) :
    leastLength (step :: steps) = step.leastLength + leastLength steps :=
  List.sum_cons

theorem fits_nil : Fits [] 0 :=
  ⟨Nat.le_refl 0, fun _ => nofun⟩

theorem Fits.append {steps others : List Step} {m n : Nat} (h : Fits steps m)
    (hothers : Fits others n) : Fits (steps ++ others) (m + n) := by
  have hle := h.le
  have hleothers := hothers.le
  constructor
  · rw [leastLength_append]
    omega
  · intro htight
    rw [leastLength_append] at htight
    exact List.forall_mem_append.mpr ⟨h.bare (by omega), hothers.bare (by omega)⟩

theorem QuotedItem.length_denoted_le (item : QuotedItem) :
    item.denoted.length ≤ item.text.length := by
  cases item <;> simp [QuotedItem.denoted, QuotedItem.text]

theorem KeyForm.fits (form : KeyForm) : Fits [.field form.name] (form.text.length + 1) := by
  cases form with
  | bare name hne hbare =>
      exact ⟨Nat.le_refl _, fun _ => List.forall_mem_singleton.mpr ⟨hne, hbare⟩⟩
  | quoted items =>
      have hle : (items.flatMap QuotedItem.denoted).length ≤
          (items.flatMap QuotedItem.text).length := by
        induction items with
        | nil => exact Nat.le_refl 0
        | cons item items ih =>
            rw [List.flatMap_cons, List.flatMap_cons, List.length_append, List.length_append]
            exact Nat.add_le_add item.length_denoted_le ih
      have hname : leastLength [.field (KeyForm.quoted items).name] =
          (items.flatMap QuotedItem.denoted).length + 1 := rfl
      have htext : (KeyForm.quoted items).text.length =
          (items.flatMap QuotedItem.text).length + 2 := by
        rw [KeyForm.text, List.length_cons, List.length_append]
        rfl
      -- The quotes are two code points too many.
      exact ⟨by omega, fun _ => by omega⟩

/-- The numeral of a number has no more digits than any other way to write it. -/
theorem length_ofNat_value_le {digits : Text} (hne : digits ≠ []) :
    (Numeral.ofNat (Numeral.value digits)).length ≤ digits.length :=
  (Numeral.length_ofNat_le_iff _ (List.length_pos_of_ne_nil hne)).mpr
    (Numeral.value_lt (Nat.le_refl _))

theorem PositionForm.fits (form : PositionForm) :
    Fits [.index form.position] form.text.length := by
  refine ⟨?_, fun _ => List.forall_mem_singleton.mpr trivial⟩
  have hdigits : (Numeral.ofNat form.magnitude).length ≤ form.digits.length := by
    rw [PositionForm.magnitude, ← Numeral.value_eq_ofDigits]
    exact length_ofNat_value_le form.hne
  have hnumeral : (Numeral.ofInt form.position).length ≤
      form.sign.length + form.digits.length := by
    have habs : form.position.natAbs = form.magnitude := by
      unfold PositionForm.position
      split <;> simp
    unfold Numeral.ofInt
    rw [habs]
    split
    · rename_i hposition
      have hnegative : form.negative = true := by
        by_contra hsign
        rw [PositionForm.position, if_neg hsign] at hposition
        omega
      rw [PositionForm.sign, if_pos hnegative, List.length_cons, List.length_singleton]
      omega
    · omega
  have htext : form.text.length = form.sign.length + form.digits.length + 2 := by
    simp [PositionForm.text, PositionForm.body, Nat.add_assoc]
  have hstep : leastLength [.index form.position] = (Numeral.ofInt form.position).length + 2 := rfl
  omega

theorem StepForm.fits (form : StepForm) : Fits form.steps (form.text.length + 1) := by
  have hpositions : Fits (form.positions.map fun p => .index p.position)
      (form.positions.flatMap PositionForm.text).length := by
    induction form.positions with
    | nil => exact fits_nil
    | cons position positions ih =>
        rw [List.flatMap_cons, List.length_append]
        exact position.fits.append ih
  have hlength : form.text.length + 1 =
      (form.key.text.length + 1) + (form.positions.flatMap PositionForm.text).length := by
    rw [StepForm.text, List.length_append]
    omega
  rw [hlength]
  exact form.key.fits.append hpositions

theorem Form.fits (form : Form) : Fits form.steps (form.text.length + 1) := by
  have hothers : Fits (form.others.flatMap StepForm.steps) (textOfOthers form.others).length := by
    induction form.others with
    | nil => exact fits_nil
    | cons other others ih =>
        rw [List.flatMap_cons, textOfOthers, List.flatMap_cons, List.length_append,
          List.length_cons]
        exact other.fits.append ih
  have hlength : form.text.length + 1 =
      (form.first.text.length + 1) + (textOfOthers form.others).length := by
    rw [Form.text, List.length_append]
    omega
  rw [hlength]
  exact form.first.fits.append hothers

/-- A text that is read as steps has room for them. -/
theorem fits_of_parse {t : Text} {steps : List Step} (hne : steps ≠ [])
    (h : parse t = .ok ⟨steps⟩) : ∃ count, count ≤ t.length + 1 ∧ Fits steps count := by
  rcases exists_form_of_parse h with ⟨-, hnone⟩ | ⟨form, htext, hsteps, -⟩
  · exact absurd hnone hne
  · have hfits := form.fits
    rw [hsteps] at hfits
    refine ⟨form.text.length + 1, ?_, hfits⟩
    rw [htext]
    exact Nat.succ_le_succ (Text.trim_isInfix t).length_le

end Pattern

namespace Document

open Pattern

/-! ## Places -/

/-- The place that the search has come to after steps from a given place. -/
def placeOf (place : Text) : List Step → Text
  | [] => place
  | .field name :: rest => placeOf (placeOfKey place name) rest
  | .index position :: rest => placeOf (place ++ (Step.index position).render) rest

theorem length_placeOfKey_le (place key : Text) :
    (placeOfKey place key).length ≤ place.length + (Step.field key).leastLength := by
  have hdot : (Text.ofString ".").length = 1 := rfl
  have hkey : (Step.field key).leastLength = key.length + 1 := rfl
  unfold placeOfKey
  split
  · omega
  · rw [List.length_append, List.length_append]
    omega

theorem length_render_index (position : Int) :
    (Step.index position).render.length = (Step.index position).leastLength := by
  simp [Step.render, Step.leastLength, Text.ofString]

/-- The search takes no more code points for steps than they need. -/
theorem length_placeOf_le (place : Text) (steps : List Step) :
    (placeOf place steps).length ≤ place.length + leastLength steps := by
  induction steps generalizing place with
  | nil => exact Nat.le_refl _
  | cons step rest ih =>
      rw [leastLength_cons]
      cases step with
      | field name =>
          have hkey := length_placeOfKey_le place name
          have hrest := ih (placeOfKey place name)
          rw [placeOf]
          omega
      | index position =>
          have hindex := length_render_index position
          have hrest := ih (place ++ (Step.index position).render)
          rw [List.length_append] at hrest
          rw [placeOf]
          omega

/-- No dot stands before the first key. -/
theorem length_placeOf_root (name : Text) (rest : List Step) :
    (placeOf [] (.field name :: rest)).length + 1 ≤ leastLength (.field name :: rest) := by
  have hrest := length_placeOf_le name rest
  have hname : (Step.field name).leastLength = name.length + 1 := rfl
  have hplace : placeOf [] (.field name :: rest) = placeOf name rest := rfl
  rw [hplace, leastLength_cons]
  omega

/-- Without quotes a place is written as a pattern is. -/
theorem placeOf_of_isBare {place : Text} (hne : place ≠ []) {steps : List Step}
    (h : ∀ step ∈ steps, step.IsBare) : placeOf place steps = place ++ renderTail steps := by
  induction steps generalizing place with
  | nil => rw [placeOf, renderTail, List.append_nil]
  | cons step rest ih =>
      obtain ⟨hstep, hrest⟩ := List.forall_mem_cons.mp h
      cases step with
      | field name =>
          have hkey : placeOfKey place name = place ++ .char '.' :: (Step.field name).render := by
            rw [Step.render, Step.renderKey_of_isBare hstep]
            simp [placeOfKey, hne, Text.ofString]
          rw [placeOf, hkey, ih (List.append_ne_nil_of_left_ne_nil hne _) hrest, renderTail,
            List.append_assoc]
      | index position =>
          rw [placeOf, ih (List.append_ne_nil_of_left_ne_nil hne _) hrest, renderTail,
            List.append_assoc]

theorem placeOf_root_of_isBare {name : Text} {rest : List Step}
    (h : ∀ step ∈ Step.field name :: rest, step.IsBare) :
    placeOf [] (.field name :: rest) = render ⟨.field name :: rest⟩ := by
  obtain ⟨hname, hrest⟩ := List.forall_mem_cons.mp h
  rw [render_field, Step.renderKey_of_isBare hname, ← placeOf_of_isBare hname.1 hrest]
  rfl

/-! ## Places in messages -/

/-- The place as it is quoted: there is a word for the root, which has no place. -/
def quotedPlace (place : Text) : Text :=
  if place.isEmpty then "<root>" else place

/-- The word for the root is no pattern. -/
theorem parse_root_ne_ok (p : Pattern) : parse "<root>" ≠ .ok p := by
  intro h
  rcases exists_form_of_parse h with ⟨hempty, -⟩ | ⟨form, htext, -, -⟩
  · exact absurd hempty (by decide +kernel)
  · have hhead : .char '<' ∈ form.text.head? := by
      rw [htext]
      decide +kernel
    rw [Form.text, StepForm.text, List.append_assoc,
      List.head?_append_of_ne_nil _ form.first.key.text_ne_nil] at hhead
    rcases form.first.key.head?_text _ hhead with hbare | hquote
    · exact absurd hbare (by decide)
    · exact absurd hquote (by decide)

/-- **Places as patterns.**  The place that is quoted for steps is read as these steps exactly if
none of their keys needs quotes and their positions have few enough digits to be read. -/
theorem parse_quotedPlace_iff (name : Text) (rest : List Step) :
    parse (quotedPlace (placeOf [] (.field name :: rest))) = .ok ⟨.field name :: rest⟩ ↔
      (∀ step ∈ Step.field name :: rest, step.IsBare) ∧ IsWritable ⟨.field name :: rest⟩ := by
  constructor
  · intro h
    refine ⟨?_, isWritable_of_parse h⟩
    by_cases hempty : placeOf [] (.field name :: rest) = []
    · rw [hempty] at h
      exact absurd h (parse_root_ne_ok _)
    · rw [quotedPlace, if_neg (by simpa using hempty)] at h
      obtain ⟨count, hcount, hfits⟩ := fits_of_parse (List.cons_ne_nil _ _) h
      exact hfits.bare (Nat.le_trans hcount (length_placeOf_root name rest))
  · rintro ⟨hbare, hwritable⟩
    have hplace := placeOf_root_of_isBare hbare
    have hread := parse_render (Or.inr ⟨name, rest, rfl⟩) hwritable
    obtain ⟨hname, -⟩ := List.forall_mem_cons.mp hbare
    have hne : render ⟨.field name :: rest⟩ ≠ [] := by
      rw [render_field, Step.renderKey_of_isBare hname]
      exact List.append_ne_nil_of_left_ne_nil hname.1 _
    rw [hplace, quotedPlace, if_neg (by simpa using hne)]
    exact hread

/-! ## The first null -/

/-- The steps that lead to the first null in a value: there is none in anything that stands before
what they select. -/
inductive FirstNull : Value → List Step → Prop
  | here : FirstNull .null []
  | entry {before after : Entries} {name : Text} {child : Value} {rest : List Step}
      (hbefore : before.Everywhere (· ≠ .null)) (h : FirstNull child rest) :
      FirstNull (.table (before ++ (name, child) :: after)) (.field name :: rest)
  | item {form : ArrayForm} {before after : List Value} {child : Value} {rest : List Step}
      (hbefore : ∀ item ∈ before, item.Everywhere (· ≠ .null)) (h : FirstNull child rest) :
      FirstNull (.array form (before ++ child :: after)) (.index before.length :: rest)

theorem FirstNull.leads {v : Value} {steps : List Step} (h : FirstNull v steps) :
    Leads v steps .null := by
  induction h with
  | here => exact .here _
  | entry _ _ ih => exact .step (.entry (List.mem_append_right _ List.mem_cons_self)) ih
  | item _ _ ih => exact .step (.item (by simp)) ih

theorem FirstNull.not_everywhere {v : Value} {steps : List Step} (h : FirstNull v steps) :
    ¬v.Everywhere (· ≠ .null) :=
  fun hall => hall steps .null h.leads rfl

/-- What stands before the first of some elements is determined. -/
theorem append_cons_inj_of_first {α : Type} {Q : α → Prop} {before others after rest : List α}
    {x y : α} (hbefore : ∀ z ∈ before, Q z) (hx : ¬Q x) (hothers : ∀ z ∈ others, Q z) (hy : ¬Q y)
    (h : before ++ x :: after = others ++ y :: rest) : before = others ∧ x = y := by
  induction before generalizing others with
  | nil =>
      cases others with
      | nil => exact ⟨rfl, (List.cons.inj h).1⟩
      | cons z others =>
          obtain ⟨rfl, -⟩ := List.cons.inj h
          exact absurd (hothers x List.mem_cons_self) hx
  | cons w before ih =>
      cases others with
      | nil =>
          obtain ⟨rfl, -⟩ := List.cons.inj h
          exact absurd (hbefore w List.mem_cons_self) hy
      | cons z others =>
          obtain ⟨rfl, htail⟩ := List.cons.inj h
          obtain ⟨rfl, rfl⟩ := ih (List.forall_mem_cons.mp hbefore).2
            (List.forall_mem_cons.mp hothers).2 htail
          exact ⟨rfl, rfl⟩

/-- There is only one first null. -/
theorem FirstNull.unique {v : Value} {steps others : List Step} (h : FirstNull v steps)
    (hothers : FirstNull v others) : steps = others := by
  induction h generalizing others with
  | here =>
      cases hothers with
      | here => rfl
  | @entry before after name child rest hbefore hchild ih =>
      generalize hv : Value.table (before ++ (name, child) :: after) = v at hothers
      cases hothers with
      | here => cases hv
      | item _ _ => cases hv
      | entry hother hfound =>
          obtain ⟨rfl, heq⟩ := append_cons_inj_of_first hbefore hchild.not_everywhere hother
            hfound.not_everywhere (Value.table.inj hv)
          cases heq
          rw [ih hfound]
  | @item form before after child rest hbefore hchild ih =>
      generalize hv : Value.array form (before ++ child :: after) = v at hothers
      cases hothers with
      | here => cases hv
      | entry _ _ => cases hv
      | item hother hfound =>
          obtain ⟨rfl, rfl⟩ := append_cons_inj_of_first hbefore hchild.not_everywhere hother
            hfound.not_everywhere (Value.array.inj hv).2
          rw [ih hfound]

theorem placeOfIndex_eq (place : Text) (index : Nat) :
    placeOfIndex place index = place ++ (Step.index index).render := by
  have hnumeral : Numeral.ofInt index = Numeral.ofNat index := by
    rw [Numeral.ofInt, if_neg (by omega), Int.natAbs_natCast]
  simp [placeOfIndex, Step.render, hnumeral]

mutual

/-- The search ends at the first null. -/
theorem firstNull?_eq_some {place found : Text} {v : Value} (h : firstNull? place v = some found) :
    ∃ steps, FirstNull v steps ∧ found = placeOf place steps := by
  cases v with
  | null =>
      cases h
      exact ⟨[], .here, rfl⟩
  | table entries =>
      obtain ⟨before, name, child, after, rest, rfl, hbefore, hchild, hfound⟩ :=
        firstNullInEntries?_eq_some h
      exact ⟨_, .entry hbefore hchild, hfound⟩
  | array form items =>
      obtain ⟨before, child, after, rest, rfl, hbefore, hchild, hfound⟩ :=
        firstNullInItems?_eq_some h
      rw [Nat.zero_add, placeOfIndex_eq] at hfound
      exact ⟨_, .item hbefore hchild, hfound⟩
  | _ => cases h

theorem firstNullInEntries?_eq_some {place found : Text} {entries : Entries}
    (h : firstNullInEntries? place entries = some found) :
    ∃ before name child after rest, entries = before ++ (name, child) :: after ∧
      Entries.Everywhere (· ≠ .null) before ∧ FirstNull child rest ∧
        found = placeOf (placeOfKey place name) rest := by
  cases entries with
  | nil => cases h
  | cons entry entries =>
      obtain ⟨key, value⟩ := entry
      rw [firstNullInEntries?] at h
      split at h
      · rename_i hvalue
        cases h
        obtain ⟨steps, hfirst, hfound⟩ := firstNull?_eq_some hvalue
        exact ⟨[], key, value, entries, steps, rfl, Entries.everywhere_nil, hfirst, hfound⟩
      · rename_i hvalue
        obtain ⟨before, name, child, after, rest, rfl, hbefore, hchild, hfound⟩ :=
          firstNullInEntries?_eq_some h
        have hkey := (firstNull?_eq_none_iff _ _).mp hvalue
        exact ⟨(key, value) :: before, name, child, after, rest, rfl,
          List.forall_mem_cons.mpr ⟨hkey, hbefore⟩, hchild, hfound⟩

theorem firstNullInItems?_eq_some {place found : Text} {index : Nat} {items : List Value}
    (h : firstNullInItems? place index items = some found) :
    ∃ before child after rest, items = before ++ child :: after ∧
      (∀ item ∈ before, item.Everywhere (· ≠ .null)) ∧ FirstNull child rest ∧
        found = placeOf (placeOfIndex place (index + before.length)) rest := by
  cases items with
  | nil => cases h
  | cons item items =>
      rw [firstNullInItems?] at h
      split at h
      · rename_i hitem
        cases h
        obtain ⟨steps, hfirst, hfound⟩ := firstNull?_eq_some hitem
        exact ⟨[], item, items, steps, rfl, nofun, hfirst, hfound⟩
      · rename_i hitem
        obtain ⟨before, child, after, rest, rfl, hbefore, hchild, hfound⟩ :=
          firstNullInItems?_eq_some h
        have hfirst := (firstNull?_eq_none_iff _ _).mp hitem
        refine ⟨item :: before, child, after, rest, rfl,
          List.forall_mem_cons.mpr ⟨hfirst, hbefore⟩, hchild, ?_⟩
        rw [hfound, List.length_cons, Nat.add_assoc, Nat.add_comm 1]

end

/-! ## The message about a null -/

/-- A table with a null in it is refused, and the error tells the place of the first one. -/
theorem exists_firstNull {entries : Entries} (h : ¬(Value.table entries).Everywhere (· ≠ .null)) :
    ∃ name rest, FirstNull (.table entries) (.field name :: rest) ∧
      ofJson (.table entries) =
        .error (.document (.nullAt (placeOf [] (.field name :: rest)))) := by
  obtain ⟨place, hplace⟩ := Option.ne_none_iff_exists'.mp
    (mt (firstNull?_eq_none_iff [] (.table entries)).mp h)
  obtain ⟨steps, hfirst, rfl⟩ := firstNull?_eq_some hplace
  have hrefused : ofJson (.table entries) = .error (.document (.nullAt (placeOf [] steps))) := by
    rw [ofJson, hplace]
  cases hfirst with
  | entry hbefore hchild => exact ⟨_, _, .entry hbefore hchild, hrefused⟩

theorem load_json_of_read {t : Text} {v : Value} (h : Json.read t = .ok v) :
    load .json t = ofJson v :=
  loadJson_of_read h

/-- **The place of a null.**  An object with a null in it is refused, and the message quotes a place
for the first null.  The place is read as the steps to that null exactly if no key on the way needs
quotes; positions of arrays never stand in the way.  The one other end of such a text is a numeral
too long to be read. -/
theorem load_names_first_null (t : Text) :
    (∀ entries, Json.read t = .ok (.table entries) →
      ¬(Value.table entries).Everywhere (· ≠ .null) →
        ∃ steps e location, FirstNull (.table entries) steps ∧
          (∀ others, FirstNull (.table entries) others → others = steps) ∧
          load .json t = .error (.document e) ∧
          e.message = Text.ofString "null at `" ++ location ++
            Text.ofString "` cannot be represented in a TOML document" ∧
          (parse location = .ok ⟨steps⟩ ↔
            (∀ step ∈ steps, step.IsBare) ∧ IsWritable ⟨steps⟩) ∧
          ((Value.table entries).WellFormed → IsWritable ⟨steps⟩)) ∧
      (∀ e, Json.read t = .error (.limit e) → load .json t = .error (.limit e)) ∧
      (t.HasShortRuns → ∀ e, Json.read t ≠ .error (.limit e)) := by
  refine ⟨fun entries hread hnull => ?_, fun e hread => ?_, Json.read_ne_limit⟩
  · obtain ⟨name, rest, hfirst, hrefused⟩ := exists_firstNull hnull
    have hload := (load_json_of_read hread).trans hrefused
    refine ⟨.field name :: rest, _, quotedPlace (placeOf [] (.field name :: rest)), hfirst,
      fun others hothers => hothers.unique hfirst, hload, rfl,
      parse_quotedPlace_iff name rest, fun hformed => isWritable_of_leads hformed hfirst.leads⟩
  · rw [load, loadJson, hread]

/-- Like a value, the error of a text with too long a number is recognised by its shape. -/
theorem exists_limit_of_read {t : Text}
    (h : (match Json.read t with
      | .error (.limit _) => true
      | _ => false) = true) :
    ∃ e, Json.read t = .error (.limit e) := by
  split at h
  · exact ⟨_, ‹_›⟩
  · cases h

/-- A null in an array below a key is named, unless a number behind it is too long to be read. -/
theorem load_names_first_null_in_array :
    let t : Text := Text.ofString "\x7b\"a\":[null]\x7d"
    let entries : Entries := [([.char 'a'], .array .list [.null])]
    let u : Text := Text.ofString "\x7b\"a\":null,\"b\":" ++ Text.repeated 4301 '1' ++
      Text.ofString "\x7d"
    (Json.read t = .ok (.table entries) ∧ ¬(Value.table entries).Everywhere (· ≠ .null) ∧
        (Value.table entries).WellFormed ∧
        ∃ e location, load .json t = .error (.document e) ∧
          e.message = Text.ofString "null at `" ++ location ++
            Text.ofString "` cannot be represented in a TOML document" ∧
          parse location = .ok ⟨[.field [.char 'a'], .index 0]⟩) ∧
      (t.HasShortRuns ∧ ∀ e, Json.read t ≠ .error (.limit e)) ∧
      ∃ e, Json.read u = .error (.limit e) ∧ load .json u = .error (.limit e) := by
  intro t entries u
  have hread : Json.read t = .ok (.table entries) :=
    read_eq_of_single (b := none) (by decide +kernel)
  have hfirst : FirstNull (.table entries) [.field [.char 'a'], .index 0] :=
    @FirstNull.entry [] [] [.char 'a'] _ _ Entries.everywhere_nil
      (@FirstNull.item .list [] [] .null [] (List.forall_mem_nil _) .here)
  have hnull : (Value.null).WellFormed := .leaf nofun nofun
  have hitems : (Value.array .list [.null]).WellFormed :=
    .array (by decide) (List.forall_mem_singleton.mpr hnull)
  have hformed : (Value.table entries).WellFormed :=
    .table (List.pairwise_singleton _ _) (List.forall_mem_singleton.mpr hitems)
  have hshort : t.HasShortRuns := Text.HasShortRuns.of_length (by decide +kernel)
  obtain ⟨hnamed, -, hlimit⟩ := load_names_first_null t
  obtain ⟨steps, e, location, -, hunique, hload, hmessage, hparse, hwritable⟩ :=
    hnamed entries hread hfirst.not_everywhere
  obtain rfl := hunique _ hfirst
  have hbare : ∀ step ∈ [Step.field [.char 'a'], .index 0], step.IsBare :=
    List.forall_mem_cons.mpr ⟨⟨by decide, by decide⟩, List.forall_mem_singleton.mpr trivial⟩
  obtain ⟨e', hlong⟩ : ∃ e, Json.read u = .error (.limit e) :=
    exists_limit_of_read (by decide +kernel)
  exact ⟨⟨hread, hfirst.not_everywhere, hformed, e, location, hload, hmessage,
      hparse.mpr ⟨hbare, hwritable hformed⟩⟩,
    ⟨hshort, hlimit hshort⟩, e', hlong, (load_names_first_null u).2.1 e' hlong⟩

/-- The null below one key with a dot is named by the place below two keys. -/
theorem load_names_other_place :
    let t : Text := Text.ofString "\x7b\"a.b\":[null]\x7d"
    let entries : Entries := [(Text.ofString "a.b", .array .list [.null])]
    let e : DocumentError := .nullAt "a.b[0]"
    Json.read t = .ok (.table entries) ∧
      FirstNull (.table entries) [.field "a.b", .index 0] ∧
      load .json t = .error (.document e) ∧
      e.message = "null at `a.b[0]` cannot be represented in a TOML document" ∧
      parse "a.b[0]" = .ok ⟨[.field "a", .field "b", .index 0]⟩ := by
  intro t entries e
  have hread : Json.read t = .ok (.table entries) :=
    read_eq_of_single (b := none) (by decide +kernel)
  have htext : render ⟨[.field "a", .field "b", .index 0]⟩ = "a.b[0]" := by decide +kernel
  have hparse : parse (render ⟨[.field "a", .field "b", .index 0]⟩) = .ok _ :=
    parse_render (Or.inr ⟨_, _, rfl⟩) (List.forall_mem_cons.mpr ⟨rfl, List.forall_mem_cons.mpr
      ⟨rfl, List.forall_mem_singleton.mpr (isWritable_of_lt_maxItems (n := 0) (by decide))⟩⟩)
  rw [htext] at hparse
  refine ⟨hread, ?_, (load_json_of_read hread).trans rfl, by decide +kernel, hparse⟩
  exact @FirstNull.entry [] [] "a.b" _ _ Entries.everywhere_nil
    (@FirstNull.item .list [] [] .null [] (List.forall_mem_nil _) .here)

end Document

end DocumentQuery
