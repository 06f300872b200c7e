import DocumentQuery.Proofs.Pattern.Recognition

/-!
# Writing and reading patterns

Writing chooses one form for each sequence of steps: a key is bare whenever it can be, and a quoted
key escapes exactly the special code points.  The text of this form is what `render` gives, so that
reading undoes writing follows from the recognition of forms.

A sequence that begins with a position is written too, but its text is no pattern.  It is told from
every other text all the same, as a key put in front of it turns it into a pattern.
-/

namespace DocumentQuery

namespace Pattern

/-! ## The forms that are written -/

/-- The item by which a code point is written in a quoted key. -/
def QuotedItem.ofCodePoint (c : CodePoint) : QuotedItem :=
  if h : IsSpecial c then .escaped c h else .plain c h

theorem QuotedItem.text_ofCodePoint (c : CodePoint) :
    (QuotedItem.ofCodePoint c).text = Step.escapedInKey c := by
  unfold QuotedItem.ofCodePoint Step.escapedInKey
  by_cases h : IsSpecial c
  · rw [dif_pos h, if_pos h.symm]
    rfl
  · rw [dif_neg h, if_neg fun hspecial => h hspecial.symm]
    rfl

theorem QuotedItem.denoted_ofCodePoint (c : CodePoint) :
    (QuotedItem.ofCodePoint c).denoted = [c] := by
  unfold QuotedItem.ofCodePoint
  split
  · rfl
  · rfl

/-- The form in which a key is written. -/
def KeyForm.ofName (name : Text) : KeyForm :=
  if h : name ≠ [] ∧ ∀ c ∈ name, c.isBare = true then .bare name h.1 h.2
  else .quoted (name.map QuotedItem.ofCodePoint)

theorem KeyForm.text_ofName (name : Text) :
    (KeyForm.ofName name).text = Step.renderKey name := by
  have hbare : (!name.isEmpty && name.all CodePoint.isBare) = true ↔
      name ≠ [] ∧ ∀ c ∈ name, c.isBare = true := by
    simp
  unfold KeyForm.ofName Step.renderKey
  by_cases h : name ≠ [] ∧ ∀ c ∈ name, c.isBare = true
  · rw [dif_pos h, if_pos (hbare.mpr h)]
    rfl
  · rw [dif_neg h, if_neg fun hall => h (hbare.mp hall)]
    simp only [KeyForm.text, List.flatMap_map, QuotedItem.text_ofCodePoint, List.cons_append]

theorem KeyForm.name_ofName (name : Text) : (KeyForm.ofName name).name = name := by
  unfold KeyForm.ofName
  split
  · rfl
  · simp only [KeyForm.name, List.flatMap_map, QuotedItem.denoted_ofCodePoint]
    exact List.flatMap_singleton' name

/-- The form in which a position is written. -/
def PositionForm.ofInt (i : Int) : PositionForm where
  negative := i < 0
  digits := Numeral.ofNat i.natAbs
  hne := Numeral.ofNat_ne_nil i.natAbs
  hdigits := fun _ hc => Numeral.isDigit_of_mem_ofNat hc

theorem PositionForm.text_ofInt (i : Int) :
    (PositionForm.ofInt i).text = (Step.index i).render := by
  unfold Step.render Numeral.ofInt PositionForm.text PositionForm.body PositionForm.sign
  by_cases h : i < 0
  · simp [PositionForm.ofInt, h]
    rfl
  · simp [PositionForm.ofInt, h]
    rfl

theorem PositionForm.position_ofInt (i : Int) : (PositionForm.ofInt i).position = i := by
  have hmagnitude : (PositionForm.ofInt i).magnitude = i.natAbs := by
    rw [PositionForm.magnitude, ← Numeral.value_eq_ofDigits]
    exact Numeral.value_ofNat i.natAbs
  have hnegative : (PositionForm.ofInt i).negative = decide (i < 0) := rfl
  rw [PositionForm.position, hmagnitude, hnegative]
  by_cases h : i < 0
  · rw [if_pos (decide_eq_true h)]
    omega
  · rw [if_neg (by simpa using h)]
    omega

theorem PositionForm.isShort_ofInt {i : Int} (h : Numeral.isWritable i = true) :
    (PositionForm.ofInt i).IsShort :=
  (Numeral.isWritable_iff i).mp h

/-- What is written after a key: some positions, and then further steps. -/
structure TailForm where
  positions : List PositionForm
  others : List StepForm

namespace TailForm

/-- How the steps after a key are written. -/
def text (form : TailForm) : Text :=
  form.positions.flatMap PositionForm.text ++ Form.textOfOthers form.others

/-- The steps that are meant. -/
def steps (form : TailForm) : List Step :=
  form.positions.map (fun p => .index p.position) ++ form.others.flatMap StepForm.steps

/-- The form in which the steps after a key are written. -/
def ofSteps : List Step → TailForm
  | [] => ⟨[], []⟩
  | .field name :: rest => ⟨[], ⟨.ofName name, (ofSteps rest).positions⟩ :: (ofSteps rest).others⟩
  | .index i :: rest => ⟨.ofInt i :: (ofSteps rest).positions, (ofSteps rest).others⟩

theorem text_ofSteps (steps : List Step) : (ofSteps steps).text = renderTail steps := by
  induction steps with
  | nil => rfl
  | cons step rest ih =>
      cases step with
      | field name =>
          have hkey : (KeyForm.ofName name).text = (Step.field name).render :=
            KeyForm.text_ofName name
          rw [renderTail, ← ih, ← hkey]
          simp [ofSteps, text, Form.textOfOthers, StepForm.text]
      | index i =>
          rw [renderTail, ← ih, ← PositionForm.text_ofInt]
          simp [ofSteps, text]

theorem steps_ofSteps (steps : List Step) : (ofSteps steps).steps = steps := by
  induction steps with
  | nil => rfl
  | cons step rest ih =>
      have hrest : _ = rest := ih
      unfold TailForm.steps at hrest
      cases step with
      | field name =>
          simp [ofSteps, TailForm.steps, StepForm.steps, KeyForm.name_ofName, hrest]
      | index i =>
          simp [ofSteps, TailForm.steps, PositionForm.position_ofInt, hrest]

theorem isShort_ofSteps {steps : List Step} (h : ∀ step ∈ steps, step.isWritable = true) :
    (∀ p ∈ (ofSteps steps).positions, p.IsShort) ∧
      ∀ other ∈ (ofSteps steps).others, other.IsShort := by
  induction steps with
  | nil => exact ⟨fun p hp => absurd hp List.not_mem_nil, fun o ho => absurd ho List.not_mem_nil⟩
  | cons step rest ih =>
      obtain ⟨hpositions, hothers⟩ :=
        ih fun later hlater => h later (List.mem_cons_of_mem step hlater)
      cases step with
      | field name =>
          refine ⟨fun p hp => absurd hp List.not_mem_nil, ?_⟩
          exact List.forall_mem_cons.mpr ⟨hpositions, hothers⟩
      | index i =>
          have hi : (PositionForm.ofInt i).IsShort :=
            PositionForm.isShort_ofInt (h (.index i) List.mem_cons_self)
          exact ⟨List.forall_mem_cons.mpr ⟨hi, hpositions⟩, hothers⟩

end TailForm

/-- The form in which a key and the steps after it are written. -/
def Form.ofSteps (name : Text) (rest : List Step) : Form where
  first := ⟨.ofName name, (TailForm.ofSteps rest).positions⟩
  others := (TailForm.ofSteps rest).others

theorem Form.text_ofSteps (name : Text) (rest : List Step) :
    (Form.ofSteps name rest).text = render ⟨.field name :: rest⟩ := by
  change _ = (Step.field name).render ++ renderTail rest
  rw [← TailForm.text_ofSteps, Step.render, ← KeyForm.text_ofName]
  simp [Form.ofSteps, Form.text, StepForm.text, TailForm.text]

theorem Form.steps_ofSteps (name : Text) (rest : List Step) :
    (Form.ofSteps name rest).steps = .field name :: rest := by
  have hrest : _ = rest := TailForm.steps_ofSteps rest
  unfold TailForm.steps at hrest
  simp [Form.ofSteps, Form.steps, StepForm.steps, KeyForm.name_ofName, hrest]

/-! ## Reading what was written -/

/-- The steps begin with a key, if there are any. -/
def BeginsWithKey (p : Pattern) : Prop :=
  p.steps = [] ∨ ∃ name rest, p.steps = .field name :: rest

/-- All positions of the pattern have few enough digits to be written. -/
def IsWritable (p : Pattern) : Prop :=
  ∀ step ∈ p.steps, step.isWritable = true

theorem write_eq_ok {p : Pattern} (h : p.IsWritable) : p.write = .ok p.render := by
  rw [write, if_pos (List.all_eq_true.mpr h)]

theorem isWritable_of_write {p : Pattern} {t : Text} (h : p.write = .ok t) :
    p.IsWritable ∧ p.render = t := by
  unfold write at h
  split at h
  · rename_i hall
    cases h
    exact ⟨List.all_eq_true.mp hall, rfl⟩
  · cases h

theorem render_field (name : Text) (rest : List Step) :
    render ⟨.field name :: rest⟩ = Step.renderKey name ++ renderTail rest := rfl

theorem render_index (i : Int) (rest : List Step) :
    render ⟨.index i :: rest⟩ = renderTail (.index i :: rest) := rfl

theorem renderTail_index (i : Int) (rest : List Step) :
    renderTail (.index i :: rest) =
      .char '[' :: (Numeral.ofInt i ++ (.char ']' :: renderTail rest)) := by
  rw [renderTail, Step.render]
  simp [Text.ofString]

/-- A pattern that begins with a key is read back from its text. -/
theorem parse_render_field (name : Text) {rest : List Step}
    (h : ∀ step ∈ rest, step.isWritable = true) :
    parse (render ⟨.field name :: rest⟩) = .ok ⟨.field name :: rest⟩ := by
  have htrim : (Form.ofSteps name rest).text = (render ⟨.field name :: rest⟩).trim := by
    rw [← Form.text_ofSteps, Form.trim_text]
  rw [parse_text (Form.ofSteps name rest) htrim (TailForm.isShort_ofSteps h), Form.steps_ofSteps]

theorem parse_render {p : Pattern} (hkey : p.BeginsWithKey) (h : p.IsWritable) :
    parse p.render = .ok p := by
  obtain ⟨steps⟩ := p
  rcases hkey with hempty | ⟨name, rest, hsteps⟩
  · change steps = [] at hempty
    subst hempty
    rfl
  · change steps = .field name :: rest at hsteps
    subst hsteps
    exact parse_render_field name fun step hstep => h step (List.mem_cons_of_mem _ hstep)

/-- A text whose body begins with a bracket has no key where the bracket stands. -/
theorem parse_bracket {t rest : Text} (h : t.trim = .char '[' :: rest) :
    parse t = .error (.malformed ⟨.emptyIdentifier, t.length - t.trimStart.length, t⟩) := by
  have hkey : readKey (.char '[' :: rest) =
      .error (.fault .emptyIdentifier (.char '[' :: rest)) := rfl
  have hread : readSteps (.char '[' :: rest) =
      .error (.fault .emptyIdentifier (.char '[' :: rest)) := by
    rw [readSteps_eq, hkey]
  rw [parse_eq (h ▸ List.cons_ne_nil _ _), h, hread]
  dsimp only
  rw [Nat.sub_self, Nat.add_zero]

/-- The text of a pattern that begins with a position lacks a key at its beginning. -/
theorem parse_render_index (i : Int) (rest : List Step) :
    parse (render ⟨.index i :: rest⟩) =
      .error (.malformed ⟨.emptyIdentifier, 0, render ⟨.index i :: rest⟩⟩) := by
  have hfirst : ∀ c ∈ (render ⟨.index i :: rest⟩).head?, c.isBlank = false := by
    intro c hc
    rw [render_index, renderTail_index] at hc
    rw [← Option.some.inj hc]
    decide
  have hlast : ∀ c ∈ (render ⟨.index i :: rest⟩).getLast?, c.isBlank = false := by
    -- A key in front makes the text that of a form and leaves its end alone.
    intro c hc
    have hform := (Form.ofSteps [] (.index i :: rest)).getLast?_text c
    rw [Form.text_ofSteps, render_field, ← render_index, List.getLast?_append,
      Option.mem_def.mp hc] at hform
    exact CodePoint.isBlank_of_isVisible (hform rfl)
  have hstart : (render ⟨.index i :: rest⟩).trimStart = render ⟨.index i :: rest⟩ :=
    Text.dropWhile_eq_self hfirst
  have hbody : (render ⟨.index i :: rest⟩).trim =
      .char '[' :: (Numeral.ofInt i ++ (.char ']' :: renderTail rest)) := by
    rw [Text.trim_eq_self hfirst hlast, render_index, renderTail_index]
  rw [parse_bracket hbody, hstart, Nat.sub_self]

/-! ## What can be read can be written -/

theorem StepForm.isWritable_of_isShort {form : StepForm} (h : form.IsShort) :
    ∀ step ∈ form.steps, step.isWritable = true := by
  intro step hstep
  rcases List.mem_cons.mp hstep with rfl | hposition
  · rfl
  · obtain ⟨p, hp, rfl⟩ := List.mem_map.mp hposition
    have hmagnitude : p.position.natAbs = Numeral.value p.digits := by
      rw [Numeral.value_eq_ofDigits, PositionForm.position, ← PositionForm.magnitude]
      split
      · omega
      · omega
    exact Numeral.isWritable_of_length_le hmagnitude (h p hp)

theorem isWritable_of_parse {t : Text} {p : Pattern} (h : parse t = .ok p) : p.IsWritable := by
  intro step hstep
  rcases exists_form_of_parse h with ⟨-, hempty⟩ | ⟨form, -, hsteps, hfirst, hothers⟩
  · rw [hempty] at hstep
    exact absurd hstep List.not_mem_nil
  · rw [← hsteps] at hstep
    rcases List.mem_append.mp hstep with hstep | hstep
    · exact StepForm.isWritable_of_isShort hfirst step hstep
    · obtain ⟨other, hother, hmem⟩ := List.mem_flatMap.mp hstep
      exact StepForm.isWritable_of_isShort (hothers other hother) step hmem

theorem beginsWithKey_of_parse {t : Text} {p : Pattern} (h : parse t = .ok p) :
    p.BeginsWithKey := by
  rcases exists_form_of_parse h with ⟨-, hempty⟩ | ⟨form, -, hsteps, -⟩
  · exact Or.inl hempty
  · exact Or.inr ⟨form.first.key.name, _, hsteps.symm⟩

theorem exists_initial_eq_take (p : Pattern) (count : Int) :
    ∃ n, p.initial count = ⟨p.steps.take n⟩ := by
  unfold initial
  split
  · exact ⟨_, rfl⟩
  · exact ⟨_, rfl⟩

/-- The first steps of what was read are a pattern again, and their text denotes it. -/
theorem parse_render_initial {t : Text} {p : Pattern} (h : parse t = .ok p) (count : Int) :
    (p.initial count).IsWritable ∧ parse (p.initial count).render = .ok (p.initial count) := by
  obtain ⟨n, hn⟩ := exists_initial_eq_take p count
  rw [hn]
  have hwritable : IsWritable ⟨p.steps.take n⟩ :=
    fun step hstep => isWritable_of_parse h step (List.mem_of_mem_take hstep)
  refine ⟨hwritable, parse_render ?_ hwritable⟩
  rcases beginsWithKey_of_parse h with hempty | ⟨name, rest, hsteps⟩
  · exact Or.inl (by simp [hempty])
  · cases n with
    | zero => exact Or.inl rfl
    | succ n => exact Or.inr ⟨name, rest.take n, by simp [hsteps]⟩

/-! ## Different patterns have different texts -/

theorem beginsWithKey_or (p : Pattern) :
    p.BeginsWithKey ∨ ∃ i rest, p = ⟨.index i :: rest⟩ := by
  obtain ⟨steps⟩ := p
  cases steps with
  | nil => exact Or.inl (Or.inl rfl)
  | cons step rest =>
      cases step with
      | field name => exact Or.inl (Or.inr ⟨name, rest, rfl⟩)
      | index i => exact Or.inr ⟨i, rest, rfl⟩

/-- What follows a key is told from its text. -/
theorem renderTail_injective {rest others : List Step}
    (hrest : ∀ step ∈ rest, step.isWritable = true)
    (hothers : ∀ step ∈ others, step.isWritable = true)
    (h : renderTail rest = renderTail others) : rest = others := by
  -- With the empty key in front, both texts are those of patterns that begin with a key.
  have hread := parse_render_field [] hrest
  rw [render_field, h, ← render_field, parse_render_field [] hothers] at hread
  exact (List.cons.inj (congrArg Pattern.steps (Except.ok.inj hread))).2.symm

theorem render_injective {p q : Pattern} (hp : p.IsWritable) (hq : q.IsWritable)
    (h : p.render = q.render) : p = q := by
  rcases beginsWithKey_or p with hpkey | ⟨i, rest, rfl⟩
  · rcases beginsWithKey_or q with hqkey | ⟨j, others, rfl⟩
    · have hread := parse_render hpkey hp
      rw [h, parse_render hqkey hq] at hread
      exact (Except.ok.inj hread).symm
    · have hread := parse_render hpkey hp
      rw [h, parse_render_index] at hread
      cases hread
  · rcases beginsWithKey_or q with hqkey | ⟨j, others, rfl⟩
    · have hread := parse_render hqkey hq
      rw [← h, parse_render_index] at hread
      cases hread
    · exact congrArg Pattern.mk (renderTail_injective hp hq h)

/-- **Writing and reading are inverse.**  Every pattern whose positions have few enough digits has
a text.  If the pattern begins with a key or is empty, its text is read back as the pattern; if it
begins with a position, reading finds the key missing at the very beginning.  No other pattern has
the same text. -/
theorem write_parse_inverse (p : Pattern) (hp : p.IsWritable) :
    ∃ t, p.write = .ok t ∧
      (p.BeginsWithKey → parse t = .ok p) ∧
      ((∃ i rest, p.steps = .index i :: rest) →
        ∃ e : SyntaxError, parse t = .error (.malformed e) ∧
          e.fault = .emptyIdentifier ∧ e.offset = 0 ∧ e.text = t) ∧
      ∀ q : Pattern, q.write = .ok t → q = p := by
  refine ⟨p.render, write_eq_ok hp, fun hkey => parse_render hkey hp, ?_, ?_⟩
  · rintro ⟨i, rest, hsteps⟩
    obtain ⟨steps⟩ := p
    change steps = .index i :: rest at hsteps
    subst hsteps
    exact ⟨_, parse_render_index i rest, rfl, rfl, rfl⟩
  · intro q hq
    obtain ⟨hwritable, hrender⟩ := isWritable_of_write hq
    exact render_injective hwritable hp hrender

/-- A key made of syntax and a blank, a negative position, and the empty key. -/
theorem write_parse_inverse_quoted :
    let p : Pattern := ⟨[.field (Text.ofString "a.]\\ "), .index (-3), .field []]⟩
    let t : Text := Text.ofString "\"a.]\\\\ \"[-3].\"\""
    p.IsWritable ∧ p.write = .ok t ∧ parse t = .ok p := by
  intro p t
  have hwritable : p.IsWritable := by
    intro step hstep
    simp only [p, List.mem_cons, List.not_mem_nil, or_false] at hstep
    rcases hstep with rfl | rfl | rfl
    · rfl
    · exact (Numeral.isWritable_iff (-3)).mpr (by decide)
    · rfl
  obtain ⟨written, hwrite, hread, -, -⟩ := write_parse_inverse p hwritable
  have htext : written = t := by
    rw [← (isWritable_of_write hwrite).2]
    decide
  rw [htext] at hwrite hread
  exact ⟨hwritable, hwrite, hread (Or.inr ⟨_, _, rfl⟩)⟩

end Pattern

end DocumentQuery
