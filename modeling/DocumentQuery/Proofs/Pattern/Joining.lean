import DocumentQuery.Proofs.Pattern.RoundTrip

/-!
# Patterns one after the other

The steps of one pattern can follow those of another one.  In texts it takes a dot between the two,
and a position follows a pattern as it is.

The language of patterns shows why nothing else changes: two forms with a dot between them are a
form again (`Form.append`), and so is a form with a position behind it (`exists_form_position`).
How a reader would come across the seam does not matter.  Blanks may stand around the whole, but not
at the seam.

* `parse_append_dot` — two texts with a dot between them denote the steps of both.
* `parse_append_position` — a text with a position behind it denotes this position as its last step.
-/

namespace DocumentQuery

namespace Pattern

instance : Append Pattern where
  append p q := ⟨p.steps ++ q.steps⟩

@[simp] theorem steps_append (p q : Pattern) : (p ++ q).steps = p.steps ++ q.steps := rfl

/-! ## Forms one after the other -/

/-- Two patterns as they are written with a dot between them. -/
def Form.append (form other : Form) : Form where
  first := form.first
  others := form.others ++ other.first :: other.others

theorem Form.text_append (form other : Form) :
    (form.append other).text = form.text ++ .char '.' :: other.text := by
  simp [Form.append, Form.text, Form.textOfOthers]

theorem Form.steps_append (form other : Form) :
    (form.append other).steps = form.steps ++ other.steps := by
  simp [Form.append, Form.steps]

theorem Form.IsShort.append {form other : Form} (hform : form.IsShort) (hother : other.IsShort) :
    (form.append other).IsShort :=
  ⟨hform.1, List.forall_mem_append.mpr ⟨hform.2, List.forall_mem_cons.mpr hother⟩⟩

/-- A step with one more position. -/
def StepForm.withPosition (form : StepForm) (position : PositionForm) : StepForm where
  key := form.key
  positions := form.positions ++ [position]

theorem StepForm.text_withPosition (form : StepForm) (position : PositionForm) :
    (form.withPosition position).text = form.text ++ position.text := by
  simp [StepForm.withPosition, StepForm.text]

theorem StepForm.steps_withPosition (form : StepForm) (position : PositionForm) :
    (form.withPosition position).steps = form.steps ++ [.index position.position] := by
  simp [StepForm.withPosition, StepForm.steps]

theorem StepForm.IsShort.withPosition {form : StepForm} {position : PositionForm}
    (hform : form.IsShort) (hposition : position.IsShort) :
    (form.withPosition position).IsShort :=
  List.forall_mem_append.mpr ⟨hform, List.forall_mem_singleton.mpr hposition⟩

/-- A form with a position behind it is a form. -/
theorem exists_form_position (form : Form) (position : PositionForm) (hform : form.IsShort)
    (hposition : position.IsShort) :
    ∃ longer : Form, longer.text = form.text ++ position.text ∧
      longer.steps = form.steps ++ [.index position.position] ∧ longer.IsShort := by
  obtain ⟨first, others⟩ := form
  obtain ⟨hfirst, hothers⟩ := hform
  -- The position belongs to the last step, which may be the only one.
  rcases List.eq_nil_or_concat others with rfl | ⟨front, last, rfl⟩
  · refine ⟨⟨first.withPosition position, []⟩, ?_, ?_, hfirst.withPosition hposition, hothers⟩
    · simp [Form.text, Form.textOfOthers, StepForm.text_withPosition]
    · simp [Form.steps, StepForm.steps_withPosition]
  · rw [List.concat_eq_append] at hothers ⊢
    obtain ⟨hfront, hlast⟩ := List.forall_mem_append.mp hothers
    have hlonger := (hlast last List.mem_cons_self).withPosition hposition
    refine ⟨⟨first, front ++ [last.withPosition position]⟩, ?_, ?_, hfirst, ?_⟩
    · simp [Form.text, Form.textOfOthers, StepForm.text_withPosition]
    · simp [Form.steps, StepForm.steps_withPosition]
    · exact List.forall_mem_append.mpr ⟨hfront, List.forall_mem_singleton.mpr hlonger⟩

/-! ## Texts one after the other -/

section

variable {t s : Text} {p q : Pattern}

theorem exists_form_of_steps_ne_nil (h : parse t = .ok p) (hne : p.steps ≠ []) :
    ∃ form : Form, form.text = t.trim ∧ form.steps = p.steps ∧ form.IsShort :=
  (exists_form_of_parse h).resolve_left fun hblank => hne hblank.2

/-- Blanks around the text of a form change nothing about what it denotes. -/
theorem parse_padded_text {before after : Text} (hbefore : ∀ c ∈ before, c.isBlank = true)
    (hafter : ∀ c ∈ after, c.isBlank = true) (form : Form) (hshort : form.IsShort) :
    parse (before ++ form.text ++ after) = .ok ⟨form.steps⟩ := by
  refine parse_text form ?_ hshort
  rw [Text.trim_padded hbefore hafter, Form.trim_text]

/-- Two texts with a dot between them denote the steps of both. -/
theorem parse_append_dot (hp : parse t = .ok p) (hq : parse s = .ok q) (hpne : p.steps ≠ [])
    (hqne : q.steps ≠ []) (hlast : ∀ c ∈ t.getLast?, c.isBlank = false)
    (hfirst : ∀ c ∈ s.head?, c.isBlank = false) : parse (t ++ "." ++ s) = .ok (p ++ q) := by
  obtain ⟨form, hform, hsteps, hshort⟩ := exists_form_of_steps_ne_nil hp hpne
  obtain ⟨other, hother, hmore, hshorter⟩ := exists_form_of_steps_ne_nil hq hqne
  obtain ⟨before, ht, hbefore⟩ := Text.exists_append_trim hlast
  obtain ⟨after, hs, hafter⟩ := Text.exists_trim_append_of_head? hfirst
  have htext : t ++ "." ++ s = before ++ (form.append other).text ++ after := by
    rw [ht, hs, Form.text_append, hform, hother]
    simp [Text.ofString]
  rw [htext, parse_padded_text hbefore hafter _ (hshort.append hshorter), Form.steps_append,
    hsteps, hmore]
  rfl

/-- A text with a position behind it denotes this position as its last step. -/
theorem parse_append_position (hp : parse t = .ok p) (hpne : p.steps ≠ [])
    (hlast : ∀ c ∈ t.getLast?, c.isBlank = false) {i : Int} (hi : Numeral.isWritable i = true) :
    parse (t ++ "[" ++ Numeral.ofInt i ++ "]") = .ok (p ++ ⟨[.index i]⟩) := by
  obtain ⟨form, hform, hsteps, hshort⟩ := exists_form_of_steps_ne_nil hp hpne
  obtain ⟨before, ht, hbefore⟩ := Text.exists_append_trim hlast
  obtain ⟨longer, hlonger, hmore, hwhole⟩ :=
    exists_form_position form (.ofInt i) hshort (PositionForm.isShort_ofInt hi)
  have htext : (t ++ "[" ++ Numeral.ofInt i ++ "]" : Text) = before ++ longer.text ++ [] := by
    rw [hlonger, PositionForm.text_ofInt, Step.render, hform, List.append_nil]
    simp only [← List.append_assoc]
    rw [← ht]
  rw [htext, parse_padded_text hbefore (List.forall_mem_nil _) longer hwhole, hmore, hsteps,
    PositionForm.position_ofInt]
  rfl

end

end Pattern

end DocumentQuery
