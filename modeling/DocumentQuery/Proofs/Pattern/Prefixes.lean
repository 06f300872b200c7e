import DocumentQuery.Proofs.Pattern.Joining

/-!
# Beginnings of patterns

The first steps of a pattern can be counted from its beginning or, with a negative count, from its
end.  A count that is out of range selects all steps or none.  As a key carries its dot in front and
a position carries no dot at all, the text of the steps that are left out goes right behind the text
of the first ones, which is therefore cut between two steps and denotes the first steps by itself.

* `steps_initial`, `initial_append_remaining` — which steps the first ones are, and which remain.
* `render_append` — the text of the steps that come later is that of a tail.
* `initial_cuts` — both together, with the text of the first steps read again.
-/

namespace DocumentQuery

namespace Pattern

/-! ## The first steps -/

/-- Where the beginning of a sequence ends: a negative count is counted from the end of the
sequence, and the beginning is neither shorter than nothing nor longer than the sequence. -/
def sliceEnd (length : Nat) (count : Int) : Nat :=
  min (if count < 0 then count + length else count).toNat length

theorem steps_initial (p : Pattern) (count : Int) :
    (p.initial count).steps = p.steps.take (sliceEnd p.steps.length count) := by
  rw [sliceEnd, ← List.take_eq_take_min, initial]
  split
  · have hend : (count + p.steps.length).toNat = p.steps.length - count.natAbs := by omega
    rw [hend]
  · rfl

theorem length_steps_initial (p : Pattern) (count : Int) :
    (p.initial count).steps.length = sliceEnd p.steps.length count := by
  rw [steps_initial, List.length_take, sliceEnd]
  omega

/-- The steps that are not among the first ones. -/
def remaining (p : Pattern) (count : Int) : List Step :=
  p.steps.drop (sliceEnd p.steps.length count)

theorem initial_append_remaining (p : Pattern) (count : Int) :
    p.initial count ++ ⟨p.remaining count⟩ = p := by
  apply congrArg Pattern.mk
  rw [steps_initial]
  exact List.take_append_drop _ p.steps

/-- Of two cuts that are counted from the beginning, the one that leaves fewer steps decides. -/
theorem initial_initial (p : Pattern) {m n : Int} (hm : 0 ≤ m) (hn : 0 ≤ n) :
    (p.initial m).initial n = p.initial (min m n) := by
  have hmin : (min m n).toNat = min n.toNat m.toNat := by omega
  rw [initial, initial, initial, if_neg (by omega), if_neg (by omega), if_neg (by omega), hmin,
    List.take_take]

/-! ## Their text -/

theorem renderTail_append (steps others : List Step) :
    renderTail (steps ++ others) = renderTail steps ++ renderTail others := by
  induction steps with
  | nil => rfl
  | cons step rest ih =>
      cases step with
      | field name => simp [renderTail, ih]
      | index i => simp [renderTail, ih]

/-- The steps of `q` are written as a tail, unless no steps precede them. -/
theorem render_append {p : Pattern} (hp : p.steps ≠ []) (q : Pattern) :
    (p ++ q).render = p.render ++ renderTail q.steps := by
  obtain ⟨steps⟩ := p
  cases steps with
  | nil => exact absurd rfl hp
  | cons step rest =>
      change step.render ++ renderTail (rest ++ q.steps) = _
      rw [renderTail_append, ← List.append_assoc]
      rfl

/-- The text begins where a step begins that is not the first one of its pattern. -/
def ContinuesSteps (t : Text) : Prop :=
  t = [] ∨ t.head? = some (.char '.') ∨ t.head? = some (.char '[')

theorem continuesSteps_renderTail (steps : List Step) : ContinuesSteps (renderTail steps) := by
  cases steps with
  | nil => exact .inl rfl
  | cons step rest =>
      cases step with
      | field name => exact .inr (.inl rfl)
      | index i => exact .inr (.inr (renderTail_index i rest ▸ rfl))

theorem exists_render_initial_append (p : Pattern) (count : Int) :
    ∃ rest, p.render = (p.initial count).render ++ rest ∧
      ((p.initial count).steps ≠ [] → ContinuesSteps rest) := by
  -- Behind no steps at all, the first key is written without a dot: there is no seam.
  by_cases hempty : (p.initial count).steps = []
  · have hrender : (p.initial count).render = [] := by
      rw [render, hempty]
    exact ⟨p.render, by rw [hrender, List.nil_append], fun hne => absurd hempty hne⟩
  · refine ⟨renderTail (p.remaining count), ?_, fun _ => continuesSteps_renderTail _⟩
    rw [← render_append hempty, initial_append_remaining]

/-- **A pattern can be cut between any two steps.**  The first steps of a pattern that was read are
those of a slice from its beginning.  They have a text, which is read as these steps.  The text of
the pattern begins with it and goes on, if there is any first step, with a further step or not at
all.  Of two cuts one after the other, the one that leaves fewer steps decides. -/
theorem initial_cuts {t : Text} {p : Pattern} (h : parse t = .ok p) (count : Int) :
    (p.initial count).steps <+: p.steps ∧
      (p.initial count).steps.length = sliceEnd p.steps.length count ∧
      (∃ part rest, (p.initial count).write = .ok part ∧ parse part = .ok (p.initial count) ∧
        p.write = .ok (part ++ rest) ∧
        ((p.initial count).steps ≠ [] → ContinuesSteps rest)) ∧
      ∀ m n : Int, 0 ≤ m → 0 ≤ n → (p.initial m).initial n = p.initial (min m n) := by
  obtain ⟨hwritable, hread⟩ := parse_render_initial h count
  obtain ⟨rest, hrender, hseam⟩ := exists_render_initial_append p count
  have hsteps : (p.initial count).steps <+: p.steps := by
    rw [steps_initial]
    exact List.take_prefix _ _
  refine ⟨hsteps, length_steps_initial p count, ?_, fun m n hm hn => initial_initial p hm hn⟩
  refine ⟨(p.initial count).render, rest, write_eq_ok hwritable, hread, ?_, hseam⟩
  rw [write_eq_ok (isWritable_of_parse h), hrender]

/-- Two steps less than a pattern with a key that contains syntax, and ten steps less. -/
theorem initial_cuts_negative :
    let t : Text := Text.ofString " a.\"b.[\"[0][-1].d"
    let part : Text := Text.ofString "a.\"b.[\"[0]"
    let a : Step := .field (Text.ofString "a")
    let b : Step := .field (Text.ofString "b.[")
    let p : Pattern := ⟨[a, b, .index 0, .index (-1), .field (Text.ofString "d")]⟩
    parse t = .ok p ∧ p.initial (-2) = ⟨[a, b, .index 0]⟩ ∧ p.initial (-10) = ⟨[]⟩ ∧
      (p.initial (-2)).write = .ok part ∧ parse part = .ok (p.initial (-2)) ∧
      ∃ rest, p.write = .ok (part ++ rest) ∧ ContinuesSteps rest := by
  intro t part a b p
  have hread : parse t = .ok p := by decide +kernel
  obtain ⟨-, -, ⟨written, rest, hwrite, hagain, hwhole, hseam⟩, -⟩ := initial_cuts hread (-2)
  have hwritten : written = part := by
    rw [← (isWritable_of_write hwrite).2]
    decide
  subst hwritten
  exact ⟨hread, rfl, rfl, hwrite, hagain, rest, hwhole, hseam (by decide)⟩

end Pattern

end DocumentQuery
