import DocumentQuery.Decimal.Literal
import DocumentQuery.Proofs.Text

/-!
# What readers may do with a text

A reader takes something from the beginning of a text and leaves an end piece of it.  If it stops,
the text is to blame.  `Proper` states this for one outcome; it is kept when a reader goes on
with what another one left.

Which texts are to blame for a stop is a parameter.  The stop that matters is the one at a numeral
of too many digits: only a text with a run of so many digits is to blame for it.
-/

namespace DocumentQuery

namespace Text

/-- No run of digits in the text is longer than a numeral may be. -/
def HasShortRuns (t : Text) : Prop :=
  ∀ run, run <:+: t → (∀ c ∈ run, c.isDigit = true) → run.length ≤ Numeral.maxDigits

theorem HasShortRuns.of_infix {s t : Text} (h : t.HasShortRuns) (hsub : s <:+: t) :
    s.HasShortRuns :=
  fun run hrun hdigits => h run (hrun.trans hsub) hdigits

theorem HasShortRuns.of_length {t : Text} (h : t.length ≤ Numeral.maxDigits) : t.HasShortRuns :=
  fun _ hrun _ => Nat.le_trans hrun.length_le h

end Text

@[simp] theorem ok_bind {α β ε : Type} (a : α) (next : α → Except ε β) :
    (Except.ok a >>= next) = next a := rfl

/-- A computation in two parts succeeds only if both parts do. -/
theorem exists_of_bind_eq_ok {α β ε : Type} {first : Except ε α} {next : α → Except ε β} {b : β}
    (h : first >>= next = .ok b) : ∃ a, first = .ok a ∧ next a = .ok b := by
  cases first with
  | error e => cases h
  | ok a => exact ⟨a, rfl, h⟩

/-- A text is to blame for whatever an end piece of it is to blame for. -/
def Inherits {ε : Type} (blame : ε → Text → Prop) : Prop :=
  ∀ stop s t, s <:+ t → blame stop s → blame stop t

/-- An outcome of reading a text: what is left is an end piece of the text, what was read satisfies
`P`, and the text is to blame for a stop. -/
structure Proper {α ε : Type} (blame : ε → Text → Prop) (t : Text) (P : α → Prop)
    (outcome : Except ε (α × Text)) : Prop where
  leaves : ∀ a rest, outcome = .ok (a, rest) → rest <:+ t
  yields : ∀ a rest, outcome = .ok (a, rest) → P a
  stops : ∀ stop, outcome = .error stop → blame stop t

namespace Proper

variable {α β ε : Type} {blame : ε → Text → Prop} {s t : Text} {P : α → Prop} {Q : β → Prop}

theorem ok {a : α} {rest : Text} (hrest : rest <:+ t) (ha : P a) :
    Proper blame t P (.ok (a, rest)) where
  leaves := by rintro _ _ ⟨⟩; exact hrest
  yields := by rintro _ _ ⟨⟩; exact ha
  stops := by rintro _ ⟨⟩

theorem error {stop : ε} (h : blame stop t) :
    Proper blame t P (.error stop : Except ε (α × Text)) where
  leaves := by rintro _ _ ⟨⟩
  yields := by rintro _ _ ⟨⟩
  stops := by rintro _ ⟨⟩; exact h

/-- What is proper for an end piece is proper for the text. -/
theorem of_suffix (hblame : Inherits blame) {outcome : Except ε (α × Text)}
    (h : Proper blame s P outcome) (hs : s <:+ t) :
    Proper blame t P outcome where
  leaves a rest hok := (h.leaves a rest hok).trans hs
  yields := h.yields
  stops stop herror := hblame stop s t hs (h.stops stop herror)

/-- A reader goes on with what another one left. -/
theorem bind (hblame : Inherits blame) {outcome : Except ε (α × Text)}
    {next : α × Text → Except ε (β × Text)} (h : Proper blame t P outcome)
    (hnext : ∀ a rest, P a → rest <:+ t → Proper blame rest Q (next (a, rest))) :
    Proper blame t Q (outcome >>= next) := by
  cases outcome with
  | error stop => exact .error (h.stops stop rfl)
  | ok found =>
      obtain ⟨a, rest⟩ := found
      have hrest := h.leaves a rest rfl
      exact (hnext a rest (h.yields a rest rfl) hrest).of_suffix hblame hrest

/-- A reader changes what another one read and leaves the same text. -/
theorem bind_pure {outcome : Except ε (α × Text)} {next : α × Text → Except ε (β × Text)}
    {f : α → β} (h : Proper blame t P outcome) (hnext : ∀ a rest, next (a, rest) = .ok (f a, rest))
    (hf : ∀ a, P a → Q (f a)) : Proper blame t Q (outcome >>= next) := by
  cases outcome with
  | error stop => exact .error (h.stops stop rfl)
  | ok found =>
      obtain ⟨a, rest⟩ := found
      change Proper blame t Q (next (a, rest))
      rw [hnext]
      exact .ok (h.leaves a rest rfl) (hf a (h.yields a rest rfl))

end Proper

end DocumentQuery
