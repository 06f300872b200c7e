import DocumentQuery.Pattern.Basic
import DocumentQuery.Proofs.Numeral
import DocumentQuery.Proofs.Text

/-!
# The language of patterns

This module says without a reader which texts are patterns and what they mean.  A *form* records
how each part of a pattern is written.  It has a text and it denotes steps; the language of patterns
consists of the texts of forms.

* `KeyForm` — a key is bare, or it is a sequence of `QuotedItem`s between double quotes.
* `PositionForm` — a position is an optional minus sign and decimal digits between brackets.
* `StepForm` — a step is a key followed by any number of positions.
* `Form` — a pattern is one or more steps with a dot between neighbours.

Forms cannot be built wrong: what the language asks of each part is a field of the part.  The limit
on the digits of a position is no part of the language; `Form.IsShort` states it.
-/

namespace DocumentQuery

namespace Pattern

/-- The two code points that a backslash escapes in a quoted key. -/
def IsSpecial (c : CodePoint) : Prop :=
  c = .char '"' ∨ c = .char '\\'

instance : DecidablePred IsSpecial := fun c =>
  inferInstanceAs (Decidable (c = .char '"' ∨ c = .char '\\'))

/-- An item of a quoted key. -/
inductive QuotedItem where
  /-- A backslash and the double quote or backslash that it stands for. -/
  | escaped (c : CodePoint) (hspecial : IsSpecial c)
  /-- A backslash before any other code point: it stands for itself, as does what follows it. -/
  | backslash (next : CodePoint) (hplain : ¬IsSpecial next)
  /-- Any other code point stands for itself. -/
  | plain (c : CodePoint) (hplain : ¬IsSpecial c)

namespace QuotedItem

/-- How an item is written. -/
def text : QuotedItem → Text
  | escaped c _ => [.char '\\', c]
  | backslash next _ => [.char '\\', next]
  | plain c _ => [c]

/-- The part of the key that an item stands for. -/
def denoted : QuotedItem → Text
  | escaped c _ => [c]
  | backslash next _ => [.char '\\', next]
  | plain c _ => [c]

end QuotedItem

/-- A key as it is written. -/
inductive KeyForm where
  | bare (name : Text) (hne : name ≠ []) (hbare : ∀ c ∈ name, c.isBare = true)
  | quoted (items : List QuotedItem)

namespace KeyForm

/-- How a key is written. -/
def text : KeyForm → Text
  | bare name _ _ => name
  | quoted items => .char '"' :: (items.flatMap QuotedItem.text ++ [.char '"'])

/-- The key that is meant. -/
def name : KeyForm → Text
  | bare name _ _ => name
  | quoted items => items.flatMap QuotedItem.denoted

end KeyForm

/-- A position as it is written. -/
structure PositionForm where
  negative : Bool
  digits : Text
  hne : digits ≠ []
  hdigits : ∀ c ∈ digits, c.isDigit = true

namespace PositionForm

/-- The minus sign, if there is one. -/
def sign (form : PositionForm) : Text :=
  if form.negative then [.char '-'] else []

/-- What is written after the opening bracket. -/
def body (form : PositionForm) : Text :=
  form.sign ++ form.digits ++ [.char ']']

/-- How a position is written. -/
def text (form : PositionForm) : Text :=
  .char '[' :: form.body

/-- The number that the digits denote in positional notation. -/
def magnitude (form : PositionForm) : Nat :=
  Nat.ofDigits 10 (form.digits.reverse.map CodePoint.digitValue)

/-- The integer that is meant. -/
def position (form : PositionForm) : Int :=
  if form.negative then -(form.magnitude : Int) else form.magnitude

/-- There are few enough digits for the position to be read. -/
def IsShort (form : PositionForm) : Prop :=
  form.digits.length ≤ Numeral.maxDigits

end PositionForm

/-- A step as it is written. -/
structure StepForm where
  key : KeyForm
  positions : List PositionForm

namespace StepForm

/-- How a step is written. -/
def text (form : StepForm) : Text :=
  form.key.text ++ form.positions.flatMap PositionForm.text

/-- The steps that are meant: one for the key and one for each position. -/
def steps (form : StepForm) : List Step :=
  .field form.key.name :: form.positions.map fun p => .index p.position

/-- All positions have few enough digits. -/
def IsShort (form : StepForm) : Prop :=
  ∀ p ∈ form.positions, p.IsShort

end StepForm

/-- A pattern as it is written. -/
structure Form where
  first : StepForm
  others : List StepForm

namespace Form

/-- How the steps after the first are written. -/
def textOfOthers (others : List StepForm) : Text :=
  others.flatMap fun form => .char '.' :: form.text

/-- How a pattern is written. -/
def text (form : Form) : Text :=
  form.first.text ++ textOfOthers form.others

/-- The steps that are meant, from left to right. -/
def steps (form : Form) : List Step :=
  form.first.steps ++ form.others.flatMap StepForm.steps

/-- All positions have few enough digits. -/
def IsShort (form : Form) : Prop :=
  form.first.IsShort ∧ ∀ other ∈ form.others, other.IsShort

end Form

/-! ## The ends of texts

A pattern neither begins nor ends with a blank, so trimming never changes one.  What it ends with is
even visible. -/

/-- A key begins with a code point that may stand in a bare key, or with a double quote. -/
theorem KeyForm.head?_text (form : KeyForm) :
    ∀ c ∈ form.text.head?, c.isBare = true ∨ c = .char '"' := by
  intro c hc
  cases form with
  | bare name _ hbare => exact Or.inl (hbare c (List.mem_of_mem_head? hc))
  | quoted items => exact Or.inr (Option.some.inj hc).symm

theorem KeyForm.text_ne_nil (form : KeyForm) : form.text ≠ [] := by
  cases form with
  | bare name hne _ => exact hne
  | quoted items => exact List.cons_ne_nil _ _

theorem KeyForm.getLast?_text (form : KeyForm) : ∀ c ∈ form.text.getLast?, c.IsVisible := by
  intro c hc
  cases form with
  | bare name _ hbare =>
      exact CodePoint.isVisible_of_isBare (hbare c (List.mem_of_getLast? hc))
  | quoted items =>
      have hquote : c = .char '"' := by
        rw [KeyForm.text, ← List.cons_append, List.getLast?_concat] at hc
        exact (Option.some.inj hc).symm
      rw [hquote]
      decide

theorem PositionForm.getLast?_text (form : PositionForm) :
    ∀ c ∈ form.text.getLast?, c.IsVisible := by
  intro c hc
  have hbracket : c = .char ']' := by
    rw [PositionForm.text, PositionForm.body, ← List.cons_append, List.getLast?_concat] at hc
    exact (Option.some.inj hc).symm
  rw [hbracket]
  decide

theorem StepForm.getLast?_text (form : StepForm) : ∀ c ∈ form.text.getLast?, c.IsVisible :=
  Text.getLast?_append form.key.getLast?_text
    (Text.getLast?_flatMap fun position _ => position.getLast?_text)

theorem Form.head?_text (form : Form) : ∀ c ∈ form.text.head?, c.isBlank = false := by
  intro c hc
  have hkey : c ∈ form.first.key.text.head? := by
    rw [Form.text, StepForm.text, List.append_assoc,
      List.head?_append_of_ne_nil _ form.first.key.text_ne_nil] at hc
    exact hc
  rcases form.first.key.head?_text c hkey with hbare | rfl
  · exact CodePoint.isBlank_of_isBare hbare
  · decide

/-- A pattern ends with a visible character of ASCII. -/
theorem Form.getLast?_text (form : Form) : ∀ c ∈ form.text.getLast?, c.IsVisible := by
  apply Text.getLast?_append form.first.getLast?_text
  apply Text.getLast?_flatMap
  intro other _
  rw [← List.singleton_append]
  refine Text.getLast?_append ?_ other.getLast?_text
  intro c hc
  rw [← Option.some.inj hc]
  decide

/-- No pattern has blanks around it. -/
theorem Form.trim_text (form : Form) : form.text.trim = form.text :=
  Text.trim_eq_self form.head?_text fun c hc =>
    CodePoint.isBlank_of_isVisible (form.getLast?_text c hc)

theorem Form.text_ne_nil (form : Form) : form.text ≠ [] := by
  simp [Form.text, StepForm.text, form.first.key.text_ne_nil]

end Pattern

end DocumentQuery
