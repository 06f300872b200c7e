import DocumentQuery.Decimal.Literal
import DocumentQuery.Proofs.Numeral

/-!
# Number literals in texts

What follows the leading digits of a number is its fraction and its exponent.  A text that begins
with neither is left alone, so an integer is read as one.  Wherever a number ends, no equals sign
has been passed.
-/

namespace DocumentQuery

namespace Numeral

/-- A numeral is not empty, and it begins with a zero only if it is that of zero. -/
theorem exists_ofNat_eq_cons (n : Nat) :
    ∃ c digits, ofNat n = c :: digits ∧ c.isDigit = true ∧ (c = .char '0' → digits = []) := by
  cases hdigits : ofNat n with
  | nil => exact absurd hdigits (ofNat_ne_nil n)
  | cons c digits =>
      refine ⟨c, digits, rfl, isDigit_of_mem_ofNat (by rw [hdigits]; exact List.mem_cons_self), ?_⟩
      rintro rfl
      by_contra hne
      -- Without the zero the digits would denote the same number and be fewer.
      have hvalue : value digits = n := by
        have hn := value_ofNat n
        rw [hdigits] at hn
        exact hn
      have hpositive : 0 < digits.length := List.length_pos_iff.mpr hne
      have hshorter : (ofNat n).length ≤ digits.length := by
        rw [length_ofNat_le_iff n hpositive, ← hvalue]
        exact value_lt (Nat.le_refl _)
      rw [hdigits, List.length_cons] at hshorter
      omega

end Numeral

namespace NumberLiteral

/-! ## Integers -/

/-- The literal of a written integer. -/
def ofInt (i : Int) : NumberLiteral :=
  ⟨i < 0, Numeral.ofNat i.natAbs, none, none⟩

theorem toInt_ofInt {i : Int} (h : Numeral.isWritable i = true) : (ofInt i).toInt = .ok i := by
  have hshort : (Numeral.ofNat i.natAbs).length ≤ Numeral.maxDigits :=
    (Numeral.isWritable_iff i).mp h
  have hsigned : signed (decide (i < 0)) i.natAbs = i := by
    unfold signed
    by_cases hneg : i < 0
    · rw [if_pos (decide_eq_true hneg)]
      omega
    · rw [if_neg (by simpa using hneg)]
      omega
  rw [toInt, ofInt, Numeral.read, if_pos hshort, Numeral.value_ofNat]
  exact congrArg Except.ok hsigned

/-- The code point may go on with a number whose leading digits have been read. -/
def goesOn (c : CodePoint) : Bool :=
  c.isDigit || c = .char '.' || c = .char 'e' || c = .char 'E'

theorem readTail_of_end (run : Text → Text × Text) (negative : Bool) (whole : Text) {rest : Text}
    (hrest : ∀ c ∈ rest.head?, goesOn c = false) :
    readTail run negative whole rest = (⟨negative, whole, none, none⟩, rest) := by
  have hfraction : readFraction run rest = (none, rest) := by
    unfold readFraction
    split
    · exact absurd (hrest _ rfl) (by decide)
    · rfl
  have hexponent : readExponent run rest = (none, rest) := by
    unfold readExponent
    split
    · exact absurd (hrest _ rfl) (by decide)
    · exact absurd (hrest _ rfl) (by decide)
    · rfl
  rw [readTail, hfraction]
  dsimp only
  rw [hexponent]

/-! ## What is passed -/

/-- The text before an end piece of it holds no equals sign. -/
def Passes (t rest : Text) : Prop :=
  ∃ passed, t = passed ++ rest ∧ .char '=' ∉ passed

theorem Passes.refl (t : Text) : Passes t t :=
  ⟨[], rfl, List.not_mem_nil⟩

theorem Passes.cons {c : CodePoint} {t rest : Text} (hc : c ≠ .char '=') (h : Passes t rest) :
    Passes (c :: t) rest := by
  obtain ⟨passed, rfl, hpassed⟩ := h
  exact ⟨c :: passed, rfl, by simp [hc.symm, hpassed]⟩

theorem Passes.trans {s t u : Text} (h : Passes s t) (hmore : Passes t u) : Passes s u := by
  obtain ⟨first, rfl, hfirst⟩ := h
  obtain ⟨second, rfl, hsecond⟩ := hmore
  exact ⟨first ++ second, by rw [List.append_assoc], by simp [hfirst, hsecond]⟩

theorem Passes.suffix {t rest : Text} (h : Passes t rest) : rest <:+ t := by
  obtain ⟨passed, rfl, -⟩ := h
  exact List.suffix_append passed rest

section

variable {run : Text → Text × Text} (hrun : ∀ t, Passes t (run t).2)
include hrun

theorem passes_readFraction (t : Text) : Passes t (readFraction run t).2 := by
  unfold readFraction
  split
  · rename_i rest
    split
    · exact .refl _
    · rename_i heq
      have hafter := hrun rest
      rw [heq] at hafter
      exact hafter.cons (by decide)
  · exact .refl _

theorem passes_readExponent (t : Text) : Passes t (readExponent run t).2 := by
  have hdigits {c : CodePoint} (hc : c ≠ .char '=') {rest digits after found : Text}
      (hsign : Passes rest digits) (hfound : run digits = (found, after)) :
      Passes (c :: rest) after := by
    have hafter := hrun digits
    rw [hfound] at hafter
    exact (hsign.trans hafter).cons hc
  unfold readExponent
  split
  case h_3 => exact .refl _
  all_goals
    rename_i rest
    -- After the letter the sign is passed, if there is one, and then the digits are.
    split
    rename_i negative digits hletter
    have hsign : Passes rest digits := by
      split at hletter
      all_goals cases hletter
      · exact (Passes.refl _).cons (by decide)
      · exact (Passes.refl _).cons (by decide)
      · exact .refl _
    split
    · exact .refl _
    · exact hdigits (by decide) hsign ‹_›

theorem passes_readTail (negative : Bool) (whole rest : Text) :
    Passes rest (readTail run negative whole rest).2 :=
  (passes_readFraction hrun rest).trans (passes_readExponent hrun _)

end

end NumberLiteral

end DocumentQuery
