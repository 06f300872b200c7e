import DocumentQuery.Decimal.Numeral
import Mathlib.Data.Nat.Digits.Defs

/-!
# Decimal numerals read back

A numeral is written without leading zeros and read in positional notation.  This module proves
that reading undoes writing, and that the limit on digits is the same in both directions: an
integer can be written exactly if its numeral is short enough to be read.
-/

namespace DocumentQuery

namespace Numeral

theorem digitValue_lt_ten (c : CodePoint) : c.digitValue < 10 := by
  unfold CodePoint.digitValue
  split
  · rename_i hdigit
    cases c with
    | char c =>
        have hrange : 48 ≤ c.val ∧ c.val ≤ 57 := by
          simpa [CodePoint.isDigit, Char.isDigit] using hdigit
        have hupper : c.toNat ≤ 57 := UInt32.le_iff_toNat_le.mp hrange.2
        simp only [CodePoint.toNat_char, Char.reduceToNat]
        omega
    | surrogate d => exact absurd hdigit Bool.false_ne_true
  · decide

/-- A numeral is read in positional notation: the last digit counts once, the one before it ten
times, and so on. -/
theorem value_eq_ofDigits (digits : Text) :
    value digits = Nat.ofDigits 10 (digits.reverse.map CodePoint.digitValue) := by
  rw [Nat.ofDigits_eq_foldr, List.foldr_map, List.foldr_reverse]
  unfold value
  simp only [Nat.cast_id, Nat.add_comm]

/-- A number of at most `k` digits is below the `k`-th power of ten. -/
theorem value_lt {digits : Text} {k : Nat} (h : digits.length ≤ k) :
    value digits < Nat.pow 10 k := by
  have hdigits : ∀ d ∈ digits.reverse.map CodePoint.digitValue, d < 10 := by
    intro d hd
    obtain ⟨c, -, rfl⟩ := List.mem_map.mp hd
    exact digitValue_lt_ten c
  have hvalue := Nat.ofDigits_lt_base_pow_length (by decide) hdigits
  rw [← value_eq_ofDigits, List.length_map, List.length_reverse] at hvalue
  exact Nat.lt_of_lt_of_le hvalue (Nat.pow_le_pow_right (by decide) h)

theorem ofNat_ne_nil (n : Nat) : ofNat n ≠ [] := by
  simp [ofNat]

theorem isDigit_of_mem_ofNat {n : Nat} {c : CodePoint} (h : c ∈ ofNat n) : c.isDigit = true := by
  obtain ⟨d, hd, rfl⟩ := List.mem_map.mp h
  exact Nat.isDigit_of_mem_toDigits (by decide) (by decide) hd

theorem foldl_digitValue_map_char (cs : List Char) (start : Nat)
    (hdigits : ∀ c ∈ cs, c.isDigit = true) :
    (cs.map CodePoint.char).foldl (fun n c => 10 * n + c.digitValue) start =
      Nat.ofDigitChars 10 cs start := by
  induction cs generalizing start with
  | nil => simp
  | cons c cs ih =>
      have hc : (CodePoint.char c).digitValue = c.toNat - '0'.toNat := by
        have hdigit : (CodePoint.char c).isDigit = true := hdigits c List.mem_cons_self
        simp only [CodePoint.digitValue, hdigit, if_true, CodePoint.toNat_char]
      rw [List.map_cons, List.foldl_cons, Nat.ofDigitChars_cons, hc]
      exact ih _ fun d hd => hdigits d (List.mem_cons_of_mem c hd)

/-- Reading undoes writing. -/
theorem value_ofNat (n : Nat) : value (ofNat n) = n := by
  unfold value ofNat
  rw [foldl_digitValue_map_char _ _ fun c hc =>
    Nat.isDigit_of_mem_toDigits (by decide) (by decide) hc]
  exact Nat.ofDigitChars_ten_toDigits

/-- A number is written with few digits exactly if it is small. -/
theorem length_ofNat_le_iff (n : Nat) {k : Nat} (hk : 0 < k) :
    (ofNat n).length ≤ k ↔ n < Nat.pow 10 k := by
  rw [ofNat, List.length_map, Nat.pow_eq]
  exact Nat.length_toDigits_le_iff (by decide) hk

/-- What can be written is what has few enough digits to be read. -/
theorem isWritable_iff (i : Int) :
    isWritable i = true ↔ (ofNat i.natAbs).length ≤ maxDigits := by
  rw [isWritable, decide_eq_true_eq, length_ofNat_le_iff _ (by decide)]

theorem isWritable_of_lt {n k : Nat} (hk : 0 < k) (hmax : k ≤ maxDigits) (h : n < Nat.pow 10 k) :
    isWritable (n : Int) = true := by
  rw [isWritable_iff, Int.natAbs_natCast]
  exact Nat.le_trans ((length_ofNat_le_iff n hk).mpr h) hmax

/-- Whatever is read from few enough digits can be written, with either sign. -/
theorem isWritable_of_length_le {digits : Text} {i : Int} (hi : i.natAbs = value digits)
    (h : digits.length ≤ maxDigits) : isWritable i = true := by
  rw [isWritable, decide_eq_true_eq, hi]
  exact value_lt h

end Numeral

end DocumentQuery
