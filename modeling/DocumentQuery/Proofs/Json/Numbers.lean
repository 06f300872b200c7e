import DocumentQuery.Decimal.Shortest
import DocumentQuery.Proofs.Json.Grammar
import DocumentQuery.Proofs.Literal

/-!
# Written numbers are numbers of JSON

Integers and finite floating-point numbers are written as the grammar of JSON has them.  The one
thing in doubt is a zero before other digits.  The digits of a floating-point number are those of a
decimal that rounds to it, and zero does not round to a positive number, so their first is no zero.
-/

namespace DocumentQuery

open Json.Grammar

/-! ## Integers -/

theorem Numeral.isWhole_ofNat (n : Nat) : IsWhole (ofNat n) := by
  obtain ⟨c, digits, hn, hdigit, hzero⟩ := exists_ofNat_eq_cons n
  by_cases hc : c = .char '0'
  · left
    rw [hn, hzero hc, hc]
  · right
    refine ⟨⟨ofNat_ne_nil n, fun _ => isDigit_of_mem_ofNat⟩, ?_⟩
    rw [hn]
    exact fun h => hc (Option.some.inj h)

theorem Numeral.isNumber_ofInt (i : Int) : IsNumber (ofInt i) := by
  have hwhole := isWhole_ofNat i.natAbs
  have hsign (sign : Text) (h : sign = [] ∨ sign = [.char '-']) :
      IsNumber (sign ++ ofNat i.natAbs) := by
    simpa using IsNumber.intro h hwhole .none .none
  unfold ofInt
  split
  · exact hsign [.char '-'] (Or.inr rfl)
  · exact hsign [] (Or.inl rfl)

/-! ## Digits of finite numbers -/

/-- Digits of which the first is no zero. -/
def IsSignificand (digits : Text) : Prop :=
  IsDigits digits ∧ digits.head? ≠ some (.char '0')

theorem Binary64.le_roundedQuotient (numerator denominator : Nat) :
    numerator / denominator ≤ roundedQuotient numerator denominator := by
  unfold roundedQuotient
  dsimp only
  split
  · exact Nat.le_refl _
  · split
    · exact Nat.le_succ _
    · exact Nat.le_add_right _ _

namespace Shortest.Interval

variable {i : Interval}

theorem low_pos {mantissa : Nat} (h : mantissa ≠ 0) (exponent : Int) :
    0 < (Interval.of mantissa exponent).low := by
  have hfactor : 0 < Nat.pow 2 (exponent - 2).toNat := Nat.pow_pos (by decide)
  refine Nat.mul_pos ?_ hfactor
  split <;> omega

/-- Zero does not round to a positive number. -/
theorem contains_zero (hlow : 0 < i.low) (exponent : Int) : i.contains 0 exponent = false := by
  have hup : 0 < i.low * Nat.pow 10 (-exponent).toNat :=
    Nat.mul_pos hlow (Nat.pow_pos (by decide))
  unfold contains
  dsimp only
  rw [Nat.zero_mul, Nat.zero_mul]
  split
  · rw [decide_eq_false (Nat.not_le.mpr hup), Bool.false_and]
  · rw [decide_eq_false (Nat.not_lt_zero _), Bool.false_and]

theorem ne_zero_of_contains (hlow : 0 < i.low) {digits : Nat} {exponent : Int}
    (h : i.contains digits exponent = true) : digits ≠ 0 := by
  rintro rfl
  rw [contains_zero hlow] at h
  cases h

theorem ne_zero_of_onGrid (hlow : 0 < i.low) {exponent : Int} {point : Nat}
    (h : i.onGrid exponent = some point) : point ≠ 0 := by
  unfold onGrid at h
  dsimp only at h
  split at h
  · rename_i hbelow _
    have hquotient := ne_zero_of_contains hlow hbelow
    cases h
    exact Nat.ne_of_gt (Nat.lt_of_lt_of_le (Nat.pos_of_ne_zero hquotient)
      (Binary64.le_roundedQuotient _ _))
  · rename_i hbelow _
    cases h
    exact ne_zero_of_contains hlow hbelow
  · cases h
    exact Nat.succ_ne_zero _
  · cases h

theorem shortest_cases (hlow : 0 < i.low) : i.shortest = (0, 0) ∨ i.shortest.1 ≠ 0 := by
  unfold shortest
  dsimp only
  cases h : (List.range' 1 17).findSome? fun count : Nat =>
      (i.onGrid (i.magnitude - count)).map fun point => (point, i.magnitude - (count : Int)) with
  | none => exact Or.inl rfl
  | some found =>
      obtain ⟨count, -, hcount⟩ := List.exists_of_findSome?_eq_some h
      obtain ⟨point, hpoint, rfl⟩ := Option.map_eq_some_iff.mp hcount
      exact Or.inr (ne_zero_of_onGrid hlow hpoint)

end Shortest.Interval

/-- Without its trailing zeros the numeral of a positive number still begins with the same digit. -/
theorem Numeral.isSignificand_dropEndWhile {n : Nat} (h : n ≠ 0) :
    IsSignificand ((Numeral.ofNat n).dropEndWhile (· = .char '0')) := by
  obtain ⟨c, digits, hn, hdigit, hzero⟩ := Numeral.exists_ofNat_eq_cons n
  have hc : c ≠ .char '0' := by
    rintro rfl
    have hvalue := Numeral.value_ofNat n
    rw [hn, hzero rfl] at hvalue
    exact h hvalue.symm
  have hkept := Text.dropEndWhile_isPrefix (· = .char '0') (Numeral.ofNat n)
  obtain ⟨count, hcount⟩ := Text.exists_dropEndWhile_append (.char '0') (Numeral.ofNat n)
  -- If nothing were kept, the numeral would consist of zeros.
  generalize (Numeral.ofNat n).dropEndWhile (· = .char '0') = kept at hkept hcount ⊢
  refine ⟨⟨?_, fun d hd => Numeral.isDigit_of_mem_ofNat (hkept.subset hd)⟩, ?_⟩
  · rintro rfl
    rw [hn, List.nil_append] at hcount
    exact hc (List.eq_of_mem_replicate (hcount ▸ List.mem_cons_self))
  · intro hhead
    rw [hn] at hkept
    cases kept with
    | nil => cases hhead
    | cons d kept =>
        cases hhead
        exact hc (List.cons_prefix_cons.mp hkept).1.symm

namespace FloatStyle

/-- The digits of a positive number begin with none that is zero, unless there are none at all. -/
theorem significant_cases {mantissa : Nat} (h : mantissa ≠ 0) (exponent : Int) :
    significant mantissa exponent = ([], 0) ∨ IsSignificand (significant mantissa exponent).1 := by
  unfold significant
  rcases Shortest.Interval.shortest_cases (Shortest.Interval.low_pos h exponent) with hnone | hsome
  · left
    rw [hnone]
    decide +kernel
  · right
    exact Numeral.isSignificand_dropEndWhile hsome

theorem isDigit_repeated (n : Nat) : ∀ c ∈ Text.repeated n (.char '0'), c.isDigit = true := by
  intro c hc
  rw [List.eq_of_mem_replicate hc]
  rfl

/-- Digits in positional notation are the digits of an integer and a fraction. -/
theorem exists_positional {digits : Text} {exponent : Int}
    (h : IsSignificand digits ∨ digits = [] ∧ exponent = 0) :
    ∃ whole fraction, positional digits exponent = whole ++ fraction ∧ IsWhole whole ∧
      IsFraction fraction := by
  have hdigits : ∀ c ∈ digits, c.isDigit = true := by
    rcases h with h | ⟨rfl, -⟩
    · exact h.1.2
    · exact nofun
  unfold positional
  split
  · rename_i hnegative
    have hne : digits ≠ [] := by
      rcases h with h | ⟨-, rfl⟩
      · exact h.1.1
      · omega
    refine ⟨[.char '0'], .char '.' :: (Text.repeated (-exponent - 1).toNat (.char '0') ++ digits),
      rfl, Or.inl rfl, .some ⟨?_, ?_⟩⟩
    · simp [hne]
    · exact List.forall_mem_append.mpr ⟨isDigit_repeated _, hdigits⟩
  · dsimp only
    generalize hwhole : exponent.toNat + 1 = count
    refine ⟨digits.take count ++ Text.repeated (count - digits.length) (.char '0'),
      .char '.' :: (if (digits.drop count).isEmpty then Text.ofString "0" else digits.drop count),
      by rw [List.append_assoc]; rfl, ?_, .some ?_⟩
    · rcases h with h | ⟨rfl, rfl⟩
      · -- The first digit stays the first.
        obtain ⟨⟨hne, -⟩, hhead⟩ := h
        cases digits with
        | nil => exact absurd rfl hne
        | cons c digits =>
            rw [← hwhole, List.take_succ_cons, List.cons_append]
            refine Or.inr ⟨⟨List.cons_ne_nil _ _, ?_⟩, hhead⟩
            obtain ⟨hc, hrest⟩ := List.forall_mem_cons.mp hdigits
            exact List.forall_mem_cons.mpr ⟨hc, List.forall_mem_append.mpr
              ⟨fun d hd => hrest d (List.mem_of_mem_take hd), isDigit_repeated _⟩⟩
      · exact Or.inl (by rw [← hwhole]; rfl)
    · split
      · exact ⟨by decide +kernel, by decide +kernel⟩
      · rename_i hback
        exact ⟨by simpa using hback, fun c hc => hdigits c (List.mem_of_mem_drop hc)⟩

/-- Digits in scientific notation are a digit, a fraction and an exponent. -/
theorem exists_scientific (style : FloatStyle) {digits : Text} (h : IsSignificand digits)
    (exponent : Int) :
    ∃ whole fraction power, style.scientific digits exponent = whole ++ fraction ++ power ∧
      IsWhole whole ∧ IsFraction fraction ∧ IsExponent power := by
  let sign := Text.ofString (if exponent < 0 then "-" else "+")
  let written := Numeral.ofNat exponent.natAbs
  let padded := Text.repeated (style.exponentDigits - written.length) (.char '0') ++ written
  have hpower : IsExponent (.char 'e' :: (sign ++ padded)) := by
    refine .some (Or.inl rfl) ?_ ⟨?_, ?_⟩
    · unfold sign
      split
      · exact Or.inr (Or.inl rfl)
      · exact Or.inr (Or.inr rfl)
    · exact List.append_ne_nil_of_right_ne_nil _ (Numeral.ofNat_ne_nil _)
    · exact List.forall_mem_append.mpr ⟨isDigit_repeated _, fun _ => Numeral.isDigit_of_mem_ofNat⟩
  obtain ⟨⟨hne, hdigits⟩, hhead⟩ := h
  cases digits with
  | nil => exact absurd rfl hne
  | cons first rest =>
      obtain ⟨hfirst, hrest⟩ := List.forall_mem_cons.mp hdigits
      have hwhole : IsWhole [first] :=
        Or.inr ⟨⟨List.cons_ne_nil _ _, List.forall_mem_singleton.mpr hfirst⟩, hhead⟩
      cases rest with
      | nil =>
          refine ⟨[first], [], _, ?_, hwhole, .none, hpower⟩
          unfold scientific
          simp only [List.append_assoc]
          rfl
      | cons second rest =>
          refine ⟨[first], .char '.' :: second :: rest, _, ?_, hwhole,
            .some ⟨List.cons_ne_nil _ _, hrest⟩, hpower⟩
          rw [scientific]
          simp only [List.append_assoc]
          rfl

/-- A finite number is written as a number, in a style that has zero written positionally. -/
theorem isNumber_render {style : FloatStyle} (hfrom : style.positionalFrom ≤ 0)
    (hbelow : 0 < style.positionalBelow) {x : Binary64} {negative : Bool} {mantissa : Nat}
    {exponent : Int} (h : x.reading = .finite negative mantissa exponent) :
    IsNumber (style.render x) := by
  have hsign : Text.ofString (if negative = true then "-" else "") = [] ∨
      Text.ofString (if negative = true then "-" else "") = [.char '-'] := by
    cases negative
    · exact Or.inl rfl
    · exact Or.inr rfl
  unfold render
  rw [h]
  dsimp only
  generalize Text.ofString (if negative = true then "-" else "") = sign at hsign ⊢
  have hpositional {digits : Text} {leading : Int}
      (hdigits : IsSignificand digits ∨ digits = [] ∧ leading = 0) :
      IsNumber (sign ++ positional digits leading) := by
    obtain ⟨whole, fraction, htext, hwhole, hfraction⟩ := exists_positional hdigits
    rw [htext, ← List.append_nil (whole ++ fraction)]
    exact .intro hsign hwhole hfraction .none
  have hscientific {digits : Text} (leading : Int) (hdigits : IsSignificand digits) :
      IsNumber (sign ++ style.scientific digits leading) := by
    obtain ⟨whole, fraction, power, htext, hwhole, hfraction, hpower⟩ :=
      exists_scientific style hdigits leading
    rw [htext]
    exact .intro hsign hwhole hfraction hpower
  by_cases hzero : mantissa = 0
  · rw [if_pos hzero, if_pos ⟨hfrom, hbelow⟩]
    -- The only digit of zero is a zero, which is as good as none.
    have hnone : IsNumber (sign ++ positional [] 0) := hpositional (Or.inr ⟨rfl, rfl⟩)
    exact hnone
  · rw [if_neg hzero]
    rcases significant_cases hzero exponent with hnone | hsome
    · rw [hnone, if_pos ⟨hfrom, hbelow⟩]
      exact hpositional (Or.inr ⟨rfl, rfl⟩)
    · split
      · exact hpositional (Or.inl hsome)
      · exact hscientific _ hsome

end FloatStyle

end DocumentQuery
