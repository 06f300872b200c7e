import DocumentQuery.Calendar
import DocumentQuery.Decimal.Shortest
import DocumentQuery.Proofs.Numeral
import DocumentQuery.Proofs.Text

/-!
# Steady texts

A console without colours shows a text as it is unless the text holds control characters or begins
with a byte order mark.  A text is steady if newlines are its only control characters and no such
mark stands before it.

Steady texts can be put one after the other.  Numerals, moments and keys without quotes are steady
because all of them is visible ASCII; a quoted string is steady because its quotes are, whatever
stands between them, once the control characters in it have been escaped.
-/

namespace DocumentQuery

namespace CodePoint

/-- The code point is a newline or lies above the control characters that come first. -/
def IsOrdinary (c : CodePoint) : Prop :=
  c = .char '\n' ∨ 0x20 ≤ c.toNat

/-- The code point is ordinary and belongs to ASCII. -/
def IsPlain (c : CodePoint) : Prop :=
  c.IsOrdinary ∧ c.toNat < 0x80

instance (c : CodePoint) : Decidable c.IsOrdinary :=
  inferInstanceAs (Decidable (_ ∨ _))

instance (c : CodePoint) : Decidable c.IsPlain :=
  inferInstanceAs (Decidable (_ ∧ _))

theorem isPlain_of_isBare {c : CodePoint} (h : c.isBare = true) : c.IsPlain := by
  obtain ⟨hleast, hgreatest⟩ := isVisible_of_isBare h
  exact ⟨Or.inr (by omega), by omega⟩

theorem isPlain_of_isDigit {c : CodePoint} (h : c.isDigit = true) : c.IsPlain := by
  refine isPlain_of_isBare ?_
  cases c with
  | char c => simp [isBare, Char.isAlphanum, show c.isDigit = true from h]
  | surrogate _ => cases h

theorem isPlain_digitChar (n : Nat) : (char (n % 16).digitChar).IsPlain := by
  have hall : ∀ d < 16, (char d.digitChar).IsPlain := by decide
  exact hall _ (Nat.mod_lt n (by decide))

end CodePoint

namespace Text

/-! ## Plain texts -/

/-- All code points of a text are plain. -/
def IsPlain (t : Text) : Prop :=
  ∀ c ∈ t, c.IsPlain

instance (t : Text) : Decidable t.IsPlain :=
  inferInstanceAs (Decidable (∀ c ∈ t, c.IsPlain))

variable {s t : Text}

theorem isPlain_nil : IsPlain [] :=
  fun _ h => absurd h List.not_mem_nil

theorem IsPlain.cons {c : CodePoint} (hc : c.IsPlain) (h : t.IsPlain) : IsPlain (c :: t) :=
  List.forall_mem_cons.mpr ⟨hc, h⟩

theorem IsPlain.append (hs : s.IsPlain) (ht : t.IsPlain) : (s ++ t).IsPlain :=
  List.forall_mem_append.mpr ⟨hs, ht⟩

theorem IsPlain.of_subset (h : t.IsPlain) (hsub : s ⊆ t) : s.IsPlain :=
  fun c hc => h c (hsub hc)

theorem isPlain_repeated {c : CodePoint} (hc : c.IsPlain) (n : Nat) : (repeated n c).IsPlain := by
  intro d hd
  rwa [List.eq_of_mem_replicate hd]

theorem IsPlain.dropEndWhile (h : t.IsPlain) (p : CodePoint → Bool) :
    (Text.dropEndWhile p t).IsPlain :=
  h.of_subset (dropEndWhile_isPrefix p t).subset

theorem isPlain_hex (width n : Nat) : (hex width n).IsPlain := by
  induction width generalizing n with
  | zero => exact isPlain_nil
  | succ width ih =>
      exact (ih (n / 16)).append (isPlain_nil.cons (CodePoint.isPlain_digitChar n))

/-! ## Steady texts -/

/-- Newlines are the only control characters of a text, and it does not begin with a byte order
mark. -/
structure IsSteady (t : Text) : Prop where
  ordinary : ∀ c ∈ t, c.IsOrdinary
  head : ∀ c ∈ t.head?, c ≠ .char '\uFEFF'

theorem IsPlain.isSteady (h : t.IsPlain) : t.IsSteady where
  ordinary c hc := (h c hc).1
  head c hc := by
    rintro rfl
    exact absurd (h _ (List.mem_of_mem_head? hc)).2 (by decide)

theorem isSteady_nil : IsSteady [] :=
  isPlain_nil.isSteady

theorem IsSteady.append (hs : s.IsSteady) (ht : t.IsSteady) : (s ++ t).IsSteady where
  ordinary := List.forall_mem_append.mpr ⟨hs.ordinary, ht.ordinary⟩
  head := by
    cases s with
    | nil => exact ht.head
    | cons c s => exact hs.head

theorem IsSteady.of_prefix (h : t.IsSteady) (hs : s <+: t) : s.IsSteady where
  ordinary c hc := h.ordinary c (hs.subset hc)
  head := by
    obtain ⟨rest, rfl⟩ := hs
    cases s with
    | nil => nofun
    | cons c s => exact h.head

/-- After a plain code point, all that counts is that there are no control characters. -/
theorem isSteady_cons {c : CodePoint} (hc : c.IsPlain) (h : ∀ d ∈ t, d.IsOrdinary) :
    IsSteady (c :: t) where
  ordinary := List.forall_mem_cons.mpr ⟨hc.1, h⟩
  head := by
    rintro _ ⟨⟩ rfl
    exact absurd hc.2 (by decide)

theorem IsSteady.flatten {parts : List Text} (h : ∀ part ∈ parts, part.IsSteady) :
    IsSteady parts.flatten := by
  induction parts with
  | nil => exact isSteady_nil
  | cons part parts ih =>
      obtain ⟨hpart, hparts⟩ := List.forall_mem_cons.mp h
      exact hpart.append (ih hparts)

theorem IsSteady.joined {separator : Text} (hseparator : separator.IsSteady) {parts : List Text}
    (h : ∀ part ∈ parts, part.IsSteady) : IsSteady (Text.joined separator parts) := by
  induction parts with
  | nil => exact isSteady_nil
  | cons part parts ih =>
      obtain ⟨hpart, hparts⟩ := List.forall_mem_cons.mp h
      cases parts with
      | nil => rwa [joined_singleton]
      | cons second parts =>
          rw [joined_cons_cons]
          exact hpart.append (hseparator.append (ih hparts))

/-- A text between quotes is steady if its escaped code points hold no control characters. -/
theorem isSteady_quoted {escape : CodePoint → Text} (h : ∀ c, ∀ d ∈ escape c, d.IsOrdinary)
    (t : Text) : IsSteady (.char '"' :: t.flatMap escape ++ [.char '"']) := by
  rw [List.cons_append]
  refine isSteady_cons (by decide) (List.forall_mem_append.mpr ⟨fun d hd => ?_, by decide⟩)
  obtain ⟨c, -, hc⟩ := List.mem_flatMap.mp hd
  exact h c d hc

end Text

/-! ## Numerals and moments -/

namespace Numeral

theorem isPlain_ofNat (n : Nat) : (ofNat n).IsPlain :=
  fun _ h => CodePoint.isPlain_of_isDigit (isDigit_of_mem_ofNat h)

theorem isPlain_ofInt (i : Int) : (ofInt i).IsPlain := by
  unfold ofInt
  split
  · exact (isPlain_ofNat _).cons (by decide)
  · exact isPlain_ofNat _

theorem isPlain_padded (width n : Nat) : (padded width n).IsPlain :=
  (Text.isPlain_repeated (by decide) _).append (isPlain_ofNat n)

end Numeral

namespace FloatStyle

theorem isPlain_significant (mantissa : Nat) (exponent : Int) :
    (significant mantissa exponent).1.IsPlain :=
  (Numeral.isPlain_ofNat _).dropEndWhile _

theorem isPlain_positional {digits : Text} (h : digits.IsPlain) (exponent : Int) :
    (positional digits exponent).IsPlain := by
  have hzeros (n : Nat) : (Text.repeated n '0').IsPlain := Text.isPlain_repeated (by decide) n
  have hback (n : Nat) : Text.IsPlain (digits.drop n) := h.of_subset (List.drop_subset n digits)
  unfold positional
  split
  · exact ((show Text.IsPlain "0." by decide +kernel).append (hzeros _)).append h
  · refine (((h.of_subset (List.take_subset _ _)).append (hzeros _)).append ?_).append ?_
    · decide +kernel
    · split
      · decide +kernel
      · exact hback _

theorem isPlain_scientific (style : FloatStyle) {digits : Text} (h : digits.IsPlain)
    (exponent : Int) : (style.scientific digits exponent).IsPlain := by
  have hsign : Text.IsPlain (Text.ofString (if exponent < 0 then "-" else "+")) := by
    split <;> decide +kernel
  have hletter : Text.IsPlain "e" := by decide +kernel
  have hzeros (n : Nat) : (Text.repeated n '0').IsPlain := Text.isPlain_repeated (by decide) n
  unfold scientific
  refine (((Text.IsPlain.append ?_ hletter).append hsign).append (hzeros _)).append
    (Numeral.isPlain_ofNat _)
  split
  · obtain ⟨hfirst, hrest⟩ := List.forall_mem_cons.mp h
    exact .cons hfirst (.cons (by decide) hrest)
  · exact h

/-- A number is written in plain characters if the words for what is no finite number are. -/
theorem isPlain_render {style : FloatStyle} (hnan : style.nan.IsPlain)
    (hinfinity : style.infinity.IsPlain) (x : Binary64) : (style.render x).IsPlain := by
  have hsign (negative : Bool) :
      Text.IsPlain (Text.ofString (if negative = true then "-" else "")) := by
    cases negative <;> decide +kernel
  unfold render
  split
  · exact hnan
  · exact (hsign _).append hinfinity
  · rename_i negative mantissa exponent _
    have hmagnitude {digits : Text} (h : digits.IsPlain) (leading : Int) :
        Text.IsPlain
          (if style.positionalFrom ≤ leading ∧ leading < style.positionalBelow then
            positional digits leading
          else style.scientific digits leading) := by
      split
      · exact isPlain_positional h leading
      · exact isPlain_scientific style h leading
    have hzero : Text.IsPlain "0" := by decide +kernel
    by_cases h : mantissa = 0
    · rw [if_pos h]
      exact (hsign _).append (hmagnitude hzero 0)
    · rw [if_neg h]
      exact (hsign _).append (hmagnitude (isPlain_significant mantissa exponent) _)

end FloatStyle

theorem Date.isPlain_render (d : Date) : d.render.IsPlain := by
  have hdash : Text.IsPlain "-" := by decide +kernel
  have hpart := Numeral.isPlain_padded
  exact ((((hpart 4 _).append hdash).append (hpart 2 _)).append hdash).append (hpart 2 _)

theorem Clock.isPlain_render (c : Clock) : c.render.IsPlain := by
  have hcolon : Text.IsPlain ":" := by decide +kernel
  have hpart := Numeral.isPlain_padded
  have hwhole : c.renderWhole.IsPlain :=
    ((((hpart 2 _).append hcolon).append (hpart 2 _)).append hcolon).append (hpart 2 _)
  refine hwhole.append ?_
  split
  · exact Text.isPlain_nil
  · exact .cons (by decide) (hpart 6 _)

theorem Offset.isPlain_render (o : Offset) : o.render.IsPlain := by
  have hsign : Text.IsPlain (Text.ofString (if o.minutes < 0 then "-" else "+")) := by
    split <;> decide +kernel
  have hcolon : Text.IsPlain ":" := by decide +kernel
  have hpart := Numeral.isPlain_padded
  exact ((hsign.append (hpart 2 _)).append hcolon).append (hpart 2 _)

end DocumentQuery
