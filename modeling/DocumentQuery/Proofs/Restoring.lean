import DocumentQuery.Proofs.Utf8

/-!
# Bytes that come back from a text

A byte sequence that need not be UTF-8 is decoded without loss: characters are read where their
bytes stand, and every byte that belongs to no character is kept as a surrogate.  `DecodesTo` states
this rule from left to right, without the bookkeeping of a decoder.

* `next_eq_char` — a decoder that yields a character has read exactly the bytes of this character.
* `decodeEscaped_of_not_beginsChar` — a run that is ill-formed consists of a byte at which no
  character begins and of bytes that only continue; so its bytes may be escaped one at a time.
* `decodesTo_iff` — the decoder follows the rule, and the rule leaves no choice.
* `DecodesTo.restoredBytes_eq` — the bytes of the text are those that were decoded.
* `restoredBytes_append` — texts whose surrogates all stand for bytes have their bytes one by one,
  so a text may be cut anywhere, also between the bytes of what would be one character.
-/

namespace DocumentQuery

namespace Utf8

/-- The bytes of a character come first in the byte sequence. -/
def BeginsChar (bytes : List UInt8) : Prop :=
  ∃ c : Char, encodeNat c.toNat <+: bytes

/-- A text is a byte sequence decoded without loss.  Where a character begins it is read; a byte at
which none begins becomes the surrogate that stands for it. -/
inductive DecodesTo : List UInt8 → Text → Prop
  | nil : DecodesTo [] []
  | char (c : Char) {rest : List UInt8} {t : Text} (h : DecodesTo rest t) :
      DecodesTo (encodeNat c.toNat ++ rest) (.char c :: t)
  | byte {b : UInt8} {rest : List UInt8} {t : Text} (hnone : ¬BeginsChar (b :: rest))
      (h : DecodesTo rest t) : DecodesTo (b :: rest) (escaped b :: t)

/-! ## What a character was read from -/

theorem toUInt8_eq {n : Nat} {b : UInt8} (h : n = b.toNat) : n.toUInt8 = b := by
  subst h
  exact UInt8.ofNat_toNat

theorem encodeNat_two {n : Nat} (hleast : 0x80 ≤ n) (hgreatest : n < 0x800) :
    encodeNat n = [(0xC0 + n / 0x40).toUInt8, (0x80 + n % 0x40).toUInt8] := by
  rw [encodeNat, if_neg (by omega), if_pos hgreatest]

theorem encodeNat_three {n : Nat} (hleast : 0x800 ≤ n) (hgreatest : n < 0x10000) :
    encodeNat n = [(0xE0 + n / 0x1000).toUInt8, (0x80 + n / 0x40 % 0x40).toUInt8,
      (0x80 + n % 0x40).toUInt8] := by
  rw [encodeNat, if_neg (by omega), if_neg (by omega), if_pos hgreatest]

theorem encodeNat_four {n : Nat} (hleast : 0x10000 ≤ n) :
    encodeNat n = [(0xF0 + n / 0x40000).toUInt8, (0x80 + n / 0x1000 % 0x40).toUInt8,
      (0x80 + n / 0x40 % 0x40).toUInt8, (0x80 + n % 0x40).toUInt8] := by
  rw [encodeNat, if_neg (by omega), if_neg (by omega), if_neg (by omega)]

theorem isContinuation_iff {b : UInt8} : IsContinuation b ↔ 0x80 ≤ b.toNat ∧ b.toNat ≤ 0xBF := by
  simp only [IsContinuation, UInt8.le_iff_toNat_le, UInt8.reduceToNat]

/-- The number that the bits of a lead byte and the bytes after it make together. -/
def joinedBits (n : Nat) (tail : List UInt8) : Nat :=
  tail.foldl (fun n b => n * 0x40 + b.toNat % 0x40) n

/-- A sequence that is completed has as many bytes as its lead byte announced, the first of them in
the announced range. -/
theorem exists_tail_of_follow {owed n size k : Nat} {low high : UInt8} {bytes : List UInt8}
    {c : CodePoint} (h : follow owed low high n size bytes = .char c k) :
    ∃ tail rest, bytes = tail ++ rest ∧ tail.length = owed ∧ k = size + owed ∧
      c = .ofNat (joinedBits n tail) ∧ (∀ b ∈ tail.head?, low ≤ b ∧ b ≤ high) ∧
      ∀ b ∈ tail.tail, IsContinuation b := by
  induction owed generalizing low high n size bytes with
  | zero =>
      rw [follow_zero] at h
      obtain ⟨rfl, rfl⟩ := Piece.char.inj h
      exact ⟨[], bytes, rfl, rfl, rfl, rfl, by simp, by simp⟩
  | succ owed ih =>
      cases bytes with
      | nil => cases h
      | cons b bytes =>
          rw [follow] at h
          split at h
          · rename_i hrange
            obtain ⟨tail, rest, rfl, rfl, rfl, rfl, hfirst, hlater⟩ := ih h
            refine ⟨b :: tail, rest, rfl, rfl, by omega, rfl, ?_, ?_⟩
            · rintro _ ⟨⟩
              exact hrange
            · -- The bytes after the first one are held to the general range.
              cases tail with
              | nil => exact List.forall_mem_nil _
              | cons second tail => exact List.forall_mem_cons.mpr ⟨hfirst _ rfl, hlater⟩
          · cases h

theorem ofNat_eq_char {n : Nat} (h : n.isValidChar) :
    CodePoint.ofNat n = .char (Char.ofNat n) ∧ (Char.ofNat n).toNat = n := by
  have hvalue : (Char.ofNat n).toNat = n := by
    rw [Char.ofNat, dif_pos h]
    rfl
  have hcode := CodePoint.ofNat_toNat (.char (Char.ofNat n))
  rw [CodePoint.toNat_char, hvalue] at hcode
  exact ⟨hcode, hvalue⟩

theorem lead?_eq_none {b : UInt8} (h : (0x80 ≤ b.toNat ∧ b.toNat < 0xC2) ∨ 0xF4 < b.toNat) :
    lead? b = none := by
  unfold lead?
  simp only [UInt8.lt_iff_toNat_lt, ← UInt8.toNat_inj, UInt8.reduceToNat]
  rcases h with hstray | hlarge
  · rw [if_neg (by omega), if_pos hstray.2]
  · repeat rw [if_neg (by omega)]

/-- The classes of lead bytes, each with the range of the byte after it.  After some of them the
range is narrower. -/
inductive IsLead (b : UInt8) : Nat → UInt8 → UInt8 → Prop
  | one {low high : UInt8} (h : b.toNat < 0x80) : IsLead b 0 low high
  | two (hleast : 0xC2 ≤ b.toNat) (hgreatest : b.toNat < 0xE0) : IsLead b 1 0x80 0xBF
  | three {low high : UInt8} (hleast : 0xE0 ≤ b.toNat) (hgreatest : b.toNat < 0xF0)
      (hlow : 0x80 ≤ low.toNat ∧ (b.toNat = 0xE0 → 0xA0 ≤ low.toNat))
      (hhigh : high.toNat ≤ 0xBF ∧ (b.toNat = 0xED → high.toNat ≤ 0x9F)) : IsLead b 2 low high
  | four {low high : UInt8} (hleast : 0xF0 ≤ b.toNat) (hgreatest : b.toNat ≤ 0xF4)
      (hlow : 0x80 ≤ low.toNat ∧ (b.toNat = 0xF0 → 0x90 ≤ low.toNat))
      (hhigh : high.toNat ≤ 0xBF ∧ (b.toNat = 0xF4 → high.toNat ≤ 0x8F)) : IsLead b 3 low high

theorem isLead_of_lead? {b low high : UInt8} {owed : Nat} (h : lead? b = some (owed, low, high)) :
    IsLead b owed low high := by
  by_cases hone : b.toNat < 0x80
  · rw [lead?_one hone] at h
    cases h
    exact .one hone
  by_cases hstray : b.toNat < 0xC2
  · rw [lead?_eq_none (.inl ⟨by omega, hstray⟩)] at h
    cases h
  by_cases htwo : b.toNat < 0xE0
  · rw [lead?_two (by omega) htwo] at h
    cases h
    exact .two (by omega) htwo
  by_cases hthree : b.toNat < 0xF0
  · obtain ⟨_, _, hlead, hlow, hhigh⟩ := lead?_three (by omega) hthree
    rw [hlead] at h
    cases h
    exact .three (by omega) hthree (by grind) (by grind)
  by_cases hfour : b.toNat ≤ 0xF4
  · obtain ⟨_, _, hlead, hlow, hhigh⟩ := lead?_four (by omega) hfour
    rw [hlead] at h
    cases h
    exact .four (by omega) hfour (by grind) (by grind)
  · rw [lead?_eq_none (.inr (by omega))] at h
    cases h

theorem exists_char_of_encodeNat {n : Nat} {bytes : List UInt8} (hvalid : n.isValidChar)
    (hbytes : encodeNat n = bytes) :
    ∃ d : Char, CodePoint.ofNat n = .char d ∧ encodeNat d.toNat = bytes := by
  obtain ⟨hchar, hvalue⟩ := ofNat_eq_char hvalid
  exact ⟨_, hchar, by rw [hvalue, hbytes]⟩

/-- The bits of a complete sequence are those of a character, and it has just these bytes. -/
theorem exists_char_of_isLead {b low high : UInt8} {owed : Nat} {tail : List UInt8}
    (hclass : IsLead b owed low high) (hlength : tail.length = owed)
    (hfirst : ∀ x ∈ tail.head?, low ≤ x ∧ x ≤ high) (hlater : ∀ x ∈ tail.tail, IsContinuation x) :
    ∃ d : Char, CodePoint.ofNat (joinedBits (leadValue owed b) tail) = .char d ∧
      encodeNat d.toNat = b :: tail := by
  cases hclass with
  | one h =>
      obtain rfl := List.length_eq_zero_iff.mp hlength
      refine exists_char_of_encodeNat (n := b.toNat) (Or.inl (by omega)) ?_
      rw [encodeNat_of_lt h, toUInt8_eq rfl]
  | two hleast hgreatest =>
      obtain ⟨x, rfl⟩ := List.length_eq_one_iff.mp hlength
      have hx := isContinuation_iff.mp (hfirst x rfl)
      refine exists_char_of_encodeNat
        (n := b.toNat % 0x20 * 0x40 + x.toNat % 0x40) (Or.inl (by omega)) ?_
      rw [encodeNat_two (by omega) (by omega), toUInt8_eq (b := b) (by omega),
        toUInt8_eq (b := x) (by omega)]
  | three hleast hgreatest hlow hhigh =>
      obtain ⟨x, y, rfl⟩ := List.length_eq_two.mp hlength
      have hx := hfirst x rfl
      have hy := isContinuation_iff.mp (hlater y List.mem_cons_self)
      rw [UInt8.le_iff_toNat_le, UInt8.le_iff_toNat_le] at hx
      refine exists_char_of_encodeNat
        (n := (b.toNat % 0x10 * 0x40 + x.toNat % 0x40) * 0x40 + y.toNat % 0x40) ?_ ?_
      · unfold Nat.isValidChar
        omega
      · rw [encodeNat_three (by omega) (by omega), toUInt8_eq (b := b) (by omega),
          toUInt8_eq (b := x) (by omega), toUInt8_eq (b := y) (by omega)]
  | four hleast hgreatest hlow hhigh =>
      obtain ⟨x, y, z, rfl⟩ := List.length_eq_three.mp hlength
      have hx := hfirst x rfl
      have hy := isContinuation_iff.mp (hlater y List.mem_cons_self)
      have hz := isContinuation_iff.mp (hlater z (List.mem_cons_of_mem y List.mem_cons_self))
      rw [UInt8.le_iff_toNat_le, UInt8.le_iff_toNat_le] at hx
      refine exists_char_of_encodeNat
        (n := ((b.toNat % 0x08 * 0x40 + x.toNat % 0x40) * 0x40 + y.toNat % 0x40) * 0x40 +
          z.toNat % 0x40) ?_ ?_
      · unfold Nat.isValidChar
        omega
      · rw [encodeNat_four (by omega), toUInt8_eq (b := b) (by omega),
          toUInt8_eq (b := x) (by omega), toUInt8_eq (b := y) (by omega),
          toUInt8_eq (b := z) (by omega)]

/-- **What is read as a character is its bytes.** -/
theorem next_eq_char {b : UInt8} {rest : List UInt8} {c : CodePoint} {size : Nat}
    (h : next b rest = .char c size) :
    ∃ (d : Char) (after : List UInt8), c = .char d ∧ b :: rest = encodeNat d.toNat ++ after ∧
      size = (encodeNat d.toNat).length := by
  unfold next at h
  split at h
  · cases h
  · rename_i hlead
    obtain ⟨tail, after, rfl, hlength, rfl, rfl, hfirst, hlater⟩ := exists_tail_of_follow h
    obtain ⟨d, hchar, hbytes⟩ :=
      exists_char_of_isLead (isLead_of_lead? hlead) hlength hfirst hlater
    refine ⟨d, after, hchar, ?_, ?_⟩
    · rw [hbytes, List.cons_append]
    · rw [hbytes, List.length_cons, hlength, Nat.add_comm]

/-! ## Runs that are no characters -/

/-- Where a sequence is broken off, the bytes behind the lead byte only continue. -/
theorem exists_run_of_follow {owed n size k : Nat} {low high : UInt8} {bytes : List UInt8}
    {fault : Fault} (hlow : 0x80 ≤ low) (hhigh : high ≤ 0xBF)
    (h : follow owed low high n size bytes = .illFormed fault k) :
    ∃ run rest, bytes = run ++ rest ∧ k = size + run.length ∧ ∀ b ∈ run, IsContinuation b := by
  induction owed generalizing low high n size bytes with
  | zero =>
      rw [follow_zero] at h
      cases h
  | succ owed ih =>
      cases bytes with
      | nil =>
          cases h
          exact ⟨[], [], rfl, rfl, nofun⟩
      | cons b bytes =>
          rw [follow] at h
          split at h
          · rename_i hrange
            obtain ⟨run, rest, rfl, rfl, hrun⟩ := ih (by decide) (by decide) h
            refine ⟨b :: run, rest, rfl, by rw [List.length_cons]; omega, ?_⟩
            refine List.forall_mem_cons.mpr ⟨⟨?_, ?_⟩, hrun⟩
            · exact UInt8.le_trans hlow hrange.1
            · exact UInt8.le_trans hrange.2 hhigh
          · cases h
            exact ⟨[], b :: bytes, rfl, rfl, nofun⟩

theorem exists_run_of_next {b : UInt8} {rest : List UInt8} {fault : Fault} {size : Nat}
    (h : next b rest = .illFormed fault size) :
    ∃ run after, rest = run ++ after ∧ size = run.length + 1 ∧ ∀ x ∈ run, IsContinuation x := by
  unfold next at h
  split at h
  · cases h
    exact ⟨[], rest, rfl, rfl, nofun⟩
  · rename_i hlead
    obtain ⟨hlow, hhigh⟩ := le_of_lead? hlead
    obtain ⟨run, after, hrest, hsize, hrun⟩ := exists_run_of_follow hlow hhigh h
    exact ⟨run, after, hrest, by omega, hrun⟩

/-! ## Decoding without loss -/

theorem decodeEscaped_nil : decodeEscaped [] = [] := by
  rw [decodeEscaped, pieces]
  rfl

theorem decodeEscaped_of_char {b : UInt8} {rest : List UInt8} {c : CodePoint} {size : Nat}
    (h : next b rest = .char c size) :
    decodeEscaped (b :: rest) = c :: decodeEscaped (rest.drop (size - 1)) := by
  rw [decodeEscaped, pieces, h]
  rfl

theorem decodeEscaped_of_illFormed {b : UInt8} {rest : List UInt8} {fault : Fault} {size : Nat}
    (h : next b rest = .illFormed fault size) :
    decodeEscaped (b :: rest) =
      ((b :: rest).take size).map escaped ++ decodeEscaped (rest.drop (size - 1)) := by
  rw [decodeEscaped, pieces, h]
  rfl

/-- A character is read where its bytes stand, whatever follows them. -/
theorem decodeEscaped_encodeNat_append (c : Char) (rest : List UInt8) :
    decodeEscaped (encodeNat c.toNat ++ rest) = .char c :: decodeEscaped rest := by
  have hvalid : c.toNat.isValidChar := c.valid
  obtain ⟨b, tail, hbytes, hnext⟩ := next_encodeNat hvalid
  have hchar : CodePoint.ofNat c.toNat = .char c := CodePoint.ofNat_toNat (.char c)
  rw [hbytes, List.cons_append, decodeEscaped_of_char (hnext rest), hchar]
  simp

theorem decodeEscaped_of_isContinuation {b : UInt8} (h : IsContinuation b) (rest : List UInt8) :
    decodeEscaped (b :: rest) = escaped b :: decodeEscaped rest := by
  obtain ⟨hleast, hgreatest⟩ := isContinuation_iff.mp h
  have hnext : next b rest = .illFormed .start 1 := by
    rw [next, lead?_eq_none (.inl ⟨hleast, by omega⟩)]
  rw [decodeEscaped_of_illFormed hnext]
  rfl

theorem decodeEscaped_run_append {run : List UInt8} (h : ∀ b ∈ run, IsContinuation b)
    (rest : List UInt8) :
    decodeEscaped (run ++ rest) = run.map escaped ++ decodeEscaped rest := by
  induction run with
  | nil => rfl
  | cons b run ih =>
      obtain ⟨hb, hrun⟩ := List.forall_mem_cons.mp h
      rw [List.cons_append, decodeEscaped_of_isContinuation hb, ih hrun, List.map_cons,
        List.cons_append]

/-- An ill-formed run is escaped as a whole, which is the same as escaping its first byte and going
on behind it: no character begins at the bytes that only continue. -/
theorem decodeEscaped_of_not_beginsChar {b : UInt8} {rest : List UInt8}
    (h : ¬BeginsChar (b :: rest)) :
    decodeEscaped (b :: rest) = escaped b :: decodeEscaped rest := by
  cases hnext : next b rest with
  | char c size =>
      obtain ⟨d, after, -, hbytes, -⟩ := next_eq_char hnext
      exact absurd ⟨d, after, hbytes.symm⟩ h
  | illFormed fault size =>
      obtain ⟨run, after, rfl, rfl, hrun⟩ := exists_run_of_next hnext
      rw [decodeEscaped_of_illFormed hnext, decodeEscaped_run_append hrun]
      simp

/-- The decoder follows the rule for decoding without loss. -/
theorem decodesTo_decodeEscaped (bytes : List UInt8) : DecodesTo bytes (decodeEscaped bytes) := by
  induction hlength : bytes.length using Nat.strongRecOn generalizing bytes with
  | ind length ih =>
      by_cases hchar : BeginsChar bytes
      · obtain ⟨c, rest, rfl⟩ := hchar
        have hpositive := List.length_pos_iff.mpr (encodeNat_ne_nil c.toNat)
        rw [List.length_append] at hlength
        rw [decodeEscaped_encodeNat_append]
        exact .char c (ih rest.length (by omega) rest rfl)
      · cases bytes with
        | nil =>
            rw [decodeEscaped_nil]
            exact .nil
        | cons b rest =>
            rw [List.length_cons] at hlength
            rw [decodeEscaped_of_not_beginsChar hchar]
            exact .byte hchar (ih rest.length (by omega) rest rfl)

theorem decodesTo_iff {bytes : List UInt8} {t : Text} :
    DecodesTo bytes t ↔ t = decodeEscaped bytes := by
  constructor
  · intro h
    induction h with
    | nil => rw [decodeEscaped_nil]
    | char c _ ih => rw [decodeEscaped_encodeNat_append, ih]
    | byte hnone _ ih => rw [decodeEscaped_of_not_beginsChar hnone, ih]
  · rintro rfl
    exact decodesTo_decodeEscaped bytes

/-! ## The bytes that stand behind surrogates -/

/-- A byte at which no character begins is not of ASCII. -/
theorem le_of_not_beginsChar {b : UInt8} {rest : List UInt8} (h : ¬BeginsChar (b :: rest)) :
    0x80 ≤ b.toNat := by
  by_contra hsmall
  refine h ⟨Char.ofNat b.toNat, ?_⟩
  have hvalid : b.toNat.isValidChar := Or.inl (by omega)
  rw [(ofNat_eq_char hvalid).2, encodeNat_of_lt (by omega), toUInt8_eq rfl]
  exact List.prefix_append [b] rest

theorem escaped_eq (b : UInt8) :
    ∃ d : Fin 0x800, escaped b = .surrogate d ∧ d.val = 0x400 + b.toNat := by
  have hbound := b.toNat_lt
  have hrange : 0xD800 ≤ 0xDC00 + b.toNat ∧ 0xDC00 + b.toNat < 0xE000 := by omega
  refine ⟨_, dif_pos hrange, ?_⟩
  dsimp only
  omega

theorem escapedByte?_escaped {b : UInt8} (h : 0x80 ≤ b.toNat) :
    Text.escapedByte? (escaped b) = some b := by
  obtain ⟨d, hcode, hvalue⟩ := escaped_eq b
  have hbound := b.toNat_lt
  rw [hcode, Text.escapedByte?, if_pos (by omega), toUInt8_eq (b := b) (by omega)]

/-- Decoding yields characters and surrogates that stand for bytes. -/
theorem DecodesTo.isRestorable {bytes : List UInt8} {t : Text} (h : DecodesTo bytes t) :
    t.all Text.isRestorable = true := by
  induction h with
  | nil => rfl
  | char c _ ih => simpa [Text.isRestorable, CodePoint.isSurrogate] using ih
  | byte hnone _ ih =>
      simp [Text.isRestorable, escapedByte?_escaped (le_of_not_beginsChar hnone), ih]

/-- The bytes of a text are those that it was decoded from. -/
theorem DecodesTo.restoredBytes_eq {bytes : List UInt8} {t : Text} (h : DecodesTo bytes t) :
    t.restoredBytes = bytes := by
  rw [Text.restoredBytes_of_all h.isRestorable]
  induction h with
  | nil => rfl
  | char c _ ih =>
      rw [List.flatMap_cons, ih]
      rfl
  | byte hnone _ ih =>
      rw [List.flatMap_cons, ih, CodePoint.restored,
        escapedByte?_escaped (le_of_not_beginsChar hnone)]
      rfl

end Utf8

namespace Text

/-- The only surrogates of the text are those that stand for bytes. -/
def HoldsBytes (t : Text) : Prop :=
  ∀ c ∈ t, c.isSurrogate = true → 0xDC80 ≤ c.toNat ∧ c.toNat ≤ 0xDCFF

instance (t : Text) : Decidable t.HoldsBytes :=
  inferInstanceAs (Decidable (∀ c ∈ t, _ → _))

theorem all_isRestorable_iff {t : Text} : t.all isRestorable = true ↔ t.HoldsBytes := by
  rw [List.all_eq_true]
  refine forall₂_congr fun c _ => ?_
  cases c with
  | char c => simp [isRestorable, CodePoint.isSurrogate]
  | surrogate d =>
      simp only [isRestorable, CodePoint.isSurrogate, escapedByte?, CodePoint.toNat_surrogate]
      split
      · simp
        omega
      · simp
        omega

theorem restoredBytes_append {x y : Text} (hx : x.HoldsBytes) (hy : y.HoldsBytes) :
    restoredBytes (x ++ y) = x.restoredBytes ++ y.restoredBytes := by
  rw [← all_isRestorable_iff] at hx hy
  have hboth : (x ++ y).all isRestorable = true := by rw [List.all_append, hx, hy]; rfl
  rw [restoredBytes_of_all hboth, restoredBytes_of_all hx, restoredBytes_of_all hy,
    List.flatMap_append]

/-- **Undecodable input comes back.**  Decoding without loss is determined by its rule, and the
bytes of the decoded text are those of the input, however malformed it is.  A text may be cut
anywhere: the bytes of the parts are the bytes of the whole. -/
theorem restoredBytes_undoes_decoding :
    (∀ bytes t, Utf8.DecodesTo bytes t ↔ t = Utf8.decodeEscaped bytes) ∧
      (∀ bytes, restoredBytes (Utf8.decodeEscaped bytes) = bytes) ∧
        (∀ bytes i, restoredBytes ((Utf8.decodeEscaped bytes).take i) ++
          restoredBytes ((Utf8.decodeEscaped bytes).drop i) = bytes) ∧
            ∀ x y : Text, x.HoldsBytes → y.HoldsBytes →
              restoredBytes (x ++ y) = x.restoredBytes ++ y.restoredBytes := by
  have hrestored (bytes : List UInt8) : restoredBytes (Utf8.decodeEscaped bytes) = bytes :=
    (Utf8.decodesTo_decodeEscaped bytes).restoredBytes_eq
  refine ⟨fun bytes t => Utf8.decodesTo_iff, hrestored, fun bytes i => ?_,
    fun x y => restoredBytes_append⟩
  have hholds : (Utf8.decodeEscaped bytes).HoldsBytes :=
    all_isRestorable_iff.mp (Utf8.decodesTo_decodeEscaped bytes).isRestorable
  rw [← restoredBytes_append, List.take_append_drop, hrestored]
  · exact fun c hc => hholds c (List.mem_of_mem_take hc)
  · exact fun c hc => hholds c (List.mem_of_mem_drop hc)

/-- Two bytes of a sequence of three, and then whole characters.  The text is cut between the two
bytes. -/
theorem restoredBytes_undoes_decoding_truncated :
    let bytes : List UInt8 := [0xE2, 0x82, 0x41, 0xC3, 0xA9]
    let x : Text := [.surrogate 0x4E2]
    let y : Text := [.surrogate 0x482, .char 'A', .char 'é']
    Utf8.decodeEscaped bytes = x ++ y ∧ x.HoldsBytes ∧ y.HoldsBytes ∧
      restoredBytes (x ++ y) = x.restoredBytes ++ y.restoredBytes ∧
        restoredBytes (x ++ y) = bytes := by
  intro bytes x y
  obtain ⟨-, hrestored, -, happend⟩ := restoredBytes_undoes_decoding
  have hdecoded : Utf8.decodeEscaped bytes = x ++ y := by decide +kernel
  have hx : x.HoldsBytes := by decide
  have hy : y.HoldsBytes := by decide
  exact ⟨hdecoded, hx, hy, happend x y hx hy, hdecoded ▸ hrestored bytes⟩

end Text

end DocumentQuery
