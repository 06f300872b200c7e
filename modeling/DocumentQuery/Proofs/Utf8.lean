import DocumentQuery.Text.Utf8
import Mathlib.Data.List.Basic

/-!
# Cutting UTF-8

A byte sequence is decoded piece by piece, and what a piece is depends on the bytes behind it.  So
two parts of a byte sequence need not show together what each of them shows alone.  They do so at
two kinds of cuts: before a byte that continues no character (`runs_append`), and behind a whole
character, whatever follows it (`runs_append_of_char`).

The other way round, the bytes of a text are put together from those of its code points, but a
surrogate has one byte or three, and which of them depends on the whole text.  So a part of a text
need not have the same bytes alone as in the text; `Text.AgreesBefore` says when it has.
-/

namespace DocumentQuery

theorem CodePoint.toNat_lt (c : CodePoint) : c.toNat < 0x110000 := by
  cases c with
  | char c =>
      have hvalid : c.toNat.isValidChar := c.valid
      unfold Nat.isValidChar at hvalid
      rw [toNat_char]
      omega
  | surrogate d =>
      rw [toNat_surrogate]
      omega

namespace Utf8

/-! ## Pieces without their faults -/

/-- The code point that a piece is, unless it is ill-formed. -/
def Piece.char? : Piece → Option CodePoint
  | .char c _ => some c
  | .illFormed _ _ => none

/-- The pieces of a byte sequence, each with its bytes.  It does not matter here what is wrong with
a piece that is ill-formed. -/
def runs (bytes : List UInt8) : List (Option CodePoint × List UInt8) :=
  (pieces bytes).map fun (piece, run) => (piece.char?, run)

@[simp] theorem runs_nil : runs [] = [] := by
  rw [runs, pieces]
  rfl

theorem runs_cons (b : UInt8) (rest : List UInt8) :
    runs (b :: rest) =
      ((next b rest).char?, (b :: rest).take (next b rest).size) ::
        runs (rest.drop ((next b rest).size - 1)) := by
  rw [runs, pieces]
  rfl

theorem decodeLossy_eq (bytes : List UInt8) :
    decodeLossy bytes = (runs bytes).map fun run => run.1.getD (.char '\uFFFD') := by
  rw [runs, List.map_map]
  refine List.map_congr_left ?_
  rintro ⟨piece, run⟩ -
  cases piece <;> rfl

@[simp] theorem decodeLossy_nil : decodeLossy [] = [] := by
  rw [decodeLossy_eq, runs_nil, List.map_nil]

theorem decodeLossy_ne_nil {bytes : List UInt8} (h : bytes ≠ []) : decodeLossy bytes ≠ [] := by
  cases bytes with
  | nil => exact absurd rfl h
  | cons b rest =>
      rw [decodeLossy_eq, runs_cons]
      exact List.cons_ne_nil _ _

/-! ## Cuts before a byte that continues nothing -/

/-- The byte may continue a character that begins before it. -/
def IsContinuation (b : UInt8) : Prop :=
  0x80 ≤ b ∧ b ≤ 0xBF

/-- Two pieces are the same, except for what is wrong with them. -/
structure Piece.Resembles (piece other : Piece) : Prop where
  char? : piece.char? = other.char?
  size : piece.size = other.size

theorem follow_append {owed : Nat} {low high : UInt8} (hlow : 0x80 ≤ low) (hhigh : high ≤ 0xBF)
    (n size : Nat) (xs : List UInt8) {ys : List UInt8} (h : ∀ b ∈ ys.head?, ¬IsContinuation b) :
    (follow owed low high n size (xs ++ ys)).Resembles (follow owed low high n size xs) := by
  induction xs generalizing owed low high n size with
  | nil =>
      cases owed with
      | zero => simpa only [follow] using ⟨rfl, rfl⟩
      | succ owed =>
          -- The sequence is broken off here, whether the bytes end or go on with `ys`.
          cases ys with
          | nil => exact ⟨rfl, rfl⟩
          | cons b ys =>
              have hstop : ¬(low ≤ b ∧ b ≤ high) := fun ⟨hleast, hgreatest⟩ =>
                h b rfl ⟨UInt8.le_trans hlow hleast, UInt8.le_trans hgreatest hhigh⟩
              rw [List.nil_append, follow, follow, if_neg hstop]
              exact ⟨rfl, rfl⟩
  | cons b xs ih =>
      cases owed with
      | zero => simpa only [follow] using ⟨rfl, rfl⟩
      | succ owed =>
          rw [List.cons_append, follow, follow]
          split
          · exact ih (by decide) (by decide) _ _
          · exact ⟨rfl, rfl⟩

theorem le_of_lead? {b low high : UInt8} {owed : Nat} (h : lead? b = some (owed, low, high)) :
    0x80 ≤ low ∧ high ≤ 0xBF := by
  unfold lead? at h
  repeat' split at h
  all_goals first | cases h; decide | cases h

theorem next_append (b : UInt8) (xs : List UInt8) {ys : List UInt8}
    (h : ∀ b ∈ ys.head?, ¬IsContinuation b) : (next b (xs ++ ys)).Resembles (next b xs) := by
  unfold next
  split
  · exact ⟨rfl, rfl⟩
  · rename_i hlead
    obtain ⟨hlow, hhigh⟩ := le_of_lead? hlead
    exact follow_append hlow hhigh _ _ xs h

theorem size_follow_le (owed : Nat) (low high : UInt8) (n size : Nat) (xs : List UInt8) :
    (follow owed low high n size xs).size ≤ size + xs.length := by
  induction xs generalizing owed low high n size with
  | nil => cases owed <;> exact Nat.le_refl _
  | cons b xs ih =>
      cases owed with
      | zero => exact Nat.le_add_right _ _
      | succ owed =>
          rw [follow]
          split
          · have hmore := ih owed 0x80 0xBF (n * 0x40 + b.toNat % 0x40) (size + 1)
            rw [List.length_cons]
            omega
          · exact Nat.le_add_right _ _

theorem size_next_le (b : UInt8) (xs : List UInt8) : (next b xs).size ≤ xs.length + 1 := by
  unfold next
  split
  · exact Nat.le_add_left _ _
  · have hsize := size_follow_le
    rw [Nat.add_comm]
    exact hsize _ _ _ _ _ xs

/-- **Resynchronisation.**  Before a byte that continues no character, one piece ends and another
one begins. -/
theorem runs_append (xs : List UInt8) {ys : List UInt8} (h : ∀ b ∈ ys.head?, ¬IsContinuation b) :
    runs (xs ++ ys) = runs xs ++ runs ys := by
  -- The first piece is the same with `ys` behind it, and a shorter part of `xs` is left.
  induction hlength : xs.length using Nat.strongRecOn generalizing xs with
  | ind length ih =>
      cases xs with
      | nil => rw [runs_nil, List.nil_append, List.nil_append]
      | cons b xs =>
          obtain ⟨hchar, hsize⟩ := next_append b xs h
          have hle := size_next_le b xs
          have hshorter : (xs.drop ((next b xs).size - 1)).length < length := by
            rw [← hlength, List.length_drop, List.length_cons]
            omega
          rw [List.cons_append, runs_cons, runs_cons, hchar, hsize, ← List.cons_append,
            List.take_append_of_le_length (by rw [List.length_cons]; exact hle),
            List.drop_append_of_le_length (by omega), ih _ hshorter _ rfl, List.cons_append]

/-! ## Cuts behind whole characters -/

theorem toNat_toUInt8 {n : Nat} (h : n < 0x100) : n.toUInt8.toNat = n := by
  rw [Nat.toUInt8, UInt8.toNat_ofNat']
  exact Nat.mod_eq_of_lt h

theorem encodeNat_ne_nil (n : Nat) : encodeNat n ≠ [] := by
  unfold encodeNat
  repeat' split
  all_goals exact List.cons_ne_nil _ _

theorem encodeNat_of_lt {n : Nat} (h : n < 0x80) : encodeNat n = [n.toUInt8] :=
  if_pos h

/-- No code point but those of ASCII has a byte of ASCII. -/
theorem le_of_mem_encodeNat {c : CodePoint} (h : 0x80 ≤ c.toNat) {b : UInt8}
    (hb : b ∈ encodeNat c.toNat) : 0x80 ≤ b := by
  have hbound := c.toNat_lt
  rw [UInt8.le_iff_toNat_le]
  change 0x80 ≤ b.toNat
  unfold encodeNat at hb
  rw [if_neg (by omega)] at hb
  repeat' split at hb
  all_goals
    simp only [List.mem_cons, List.not_mem_nil, or_false] at hb
    rcases hb with rfl | rfl | rfl | rfl <;> rw [toNat_toUInt8 (by omega)] <;> omega

/-- The first byte of a code point continues nothing. -/
theorem not_isContinuation_encodeNat (c : CodePoint) (ys : List UInt8) :
    ∀ b ∈ (encodeNat c.toNat ++ ys).head?, ¬IsContinuation b := by
  intro b hb
  have hbound := c.toNat_lt
  unfold encodeNat at hb
  unfold IsContinuation
  rw [UInt8.le_iff_toNat_le, UInt8.le_iff_toNat_le]
  change ¬(0x80 ≤ b.toNat ∧ b.toNat ≤ 0xBF)
  repeat' split at hb
  all_goals
    obtain rfl := Option.some.inj hb
    rw [toNat_toUInt8 (by omega)]
    omega

theorem lead?_one {b : UInt8} (h : b.toNat < 0x80) : lead? b = some (0, 0x80, 0xBF) := by
  rw [lead?, if_pos (UInt8.lt_iff_toNat_lt.mpr h)]

theorem lead?_two {b : UInt8} (hleast : 0xC2 ≤ b.toNat) (hgreatest : b.toNat < 0xE0) :
    lead? b = some (1, 0x80, 0xBF) := by
  unfold lead?
  simp only [UInt8.lt_iff_toNat_lt, UInt8.reduceToNat]
  rw [if_neg (by omega), if_neg (by omega), if_pos hgreatest]

/-- After some of the lead bytes of three bytes, the range of the second byte is narrower. -/
theorem lead?_three {b : UInt8} (hleast : 0xE0 ≤ b.toNat) (hgreatest : b.toNat < 0xF0) :
    ∃ low high, lead? b = some (2, low, high) ∧
      low.toNat = (if b.toNat = 0xE0 then 0xA0 else 0x80) ∧
      high.toNat = (if b.toNat = 0xED then 0x9F else 0xBF) := by
  unfold lead?
  simp only [UInt8.lt_iff_toNat_lt, ← UInt8.toNat_inj, UInt8.reduceToNat]
  rw [if_neg (by omega), if_neg (by omega), if_neg (by omega)]
  by_cases hfirst : b.toNat = 0xE0
  · exact ⟨_, _, if_pos hfirst, by simp [hfirst], by simp [hfirst]⟩
  by_cases hlast : b.toNat = 0xED
  · exact ⟨0x80, 0x9F, by simp [hlast], by simp [hlast], by simp [hlast]⟩
  · exact ⟨0x80, 0xBF, by simp [hfirst, hlast, hgreatest], by simp [hfirst], by simp [hlast]⟩

/-- After some of the lead bytes of four bytes, the range of the second byte is narrower. -/
theorem lead?_four {b : UInt8} (hleast : 0xF0 ≤ b.toNat) (hgreatest : b.toNat ≤ 0xF4) :
    ∃ low high, lead? b = some (3, low, high) ∧
      low.toNat = (if b.toNat = 0xF0 then 0x90 else 0x80) ∧
      high.toNat = (if b.toNat = 0xF4 then 0x8F else 0xBF) := by
  unfold lead?
  simp only [UInt8.lt_iff_toNat_lt, ← UInt8.toNat_inj, UInt8.reduceToNat]
  rw [if_neg (by omega), if_neg (by omega), if_neg (by omega), if_neg (by omega),
    if_neg (by omega), if_neg (by omega)]
  by_cases hfirst : b.toNat = 0xF0
  · exact ⟨_, _, if_pos hfirst, by simp [hfirst], by simp [hfirst]⟩
  by_cases hlast : b.toNat = 0xF4
  · exact ⟨0x80, 0x8F, by simp [hlast], by simp [hlast], by simp [hlast]⟩
  · have hmiddle : b.toNat < 0xF4 := by omega
    exact ⟨0x80, 0xBF, by simp [hfirst, hmiddle], by simp [hfirst], by simp [hlast]⟩

/-- A byte with the last six bits of a number continues a character, if it lies in its range. -/
theorem follow_cons {low high : UInt8} {k : Nat} (hlow : low.toNat ≤ 0x80 + k % 0x40)
    (hhigh : 0x80 + k % 0x40 ≤ high.toNat) (owed n size : Nat) (rest : List UInt8) :
    follow (owed + 1) low high n size ((0x80 + k % 0x40).toUInt8 :: rest) =
      follow owed 0x80 0xBF (n * 0x40 + k % 0x40) (size + 1) rest := by
  have hbyte : (0x80 + k % 0x40).toUInt8.toNat = 0x80 + k % 0x40 := toNat_toUInt8 (by omega)
  have hrange : low ≤ (0x80 + k % 0x40).toUInt8 ∧ (0x80 + k % 0x40).toUInt8 ≤ high := by
    rw [UInt8.le_iff_toNat_le, UInt8.le_iff_toNat_le, hbyte]
    exact ⟨hlow, hhigh⟩
  have hbits : (0x80 + k % 0x40) % 0x40 = k % 0x40 := by omega
  rw [follow, if_pos hrange, hbyte, hbits]

theorem follow_cons_general (k owed n size : Nat) (rest : List UInt8) :
    follow (owed + 1) 0x80 0xBF n size ((0x80 + k % 0x40).toUInt8 :: rest) =
      follow owed 0x80 0xBF (n * 0x40 + k % 0x40) (size + 1) rest := by
  refine follow_cons ?_ ?_ owed n size rest
  · exact Nat.le_add_right _ _
  · change _ ≤ 0xBF
    omega

theorem follow_zero (low high : UInt8) (n size : Nat) (bytes : List UInt8) :
    follow 0 low high n size bytes = .char (.ofNat n) size := by
  rw [follow]

theorem next_one {n : Nat} (h : n < 0x80) (ys : List UInt8) :
    next n.toUInt8 ys = .char (.ofNat n) 1 := by
  have hlead : n.toUInt8.toNat = n := toNat_toUInt8 (by omega)
  rw [next, lead?_one (by omega)]
  dsimp only
  rw [follow_zero, leadValue, hlead]

theorem next_two {n : Nat} (hleast : 0x80 ≤ n) (hgreatest : n < 0x800) (ys : List UInt8) :
    next (0xC0 + n / 0x40).toUInt8 ((0x80 + n % 0x40).toUInt8 :: ys) = .char (.ofNat n) 2 := by
  have hlead : (0xC0 + n / 0x40).toUInt8.toNat = 0xC0 + n / 0x40 := toNat_toUInt8 (by omega)
  have hvalue : (0xC0 + n / 0x40) % 0x20 * 0x40 + n % 0x40 = n := by omega
  rw [next, lead?_two (by omega) (by omega)]
  simp only [follow_cons_general, follow_zero, leadValue, hlead, hvalue]

theorem next_three {n : Nat} (hleast : 0x800 ≤ n) (hgreatest : n < 0x10000)
    (hnot : ¬(0xD800 ≤ n ∧ n < 0xE000)) (ys : List UInt8) :
    next (0xE0 + n / 0x1000).toUInt8
      ((0x80 + n / 0x40 % 0x40).toUInt8 :: (0x80 + n % 0x40).toUInt8 :: ys) =
        .char (.ofNat n) 3 := by
  have hlead : (0xE0 + n / 0x1000).toUInt8.toNat = 0xE0 + n / 0x1000 := toNat_toUInt8 (by omega)
  have hvalue :
      ((0xE0 + n / 0x1000) % 0x10 * 0x40 + n / 0x40 % 0x40) * 0x40 + n % 0x40 = n := by omega
  obtain ⟨low, high, hrange, hlow, hhigh⟩ :=
    lead?_three (b := (0xE0 + n / 0x1000).toUInt8) (by omega) (by omega)
  -- After E0 a smaller byte would mean a number of two bytes, after ED a greater one a surrogate.
  have hlow : low.toNat ≤ 0x80 + n / 0x40 % 0x40 := by
    rw [hlow, hlead]
    split <;> omega
  have hhigh : 0x80 + n / 0x40 % 0x40 ≤ high.toNat := by
    rw [hhigh, hlead]
    split <;> omega
  rw [next, hrange]
  simp only [follow_cons hlow hhigh, follow_cons_general, follow_zero, leadValue, hlead, hvalue]

theorem next_four {n : Nat} (hleast : 0x10000 ≤ n) (hgreatest : n < 0x110000)
    (ys : List UInt8) :
    next (0xF0 + n / 0x40000).toUInt8
      ((0x80 + n / 0x1000 % 0x40).toUInt8 :: (0x80 + n / 0x40 % 0x40).toUInt8 ::
        (0x80 + n % 0x40).toUInt8 :: ys) =
        .char (.ofNat n) 4 := by
  have hlead : (0xF0 + n / 0x40000).toUInt8.toNat = 0xF0 + n / 0x40000 := toNat_toUInt8 (by omega)
  have hvalue :
      (((0xF0 + n / 0x40000) % 0x08 * 0x40 + n / 0x1000 % 0x40) * 0x40 + n / 0x40 % 0x40) * 0x40 +
        n % 0x40 = n := by omega
  obtain ⟨low, high, hrange, hlow, hhigh⟩ :=
    lead?_four (b := (0xF0 + n / 0x40000).toUInt8) (by omega) (by omega)
  -- After F0 a smaller byte would mean a number of three bytes; after F4 a greater one is too much.
  have hlow : low.toNat ≤ 0x80 + n / 0x1000 % 0x40 := by
    rw [hlow, hlead]
    split <;> omega
  have hhigh : 0x80 + n / 0x1000 % 0x40 ≤ high.toNat := by
    rw [hhigh, hlead]
    split <;> omega
  rw [next, hrange]
  simp only [follow_cons hlow hhigh, follow_cons_general, follow_zero, leadValue, hlead, hvalue]

/-- The bytes of a character are one piece, whatever follows them. -/
theorem next_encodeNat {n : Nat} (h : n.isValidChar) :
    ∃ b rest, encodeNat n = b :: rest ∧
      ∀ ys, next b (rest ++ ys) = .char (.ofNat n) (rest.length + 1) := by
  have hbound : n < 0x110000 ∧ ¬(0xD800 ≤ n ∧ n < 0xE000) := by
    unfold Nat.isValidChar at h
    omega
  unfold encodeNat
  split
  · exact ⟨_, _, rfl, fun ys => next_one ‹_› ys⟩
  split
  · exact ⟨_, _, rfl, fun ys => next_two (by omega) (by omega) ys⟩
  split
  · exact ⟨_, _, rfl, fun ys => next_three (by omega) (by omega) hbound.2 ys⟩
  · exact ⟨_, _, rfl, fun ys => next_four (by omega) (by omega) ys⟩

theorem runs_encodeNat_append (c : Char) (ys : List UInt8) :
    runs (encodeNat c.toNat ++ ys) = (some (.char c), encodeNat c.toNat) :: runs ys := by
  have hvalid : c.toNat.isValidChar := c.valid
  obtain ⟨b, rest, hbytes, hnext⟩ := next_encodeNat hvalid
  have hchar : CodePoint.ofNat c.toNat = .char c := CodePoint.ofNat_toNat (.char c)
  rw [hbytes, List.cons_append, runs_cons, hnext, hchar]
  simp [Piece.char?, Piece.size]

/-- Behind a whole character one piece ends and another one begins, even if the first byte there
could continue a character. -/
theorem runs_append_of_char (xs : List UInt8) (c : Char) (ys : List UInt8) :
    runs (xs ++ encodeNat c.toNat ++ ys) = runs (xs ++ encodeNat c.toNat) ++ runs ys := by
  have hfirst := not_isContinuation_encodeNat (.char c)
  have hwhole := runs_append xs (hfirst ys)
  have hlast := runs_append xs (hfirst [])
  rw [CodePoint.toNat_char, runs_encodeNat_append] at hwhole hlast
  rw [List.append_nil, runs_nil] at hlast
  rw [List.append_assoc, hwhole, hlast, List.append_assoc, List.singleton_append]

/-! ## Bytes of ASCII -/

/-- The number of bytes of ASCII. -/
def asciiCount (bytes : List UInt8) : Nat :=
  bytes.countP (· < 0x80)

theorem asciiCount_append (xs ys : List UInt8) :
    asciiCount (xs ++ ys) = asciiCount xs + asciiCount ys :=
  List.countP_append

theorem asciiCount_eq_zero {bytes : List UInt8} (h : ∀ b ∈ bytes, 0x80 ≤ b) :
    asciiCount bytes = 0 :=
  List.countP_eq_zero.mpr fun b hb hlt => UInt8.not_lt.mpr (h b hb) (of_decide_eq_true hlt)

theorem asciiCount_toUInt8 {n : Nat} (h : n < 0x80) : asciiCount [n.toUInt8] = 1 := by
  have hascii : n.toUInt8 < 0x80 := by
    rw [UInt8.lt_iff_toNat_lt, toNat_toUInt8 (by omega)]
    exact h
  simp [asciiCount, hascii]

/-! ## Decoding by parts -/

theorem decodeLossy_encodeNat_append (c : Char) (ys : List UInt8) :
    decodeLossy (encodeNat c.toNat ++ ys) = .char c :: decodeLossy ys := by
  rw [decodeLossy_eq, runs_encodeNat_append, List.map_cons, ← decodeLossy_eq]
  rfl

theorem decodeLossy_append_of_char (xs : List UInt8) (c : Char) (ys : List UInt8) :
    decodeLossy (xs ++ encodeNat c.toNat ++ ys) =
      decodeLossy (xs ++ encodeNat c.toNat) ++ decodeLossy ys := by
  rw [decodeLossy_eq, runs_append_of_char, List.map_append, ← decodeLossy_eq, ← decodeLossy_eq]

/-- Decoding gives back a text that holds no surrogates. -/
theorem decodeLossy_encode {t : Text} (h : ∀ c ∈ t, c.isSurrogate = false) :
    decodeLossy (encode t) = t := by
  induction t with
  | nil => exact decodeLossy_nil
  | cons c t ih =>
      obtain ⟨hc, ht⟩ := List.forall_mem_cons.mp h
      cases c with
      | surrogate d => cases hc
      | char c =>
          have hsplit : encode (.char c :: t) = encodeNat c.toNat ++ encode t := rfl
          rw [hsplit, decodeLossy_encodeNat_append, ih ht]

end Utf8

/-! ## The bytes of the parts of a text -/

/-- The bytes of a code point; a surrogate that stands for a byte has only this one. -/
def CodePoint.restored (c : CodePoint) : List UInt8 :=
  match Text.escapedByte? c with
  | some b => [b]
  | none => Utf8.encodeNat c.toNat

namespace Text

/-- The bytes that a code point has in the text. -/
def bytesOf (t : Text) (c : CodePoint) : List UInt8 :=
  if t.all isRestorable then c.restored else Utf8.encodeNat c.toNat

theorem bytesOf_char (t : Text) (c : Char) : t.bytesOf (.char c) = Utf8.encodeNat c.toNat :=
  ite_self _

theorem restoredBytes_eq (t : Text) : t.restoredBytes = t.flatMap t.bytesOf := by
  unfold restoredBytes bytesOf
  split
  · rfl
  · rfl

theorem restoredBytes_cut (t : Text) (i : Nat) :
    t.restoredBytes = (t.take i).flatMap t.bytesOf ++ (t.drop i).flatMap t.bytesOf := by
  rw [← List.flatMap_append, List.take_append_drop, restoredBytes_eq]

theorem restoredBytes_of_all {t : Text} (h : t.all isRestorable = true) :
    t.restoredBytes = t.flatMap CodePoint.restored :=
  if_pos h

theorem restoredBytes_of_not_all {t : Text} (h : t.all isRestorable = false) :
    t.restoredBytes = Utf8.encode t :=
  if_neg (by rw [h]; exact Bool.false_ne_true)

/-- Characters have the same bytes in every text. -/
theorem flatMap_bytesOf_of_chars {part : Text} (h : ∀ c ∈ part, c.isSurrogate = false) (t : Text) :
    part.flatMap t.bytesOf = Utf8.encode part := by
  refine List.flatMap_congr fun c hc => ?_
  cases c with
  | char c => exact bytesOf_char t c
  | surrogate d => cases h _ hc

theorem restoredBytes_of_chars {t : Text} (h : ∀ c ∈ t, c.isSurrogate = false) :
    t.restoredBytes = Utf8.encode t := by
  rw [restoredBytes_eq, flatMap_bytesOf_of_chars h]

/-- Characters in front of a text change nothing about the bytes of the text. -/
theorem restoredBytes_append_of_chars {front : Text} (h : ∀ c ∈ front, c.isSurrogate = false)
    (t : Text) : restoredBytes (front ++ t) = Utf8.encode front ++ t.restoredBytes := by
  have hfront : front.all isRestorable = true :=
    List.all_eq_true.mpr fun c hc => by rw [isRestorable, h c hc]; rfl
  have hall : (front ++ t).all isRestorable = t.all isRestorable := by
    rw [List.all_append, hfront, Bool.true_and]
  have hbytes : (front ++ t).bytesOf = t.bytesOf := by
    funext c
    rw [bytesOf, bytesOf, hall]
  rw [restoredBytes_eq, hbytes, List.flatMap_append, flatMap_bytesOf_of_chars h, ← restoredBytes_eq]

theorem bytesOf_ne_nil (t : Text) (c : CodePoint) : t.bytesOf c ≠ [] := by
  unfold bytesOf CodePoint.restored
  split
  · split
    · exact List.cons_ne_nil _ _
    · exact Utf8.encodeNat_ne_nil _
  · exact Utf8.encodeNat_ne_nil _

theorem restoredBytes_ne_nil {t : Text} (h : t ≠ []) : t.restoredBytes ≠ [] := by
  obtain ⟨c, rest, rfl⟩ := List.exists_cons_of_ne_nil h
  rw [restoredBytes_eq, List.flatMap_cons]
  exact List.append_ne_nil_of_left_ne_nil (bytesOf_ne_nil _ c) _

/-! ### Parts of a text -/

/-- In a text of restorable code points, a part has the same bytes as alone. -/
theorem flatMap_bytesOf {t part : Text} (h : t.all isRestorable = true) (hpart : part ⊆ t) :
    part.flatMap t.bytesOf = part.restoredBytes := by
  have hall : part.all isRestorable = true := by
    rw [List.all_eq_true] at h ⊢
    exact fun c hc => h c (hpart hc)
  rw [restoredBytes_of_all hall]
  exact List.flatMap_congr fun c _ => if_pos h

/-- In any other text, the bytes of a part are those of its code points. -/
theorem flatMap_bytesOf_of_not_all {t : Text} (h : t.all isRestorable = false) (part : Text) :
    part.flatMap t.bytesOf = Utf8.encode part :=
  List.flatMap_congr fun c _ => if_neg (by rw [h]; exact Bool.false_ne_true)

/-- The surrogates before the place have the same bytes in the text as in its part before the place.
They have others if all of them stand for bytes, but not all surrogates behind the place do. -/
def AgreesBefore (t : Text) (i : Nat) : Prop :=
  (t.take i).all isRestorable = true → (t.take i).any CodePoint.isSurrogate = true →
    t.all isRestorable = true

instance (t : Text) (i : Nat) : Decidable (t.AgreesBefore i) :=
  inferInstanceAs (Decidable (_ → _))

theorem not_agreesBefore_iff {t : Text} {i : Nat} :
    ¬t.AgreesBefore i ↔
      (t.take i).all isRestorable = true ∧ (t.take i).any CodePoint.isSurrogate = true ∧
        t.all isRestorable = false := by
  simp only [AgreesBefore, Classical.not_imp, Bool.not_eq_true]

theorem flatMap_bytesOf_take {t : Text} {i : Nat} (h : t.AgreesBefore i) :
    (t.take i).flatMap t.bytesOf = restoredBytes (t.take i) := by
  cases hall : t.all isRestorable with
  | true => exact flatMap_bytesOf hall (List.take_subset _ _)
  | false =>
      rw [flatMap_bytesOf_of_not_all hall]
      cases hbefore : (t.take i).all isRestorable with
      | false => exact (restoredBytes_of_not_all hbefore).symm
      | true =>
          have hnone : ¬(t.take i).any CodePoint.isSurrogate = true := by
            intro hany
            rw [h hbefore hany] at hall
            cases hall
          rw [restoredBytes_of_chars]
          simpa using hnone

/-! ### Surrogates that stand for bytes -/

/-- A surrogate that stands for a byte has this byte, which is not of ASCII, instead of three. -/
theorem restored_surrogate {d : Fin 0x800} (h : isRestorable (.surrogate d) = true) :
    ∃ b, 0x80 ≤ b ∧ (CodePoint.surrogate d).restored = [b] ∧
      (Utf8.encodeNat (CodePoint.surrogate d).toNat).length = 3 := by
  have hrange : 0x480 ≤ d.val ∧ d.val < 0x500 := by
    by_contra hnone
    have hbyte : (escapedByte? (.surrogate d)).isSome = true := h
    rw [escapedByte?, if_neg hnone] at hbyte
    cases hbyte
  refine ⟨(d.val - 0x400).toUInt8, ?_, ?_, ?_⟩
  · rw [UInt8.le_iff_toNat_le, Utf8.toNat_toUInt8 (by omega)]
    change 0x80 ≤ _
    omega
  · rw [CodePoint.restored, escapedByte?, if_pos hrange]
  · rw [CodePoint.toNat_surrogate, Utf8.encodeNat, if_neg (by omega), if_neg (by omega),
      if_pos (by omega)]
    rfl

theorem asciiCount_restored {c : CodePoint} (h : isRestorable c = true) :
    Utf8.asciiCount c.restored = Utf8.asciiCount (Utf8.encodeNat c.toNat) := by
  cases c with
  | char c => rfl
  | surrogate d =>
      obtain ⟨b, hb, hrestored, -⟩ := restored_surrogate h
      have hcode : 0x80 ≤ (CodePoint.surrogate d).toNat := by
        rw [CodePoint.toNat_surrogate]
        omega
      rw [hrestored, Utf8.asciiCount_eq_zero (List.forall_mem_singleton.mpr hb),
        Utf8.asciiCount_eq_zero fun b hb => Utf8.le_of_mem_encodeNat hcode hb]

theorem length_restored_add {c : CodePoint} (h : isRestorable c = true) :
    c.restored.length + (if c.isSurrogate = true then 2 else 0) =
      (Utf8.encodeNat c.toNat).length := by
  cases c with
  | char c => rfl
  | surrogate d =>
      obtain ⟨b, -, hrestored, hlength⟩ := restored_surrogate h
      rw [hrestored, hlength]
      rfl

/-- Restoring bytes changes nothing about the bytes of ASCII. -/
theorem asciiCount_restoredBytes {t : Text} (h : t.all isRestorable = true) :
    Utf8.asciiCount t.restoredBytes = Utf8.asciiCount (Utf8.encode t) := by
  rw [restoredBytes_of_all h, Utf8.encode]
  induction t with
  | nil => rfl
  | cons c t ih =>
      rw [List.all_cons, Bool.and_eq_true] at h
      rw [List.flatMap_cons, List.flatMap_cons, Utf8.asciiCount_append, Utf8.asciiCount_append,
        asciiCount_restored h.1, ih h.2]

/-- Every restored byte takes two bytes less than its surrogate. -/
theorem length_restoredBytes_add {t : Text} (h : t.all isRestorable = true) :
    t.restoredBytes.length + 2 * t.countP CodePoint.isSurrogate = (Utf8.encode t).length := by
  rw [restoredBytes_of_all h, Utf8.encode]
  induction t with
  | nil => rfl
  | cons c t ih =>
      rw [List.all_cons, Bool.and_eq_true] at h
      have hrest := ih h.2
      have hfirst := length_restored_add h.1
      rw [List.flatMap_cons, List.flatMap_cons, List.length_append, List.length_append,
        List.countP_cons, ← hrest, ← hfirst]
      split <;> omega

/-- Let a text of restorable code points, with a surrogate among them, end with a character of
ASCII.  Then its restored bytes are no beginning of the bytes of its code points: they are fewer,
but just as many of them are of ASCII, and the last byte is one of these. -/
theorem take_encode_ne_restoredBytes {front : Text} {c : CodePoint} (hsmall : c.toNat < 0x80)
    (hall : (front ++ [c]).all isRestorable = true)
    (hany : (front ++ [c]).any CodePoint.isSurrogate = true) (bytes : List UInt8) :
    (Utf8.encode (front ++ [c]) ++ bytes).take (restoredBytes (front ++ [c])).length ≠
      restoredBytes (front ++ [c]) := by
  intro heq
  have hlength := length_restoredBytes_add hall
  have hascii := asciiCount_restoredBytes hall
  have hpositive : 0 < (front ++ [c]).countP CodePoint.isSurrogate := by
    rw [List.countP_pos_iff]
    exact List.any_eq_true.mp hany
  have hlast : Utf8.encode (front ++ [c]) = Utf8.encode front ++ [c.toNat.toUInt8] := by
    rw [Utf8.encode, List.flatMap_append, List.flatMap_singleton, Utf8.encodeNat_of_lt hsmall]
    rfl
  have hbyte := Utf8.asciiCount_toUInt8 hsmall
  rw [hlast, List.length_append, List.length_singleton] at hlength
  rw [hlast, List.append_assoc, List.take_append_of_le_length (by omega)] at heq
  have hle : Utf8.asciiCount (restoredBytes (front ++ [c])) ≤
      Utf8.asciiCount (Utf8.encode front) := by
    rw [← heq]
    exact (List.take_sublist _ _).countP_le
  rw [hascii, hlast, Utf8.asciiCount_append, hbyte] at hle
  omega

/-- The bytes of a text that ends with a character show the same, whatever bytes follow them. -/
theorem decodeLossy_restoredBytes_append {t : Text} (h : ∀ c ∈ t.getLast?, c.isSurrogate = false)
    (bytes : List UInt8) :
    Utf8.decodeLossy (t.restoredBytes ++ bytes) =
      Utf8.decodeLossy t.restoredBytes ++ Utf8.decodeLossy bytes := by
  rcases List.eq_nil_or_concat t with rfl | ⟨front, last, rfl⟩
  · rw [restoredBytes_eq, List.flatMap_nil, Utf8.decodeLossy_nil]
    rfl
  · rw [List.concat_eq_append] at h ⊢
    cases last with
    | surrogate d => cases h _ List.getLast?_concat
    | char c =>
        rw [restoredBytes_eq, List.flatMap_append, List.flatMap_singleton, bytesOf_char]
        exact Utf8.decodeLossy_append_of_char _ c bytes

end Text

end DocumentQuery
