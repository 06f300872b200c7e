/-!
# Code points

A text handled here may hold a surrogate that has no partner: it stands for a byte of the command
line that is no UTF-8, or it was written as an escape in a JSON string.  A code point is therefore
a character or such a surrogate.
-/

namespace DocumentQuery

/-- A Unicode code point: a character, or a surrogate that stands alone.  A surrogate is given by
its distance from U+D800. -/
inductive CodePoint where
  | char (c : Char)
  | surrogate (distance : Fin 0x800)
  deriving DecidableEq, Inhabited

namespace CodePoint

instance : Coe Char CodePoint := ⟨.char⟩

/-- The number of a code point, from 0 to 10FFFF in hexadecimal. -/
def toNat : CodePoint → Nat
  | .char c => c.toNat
  | .surrogate d => 0xD800 + d.val

/-- The code point of a given number; the replacement character for a number that has none. -/
def ofNat (n : Nat) : CodePoint :=
  if h : 0xD800 ≤ n ∧ n < 0xE000 then .surrogate ⟨n - 0xD800, by omega⟩
  else if n.isValidChar then .char (Char.ofNat n)
  else .char '\uFFFD'

/-- The character that a code point is, unless it is a surrogate. -/
def char? : CodePoint → Option Char
  | .char c => some c
  | .surrogate _ => none

/-- The code point is a surrogate. -/
def isSurrogate : CodePoint → Bool
  | .char _ => false
  | .surrogate _ => true

/-- The code point is one of the digits `0` to `9`. -/
def isDigit : CodePoint → Bool
  | .char c => c.isDigit
  | .surrogate _ => false

/-- The value of a digit `0` to `9`; 0 for any other code point. -/
def digitValue (c : CodePoint) : Nat :=
  if c.isDigit then c.toNat - '0'.toNat else 0

/-- The value of a hexadecimal digit of either case, if the code point is one. -/
def hexValue? : CodePoint → Option Nat
  | .surrogate _ => none
  | .char c =>
      if c.isDigit then some (c.toNat - '0'.toNat)
      else if 'a' ≤ c ∧ c ≤ 'f' then some (c.toNat - 'a'.toNat + 10)
      else if 'A' ≤ c ∧ c ≤ 'F' then some (c.toNat - 'A'.toNat + 10)
      else none

/-- The code point may stand in a key that is written without quotes: a letter or digit of ASCII,
`_` or `-`. -/
def isBare : CodePoint → Bool
  | .char c => c.isAlphanum || c = '_' || c = '-'
  | .surrogate _ => false

/-- White space that is trimmed from the ends of a text: the separators of Unicode together with
the control characters that separate lines and records. -/
def isBlank (c : CodePoint) : Bool :=
  let n := c.toNat
  (9 ≤ n && n ≤ 13) || (28 ≤ n && n ≤ 32) || n = 0x85 || n = 0xA0 || n = 0x1680 ||
    (0x2000 ≤ n && n ≤ 0x200A) || n = 0x2028 || n = 0x2029 || n = 0x202F || n = 0x205F ||
    n = 0x3000

@[simp] theorem toNat_char (c : Char) : (char c).toNat = c.toNat := rfl

@[simp] theorem toNat_surrogate (d : Fin 0x800) : (surrogate d).toNat = 0xD800 + d.val := rfl

theorem ofNat_toNat (c : CodePoint) : ofNat c.toNat = c := by
  cases c with
  | char c =>
      have valid : c.toNat.isValidChar := c.valid
      have outside : ¬(0xD800 ≤ c.toNat ∧ c.toNat < 0xE000) := by
        unfold Nat.isValidChar at valid
        omega
      change (if _ : 0xD800 ≤ c.toNat ∧ c.toNat < 0xE000 then _ else _) = _
      rw [dif_neg outside]
      change (if c.toNat.isValidChar then char (Char.ofNat c.toNat) else _) = _
      rw [if_pos valid, Char.ofNat_toNat]
  | surrogate d =>
      have inside : 0xD800 ≤ 0xD800 + d.val ∧ 0xD800 + d.val < 0xE000 := by
        have := d.isLt
        omega
      simp [ofNat, inside]

end CodePoint

end DocumentQuery
