import DocumentQuery.Text.CodePoint

/-!
# Texts

A text is a list of code points.  Besides the operations of lists it has trimming, line endings
and positions: a reader that stops says how much of the text is still unread, and line and column
are computed from that alone.
-/

namespace DocumentQuery

/-- A sequence of code points. -/
abbrev Text := List CodePoint

namespace Text

/-- A string as a text; a string holds no surrogate. -/
def ofString (s : String) : Text :=
  s.toList.map .char

instance : Coe String Text := ⟨ofString⟩

/-- The string of a text, unless it holds surrogates. -/
def toString? (t : Text) : Option String :=
  (t.mapM CodePoint.char?).map String.ofList

/-- A text without its trailing code points that satisfy `p`. -/
def dropEndWhile (p : CodePoint → Bool) (t : Text) : Text :=
  (t.reverse.dropWhile p).reverse

/-- A text without the blanks before it. -/
def trimStart (t : Text) : Text :=
  t.dropWhile CodePoint.isBlank

/-- A text without the blanks after it. -/
def trimEnd (t : Text) : Text :=
  dropEndWhile CodePoint.isBlank t

/-- A text without the blanks around it. -/
def trim (t : Text) : Text :=
  trimEnd (trimStart t)

/-- The texts in order with a separator between neighbours. -/
def joined (separator : Text) (parts : List Text) : Text :=
  (parts.intersperse separator).flatten

/-- `n` times the same code point. -/
def repeated (n : Nat) (c : CodePoint) : Text :=
  List.replicate n c

/-- The last `width` hexadecimal digits of a number, in small letters. -/
def hex : Nat → Nat → Text
  | 0, _ => []
  | width + 1, n => hex width (n / 16) ++ [.char (n % 16).digitChar]

/-- The parts of a text: what stands between occurrences of a separator, one part more than there
are occurrences. -/
def split (separator : CodePoint) (t : Text) : List Text :=
  t.foldr
    (fun c found =>
      match found with
      | [] => [[c]]
      | part :: rest => if c = separator then [] :: part :: rest else (c :: part) :: rest)
    [[]]

/-- Every carriage return that stands before a newline is dropped. -/
def unixNewlines : Text → Text
  | .char '\r' :: .char '\n' :: rest => .char '\n' :: unixNewlines rest
  | c :: rest => c :: unixNewlines rest
  | [] => []

/-- Every line ending, be it a newline, a carriage return or both in this order, becomes one
newline. -/
def normalizedNewlines : Text → Text
  | .char '\r' :: .char '\n' :: rest => .char '\n' :: normalizedNewlines rest
  | .char '\r' :: rest => .char '\n' :: normalizedNewlines rest
  | c :: rest => c :: normalizedNewlines rest
  | [] => []

/-- The part of `whole` that has been read when `unread` is left of it. -/
def consumed (whole unread : Text) : Text :=
  whole.take (whole.length - unread.length)

end Text

/-- A place in a text: line and column count from 1, the offset from 0, all in code points. -/
structure Position where
  line : Nat
  column : Nat
  offset : Nat
  deriving DecidableEq

/-- The place right after a given beginning of a text. -/
def Position.after (beginning : Text) : Position where
  line := beginning.count (.char '\n') + 1
  column := (beginning.reverse.takeWhile (· ≠ .char '\n')).length + 1
  offset := beginning.length

end DocumentQuery
