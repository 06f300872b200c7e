import DocumentQuery.Proofs.Text

/-!
# The grammar of JSON

Which texts are JSON texts is laid down by a grammar.  Its rules are stated here without regard to
any reader: numbers and strings rule by rule, and arrays and objects as one kind of container, whose
parts are values or members.

Outside strings a text of this grammar holds few characters.  `shown` is what is left of a text when
the strings are taken out of it, and `Derives.isBare` says that only characters of words, numbers
and punctuation are left.  A text that shows any other character is no JSON text.
-/

namespace DocumentQuery

namespace Json

namespace Grammar

/-! ## White space and punctuation -/

/-- Insignificant white space. -/
def IsGap (t : Text) : Prop :=
  ∀ c ∈ t, c = .char ' ' ∨ c = .char '\t' ∨ c = .char '\n' ∨ c = .char '\r'

/-- A structural character with white space around it. -/
def IsToken (c : Char) (t : Text) : Prop :=
  ∃ before after, IsGap before ∧ IsGap after ∧ t = before ++ .char c :: after

/-! ## Numbers -/

/-- One or more digits. -/
def IsDigits (t : Text) : Prop :=
  t ≠ [] ∧ ∀ c ∈ t, c.isDigit = true

/-- The digits of an integer: only zero itself begins with the digit zero. -/
def IsWhole (t : Text) : Prop :=
  t = [.char '0'] ∨ IsDigits t ∧ t.head? ≠ some (.char '0')

/-- A decimal point and the digits after it, or nothing. -/
inductive IsFraction : Text → Prop
  | none : IsFraction []
  | some {digits : Text} (h : IsDigits digits) : IsFraction (.char '.' :: digits)

/-- An exponent, with a sign or without, or nothing. -/
inductive IsExponent : Text → Prop
  | none : IsExponent []
  | some {letter : CodePoint} {sign digits : Text}
      (hletter : letter = .char 'e' ∨ letter = .char 'E')
      (hsign : sign = [] ∨ sign = [.char '-'] ∨ sign = [.char '+']) (hdigits : IsDigits digits) :
      IsExponent (letter :: (sign ++ digits))

/-- A number: a minus sign or none, the digits of an integer, a fraction and an exponent. -/
inductive IsNumber : Text → Prop
  | intro {sign whole fraction exponent : Text} (hsign : sign = [] ∨ sign = [.char '-'])
      (hwhole : IsWhole whole) (hfraction : IsFraction fraction)
      (hexponent : IsExponent exponent) : IsNumber (sign ++ (whole ++ fraction ++ exponent))

/-! ## Strings -/

/-- A hexadecimal digit, in letters of either case. -/
def IsHexDigit (c : CodePoint) : Prop :=
  c ∈ Text.ofString "0123456789abcdefABCDEF"

/-- The characters that can be escaped by a backslash before them or before a letter for them. -/
def escapes : Text :=
  Text.ofString "\"\\/bfnrt"

/-- A character inside a string: itself, unless it is a quote, a backslash or a control character,
or an escape. -/
inductive IsChar : Text → Prop
  | unescaped {c : CodePoint} (hcontrol : 0x20 ≤ c.toNat) (hquote : c ≠ .char '"')
      (hbackslash : c ≠ .char '\\') : IsChar [c]
  | escape {c : CodePoint} (h : c ∈ escapes) : IsChar [.char '\\', c]
  | number {a b c d : CodePoint} (h : ∀ x ∈ [a, b, c, d], IsHexDigit x) :
      IsChar [.char '\\', .char 'u', a, b, c, d]

/-- A string. -/
def IsString (t : Text) : Prop :=
  ∃ chars : List Text, (∀ char ∈ chars, IsChar char) ∧
    t = .char '"' :: (chars.flatten ++ [.char '"'])

/-! ## Values -/

/-- The parts of a container: values in an array, members in an object. -/
inductive Part where
  | value
  | member

/-- The character that a container of such parts begins with. -/
def Part.opening : Part → Char
  | .value => '['
  | .member => '\x7b'

/-- The character that a container of such parts ends with. -/
def Part.closing : Part → Char
  | .value => ']'
  | .member => '\x7d'

/-- What a rule of the grammar is about: one part, or a list of parts with commas between them. -/
inductive Symbol where
  | one (part : Part)
  | list (part : Part)

/-- The three words that are values. -/
def words : List Text :=
  ["true", "false", "null"]

/-- The texts of the grammar. -/
inductive Derives : Symbol → Text → Prop
  | word {t : Text} (h : t ∈ words) : Derives (.one .value) t
  | number {t : Text} (h : IsNumber t) : Derives (.one .value) t
  | string {t : Text} (h : IsString t) : Derives (.one .value) t
  | empty (part : Part) {opening closing : Text} (hopening : IsToken part.opening opening)
      (hclosing : IsToken part.closing closing) : Derives (.one .value) (opening ++ closing)
  | container (part : Part) {opening parts closing : Text} (hopening : IsToken part.opening opening)
      (hparts : Derives (.list part) parts) (hclosing : IsToken part.closing closing) :
      Derives (.one .value) (opening ++ (parts ++ closing))
  | member {name colon t : Text} (hname : IsString name) (hcolon : IsToken ':' colon)
      (h : Derives (.one .value) t) : Derives (.one .member) (name ++ (colon ++ t))
  | last {part : Part} {t : Text} (h : Derives (.one part) t) : Derives (.list part) t
  | more {part : Part} {t comma rest : Text} (h : Derives (.one part) t)
      (hcomma : IsToken ',' comma) (hrest : Derives (.list part) rest) :
      Derives (.list part) (t ++ (comma ++ rest))

/-! ## Outside strings -/

/-- Where in a text one is. -/
inductive Mode where
  | outside
  | inside
  /-- Inside a string, after a backslash. -/
  | escaped

/-- What is left of a text when the strings are taken out of it. -/
def shown : Mode → Text → Text
  | _, [] => []
  | .outside, c :: rest => if c = .char '"' then shown .inside rest else c :: shown .outside rest
  | .inside, c :: rest =>
      if c = .char '"' then shown .outside rest
      else if c = .char '\\' then shown .escaped rest
      else shown .inside rest
  | .escaped, _ :: rest => shown .inside rest

/-- A text ends outside strings if it begins outside, and this is what it shows. -/
def Shows (t s : Text) : Prop :=
  ∀ rest, shown .outside (t ++ rest) = s ++ shown .outside rest

theorem Shows.append {t t' s s' : Text} (h : Shows t s) (h' : Shows t' s') :
    Shows (t ++ t') (s ++ s') := by
  intro rest
  rw [List.append_assoc, h, h', List.append_assoc]

theorem Shows.eq_shown {t s : Text} (h : Shows t s) : shown .outside t = s := by
  simpa [shown] using h []

theorem shows_of_not_mem {t : Text} (h : .char '"' ∉ t) : Shows t t := by
  intro rest
  induction t with
  | nil => rfl
  | cons c t ih =>
      rw [List.mem_cons, not_or] at h
      rw [List.cons_append, shown, if_neg (Ne.symm h.1), ih h.2, List.cons_append]

theorem shown_inside_of_isHexDigit {c : CodePoint} (h : IsHexDigit c) (rest : Text) :
    shown .inside (c :: rest) = shown .inside rest := by
  have hall : ∀ d ∈ Text.ofString "0123456789abcdefABCDEF", d ≠ .char '"' ∧ d ≠ .char '\\' := by
    decide +kernel
  rw [shown, if_neg (hall c h).1, if_neg (hall c h).2]

/-- A character of a string does not end it. -/
theorem shown_inside_of_isChar {t : Text} (h : IsChar t) (rest : Text) :
    shown .inside (t ++ rest) = shown .inside rest := by
  cases h with
  | unescaped _ hquote hbackslash =>
      rw [List.singleton_append, shown, if_neg hquote, if_neg hbackslash]
  | escape _ => rfl
  | number h =>
      simp only [List.forall_mem_cons] at h
      obtain ⟨ha, hb, hc, hd, -⟩ := h
      change shown .inside (_ :: _ :: _ :: _ :: rest) = _
      rw [shown_inside_of_isHexDigit ha, shown_inside_of_isHexDigit hb,
        shown_inside_of_isHexDigit hc, shown_inside_of_isHexDigit hd]

/-- A string shows nothing. -/
theorem shows_of_isString {t : Text} (h : IsString t) : Shows t [] := by
  obtain ⟨chars, hchars, rfl⟩ := h
  have hinside (rest : Text) :
      shown .inside (chars.flatten ++ .char '"' :: rest) = shown .outside rest := by
    induction chars with
    | nil => rfl
    | cons char chars ih =>
        obtain ⟨hchar, hchars⟩ := List.forall_mem_cons.mp hchars
        rw [List.flatten_cons, List.append_assoc, shown_inside_of_isChar hchar, ih hchars]
  intro rest
  rw [List.cons_append, List.append_assoc, List.singleton_append, shown, if_pos rfl, hinside]
  rfl

/-! ## What texts of the grammar show -/

/-- The characters of words, numbers, punctuation and white space. -/
def MayShow (c : CodePoint) : Prop :=
  c.isDigit = true ∨ c ∈ Text.ofString " \t\n\r[]\x7b\x7d:,+-.eEtrufalsn"

instance (c : CodePoint) : Decidable (MayShow c) :=
  inferInstanceAs (Decidable (_ ∨ _))

/-- A text shows only such characters. -/
def IsBare (t : Text) : Prop :=
  ∃ s, Shows t s ∧ ∀ c ∈ s, MayShow c

theorem IsBare.append {t t' : Text} (h : IsBare t) (h' : IsBare t') : IsBare (t ++ t') := by
  obtain ⟨s, hs, hall⟩ := h
  obtain ⟨s', hs', hall'⟩ := h'
  exact ⟨s ++ s', hs.append hs', List.forall_mem_append.mpr ⟨hall, hall'⟩⟩

/-- A text of such characters holds no string. -/
theorem isBare_of_forall {t : Text} (h : ∀ c ∈ t, MayShow c) : IsBare t :=
  ⟨t, shows_of_not_mem fun hquote => absurd (h _ hquote) (by decide +kernel), h⟩

theorem isBare_of_isString {t : Text} (h : IsString t) : IsBare t :=
  ⟨[], shows_of_isString h, nofun⟩

theorem mayShow_of_isGap {t : Text} (h : IsGap t) : ∀ c ∈ t, MayShow c := by
  intro c hc
  rcases h c hc with rfl | rfl | rfl | rfl <;> decide +kernel

theorem isBare_of_isToken {c : Char} {t : Text} (hc : MayShow (.char c)) (h : IsToken c t) :
    IsBare t := by
  obtain ⟨before, after, hbefore, hafter, rfl⟩ := h
  exact isBare_of_forall (List.forall_mem_append.mpr
    ⟨mayShow_of_isGap hbefore, List.forall_mem_cons.mpr ⟨hc, mayShow_of_isGap hafter⟩⟩)

theorem mayShow_opening (part : Part) : MayShow (.char part.opening) := by
  cases part <;> decide +kernel

theorem mayShow_closing (part : Part) : MayShow (.char part.closing) := by
  cases part <;> decide +kernel

theorem mayShow_of_isNumber {t : Text} (h : IsNumber t) : ∀ c ∈ t, MayShow c := by
  obtain @⟨sign, whole, fraction, exponent, hsign, hwhole, hfraction, hexponent⟩ := h
  have hdigits {digits : Text} (h : IsDigits digits) : ∀ c ∈ digits, MayShow c :=
    fun c hc => Or.inl (h.2 c hc)
  have hsign : ∀ c ∈ sign, MayShow c := by
    rcases hsign with rfl | rfl <;> decide +kernel
  have hwhole : ∀ c ∈ whole, MayShow c := by
    rcases hwhole with rfl | ⟨h, -⟩
    · decide +kernel
    · exact hdigits h
  have hfraction : ∀ c ∈ fraction, MayShow c := by
    cases hfraction with
    | none => exact nofun
    | some h => exact List.forall_mem_cons.mpr ⟨by decide +kernel, hdigits h⟩
  have hexponent : ∀ c ∈ exponent, MayShow c := by
    cases hexponent with
    | none => exact nofun
    | some hletter hsign h =>
        refine List.forall_mem_cons.mpr ⟨?_, List.forall_mem_append.mpr ⟨?_, hdigits h⟩⟩
        · rcases hletter with rfl | rfl <;> decide +kernel
        · rcases hsign with rfl | rfl | rfl <;> decide +kernel
  simp only [List.forall_mem_append]
  exact ⟨hsign, ⟨hwhole, hfraction⟩, hexponent⟩

/-- Outside strings the texts of the grammar hold only words, numbers, punctuation and white
space. -/
theorem Derives.isBare {symbol : Symbol} {t : Text} (h : Derives symbol t) : IsBare t := by
  induction h with
  | word h =>
      have hall : ∀ word ∈ words, ∀ c ∈ word, MayShow c := by decide +kernel
      exact isBare_of_forall (hall _ h)
  | number h => exact isBare_of_forall (mayShow_of_isNumber h)
  | string h => exact isBare_of_isString h
  | empty part hopen hclose =>
      exact (isBare_of_isToken (mayShow_opening part) hopen).append
        (isBare_of_isToken (mayShow_closing part) hclose)
  | container part hopen _ hclose ih =>
      exact (isBare_of_isToken (mayShow_opening part) hopen).append
        (ih.append (isBare_of_isToken (mayShow_closing part) hclose))
  | member hname hcolon _ ih =>
      exact (isBare_of_isString hname).append
        ((isBare_of_isToken (by decide +kernel) hcolon).append ih)
  | last _ ih => exact ih
  | more _ hcomma _ ih ihrest =>
      exact ih.append ((isBare_of_isToken (by decide +kernel) hcomma).append ihrest)

end Grammar

open Grammar

/-- A JSON text: a value with white space around it. -/
def IsText (t : Text) : Prop :=
  ∃ before value after, IsGap before ∧ IsGap after ∧ Derives (.one .value) value ∧
    t = before ++ (value ++ after)

theorem IsText.isBare {t : Text} (h : IsText t) : IsBare t := by
  obtain ⟨before, value, after, hbefore, hafter, hvalue, rfl⟩ := h
  exact (isBare_of_forall (mayShow_of_isGap hbefore)).append
    (hvalue.isBare.append (isBare_of_forall (mayShow_of_isGap hafter)))

end Json

end DocumentQuery
