import DocumentQuery.Pattern.SyntaxError

/-!
# Reading patterns

The grammar of patterns, blanks around the whole being ignored:

* a pattern is one or more steps separated by single dots, or nothing;
* a step is a key followed by any number of positions;
* a key is bare, or stands in double quotes; inside them a backslash before a double quote or a
  backslash makes it an ordinary character;
* a position is an integer in brackets.

Every reader takes its form from the beginning of a text and returns what follows it.  A reader
that stops returns what it stopped at, which is an end piece of what it was given.
-/

namespace DocumentQuery

namespace Pattern

/-- Why a reader stops. -/
inductive Stop where
  /-- A fault at the first of the given code points. -/
  | fault (fault : Fault) (unread : Text)
  /-- A numeral that is too long. -/
  | limit (e : Numeral.LimitError)
  deriving DecidableEq

/-- A quoted key whose opening quote has been read, if a closing quote follows. -/
def readQuoted? : Text → Option (Text × Text)
  | [] => none
  | .char '"' :: rest => some ([], rest)
  | .char '\\' :: .char '"' :: rest =>
      (readQuoted? rest).map fun (key, rest) => (.char '"' :: key, rest)
  | .char '\\' :: .char '\\' :: rest =>
      (readQuoted? rest).map fun (key, rest) => (.char '\\' :: key, rest)
  | c :: rest => (readQuoted? rest).map fun (key, rest) => (c :: key, rest)

/-- A bare key, or the fault of a text that begins with none. -/
def readBare (t : Text) : Except Stop (Text × Text) :=
  let key := t.takeWhile CodePoint.isBare
  if key.isEmpty then
    match t with
    | [] | .char '.' :: _ | .char '[' :: _ => .error (.fault .emptyIdentifier t)
    | _ => .error (.fault .unexpectedCharacter t)
  else .ok (key, t.dropWhile CodePoint.isBare)

/-- A key. -/
def readKey (t : Text) : Except Stop (Text × Text) :=
  match t with
  | .char '"' :: rest =>
      match readQuoted? rest with
      | some found => .ok found
      | none => .error (.fault .unterminatedQuote t)
  | _ => readBare t

/-- A minus sign, if the text begins with one. -/
def readSign (t : Text) : Bool × Text :=
  match t with
  | .char '-' :: rest => (true, rest)
  | _ => (false, t)

/-- A position whose opening bracket has been read. -/
def readIndex (t : Text) : Except Stop (Int × Text) :=
  match t.dropWhile (· ≠ .char ']') with
  | [] => .error (.fault .unterminatedBracket (.char '[' :: t))
  | _ :: after =>
      let (negative, magnitude) := readSign t
      let digits := magnitude.takeWhile CodePoint.isDigit
      let unread := magnitude.dropWhile CodePoint.isDigit
      if digits.isEmpty ∨ unread.head? ≠ some (.char ']') then
        .error (.fault .invalidIndex unread)
      else
        match Numeral.read digits with
        | .error e => .error (.limit e)
        | .ok n => .ok (if negative then -(n : Int) else n, after)

theorem length_of_readIndex {t after : Text} {i : Int} (h : readIndex t = .ok (i, after)) :
    after.length < t.length := by
  unfold readIndex at h
  have shorter := (List.dropWhile_suffix (l := t) (· ≠ CodePoint.char ']')).length_le
  split at h
  · cases h
  · rename_i rest found
    rw [found] at shorter
    dsimp only at h
    split at h
    · cases h
    · split at h
      · cases h
      · cases h
        simp only [List.length_cons] at shorter
        omega

/-- All positions that the text begins with. -/
def readIndices (t : Text) : Except Stop (List Int × Text) :=
  match t with
  | .char '[' :: rest =>
      match _h : readIndex rest with
      | .error stop => .error stop
      | .ok (i, after) =>
          match readIndices after with
          | .error stop => .error stop
          | .ok (more, after) => .ok (i :: more, after)
  | _ => .ok ([], t)
termination_by t.length
decreasing_by
  have := length_of_readIndex _h
  simp only [List.length_cons]
  omega

theorem length_of_readQuoted? {t key rest : Text} (h : readQuoted? t = some (key, rest)) :
    rest.length < t.length := by
  fun_induction readQuoted? t generalizing key with
  | case1 => cases h
  | case2 r => cases h; simp
  | case3 r ih | case4 r ih | case5 c r _ _ _ ih =>
      obtain ⟨found, isFound, pair⟩ := Option.map_eq_some_iff.1 h
      cases pair
      have := ih isFound
      simp only [List.length_cons]
      omega

theorem length_of_readBare {t key rest : Text} (h : readBare t = .ok (key, rest)) :
    rest.length < t.length := by
  unfold readBare at h
  dsimp only at h
  split at h
  · split at h <;> cases h
  · rename_i nonempty
    cases h
    have split := congrArg List.length
      (List.takeWhile_append_dropWhile (p := CodePoint.isBare) (l := t))
    rw [List.length_append] at split
    have : 0 < (t.takeWhile CodePoint.isBare).length := by
      rw [List.isEmpty_iff] at nonempty
      exact List.length_pos_iff.2 nonempty
    omega

theorem length_of_readKey {t key rest : Text} (h : readKey t = .ok (key, rest)) :
    rest.length < t.length := by
  unfold readKey at h
  split at h
  · split at h
    · rename_i found
      cases h
      have := length_of_readQuoted? found
      simp only [List.length_cons]
      omega
    · cases h
  · exact length_of_readBare h

theorem length_of_readIndices {t rest : Text} {is : List Int} (h : readIndices t = .ok (is, rest)) :
    rest.length ≤ t.length := by
  fun_induction readIndices t generalizing is rest with
  | case1 => cases h
  | case2 => cases h
  | case3 r i after found more last foundMore ih =>
      cases h
      have := length_of_readIndex found
      have := ih foundMore
      simp only [List.length_cons]
      omega
  | case4 => cases h; exact Nat.le_refl _

/-- One or more steps up to the end of the text. -/
def readSteps (t : Text) : Except Stop (List Step) :=
  match _key : readKey t with
  | .error stop => .error stop
  | .ok (name, afterKey) =>
      match _indices : readIndices afterKey with
      | .error stop => .error stop
      | .ok (positions, afterStep) =>
          let step := .field name :: positions.map .index
          match _rest : afterStep with
          | [] => .ok step
          | c :: more =>
              if c ≠ .char '.' then .error (.fault .unexpectedCharacter afterStep)
              else if more.isEmpty then .error (.fault .trailingDot afterStep)
              else
                match readSteps more with
                | .error stop => .error stop
                | .ok steps => .ok (step ++ steps)
termination_by t.length
decreasing_by
  have := length_of_readKey _key
  have := length_of_readIndices _indices
  simp only [List.length_cons] at this
  omega

/-- The pattern that a text denotes. -/
def parse (t : Text) : Except ParseError Pattern :=
  let body := t.trim
  if body.isEmpty then .ok ⟨[]⟩
  else
    match readSteps body with
    | .ok steps => .ok ⟨steps⟩
    | .error (.limit e) => .error (.limit e)
    | .error (.fault fault unread) =>
        let before := t.length - t.trimStart.length
        .error (.malformed ⟨fault, before + (body.length - unread.length), t⟩)

end Pattern

end DocumentQuery
