import DocumentQuery.Proofs.Pattern.Recognition
import Mathlib.Logic.Function.Iterate

/-!
# Scanning a text in place

A reader of patterns is given what is left of a text and returns what follows.  A scanner keeps the
whole text.  It moves one position through a window of the text and looks at code points by their
positions, so that it could leave the window, look outside it or stand still; none of this can
happen to a reader.

* `Window` — a text and the bounds of the part of it that is to be read.
* `Window.next` — one move of a scanner.  What a loop does in one round is a move of its own, so a
  run goes through no other points than those between moves.
* `Move`, `move_next` — the moves, each with what the scanner has looked at.  Everything that is
  proved about scanners is derived from this list.
-/

namespace DocumentQuery

namespace Pattern

/-! ## Windows -/

/-- A text and the bounds of a part of it that is not empty. -/
structure Window where
  text : Text
  start : Nat
  stop : Nat
  hstart : start < stop
  hstop : stop ≤ text.length

namespace Window

/-- The code point at a position, unless the position is behind the window. -/
def at? (w : Window) (pos : Nat) : Option CodePoint :=
  if pos < w.stop then w.text[pos]? else none

/-- The text between two positions. -/
def slice (w : Window) (first last : Nat) : Text :=
  (w.text.take last).drop first

/-- What is left of the window at a position. -/
def rest (w : Window) (pos : Nat) : Text :=
  w.slice pos w.stop

variable {w : Window} {pos first last : Nat} {c : CodePoint}

theorem lt_stop_of_at? (h : w.at? pos = some c) : pos < w.stop := by
  unfold at? at h
  split at h
  · assumption
  · cases h

theorem head?_rest (w : Window) (pos : Nat) : (w.rest pos).head? = w.at? pos := by
  rw [rest, slice, List.head?_drop, List.getElem?_take]
  rfl

theorem drop_rest (w : Window) (pos count : Nat) :
    (w.rest pos).drop count = w.rest (pos + count) := by
  rw [rest, rest, slice, slice, List.drop_drop]

theorem length_rest (w : Window) (pos : Nat) : (w.rest pos).length = w.stop - pos := by
  have := w.hstop
  rw [rest, slice, List.length_drop, List.length_take]
  omega

theorem rest_eq_cons (h : w.at? pos = some c) : w.rest pos = c :: w.rest (pos + 1) := by
  rw [← head?_rest] at h
  obtain ⟨tail, htail⟩ := List.head?_eq_some_iff.mp h
  rw [← drop_rest, htail]
  rfl

theorem rest_eq_nil (h : w.at? pos = none) : w.rest pos = [] := by
  rwa [← head?_rest, List.head?_eq_none_iff] at h

/-- What is left behind a text with which the rest begins. -/
theorem rest_add {read unread : Text} (h : w.rest pos = read ++ unread) :
    w.rest (pos + read.length) = unread := by
  rw [← drop_rest, h, List.drop_left]

/-- What is left at a position is read up to a later one, and then the rest is left there. -/
theorem slice_append_rest (hfirst : first ≤ pos) (hpos : pos ≤ w.stop) :
    w.slice first pos ++ w.rest pos = w.rest first := by
  have htake : w.slice first pos = (w.rest first).take (pos - first) := by
    rw [rest, slice, slice, List.take_drop, List.take_take]
    congr 2
    omega
  have hdrop : w.rest pos = (w.rest first).drop (pos - first) := by
    rw [drop_rest, Nat.add_sub_cancel' hfirst]
  rw [htake, hdrop, List.take_append_drop]

theorem slice_self (w : Window) (pos : Nat) : w.slice pos pos = [] := by
  rw [slice, List.drop_eq_nil_iff, List.length_take]
  exact Nat.min_le_left _ _

theorem slice_succ (hfirst : first ≤ pos) (h : w.at? pos = some c) :
    w.slice first (pos + 1) = w.slice first pos ++ [c] := by
  have hpos := lt_stop_of_at? h
  have hwhole : w.slice first (pos + 1) ++ w.rest (pos + 1) =
      w.slice first pos ++ [c] ++ w.rest (pos + 1) := by
    rw [slice_append_rest (by omega) hpos, ← slice_append_rest hfirst (Nat.le_of_lt hpos),
      rest_eq_cons h, List.append_assoc]
    rfl
  exact List.append_cancel_right hwhole

theorem slice_eq {read : Text} (hfirst : first ≤ last) (hlast : last ≤ w.stop)
    (h : w.rest first = read ++ w.rest last) : w.slice first last = read := by
  rw [← slice_append_rest hfirst hlast] at h
  exact List.append_cancel_right h

theorem length_slice (hfirst : first ≤ last) (hlast : last ≤ w.stop) :
    (w.slice first last).length = last - first := by
  have hlength := congrArg List.length (slice_append_rest hfirst hlast)
  rw [List.length_append, length_rest, length_rest] at hlength
  omega

/-- The first position of a code point, from a position on. -/
def find? (w : Window) (c : CodePoint) (pos : Nat) : Option Nat :=
  match _found : w.at? pos with
  | none => none
  | some d => if d = c then some pos else w.find? c (pos + 1)
termination_by w.stop - pos
decreasing_by
  have := lt_stop_of_at? _found
  omega

theorem find?_of_at?_eq_none (h : w.at? pos = none) : w.find? c pos = none := by
  rw [find?]
  split
  · rfl
  · rename_i hsome
    rw [h] at hsome
    cases hsome

theorem find?_of_at?_eq_some {d : CodePoint} (h : w.at? pos = some d) :
    w.find? c pos = if d = c then some pos else w.find? c (pos + 1) := by
  rw [find?]
  split
  · rename_i hnone
    rw [h] at hnone
    cases hnone
  · rename_i hsome
    obtain rfl := Option.some.inj (h.symm.trans hsome)
    rfl

/-- What is left begins with code points other than the one that is found, which follows them. -/
theorem rest_of_find? {close : Nat} (h : w.find? c pos = some close) :
    pos ≤ close ∧ close < w.stop ∧
      w.rest pos = w.slice pos close ++ c :: w.rest (close + 1) ∧ c ∉ w.slice pos close := by
  fun_induction find? w c pos with
  | case1 => cases h
  | case2 pos hfound =>
      cases h
      rw [slice_self]
      exact ⟨Nat.le_refl close, lt_stop_of_at? hfound, rest_eq_cons hfound, List.not_mem_nil⟩
  | case3 pos d hfound hne ih =>
      obtain ⟨hle, hlt, hrest, hnot⟩ := ih h
      have hwhole : w.slice pos close ++ w.rest close =
          d :: w.slice (pos + 1) close ++ w.rest close := by
        rw [slice_append_rest (by omega) (Nat.le_of_lt hlt), rest_eq_cons hfound, List.cons_append,
          slice_append_rest hle (Nat.le_of_lt hlt)]
      have hslice := List.append_cancel_right hwhole
      refine ⟨by omega, hlt, ?_, ?_⟩
      · rw [rest_eq_cons hfound, hslice, List.cons_append, ← hrest]
      · rw [hslice]
        exact List.not_mem_cons_of_ne_of_not_mem (Ne.symm hne) hnot

theorem not_mem_rest_of_find? (h : w.find? c pos = none) : c ∉ w.rest pos := by
  fun_induction find? w c pos with
  | case1 pos hnone =>
      rw [rest_eq_nil hnone]
      exact List.not_mem_nil
  | case2 => cases h
  | case3 pos d hfound hne ih =>
      rw [rest_eq_cons hfound]
      exact List.not_mem_cons_of_ne_of_not_mem (Ne.symm hne) (ih h)

end Window

/-! ## Tokens of positions -/

namespace PositionForm

/-- The position between whose brackets the given token stands, if it is an integer. -/
def ofToken? (token : Text) : Option PositionForm :=
  let (negative, digits) := readSign token
  if h : digits ≠ [] ∧ ∀ c ∈ digits, c.isDigit = true then
    some { negative, digits, hne := h.1, hdigits := h.2 }
  else none

/-- The part of a token up to the code point that makes it no integer. -/
def begun (token : Text) : Text :=
  let (negative, digits) := readSign token
  (if negative then [.char '-'] else []) ++ digits.takeWhile CodePoint.isDigit

/-- What is not an integer goes on behind the part that begins one. -/
theorem begun_append {token digits : Text} {negative : Bool}
    (h : readSign token = (negative, digits)) :
    begun token ++ digits.dropWhile CodePoint.isDigit = token := by
  rw [begun, h, List.append_assoc, List.takeWhile_append_dropWhile]
  exact (readSign_append h).symm

theorem length_begun_le (token : Text) : (begun token).length ≤ token.length := by
  cases h : readSign token with
  | mk negative digits =>
      have hlength := congrArg List.length (begun_append h)
      rw [List.length_append] at hlength
      omega

theorem sign_append_of_ofToken? {token : Text} {form : PositionForm}
    (h : ofToken? token = some form) : form.sign ++ form.digits = token := by
  unfold ofToken? at h
  cases hsign : readSign token with
  | mk negative digits =>
      rw [hsign] at h
      dsimp only at h
      split at h
      · cases h
        exact (readSign_append hsign).symm
      · cases h

end PositionForm

/-! ## Points of a run -/

/-- What a scanner is about to read. -/
inductive Phase where
  /-- A key is due. -/
  | key
  /-- A bare key that begins at `first` may go on. -/
  | bare (first : Nat)
  /-- A quoted key begins at `first`, and so far its name is `name`. -/
  | quoted (first : Nat) (name : Text)
  /-- A backslash has been read in a quoted key. -/
  | escape (first : Nat) (name : Text)
  /-- A key or a position has been read. -/
  | behind
  /-- A dot has been read. -/
  | dot
  /-- Nothing: the window is a pattern. -/
  | read
  /-- Nothing: there is a fault at `place`. -/
  | fault (fault : Fault) (place : Nat)
  /-- Nothing: a numeral is too long. -/
  | limit (e : Numeral.LimitError)
  deriving DecidableEq

/-- The scanner has come to an end. -/
def Phase.isEnd : Phase → Bool
  | .read | .fault _ _ | .limit _ => true
  | _ => false

/-- A step, and the positions where its source begins and ends. -/
structure Part where
  step : Step
  first : Nat
  last : Nat
  deriving DecidableEq

/-- A point between two moves: the position, what is about to be read, and what has been read. -/
structure Point where
  pos : Nat
  phase : Phase
  parts : List Part
  deriving DecidableEq

namespace Point

/-- The point at which a step has been read up to `last`. -/
def found (p : Point) (step : Step) (first last : Nat) : Point :=
  ⟨last, .behind, p.parts ++ [⟨step, first, last⟩]⟩

/-- The position moves past one code point. -/
def forward (p : Point) (phase : Phase) : Point :=
  ⟨p.pos + 1, phase, p.parts⟩

/-- The position stays. -/
def stay (p : Point) (phase : Phase) : Point :=
  ⟨p.pos, phase, p.parts⟩

end Point

/-- What is at fault where no key begins. -/
def missingKey : Option CodePoint → Fault
  | none => .emptyIdentifier
  | some c => if c = .char '.' ∨ c = .char '[' then .emptyIdentifier else .unexpectedCharacter

namespace Window

/-- The move at a bracket. -/
def nextIndex (w : Window) (p : Point) : Point :=
  match w.find? (.char ']') (p.pos + 1) with
  | none => p.stay (.fault .unterminatedBracket p.pos)
  | some close =>
      let token := w.slice (p.pos + 1) close
      match PositionForm.ofToken? token with
      | none => p.stay (.fault .invalidIndex (p.pos + 1 + (PositionForm.begun token).length))
      | some form =>
          if form.digits.length ≤ Numeral.maxDigits then
            p.found (.index form.position) p.pos (close + 1)
          else ⟨close + 1, .limit (.reading form.digits.length), p.parts⟩

/-- One move of a scanner; none at an end. -/
def next (w : Window) (p : Point) : Point :=
  match p.phase with
  | .key =>
      match w.at? p.pos with
      | none => p.stay (.fault (missingKey none) p.pos)
      | some c =>
          if c = .char '"' then p.forward (.quoted p.pos [])
          else if c.isBare then p.forward (.bare p.pos)
          else p.stay (.fault (missingKey (some c)) p.pos)
  | .bare first =>
      if (w.at? p.pos).any CodePoint.isBare then p.forward (.bare first)
      else p.found (.field (w.slice first p.pos)) first p.pos
  | .quoted first name =>
      match w.at? p.pos with
      | none => p.stay (.fault .unterminatedQuote first)
      | some c =>
          if c = .char '"' then p.found (.field name) first (p.pos + 1)
          else if c = .char '\\' then p.forward (.escape first name)
          else p.forward (.quoted first (name ++ [c]))
  | .escape first name =>
      match (w.at? p.pos).filter (IsSpecial ·) with
      | some c => p.forward (.quoted first (name ++ [c]))
      | none => p.stay (.quoted first (name ++ [.char '\\']))
  | .behind =>
      match w.at? p.pos with
      | none => p.stay .read
      | some c =>
          if c = .char '[' then w.nextIndex p
          else if c = .char '.' then p.forward .dot
          else p.stay (.fault .unexpectedCharacter p.pos)
  | .dot =>
      match w.at? p.pos with
      | none => p.stay (.fault .trailingDot (p.pos - 1))
      | some _ => p.stay .key
  | .read | .fault _ _ | .limit _ => p

/-- Where a scanner begins. -/
def origin (w : Window) : Point :=
  ⟨w.start, .key, []⟩

/-- Where a scanner is after a number of moves. -/
def after (w : Window) (moves : Nat) : Point :=
  w.next^[moves] w.origin

theorem after_succ (w : Window) (moves : Nat) : w.after (moves + 1) = w.next (w.after moves) :=
  Function.iterate_succ_apply' w.next moves w.origin

end Window

/-! ## Moves -/

/-- What a move can be, with what the scanner has looked at. -/
inductive Move (w : Window) : Point → Point → Prop
  | openQuote {pos parts} (hat : w.at? pos = some (.char '"')) :
      Move w ⟨pos, .key, parts⟩ ⟨pos + 1, .quoted pos [], parts⟩
  | beginBare {pos parts c} (hat : w.at? pos = some c) (hbare : c.isBare = true) :
      Move w ⟨pos, .key, parts⟩ ⟨pos + 1, .bare pos, parts⟩
  | noKey {pos parts} (hat : ∀ c ∈ w.at? pos, c ≠ .char '"' ∧ c.isBare = false) :
      Move w ⟨pos, .key, parts⟩ ⟨pos, .fault (missingKey (w.at? pos)) pos, parts⟩
  | prolongBare {pos first parts c} (hat : w.at? pos = some c) (hbare : c.isBare = true) :
      Move w ⟨pos, .bare first, parts⟩ ⟨pos + 1, .bare first, parts⟩
  | endBare {pos first parts} (hat : ∀ c ∈ w.at? pos, c.isBare = false) :
      Move w ⟨pos, .bare first, parts⟩
        ⟨pos, .behind, parts ++ [⟨.field (w.slice first pos), first, pos⟩]⟩
  | closeQuote {pos first name parts} (hat : w.at? pos = some (.char '"')) :
      Move w ⟨pos, .quoted first name, parts⟩
        ⟨pos + 1, .behind, parts ++ [⟨.field name, first, pos + 1⟩]⟩
  | backslash {pos first name parts} (hat : w.at? pos = some (.char '\\')) :
      Move w ⟨pos, .quoted first name, parts⟩ ⟨pos + 1, .escape first name, parts⟩
  | plain {pos first name parts c} (hat : w.at? pos = some c) (hplain : ¬IsSpecial c) :
      Move w ⟨pos, .quoted first name, parts⟩ ⟨pos + 1, .quoted first (name ++ [c]), parts⟩
  | openEnd {pos first name parts} (hat : w.at? pos = none) :
      Move w ⟨pos, .quoted first name, parts⟩ ⟨pos, .fault .unterminatedQuote first, parts⟩
  | escaped {pos first name parts c} (hat : w.at? pos = some c) (hspecial : IsSpecial c) :
      Move w ⟨pos, .escape first name, parts⟩ ⟨pos + 1, .quoted first (name ++ [c]), parts⟩
  | unescaped {pos first name parts} (hat : ∀ c ∈ w.at? pos, ¬IsSpecial c) :
      Move w ⟨pos, .escape first name, parts⟩
        ⟨pos, .quoted first (name ++ [.char '\\']), parts⟩
  | finish {pos parts} (hat : w.at? pos = none) :
      Move w ⟨pos, .behind, parts⟩ ⟨pos, .read, parts⟩
  | index {pos parts close form} (hat : w.at? pos = some (.char '['))
      (hclose : w.find? (.char ']') (pos + 1) = some close)
      (htoken : PositionForm.ofToken? (w.slice (pos + 1) close) = some form)
      (hshort : form.digits.length ≤ Numeral.maxDigits) :
      Move w ⟨pos, .behind, parts⟩
        ⟨close + 1, .behind, parts ++ [⟨.index form.position, pos, close + 1⟩]⟩
  | longIndex {pos parts close form} (hat : w.at? pos = some (.char '['))
      (hclose : w.find? (.char ']') (pos + 1) = some close)
      (htoken : PositionForm.ofToken? (w.slice (pos + 1) close) = some form)
      (hlong : ¬form.digits.length ≤ Numeral.maxDigits) :
      Move w ⟨pos, .behind, parts⟩ ⟨close + 1, .limit (.reading form.digits.length), parts⟩
  | openBracket {pos parts} (hat : w.at? pos = some (.char '['))
      (hclose : w.find? (.char ']') (pos + 1) = none) :
      Move w ⟨pos, .behind, parts⟩ ⟨pos, .fault .unterminatedBracket pos, parts⟩
  | badToken {pos parts close} (hat : w.at? pos = some (.char '['))
      (hclose : w.find? (.char ']') (pos + 1) = some close)
      (htoken : PositionForm.ofToken? (w.slice (pos + 1) close) = none) :
      Move w ⟨pos, .behind, parts⟩
        ⟨pos, .fault .invalidIndex
          (pos + 1 + (PositionForm.begun (w.slice (pos + 1) close)).length), parts⟩
  | dot {pos parts} (hat : w.at? pos = some (.char '.')) :
      Move w ⟨pos, .behind, parts⟩ ⟨pos + 1, .dot, parts⟩
  | stray {pos parts c} (hat : w.at? pos = some c) (hbracket : c ≠ .char '[')
      (hdot : c ≠ .char '.') :
      Move w ⟨pos, .behind, parts⟩ ⟨pos, .fault .unexpectedCharacter pos, parts⟩
  | lastDot {pos parts} (hat : w.at? pos = none) :
      Move w ⟨pos, .dot, parts⟩ ⟨pos, .fault .trailingDot (pos - 1), parts⟩
  | due {pos parts c} (hat : w.at? pos = some c) :
      Move w ⟨pos, .dot, parts⟩ ⟨pos, .key, parts⟩

theorem move_nextIndex {w : Window} {pos : Nat} {parts : List Part}
    (hat : w.at? pos = some (.char '[')) :
    Move w ⟨pos, .behind, parts⟩ (w.nextIndex ⟨pos, .behind, parts⟩) := by
  unfold Window.nextIndex
  split
  · rename_i hclose
    exact .openBracket hat hclose
  · rename_i close hclose
    dsimp only
    split
    · rename_i htoken
      exact .badToken hat hclose htoken
    · rename_i form htoken
      split
      · rename_i hshort
        exact .index hat hclose htoken hshort
      · rename_i hlong
        exact .longIndex hat hclose htoken hlong

/-- Unless the scanner has come to an end, it makes one of the moves. -/
theorem move_next (w : Window) {p : Point} (h : p.phase.isEnd = false) : Move w p (w.next p) := by
  obtain ⟨pos, phase, parts⟩ := p
  unfold Window.next
  cases phase with
  | key =>
      dsimp only
      split
      · rename_i hat
        exact hat ▸ .noKey fun c hc => by rw [hat] at hc; cases hc
      · rename_i c hat
        split
        · rename_i hquote
          exact .openQuote (hquote ▸ hat)
        · rename_i hquote
          split
          · rename_i hbare
            exact .beginBare hat hbare
          · rename_i hbare
            rw [← hat]
            refine .noKey fun d hd => ?_
            obtain rfl : c = d := Option.some.inj (hat.symm.trans hd)
            exact ⟨hquote, by simpa using hbare⟩
  | bare first =>
      dsimp only
      split
      · rename_i hbare
        obtain ⟨c, hat, hbare⟩ := (Option.any_eq_true _ _).mp hbare
        exact .prolongBare hat hbare
      · rename_i hbare
        refine .endBare fun c hat => ?_
        simpa [Option.mem_def.mp hat] using hbare
  | quoted first name =>
      dsimp only
      split
      · rename_i hat
        exact .openEnd hat
      · rename_i c hat
        split
        · rename_i hquote
          exact .closeQuote (hquote ▸ hat)
        · rename_i hquote
          split
          · rename_i hbackslash
            exact .backslash (hbackslash ▸ hat)
          · rename_i hbackslash
            exact .plain hat (not_or.mpr ⟨hquote, hbackslash⟩)
  | escape first name =>
      dsimp only
      split
      · rename_i c hat
        obtain ⟨hat, hspecial⟩ := Option.filter_eq_some_iff.mp hat
        exact .escaped hat (of_decide_eq_true hspecial)
      · rename_i hat
        refine .unescaped fun c hc hspecial => ?_
        exact Option.filter_eq_none_iff.mp hat c hc (decide_eq_true hspecial)
  | behind =>
      dsimp only
      split
      · rename_i hat
        exact .finish hat
      · rename_i c hat
        split
        · rename_i hbracket
          exact move_nextIndex (hbracket ▸ hat)
        · rename_i hbracket
          split
          · rename_i hdot
            exact .dot (hdot ▸ hat)
          · rename_i hdot
            exact .stray hat hbracket hdot
  | dot =>
      dsimp only
      split
      · rename_i hat
        exact .lastDot hat
      · rename_i c hat
        exact .due hat
  | read => cases h
  | fault fault place => cases h
  | limit e => cases h

theorem Window.next_of_isEnd {w : Window} {p : Point} (h : p.phase.isEnd = true) :
    w.next p = p := by
  unfold Window.next
  split
  case h_7 | h_8 | h_9 => rfl
  all_goals
    rename_i hphase
    rw [hphase] at h
    cases h

end Pattern

end DocumentQuery
