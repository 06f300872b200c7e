import DocumentQuery.Proofs.Pattern.Advance
import DocumentQuery.Proofs.Pattern.Faults
import Mathlib.Data.List.Chain

/-!
# What a scanner reads, and from where

A scanner comes to the end that reading has.  `Window.resume` is what the readers make of the window
when they go on at a point, and no move changes it: `Move.resume_eq`.  Where the run begins this is
what they read from the whole window, and where it ends it is the end.

* `Part.IsSource` — a step that has been found was written in the slice it is found with.
* `Part.Follows` — this slice begins where that of the step before it ends, or behind a dot.
* `Window.covers_after` — where all has been read, these slices make up the window, except for
  single dots.
* `scanner_advances_within_body` — what this and the moves say about the text of a pattern.
-/

namespace DocumentQuery

namespace Pattern

/-! ## Reading goes on -/

/-- What becomes of the steps that have been read, given what follows the last one of them. -/
def readBehind (steps : List Step) (t : Text) : Except Stop (List Step) :=
  match readIndices t with
  | .error stop => .error stop
  | .ok (positions, rest) => readFurther (steps ++ positions.map .index) rest

theorem readFurther_append (before steps : List Step) (t : Text) :
    readFurther (before ++ steps) t = (readFurther steps t).map (before ++ ·) := by
  unfold readFurther
  split
  · rfl
  · rename_i c more
    split
    · rfl
    · split
      · rfl
      · cases readSteps more with
        | error stop => rfl
        | ok others =>
            dsimp only
            rw [List.append_assoc]
            rfl

/-- A key that has been read is the next step. -/
theorem map_readSteps_of_readKey {t name rest : Text} (h : readKey t = .ok (name, rest))
    (steps : List Step) :
    (readSteps t).map (steps ++ ·) = readBehind (steps ++ [.field name]) rest := by
  rw [readSteps_eq, h, readBehind]
  dsimp only
  cases readIndices rest with
  | error stop => rfl
  | ok found =>
      dsimp only
      rw [List.append_assoc, readFurther_append]
      rfl

theorem map_readSteps_of_readKey_eq_error {t : Text} {stop : Stop} (h : readKey t = .error stop)
    (steps : List Step) : (readSteps t).map (steps ++ ·) = .error stop := by
  rw [readSteps_eq, h]
  rfl

/-- A position that has been read is the next step. -/
theorem readBehind_of_readIndex {t rest : Text} {i : Int} (h : readIndex t = .ok (i, rest))
    (steps : List Step) :
    readBehind steps (.char '[' :: t) = readBehind (steps ++ [.index i]) rest := by
  rw [readBehind, readBehind, readIndices_bracket, h]
  dsimp only
  cases readIndices rest with
  | error stop => rfl
  | ok found => simp

theorem readBehind_of_readIndex_eq_error {t : Text} {stop : Stop} (h : readIndex t = .error stop)
    (steps : List Step) : readBehind steps (.char '[' :: t) = .error stop := by
  rw [readBehind, readIndices_bracket, h]

/-- Where no position follows, something else does, or nothing. -/
theorem readBehind_of_head?_ne {t : Text} (h : ∀ c ∈ t.head?, c ≠ .char '[')
    (steps : List Step) : readBehind steps t = readFurther steps t := by
  rw [readBehind, readIndices_of_head?_ne h]
  simp

theorem readFurther_dot {more : Text} (hne : more ≠ []) (steps : List Step) :
    readFurther steps (.char '.' :: more) = (readSteps more).map (steps ++ ·) := by
  have hmore : more.isEmpty = false := by simpa using hne
  rw [readFurther, if_neg (not_not_intro rfl), hmore]
  cases readSteps more <;> rfl

/-- Where no key begins, what is there is at fault. -/
theorem readKey_eq_error {t : Text} (h : ∀ c ∈ t.head?, c ≠ .char '"' ∧ c.isBare = false) :
    readKey t = .error (.fault (missingKey t.head?) t) := by
  cases t with
  | nil => rfl
  | cons c t =>
      obtain ⟨hquote, hbare⟩ := h c rfl
      rw [readKey_of_ne_quote hquote, readBare_of_isBare_eq_false hbare]
      rfl

/-! ## Positions in the text -/

section

variable {w : Window} {pos close : Nat}

theorem takeWhile_append_cons {p : CodePoint → Bool} {t rest : Text} {c : CodePoint}
    (hc : p c = false) : (t ++ c :: rest).takeWhile p = t.takeWhile p := by
  induction t with
  | nil => simp [hc]
  | cons d t ih => simp only [List.cons_append, List.takeWhile_cons, ih]

/-- The sign of a token is that of the text that it begins, up to the bracket. -/
theorem readSign_token {token digits rest : Text} {negative : Bool}
    (h : readSign token = (negative, digits)) :
    readSign (token ++ .char ']' :: rest) = (negative, digits ++ .char ']' :: rest) := by
  cases token with
  | nil =>
      cases h
      rfl
  | cons c token =>
      unfold readSign at h ⊢
      split at h
      · rename_i tail htext
        cases h
        cases htext
        rfl
      · rename_i hminus
        cases h
        split
        · rename_i tail htext
          rw [List.cons_append] at htext
          obtain ⟨rfl, -⟩ := List.cons.inj htext
          exact absurd rfl (hminus token)
        · rfl

/-- A token of a position is an integer. -/
theorem PositionForm.ofToken?_sign_append (form : PositionForm) :
    ofToken? (form.sign ++ form.digits) = some form := by
  have hsign := readSign_body form []
  rw [List.append_nil, List.append_nil] at hsign
  unfold ofToken?
  rw [hsign]
  dsimp only
  rw [dif_pos ⟨form.hne, form.hdigits⟩]

/-- A token that is no integer, with the bracket behind it, does not begin with a position. -/
theorem not_prefix_of_ofToken? {token rest : Text} (hclose : .char ']' ∉ token)
    (h : PositionForm.ofToken? token = none) (form : PositionForm) :
    ¬form.body <+: token ++ .char ']' :: rest := by
  rintro ⟨more, htext⟩
  have hnone : ∀ c ∈ token, decide (c ≠ .char ']') = true :=
    fun c hc => decide_eq_true fun heq => hclose (heq ▸ hc)
  have htoken : form.sign ++ form.digits = token := by
    have htake := congrArg (List.takeWhile (· ≠ CodePoint.char ']')) htext
    rw [PositionForm.body, List.append_assoc, List.singleton_append,
      takeWhile_append_cons (by decide), takeWhile_append_cons (by decide)] at htake
    rwa [List.takeWhile_eq_self_iff.mpr form.ne_bracket, List.takeWhile_eq_self_iff.mpr hnone]
      at htake
  rw [← htoken, PositionForm.ofToken?_sign_append] at h
  cases h

/-- A token that is no integer stops the reader at the code point that is no part of one. -/
theorem readIndex_badToken {token rest : Text} (hclose : .char ']' ∉ token)
    (h : PositionForm.ofToken? token = none) :
    ∃ unread, token ++ .char ']' :: rest = PositionForm.begun token ++ unread ∧
      readIndex (token ++ .char ']' :: rest) = .error (.fault .invalidIndex unread) := by
  cases hsign : readSign token with
  | mk negative digits =>
      have hwhole : readSign (token ++ .char ']' :: rest) =
          (negative, digits ++ .char ']' :: rest) := readSign_token hsign
      have hbreaks := breaksOff_of_readSign hwhole
        (List.mem_append_right token List.mem_cons_self) (not_prefix_of_ofToken? hclose h)
      have hbegun : PositionForm.begun token = (if negative then [.char '-'] else []) ++
          (digits ++ CodePoint.char ']' :: rest).takeWhile CodePoint.isDigit := by
        rw [PositionForm.begun, hsign, takeWhile_append_cons (by decide)]
      have htext : token ++ .char ']' :: rest = PositionForm.begun token ++
          (digits ++ .char ']' :: rest).dropWhile CodePoint.isDigit := by
        rw [hbegun, List.append_assoc, List.takeWhile_append_dropWhile]
        exact readSign_append hwhole
      refine ⟨_, htext, ?_⟩
      rw [htext, hbegun]
      exact readIndex_of_breaksOff hbreaks

namespace Window

/-- What is left at a bracket, if a closing one follows. -/
theorem rest_at_bracket (hat : w.at? pos = some (.char '['))
    (hclose : w.find? (.char ']') (pos + 1) = some close) :
    w.rest pos = .char '[' :: (w.slice (pos + 1) close ++ .char ']' :: w.rest (close + 1)) := by
  rw [rest_eq_cons hat, (rest_of_find? hclose).2.2.1]

/-- What is left at a position. -/
theorem rest_at_index {form : PositionForm} (hat : w.at? pos = some (.char '['))
    (hclose : w.find? (.char ']') (pos + 1) = some close)
    (htoken : PositionForm.ofToken? (w.slice (pos + 1) close) = some form) :
    w.rest pos = .char '[' :: (form.body ++ w.rest (close + 1)) := by
  rw [rest_at_bracket hat hclose, ← PositionForm.sign_append_of_ofToken? htoken]
  simp [PositionForm.body]

end Window

end

/-! ## What has been read is what the readers read -/

/-- The steps that have been read. -/
def Point.steps (p : Point) : List Step :=
  p.parts.map Part.step

/-- What the readers make of the whole window, given what has been read of it at a point. -/
def Window.resume (w : Window) (p : Point) : Except Stop (List Step) :=
  match p.phase with
  | .key => (readSteps (w.rest p.pos)).map (p.steps ++ ·)
  | .bare first | .quoted first _ | .escape first _ =>
      (readSteps (w.rest first)).map (p.steps ++ ·)
  | .behind => readBehind p.steps (w.rest p.pos)
  | .dot => readFurther p.steps (.char '.' :: w.rest p.pos)
  | .read => .ok p.steps
  | .fault fault place => .error (.fault fault (w.rest place))
  | .limit e => .error (.limit e)

/-- The phase is right about what has been read of a key: the code points from `first` on are bare,
or an opening quote stands there and what has been read behind it is `name`. -/
def Phase.Reads (w : Window) (pos : Nat) : Phase → Prop
  | .bare first => ∀ c ∈ w.slice first pos, c.isBare = true
  | .quoted first name =>
      w.at? first = some (.char '"') ∧
        readQuoted? (w.rest (first + 1)) =
          (readQuoted? (w.rest pos)).map fun (more, rest) => (name ++ more, rest)
  | .escape first name =>
      w.at? first = some (.char '"') ∧
        readQuoted? (w.rest (first + 1)) =
          (readQuoted? (.char '\\' :: w.rest pos)).map fun (more, rest) => (name ++ more, rest)
  | .dot => w.at? (pos - 1) = some (.char '.')
  | _ => True

theorem map_prepend (name read : Text) (found : Option (Text × Text)) :
    (found.map fun (more, rest) => (read ++ more, rest)).map
        (fun (more, rest) => (name ++ more, rest)) =
      found.map fun (more, rest) => (name ++ read ++ more, rest) := by
  cases found with
  | none => rfl
  | some found => simp

namespace Move

variable {w : Window} {p q : Point}

theorem reads (h : Move w p q) (hp : p.Within w) (hreads : p.phase.Reads w p.pos) :
    q.phase.Reads w q.pos := by
  cases h with
  | @openQuote pos _ hat =>
      refine ⟨hat, ?_⟩
      cases readQuoted? (w.rest (pos + 1)) <;> rfl
  | @beginBare pos _ c hat hbare =>
      change ∀ d ∈ w.slice pos (pos + 1), d.isBare = true
      rw [Window.slice_succ (Nat.le_refl pos) hat, Window.slice_self]
      exact List.forall_mem_singleton.mpr hbare
  | @prolongBare pos first _ c hat hbare =>
      have hfirst : first ≤ pos := Nat.le_of_lt hp.phase.2
      change ∀ d ∈ w.slice first (pos + 1), d.isBare = true
      rw [Window.slice_succ hfirst hat]
      exact List.forall_mem_append.mpr ⟨hreads, List.forall_mem_singleton.mpr hbare⟩
  | backslash hat =>
      obtain ⟨hopen, hname⟩ := hreads
      exact ⟨hopen, Window.rest_eq_cons hat ▸ hname⟩
  | plain hat hplain =>
      obtain ⟨hopen, hname⟩ := hreads
      obtain ⟨hquote, hbackslash⟩ := not_or.mp hplain
      refine ⟨hopen, ?_⟩
      rw [hname, Window.rest_eq_cons hat,
        readQuoted?_ordinary hquote fun heq => absurd heq hbackslash]
      exact map_prepend _ [_] _
  | escaped hat hspecial =>
      obtain ⟨hopen, hname⟩ := hreads
      refine ⟨hopen, ?_⟩
      rw [hname, Window.rest_eq_cons hat]
      exact (congrArg _ (readQuoted?_item (.escaped _ hspecial) _)).trans (map_prepend _ [_] _)
  | @unescaped pos _ _ _ hat =>
      obtain ⟨hopen, hname⟩ := hreads
      have hnext : ∀ d ∈ (w.rest pos).head?, ¬IsSpecial d := by
        rw [Window.head?_rest]
        exact hat
      refine ⟨hopen, ?_⟩
      -- Before anything else a backslash is an ordinary code point, which is read alone.
      rw [hname, readQuoted?_ordinary (by decide) fun _ => hnext]
      exact map_prepend _ [_] _
  | dot hat => exact hat
  | _ => trivial

end Move

namespace Window

variable {w : Window} {pos first : Nat}

/-- A bare key that does not go on is read. -/
theorem readKey_bare (hfirst : first < pos) (hpos : pos ≤ w.stop)
    (hbare : ∀ c ∈ w.slice first pos, c.isBare = true)
    (hat : ∀ c ∈ w.at? pos, c.isBare = false) :
    readKey (w.rest first) = .ok (w.slice first pos, w.rest pos) := by
  have hlength := length_slice (Nat.le_of_lt hfirst) hpos
  have hne : w.slice first pos ≠ [] := by
    rw [← List.length_pos_iff]
    omega
  rw [← head?_rest] at hat
  rw [← slice_append_rest (Nat.le_of_lt hfirst) hpos]
  exact readKey_text (.bare (w.slice first pos) hne hbare) hat

theorem readKey_quote (hopen : w.at? first = some (.char '"')) :
    readKey (w.rest first) =
      match readQuoted? (w.rest (first + 1)) with
      | some found => .ok found
      | none => .error (.fault .unterminatedQuote (w.rest first)) := by
  rw [rest_eq_cons hopen]
  rfl

/-- A quoted key is read at its closing quote. -/
theorem readKey_quoted {name : Text} (hreads : (Phase.quoted first name).Reads w pos)
    (hat : w.at? pos = some (.char '"')) :
    readKey (w.rest first) = .ok (name, w.rest (pos + 1)) := by
  obtain ⟨hopen, hname⟩ := hreads
  rw [readKey_quote hopen, hname, rest_eq_cons hat, readQuoted?]
  simp

end Window

namespace Move

variable {w : Window} {p q : Point}

theorem steps_concat (pos : Nat) (phase : Phase) (parts : List Part) (part : Part) :
    (⟨pos, phase, parts ++ [part]⟩ : Point).steps = parts.map Part.step ++ [part.step] := by
  simp [Point.steps]

/-- A move changes nothing about what the readers make of the window. -/
theorem resume_eq (h : Move w p q) (hp : p.Within w) (hreads : p.phase.Reads w p.pos) :
    w.resume q = w.resume p := by
  cases h with
  | openQuote | beginBare | prolongBare | backslash | plain | escaped | unescaped => rfl
  | @noKey pos parts hat =>
      rw [← Window.head?_rest] at hat ⊢
      exact (map_readSteps_of_readKey_eq_error (readKey_eq_error hat) _).symm
  | endBare hat =>
      have hkey := Window.readKey_bare hp.phase.2 hp.le_stop hreads hat
      simp only [Window.resume, steps_concat]
      exact (map_readSteps_of_readKey hkey _).symm
  | closeQuote hat =>
      have hkey := Window.readKey_quoted hreads hat
      simp only [Window.resume, steps_concat]
      exact (map_readSteps_of_readKey hkey _).symm
  | openEnd hat =>
      obtain ⟨hopen, hname⟩ := hreads
      rw [Window.rest_eq_nil hat] at hname
      refine (map_readSteps_of_readKey_eq_error ?_ _).symm
      rw [Window.readKey_quote hopen, hname]
      rfl
  | finish hat =>
      simp only [Window.resume, Window.rest_eq_nil hat]
      rw [readBehind_of_head?_ne (by simp)]
      rfl
  | @index pos _ close form hat hclose htoken hshort =>
      have hindex := (readIndex_body form (w.rest (close + 1))).trans (if_pos hshort)
      simp only [Window.resume, steps_concat, Window.rest_at_index hat hclose htoken]
      exact (readBehind_of_readIndex hindex _).symm
  | @longIndex pos _ close form hat hclose htoken hlong =>
      have hindex := (readIndex_body form (w.rest (close + 1))).trans (if_neg hlong)
      simp only [Window.resume, Window.rest_at_index hat hclose htoken]
      exact (readBehind_of_readIndex_eq_error hindex _).symm
  | openBracket hat hclose =>
      have hindex := readIndex_of_not_mem (Window.not_mem_rest_of_find? hclose)
      simp only [Window.resume, Window.rest_eq_cons hat]
      exact (readBehind_of_readIndex_eq_error hindex _).symm
  | badToken hat hclose htoken =>
      obtain ⟨-, -, hrest, hnot⟩ := Window.rest_of_find? hclose
      obtain ⟨unread, htext, hindex⟩ := readIndex_badToken hnot htoken
      have hunread := Window.rest_add (hrest.trans htext)
      simp only [Window.resume, Window.rest_at_bracket hat hclose, hunread]
      exact (readBehind_of_readIndex_eq_error hindex _).symm
  | dot hat =>
      simp only [Window.resume, Window.rest_eq_cons hat]
      exact (readBehind_of_head?_ne (by simp) _).symm
  | stray hat hbracket hdot =>
      simp only [Window.resume, Window.rest_eq_cons hat]
      rw [readBehind_of_head?_ne (by simpa using hbracket), readFurther, if_pos hdot]
  | @lastDot pos _ hat =>
      -- The reader has kept the dot, where it puts the fault; it is one position back.
      have hpos : 1 ≤ pos := Nat.lt_of_le_of_lt (Nat.zero_le w.start) hp.phase
      have hdot : w.rest (pos - 1) = [.char '.'] := by
        rw [Window.rest_eq_cons hreads, Nat.sub_add_cancel hpos, Window.rest_eq_nil hat]
      simp only [Window.resume, hdot, Window.rest_eq_nil hat]
      rfl
  | @due pos _ c hat =>
      have hne : w.rest pos ≠ [] := by
        rw [Window.rest_eq_cons hat]
        exact List.cons_ne_nil _ _
      exact (readFurther_dot hne _).symm

end Move

/-- What holds where a scanner begins and is kept by every move from a point where the phase is
right about what has been read holds at all points of a run. -/
theorem Window.reads_induction {w : Window} {P : Point → Prop} (horigin : P w.origin)
    (hmove : ∀ {p q : Point}, p.Within w → p.phase.Reads w p.pos → Move w p q → P p → P q)
    (moves : Nat) : P (w.after moves) := by
  have hkept : (w.after moves).phase.Reads w (w.after moves).pos ∧ P (w.after moves) := by
    refine after_induction (P := fun p => p.phase.Reads w p.pos ∧ P p) ⟨trivial, horigin⟩ ?_ moves
    rintro p q hwithin h ⟨hreads, hp⟩
    exact ⟨h.reads hwithin hreads, hmove hwithin hreads h hp⟩
  exact hkept.2

/-- What the readers make of the window is the same at all points of a run. -/
theorem Window.resume_after (w : Window) (moves : Nat) :
    w.resume (w.after moves) = readSteps (w.rest w.start) := by
  refine reads_induction (P := fun p => w.resume p = readSteps (w.rest w.start)) ?_
    (fun hwithin hreads h hp => (h.resume_eq hwithin hreads).trans hp) moves
  change (readSteps (w.rest w.start)).map ([] ++ ·) = _
  cases readSteps (w.rest w.start) <;> rfl

/-! ## Sources -/

/-- A text is one of those that are written for a step. -/
inductive WrittenAs : Step → Text → Prop
  | field (form : KeyForm) : WrittenAs (.field form.name) form.text
  | index (form : PositionForm) : WrittenAs (.index form.position) form.text

/-- The source of a part is a slice of the window that is not empty and written for its step. -/
structure Part.IsSource (w : Window) (part : Part) : Prop where
  start_le : w.start ≤ part.first
  first_lt : part.first < part.last
  le_stop : part.last ≤ w.stop
  written : WrittenAs part.step (w.slice part.first part.last)

/-- The source of the second part follows that of the first: a key behind a dot, a position at
once. -/
def Part.Follows (w : Window) (a b : Part) : Prop :=
  match b.step with
  | .field _ => w.at? a.last = some (.char '.') ∧ b.first = a.last + 1
  | .index _ => b.first = a.last

section

variable {w : Window}

theorem written_of_readKey {name : Text} {first last : Nat} (hfirst : first ≤ last)
    (hlast : last ≤ w.stop) (h : readKey (w.rest first) = .ok (name, w.rest last)) :
    WrittenAs (.field name) (w.slice first last) := by
  obtain ⟨form, htext, rfl, -⟩ := exists_form_of_readKey h
  rw [Window.slice_eq hfirst hlast htext]
  exact .field form

theorem isSource_concat {parts : List Part} {part : Part} (hparts : ∀ a ∈ parts, a.IsSource w)
    (hpart : part.IsSource w) : ∀ a ∈ parts ++ [part], a.IsSource w :=
  List.forall_mem_append.mpr ⟨hparts, List.forall_mem_singleton.mpr hpart⟩

theorem Move.isSource {p q : Point} (h : Move w p q) (hp : p.Within w)
    (hreads : p.phase.Reads w p.pos) (hparts : ∀ part ∈ p.parts, part.IsSource w) :
    ∀ part ∈ q.parts, part.IsSource w := by
  cases h with
  | endBare hat =>
      have hkey := Window.readKey_bare hp.phase.2 hp.le_stop hreads hat
      exact isSource_concat hparts ⟨hp.phase.1, hp.phase.2, hp.le_stop,
        written_of_readKey (Nat.le_of_lt hp.phase.2) hp.le_stop hkey⟩
  | closeQuote hat =>
      have hkey := Window.readKey_quoted hreads hat
      have hlast := Window.lt_stop_of_at? hat
      have hfirst := Nat.lt_succ_of_lt hp.phase.2
      exact isSource_concat hparts ⟨hp.phase.1, hfirst, hlast,
        written_of_readKey (Nat.le_of_lt hfirst) hlast hkey⟩
  | @index pos _ close form hat hclose htoken =>
      obtain ⟨hlt, hlast, -⟩ := bounds_of_find? hclose
      have hfirst : pos < close + 1 := Nat.lt_succ_of_lt hlt
      have hslice : w.slice pos (close + 1) = form.text :=
        Window.slice_eq (Nat.le_of_lt hfirst) hlast (Window.rest_at_index hat hclose htoken)
      exact isSource_concat hparts ⟨hp.start_le, hfirst, hlast, hslice ▸ .index form⟩
  | _ => exact hparts

end

/-! ## Seams -/

/-- A key may begin at a position: where the window begins, or behind a dot that follows what has
been read. -/
def Window.KeyFollows (w : Window) (parts : List Part) (first : Nat) : Prop :=
  match parts.getLast? with
  | none => first = w.start
  | some part => w.at? part.last = some (.char '.') ∧ first = part.last + 1

/-- How what is about to be read joins what has been read. -/
def Phase.Joins (w : Window) (parts : List Part) (pos : Nat) : Phase → Prop
  | .key | .dot => w.KeyFollows parts pos
  | .bare first | .quoted first _ | .escape first _ => w.KeyFollows parts first
  | .behind => parts.getLast?.map Part.last = some pos
  | .read => parts.getLast?.map Part.last = some w.stop ∧ pos = w.stop
  | .fault _ _ | .limit _ => True

/-- The sources of what has been read follow each other from the beginning of the window. -/
structure Point.Arranged (w : Window) (p : Point) : Prop where
  begins : ∀ part ∈ p.parts.head?, part.first = w.start
  seams : p.parts.IsChain (Part.Follows w)
  joins : p.phase.Joins w p.parts p.pos

section

variable {w : Window} {parts : List Part}

theorem isChain_concat {part : Part} (hseams : parts.IsChain (Part.Follows w))
    (hpart : ∀ a ∈ parts.getLast?, a.Follows w part) :
    (parts ++ [part]).IsChain (Part.Follows w) := by
  refine hseams.append (.singleton part) fun a ha b hb => ?_
  rw [← Option.some.inj hb]
  exact hpart a ha

theorem arranged_field {first : Nat} (hbegins : ∀ part ∈ parts.head?, part.first = w.start)
    (hseams : parts.IsChain (Part.Follows w)) (hkey : w.KeyFollows parts first) (name : Text)
    (last : Nat) : Point.Arranged w ⟨last, .behind, parts ++ [⟨.field name, first, last⟩]⟩ := by
  refine ⟨?_, isChain_concat hseams fun a ha => ?_, ?_⟩
  · cases parts with
    | nil => exact fun part hpart => Option.some.inj hpart ▸ hkey
    | cons part rest => exact hbegins
  · unfold Window.KeyFollows at hkey
    rw [Option.mem_def.mp ha] at hkey
    exact hkey
  · simp [Phase.Joins]

theorem arranged_index {pos : Nat} (hbegins : ∀ part ∈ parts.head?, part.first = w.start)
    (hseams : parts.IsChain (Part.Follows w)) (hpos : parts.getLast?.map Part.last = some pos)
    (i : Int) (last : Nat) :
    Point.Arranged w ⟨last, .behind, parts ++ [⟨.index i, pos, last⟩]⟩ := by
  refine ⟨?_, isChain_concat hseams fun a ha => ?_, ?_⟩
  · cases parts with
    | nil => cases hpos
    | cons part rest => exact hbegins
  · rw [Option.mem_def.mp ha] at hpos
    exact (Option.some.inj hpos).symm
  · simp [Phase.Joins]

theorem Move.arranged {p q : Point} (h : Move w p q) (hp : p.Within w) (harranged : p.Arranged w) :
    q.Arranged w := by
  obtain ⟨hbegins, hseams, hjoins⟩ := harranged
  cases h with
  | openQuote | beginBare | prolongBare | backslash | plain | escaped | unescaped | due =>
      exact ⟨hbegins, hseams, hjoins⟩
  | endBare | closeQuote => exact arranged_field hbegins hseams hjoins _ _
  | index => exact arranged_index hbegins hseams hjoins _ _
  | @finish pos _ hat =>
      have hlength := w.length_rest pos
      rw [Window.rest_eq_nil hat] at hlength
      have hstop : pos = w.stop := by
        have := hp.le_stop
        simp only [List.length_nil] at hlength this
        omega
      exact ⟨hbegins, hseams, hstop ▸ hjoins, hstop⟩
  | @dot pos parts hat =>
      refine ⟨hbegins, hseams, ?_⟩
      obtain ⟨part, hpart, hlast⟩ := Option.map_eq_some_iff.mp hjoins
      simp only [Phase.Joins, Window.KeyFollows, hpart, hlast]
      exact ⟨hat, trivial⟩
  | noKey | openEnd | longIndex | openBracket | badToken | stray | lastDot =>
      exact ⟨hbegins, hseams, trivial⟩

end

/-! ## Covering the window -/

/-- The sources of some parts make up the window, except for single dots before keys. -/
structure Window.Covers (w : Window) (parts : List Part) : Prop where
  sources : ∀ part ∈ parts, part.IsSource w
  begins : parts.head?.map Part.first = some w.start
  ends : parts.getLast?.map Part.last = some w.stop
  seams : parts.IsChain (Part.Follows w)
  disjoint : parts.Pairwise fun a b => a.last ≤ b.first

theorem Part.Follows.le {w : Window} {a b : Part} (h : a.Follows w b) : a.last ≤ b.first := by
  unfold Part.Follows at h
  split at h
  · omega
  · omega

/-- Sources that follow each other are disjoint. -/
theorem pairwise_of_isChain {w : Window} {parts : List Part}
    (hsources : ∀ part ∈ parts, part.IsSource w) (hseams : parts.IsChain (Part.Follows w)) :
    parts.Pairwise fun a b => a.last ≤ b.first := by
  induction parts with
  | nil => exact .nil
  | cons a rest ih =>
      obtain ⟨hnext, hrest⟩ := List.isChain_cons.mp hseams
      obtain ⟨ha, hsources⟩ := List.forall_mem_cons.mp hsources
      have hpairs := ih hsources hrest
      refine List.pairwise_cons.mpr ⟨fun b hb => ?_, hpairs⟩
      cases rest with
      | nil => cases hb
      | cons next rest =>
          have hle := (hnext next rfl).le
          rcases List.mem_cons.mp hb with rfl | hlater
          · exact hle
          · -- The source in between is not empty, so that what follows it is behind the first too.
            have hlt := (hsources next List.mem_cons_self).first_lt
            have := List.rel_of_pairwise_cons hpairs hlater
            omega

/-- Disjoint slices that are not empty are no more than the positions that there are. -/
theorem length_le_of_pairwise {parts : List Part} {least greatest : Nat}
    (hbounds : ∀ part ∈ parts, least ≤ part.first ∧ part.first < part.last ∧ part.last ≤ greatest)
    (hpairs : parts.Pairwise fun a b => a.last ≤ b.first) (hle : least ≤ greatest) :
    least + parts.length ≤ greatest := by
  -- The bound below goes on to the end of each slice.
  induction parts generalizing least with
  | nil => exact hle
  | cons a rest ih =>
      obtain ⟨⟨hfirst, hlt, hlast⟩, hrest⟩ := List.forall_mem_cons.mp hbounds
      obtain ⟨hnext, hpairs⟩ := List.pairwise_cons.mp hpairs
      have := ih (fun b hb => ⟨hnext b hb, (hrest b hb).2⟩) hpairs hlast
      rw [List.length_cons]
      omega

namespace Window

variable {w : Window}

theorem isSource_after (w : Window) (moves : Nat) :
    ∀ part ∈ (w.after moves).parts, part.IsSource w :=
  reads_induction (P := fun p => ∀ part ∈ p.parts, part.IsSource w)
    (fun _ hpart => absurd hpart List.not_mem_nil)
    (fun hwithin hreads h hp => h.isSource hwithin hreads hp) moves

theorem arranged_after (w : Window) (moves : Nat) : (w.after moves).Arranged w :=
  after_induction ⟨fun _ hpart => (by cases hpart), .nil, rfl⟩
    (fun hwithin h hp => h.arranged hwithin hp) moves

/-- Where all has been read, the sources of what has been read make up the window. -/
theorem covers_after {moves : Nat} (h : (w.after moves).phase = .read) :
    w.Covers (w.after moves).parts := by
  have hsources := isSource_after w moves
  obtain ⟨hbegins, hseams, hjoins⟩ := arranged_after w moves
  rw [h] at hjoins
  refine ⟨hsources, ?_, hjoins.1, hseams, pairwise_of_isChain hsources hseams⟩
  cases hparts : (w.after moves).parts with
  | nil =>
      rw [hparts] at hjoins
      cases hjoins.1
  | cons part rest =>
      rw [hparts] at hbegins
      exact congrArg some (hbegins part rfl)

theorem Covers.length_le {parts : List Part} (h : w.Covers parts) :
    parts.length ≤ w.stop - w.start := by
  have hlength := length_le_of_pairwise
    (fun part hpart => ⟨(h.sources part hpart).start_le, (h.sources part hpart).first_lt,
      (h.sources part hpart).le_stop⟩) h.disjoint (Nat.le_of_lt w.hstart)
  omega

end Window

/-! ## The body of a text -/

/-- The position at which the blanks before the body of a text end. -/
def bodyStart (t : Text) : Nat :=
  t.length - t.trimStart.length

/-- The position at which the blanks behind the body of a text begin. -/
def bodyStop (t : Text) : Nat :=
  t.trimEnd.length

/-- The body of a text that is not blank, as a window of the text. -/
def Window.ofBody (t : Text) (h : bodyStart t < bodyStop t) : Window where
  text := t
  start := bodyStart t
  stop := bodyStop t
  hstart := h
  hstop := (Text.dropEndWhile_isPrefix CodePoint.isBlank t).length_le

/-- What is in the window of the body is not blank, and is what is left of the text by trimming. -/
theorem Window.rest_ofBody {t : Text} (h : bodyStart t < bodyStop t) :
    t.trim ≠ [] ∧ (ofBody t h).rest (bodyStart t) = t.trim := by
  obtain ⟨before, after, hwhole, hbefore, hafter, hlength⟩ := Text.exists_trim_append t
  have hend : t.trimEnd = Text.dropEndWhile CodePoint.isBlank (before ++ t.trim) := by
    rw [Text.trimEnd]
    conv_lhs => rw [← hwhole]
    exact Text.dropEndWhile_append_run hafter _
  have hne : t.trim ≠ [] := by
    intro hnil
    have hblank := Text.dropEndWhile_append_run (p := CodePoint.isBlank) hbefore []
    rw [hnil, List.append_nil] at hend
    rw [List.nil_append, ← hend] at hblank
    rw [bodyStop, hblank] at h
    exact absurd h (Nat.not_lt_zero _)
  have hlast : ∀ c ∈ (before ++ t.trim).getLast?, c.isBlank = false := by
    rw [List.getLast?_append_of_ne_nil _ hne]
    exact Text.getLast?_dropEndWhile CodePoint.isBlank t.trimStart
  rw [Text.dropEndWhile_eq_self hlast] at hend
  have htake : before ++ t.trim = t.take (before ++ t.trim).length :=
    List.prefix_iff_eq_take.mp ⟨after, hwhole⟩
  refine ⟨hne, ?_⟩
  change (t.take t.trimEnd.length).drop (t.length - t.trimStart.length) = _
  rw [hend, ← hlength, ← htake, List.drop_left]

/-- What is made of a text when a scanner of its body has come to an end. -/
def Point.outcome? (t : Text) (p : Point) : Option (Except ParseError Pattern) :=
  match p.phase with
  | .read => some (.ok ⟨p.steps⟩)
  | .fault fault place => some (.error (.malformed ⟨fault, place, t⟩))
  | .limit e => some (.error (.limit e))
  | _ => none

/-- Where the outcome is a pattern, all has been read, and its steps are those that were found. -/
theorem phase_of_outcome? {t : Text} {point : Point} {p : Pattern}
    (h : point.outcome? t = some (.ok p)) : point.phase = .read ∧ point.steps = p.steps := by
  unfold Point.outcome? at h
  split at h
  · rename_i hphase
    cases h
    exact ⟨hphase, rfl⟩
  all_goals cases h

/-- A scanner of the body of a text comes to the end that reading the text has. -/
theorem outcome?_after {t : Text} (h : bodyStart t < bodyStop t) :
    ((Window.ofBody t h).after (Window.ofBody t h).bound).outcome? t = some (parse t) := by
  obtain ⟨hne, hbody⟩ := Window.rest_ofBody h
  let w := Window.ofBody t h
  have hend := w.isEnd_after
  have hwithin := (w.within_after w.bound).phase
  have hread : w.resume (w.after w.bound) = readSteps t.trim := by
    rw [Window.resume_after, ← hbody]
    rfl
  change (w.after w.bound).outcome? t = some (parse t)
  rw [parse_eq hne, ← hread]
  unfold Point.outcome? Window.resume
  cases hphase : (w.after w.bound).phase with
  | read => rfl
  | limit e => rfl
  | fault fault place =>
      rw [hphase] at hwithin
      obtain ⟨hstart, hstop⟩ := hwithin
      have hplace : t.length - t.trimStart.length + (t.trim.length - (w.rest place).length) =
          place := by
        rw [← hbody, Window.length_rest, Window.length_rest]
        change w.start + (w.stop - w.start - (w.stop - place)) = place
        omega
      dsimp only
      rw [hplace]
  | _ =>
      rw [hphase] at hend
      cases hend

/-- **A scanner advances in every loop and never leaves its window.**  Let the body of a text not be
empty.  At every point of a run over it the position lies within the bounds of the body.  The
position never goes back.  A point at which a key is due is left behind by every later point of the
run, be it the one where this key has been read or one where a further key is due; and each position
in brackets takes at least three code points.  Texts that agree within these bounds go through the
same points, so nothing outside is ever looked at.  After two moves for each code point and one more
a run is at its end, and its outcome is that of reading the text.

If the text denotes a pattern, each step of it has a source, which is a slice of the body that is
not empty and written for this step.  The sources are disjoint, in the order of the steps, and make
up the body, except for a single dot before every key but the first.  So there are at most as many
steps as code points. -/
theorem scanner_advances_within_body {t : Text} (h : bodyStart t < bodyStop t) :
    let w := Window.ofBody t h
    (∀ n, w.start ≤ (w.after n).pos ∧ (w.after n).pos ≤ w.stop) ∧
      (∀ m n, m ≤ n → (w.after m).pos ≤ (w.after n).pos) ∧
      (∀ m n, m < n → (w.after m).phase = .key → (w.after n).phase.isEnd = false →
        (w.after m).pos + 1 ≤ (w.after n).pos) ∧
      (∀ n, (w.after n).phase = .behind → (w.after (n + 1)).phase = .behind →
        (w.after n).pos + 3 ≤ (w.after (n + 1)).pos) ∧
      (∀ v : Window, v.Agrees w → ∀ n, v.after n = w.after n) ∧
      (w.after (2 * (w.stop - w.start) + 1)).outcome? t = some (parse t) ∧
      ∀ p, parse t = .ok p →
        p.steps.length ≤ w.stop - w.start ∧
          ∃ parts, w.after (2 * (w.stop - w.start) + 1) = ⟨w.stop, .read, parts⟩ ∧
            parts.map Part.step = p.steps ∧ w.Covers parts := by
  intro w
  have houtcome : (w.after w.bound).outcome? t = some (parse t) := outcome?_after h
  refine ⟨fun n => ?_, fun m n => w.pos_le_after, fun m n => Window.pos_lt_after_of_key,
    fun n hbehind hnext => ?_, fun v hagrees => hagrees.after_eq, houtcome, fun p hp => ?_⟩
  · have hwithin := w.within_after n
    exact ⟨hwithin.start_le, hwithin.le_stop⟩
  · have hmove : Move w (w.after n) (w.after (n + 1)) := Window.move_after (by rw [hbehind]; rfl)
    exact hmove.pos_add_three_le hbehind hnext
  · rw [hp] at houtcome
    obtain ⟨hphase, hsteps⟩ := phase_of_outcome? houtcome
    have hcovers := Window.covers_after hphase
    have hpos : (w.after w.bound).pos = w.stop := by
      have hjoins := (w.arranged_after w.bound).joins
      rw [hphase] at hjoins
      exact hjoins.2
    refine ⟨?_, (w.after w.bound).parts, ?_, hsteps, hcovers⟩
    · rw [← hsteps, Point.steps, List.length_map]
      exact hcovers.length_le
    · exact congr (congrArg₂ Point.mk hpos hphase) rfl

/-- Brackets in a quoted key, with an escaped quote between them, and a key behind a position. -/
theorem scanner_advances_within_body_brackets :
    let t : Text := Text.ofString " \"]\\\"[\"[-12].b\t"
    let parts : List Part :=
      [⟨.field (Text.ofString "]\"["), 1, 7⟩, ⟨.index (-12), 7, 12⟩, ⟨.field [.char 'b'], 13, 14⟩]
    ∃ h : bodyStart t < bodyStop t,
      let w := Window.ofBody t h
      w.start = 1 ∧ w.stop = 14 ∧
        (∀ n, w.start ≤ (w.after n).pos ∧ (w.after n).pos ≤ w.stop) ∧
        (∀ v : Window, v.Agrees w → ∀ n, v.after n = w.after n) ∧
        parse t = .ok ⟨parts.map Part.step⟩ ∧ w.after 27 = ⟨14, .read, parts⟩ ∧
        w.Covers parts := by
  intro t parts
  have hbody : bodyStart t < bodyStop t := by decide
  have hparse : parse t = .ok ⟨parts.map Part.step⟩ := by decide +kernel
  have hafter : (Window.ofBody t (by decide)).after 27 = ⟨14, .read, parts⟩ := by decide +kernel
  obtain ⟨hwithin, -, -, -, hagrees, -, haccepts⟩ := scanner_advances_within_body hbody
  obtain ⟨-, found, hfound, -, hcovers⟩ := haccepts _ hparse
  have hsame : found = parts := (congrArg Point.parts (hafter.symm.trans hfound)).symm
  exact ⟨hbody, rfl, rfl, hwithin, hagrees, hparse, hafter, hsame ▸ hcovers⟩

end Pattern

end DocumentQuery
