import DocumentQuery.Console.Markup
import DocumentQuery.Proofs.Steady

/-!
# What becomes of an escaped text

A text that is to appear as it is gets a backslash before each of its tags, and the console drops
these backslashes again.  The two would cancel out if the console did nothing else; but in every
stretch of ordinary text it also drops a backslash before any other bracket and replaces names of
emoji, and a single backslash at the end has been doubled by then.

* `Scans` is the grammar of tokens, without the counting of the scanner.
* `tokens_escape` — the tokens of an escaped text are those of the text, each tag with the
  backslashes that make it ordinary text, and perhaps one more backslash at the end.
* `Fades` — what the console does to a text costs it colons or backslashes, so that no change makes
  up for another one.
* `shownPlain_eq_iff` — a stretch is shown as it is exactly if no bracket in it follows a backslash
  and no two of its colons enclose the name of an emoji.
* `plain_escape_eq_iff` — an escaped text is shown as it is exactly if it is inert.

All of this holds for any dictionary of emoji.
-/

namespace DocumentQuery

namespace Markup

/-! ## Colons and backslashes -/

/-- How many colons and backslashes there are in a text. -/
def signs (t : Text) : Nat :=
  t.countP fun c => c = .char ':' || c = .char '\\'

section

variable {a b c d s t : Text}

theorem signs_append (s t : Text) : signs (s ++ t) = signs s + signs t :=
  List.countP_append

theorem signs_eq_zero (h : ∀ c ∈ t, isPictured c = true) : signs t = 0 := by
  rw [signs, List.countP_eq_zero]
  intro c hc
  have hpictured := h c hc
  simp only [isPictured, Bool.and_eq_true, decide_eq_true_eq] at hpictured
  simp [hpictured.1]

/-- What is shown for a text is the text itself, or fewer colons and backslashes are left. -/
def Fades (shown t : Text) : Prop :=
  shown = t ∨ signs shown < signs t

namespace Fades

theorem refl (t : Text) : Fades t t :=
  Or.inl rfl

theorem signs_le (h : Fades s t) : signs s ≤ signs t := by
  rcases h with rfl | hlt
  · exact Nat.le_refl _
  · exact Nat.le_of_lt hlt

theorem append (hfirst : Fades a c) (hsecond : Fades b d) : Fades (a ++ b) (c ++ d) := by
  have hle := hsecond.signs_le
  rcases hfirst with rfl | hlt
  · rcases hsecond with rfl | hlt
    · exact refl _
    · exact Or.inr (by rw [signs_append, signs_append]; omega)
  · exact Or.inr (by rw [signs_append, signs_append]; omega)

/-- Two texts that have not lost anything together have not lost anything one by one. -/
theorem append_eq_iff (hfirst : Fades a c) (hsecond : Fades b d) :
    a ++ b = c ++ d ↔ a = c ∧ b = d := by
  constructor
  · intro h
    rcases hfirst with rfl | hlt
    · exact ⟨rfl, List.append_cancel_left h⟩
    · have hsigns := congrArg signs h
      have hle := hsecond.signs_le
      rw [signs_append, signs_append] at hsigns
      omega
  · rintro ⟨rfl, rfl⟩
    rfl

end Fades

end

/-! ## Tags -/

/-- The code point is no square bracket, as those within a tag. -/
def isInside (c : CodePoint) : Bool :=
  c ≠ .char '[' && c ≠ .char ']'

/-- What may stand in the brackets of a tag. -/
structure IsBody (body : Text) : Prop where
  opens : body.head?.any opensTag = true
  inside : ∀ c ∈ body, isInside c = true

/-- The next bracket of a text is a closing one. -/
def closes : Text → Bool
  | [] => false
  | c :: rest => if isInside c then closes rest else c = .char ']'

theorem closes_run_append {run : Text} (h : ∀ c ∈ run, isInside c = true) (t : Text) :
    closes (run ++ t) = closes t := by
  induction run with
  | nil => rfl
  | cons c run ih =>
      obtain ⟨hc, hrun⟩ := List.forall_mem_cons.mp h
      rw [List.cons_append, closes, if_pos hc, ih hrun]

theorem closes_concat_backslash (t : Text) : closes (t ++ [.char '\\']) = closes t := by
  induction t with
  | nil => decide
  | cons c rest ih => rw [List.cons_append, closes, closes, ih]

theorem closes_eq (t : Text) :
    closes t = decide ((t.dropWhile isInside).head? = some (.char ']')) := by
  induction t with
  | nil => rfl
  | cons c rest ih =>
      rw [closes]
      by_cases h : isInside c = true
      · simp [h, ih]
      · simp [h]

theorem drop_length_takeWhile (p : CodePoint → Bool) (t : Text) :
    t.drop (t.takeWhile p).length = t.dropWhile p := by
  induction t with
  | nil => rfl
  | cons c t ih => by_cases h : p c = true <;> simp [h, ih]

theorem isInside_of_opensTag {c : CodePoint} (h : opensTag c = true) : isInside c = true := by
  by_contra hnot
  simp only [isInside, Bool.and_eq_true, decide_eq_true_eq, not_and_or, not_not] at hnot
  rcases hnot with rfl | rfl
  · exact absurd h (by decide)
  · exact absurd h (by decide)

/-- A tag begins with a code point that opens one, and the next bracket closes it. -/
theorem tagBody?_eq (t : Text) :
    tagBody? t =
      if t.head?.any opensTag && closes t then some (t.takeWhile isInside) else none := by
  have hhead : (t.takeWhile isInside).head?.any opensTag = t.head?.any opensTag := by
    cases t with
    | nil => rfl
    | cons c rest =>
        by_cases hopens : opensTag c = true
        · simp [isInside_of_opensTag hopens]
        · by_cases hinside : isInside c = true
          · simp [hinside]
          · simp [hinside, hopens]
  rw [closes_eq, ← hhead, ← drop_length_takeWhile]
  rfl

theorem tagBody?_isSome (t : Text) :
    (tagBody? t).isSome = (t.head?.any opensTag && closes t) := by
  rw [tagBody?_eq]
  split <;> simp_all

/-- What follows the opening bracket of a tag. -/
theorem exists_of_tagBody? {t body : Text} (h : tagBody? t = some body) :
    IsBody body ∧ ∃ after, t = body ++ .char ']' :: after := by
  rw [tagBody?_eq] at h
  split at h
  · rename_i hboth
    obtain ⟨hopens, hcloses⟩ := Bool.and_eq_true_iff.mp hboth
    cases h
    refine ⟨⟨?_, fun c hc => List.mem_takeWhile_imp hc⟩, ?_⟩
    · cases t with
      | nil => cases hopens
      | cons c rest =>
          have hinside := isInside_of_opensTag (show opensTag c = true from hopens)
          simpa [hinside] using hopens
    · rw [closes_eq, decide_eq_true_eq] at hcloses
      obtain ⟨after, hafter⟩ := List.head?_eq_some_iff.mp hcloses
      exact ⟨after, by rw [← hafter, List.takeWhile_append_dropWhile]⟩
  · cases h

theorem tagBody?_append {body : Text} (h : IsBody body) (after : Text) :
    tagBody? (body ++ .char ']' :: after) = some body := by
  have hend : ∀ c ∈ (CodePoint.char ']' :: after).head?, isInside c = false := by
    rintro _ ⟨⟩
    decide
  have hopens : (body ++ .char ']' :: after).head?.any opensTag = true := by
    cases body with
    | nil => cases h.opens
    | cons c rest => exact h.opens
  have hcloses : closes (body ++ .char ']' :: after) = true := by
    rw [closes_run_append h.inside]
    rfl
  rw [tagBody?_eq, hopens, hcloses, Text.takeWhile_run_append h.inside hend]
  rfl

/-! ## Tokens -/

/-- The grammar of tokens, for a text before which a number of backslashes stands.  Backslashes
belong to the tag behind them; a bracket that begins no tag is ordinary text. -/
inductive Scans : Nat → Text → List Token → Prop
  | nil (backslashes : Nat) : Scans backslashes [] (List.replicate backslashes (.plain '\\'))
  | backslash {backslashes : Nat} {rest : Text} {found : List Token}
      (h : Scans (backslashes + 1) rest found) : Scans backslashes (.char '\\' :: rest) found
  | tag {backslashes : Nat} {body rest : Text} {found : List Token} (hbody : IsBody body)
      (h : Scans 0 rest found) :
      Scans backslashes (.char '[' :: body ++ .char ']' :: rest) (.tag backslashes body :: found)
  | plain {backslashes : Nat} {c : CodePoint} {rest : Text} {found : List Token}
      (hne : c ≠ .char '\\') (hnone : c = .char '[' → (tagBody? rest).isSome = false)
      (h : Scans 0 rest found) :
      Scans backslashes (c :: rest)
        (List.replicate backslashes (.plain '\\') ++ .plain c :: found)

theorem tokensFrom_skip (skip : Nat) (t : Text) : tokensFrom skip 0 t = tokens (t.drop skip) := by
  induction t generalizing skip with
  | nil => rw [List.drop_nil, tokens, tokensFrom, tokensFrom]
  | cons c rest ih =>
      cases skip with
      | zero => rfl
      | succ skip =>
          rw [List.drop_succ_cons, ← ih, tokensFrom]

theorem scans_tokensFrom (backslashes : Nat) (t : Text) :
    Scans backslashes t (tokensFrom 0 backslashes t) := by
  induction hlength : t.length using Nat.strongRecOn generalizing backslashes t with
  | ind length ih =>
      cases t with
      | nil => exact .nil backslashes
      | cons c rest =>
          rw [List.length_cons] at hlength
          rw [tokensFrom]
          by_cases hne : c = .char '\\'
          · subst hne
            rw [if_pos rfl]
            exact .backslash (ih rest.length (by omega) _ rest rfl)
          rw [if_neg hne]
          split
          · rename_i body hfound
            have hopen : c = .char '[' := by
              by_contra hopen
              rw [if_neg hopen] at hfound
              cases hfound
            subst hopen
            rw [if_pos rfl] at hfound
            obtain ⟨hbody, after, rfl⟩ := exists_of_tagBody? hfound
            have hdrop : (body ++ .char ']' :: after).drop (body.length + 1) = after := by simp
            rw [tokensFrom_skip, hdrop]
            rw [List.length_append, List.length_cons] at hlength
            exact .tag hbody (ih after.length (by omega) 0 after rfl)
          · rename_i hnone
            refine .plain hne (fun hopen => ?_) (ih rest.length (by omega) 0 rest rfl)
            rw [if_pos hopen] at hnone
            rw [hnone]
            rfl

theorem scans_tokens (t : Text) : Scans 0 t (tokens t) :=
  scans_tokensFrom 0 t

theorem Scans.eq_tokensFrom {backslashes : Nat} {t : Text} {found : List Token}
    (h : Scans backslashes t found) : found = tokensFrom 0 backslashes t := by
  induction h with
  | nil _ => rw [tokensFrom]
  | backslash _ ih => rw [tokensFrom, if_pos rfl, ih]
  | @tag backslashes body rest found hbody _ ih =>
      have hdrop : (body ++ .char ']' :: rest).drop (body.length + 1) = rest := by simp
      rw [List.cons_append, tokensFrom, if_neg (by decide), if_pos rfl, tagBody?_append hbody]
      dsimp only
      rw [tokensFrom_skip, hdrop, ih, tokens]
  | @plain backslashes c rest found hne hnone _ ih =>
      rw [tokensFrom, if_neg hne]
      split
      · rename_i body hbody
        by_cases hopen : c = .char '['
        · rw [if_pos hopen] at hbody
          rw [hbody] at hnone
          cases hnone hopen
        · rw [if_neg hopen] at hbody
          cases hbody
      · rw [ih]

/-! ## Escaping -/

/-- A tag with the backslashes that make it ordinary text. -/
def Token.guarded : Token → Token
  | .plain c => .plain c
  | .tag backslashes body => .tag (2 * backslashes + 1) body

/-- The text of a token. -/
def Token.text : Token → Text
  | .plain c => [c]
  | .tag backslashes body => Text.repeated backslashes '\\' ++ bracketed body

theorem flatMap_replicate_plain {f : Token → Text} (hf : ∀ c, f (.plain c) = [c]) (n : Nat)
    (c : CodePoint) : (List.replicate n (.plain c)).flatMap f = Text.repeated n c := by
  induction n with
  | zero => rfl
  | succ n ih => rw [List.replicate_succ, List.flatMap_cons, ih, hf]; rfl

theorem repeated_succ_append (n : Nat) (c : CodePoint) (t : Text) :
    Text.repeated (n + 1) c ++ t = Text.repeated n c ++ c :: t := by
  rw [Text.repeated, List.replicate_succ', List.append_assoc]
  rfl

namespace Scans

variable {backslashes : Nat} {t : Text} {found : List Token}

/-- Nothing is lost between the tokens. -/
theorem flatMap_text (h : Scans backslashes t found) :
    found.flatMap Token.text = Text.repeated backslashes '\\' ++ t := by
  induction h with
  | nil _ => rw [flatMap_replicate_plain fun _ => rfl, List.append_nil]
  | backslash _ ih => rw [ih, repeated_succ_append]
  | tag _ _ ih => simp [ih, Token.text, bracketed, Text.repeated]
  | plain _ _ _ ih =>
      rw [List.flatMap_append, flatMap_replicate_plain fun _ => rfl, List.flatMap_cons, ih]
      rfl

theorem repeated_append (n : Nat) (h : Scans (backslashes + n) t found) :
    Scans backslashes (Text.repeated n '\\' ++ t) found := by
  induction n generalizing backslashes with
  | zero => exact h
  | succ n ih =>
      refine .backslash (ih ?_)
      rwa [Nat.add_assoc, Nat.add_comm 1 n]

/-! ### Brackets in an escaped text -/

theorem closes_escaped (h : Scans backslashes t found) :
    closes (found.flatMap Token.escaped) = closes t := by
  have hbackslashes (n : Nat) : ∀ c ∈ Text.repeated n '\\', isInside c = true := by
    intro c hc
    rw [List.eq_of_mem_replicate hc]
    decide
  induction h with
  | nil n =>
      rw [flatMap_replicate_plain fun _ => rfl, ← closes_run_append (hbackslashes n) [],
        List.append_nil]
  | backslash _ ih => rw [ih, closes, if_pos (by decide)]
  | tag _ _ ih =>
      rw [List.flatMap_cons, Token.escaped, List.append_assoc, closes_run_append (hbackslashes _)]
      rfl
  | @plain _ c rest found _ _ _ ih =>
      rw [List.flatMap_append, flatMap_replicate_plain fun _ => rfl,
        closes_run_append (hbackslashes _), List.flatMap_cons, Token.escaped, List.singleton_append,
        closes, closes, ih]

/-- What comes first in an escaped text opens a tag only if it does so in the text itself. -/
theorem opens_escaped (h : Scans backslashes t found) :
    (found.flatMap Token.escaped).head?.any opensTag =
      (decide (backslashes = 0) && t.head?.any opensTag) := by
  have hopens : opensTag (.char '\\') = false := by decide
  induction h with
  | nil n =>
      rw [flatMap_replicate_plain fun _ => rfl]
      cases n <;> simp [Text.repeated, List.replicate_succ, hopens]
  | backslash _ ih => simp [ih, hopens]
  | tag _ _ ih => simp [Token.escaped, Text.repeated, List.replicate_succ, opensTag]
  | @plain n c rest found _ _ _ ih =>
      rw [List.flatMap_append, flatMap_replicate_plain fun _ => rfl]
      cases n <;> simp [Text.repeated, List.replicate_succ, hopens, Token.escaped]

theorem tagBody?_escaped (h : Scans 0 t found) :
    (tagBody? (found.flatMap Token.escaped)).isSome = (tagBody? t).isSome := by
  rw [tagBody?_isSome, tagBody?_isSome, h.closes_escaped, h.opens_escaped]
  simp

/-- The tokens of a text with all its tags made ordinary text. -/
theorem guarded (h : Scans backslashes t found) :
    Scans 0 (found.flatMap Token.escaped) (found.map Token.guarded) := by
  induction h with
  | nil n =>
      have hrun := repeated_append n (.nil (0 + n))
      rw [Nat.zero_add, List.append_nil] at hrun
      rwa [flatMap_replicate_plain fun _ => rfl, List.map_replicate]
  | backslash _ ih => exact ih
  | @tag n body rest found hbody _ ih =>
      rw [List.flatMap_cons, List.map_cons, Token.escaped, List.append_assoc, bracketed,
        List.append_assoc]
      refine repeated_append (2 * n + 1) ?_
      rw [Nat.zero_add]
      exact .tag hbody ih
  | @plain n c rest found hne hnone hrest ih =>
      rw [List.flatMap_append, flatMap_replicate_plain fun _ => rfl, List.map_append,
        List.map_replicate]
      have hkept (hopen : c = .char '[') :
          (tagBody? (found.flatMap Token.escaped)).isSome = false := by
        rw [hrest.tagBody?_escaped, hnone hopen]
      refine repeated_append n ?_
      rw [Nat.zero_add]
      exact .plain hne hkept ih

/-! ### Backslashes at the end -/

theorem concat_backslash (h : Scans backslashes t found) :
    Scans backslashes (t ++ [.char '\\']) (found ++ [.plain '\\']) := by
  induction h with
  | nil n =>
      have hend := Scans.nil (n + 1)
      rw [List.replicate_succ'] at hend
      exact .backslash hend
  | backslash _ ih => exact .backslash ih
  | tag hbody _ ih =>
      rw [List.append_assoc]
      exact .tag hbody ih
  | @plain n c rest found hne hnone _ ih =>
      -- A backslash neither opens a tag nor closes one.
      have hopens : (rest ++ [CodePoint.char '\\']).head?.any opensTag =
          rest.head?.any opensTag := by
        cases rest with
        | nil => decide
        | cons d rest => rfl
      have hkept (hopen : c = .char '[') : (tagBody? (rest ++ [.char '\\'])).isSome = false := by
        rw [tagBody?_isSome, closes_concat_backslash, hopens, ← tagBody?_isSome, hnone hopen]
      rw [List.append_assoc]
      exact .plain hne hkept ih

end Scans

/-- The number of backslashes at the end of a text. -/
def backslashesAtEnd (t : Text) : Nat :=
  (t.reverse.takeWhile (· = .char '\\')).length

/-- What stands before some other code point does not count. -/
theorem backslashesAtEnd_append_cons {c : CodePoint} (hne : c ≠ .char '\\') (s t : Text) :
    backslashesAtEnd (s ++ c :: t) = backslashesAtEnd t := by
  have hreverse : (s ++ c :: t).reverse = t.reverse ++ (c :: s.reverse) := by simp
  have hstop : (c :: s.reverse).takeWhile (· = .char '\\') = [] := by simp [hne]
  rw [backslashesAtEnd, backslashesAtEnd, hreverse, List.takeWhile_append, hstop]
  split
  · rename_i hall
    rw [List.append_nil, hall]
  · rfl

theorem Scans.backslashesAtEnd_escaped {backslashes : Nat} {t : Text} {found : List Token}
    (h : Scans backslashes t found) :
    backslashesAtEnd (found.flatMap Token.escaped) =
      backslashesAtEnd (Text.repeated backslashes '\\' ++ t) := by
  induction h with
  | nil n => rw [flatMap_replicate_plain fun _ => rfl, List.append_nil]
  | backslash _ ih => rw [ih, repeated_succ_append]
  | @tag n body rest found _ _ ih =>
      have hescaped : (Token.tag n body :: found).flatMap Token.escaped =
          (Text.repeated (2 * n + 1) '\\' ++ .char '[' :: body) ++
            .char ']' :: found.flatMap Token.escaped := by
        simp [Token.escaped, bracketed]
      have htext : Text.repeated n '\\' ++ (.char '[' :: body ++ .char ']' :: rest) =
          (Text.repeated n '\\' ++ .char '[' :: body) ++ .char ']' :: rest := by simp
      rw [hescaped, htext, backslashesAtEnd_append_cons (by decide),
        backslashesAtEnd_append_cons (by decide), ih]
      rfl
  | @plain n c rest found hne _ _ ih =>
      rw [List.flatMap_append, List.flatMap_cons, Token.escaped, List.singleton_append,
        backslashesAtEnd_append_cons hne, backslashesAtEnd_append_cons hne, ih]
      rfl

/-- The tokens of an escaped text are those of the text, each tag with the backslashes that make it
ordinary text.  A single backslash at the end is followed by another one. -/
theorem tokens_escape (t : Text) :
    tokens (escape t) = (tokens t).map Token.guarded ++
      if backslashesAtEnd t = 1 then [.plain '\\'] else [] := by
  have hscans := scans_tokens t
  have hend : backslashesAtEnd ((tokens t).flatMap Token.escaped) = backslashesAtEnd t :=
    hscans.backslashesAtEnd_escaped
  have hescape : escape t = (tokens t).flatMap Token.escaped ++
      if backslashesAtEnd t = 1 then [.char '\\'] else [] := by
    rw [← hend, escape]
    change (if backslashesAtEnd _ = 1 then _ else _) = _
    split
    · rfl
    · rw [List.append_nil]
  rw [hescape]
  split
  · exact hscans.guarded.concat_backslash.eq_tokensFrom.symm
  · rw [List.append_nil, List.append_nil]
    exact hscans.guarded.eq_tokensFrom.symm

/-! ## Emoji -/

/-- The names that stand between two colons of a text, from left to right; a colon belongs to one
pair only.  The first `skip` code points have been dealt with. -/
def namesFrom (skip : Nat) : Text → List Text
  | [] => []
  | c :: rest =>
      match skip with
      | skip + 1 => namesFrom skip rest
      | 0 =>
          match if c = .char ':' then nameBefore? rest else none with
          | none => namesFrom 0 rest
          | some name => name :: namesFrom (name.length + 1) rest

/-- No two colons of the text enclose the name of an emoji. -/
def NamesNoEmoji [EmojiNames] (t : Text) : Prop :=
  ∀ name ∈ namesFrom 0 t, emojiOf? name = none

instance [EmojiNames] (t : Text) : Decidable (NamesNoEmoji t) :=
  inferInstanceAs (Decidable (∀ name ∈ _, _))

theorem eq_append_of_nameBefore? {t name : Text} (h : nameBefore? t = some name) :
    t = name ++ .char ':' :: t.drop (name.length + 1) := by
  unfold nameBefore? at h
  dsimp only at h
  rw [drop_length_takeWhile] at h
  split at h
  · rename_i hcolon
    cases h
    obtain ⟨after, hafter⟩ := List.head?_eq_some_iff.mp hcolon
    rw [← List.drop_drop, drop_length_takeWhile, hafter, List.drop_succ_cons, List.drop_zero,
      ← hafter, List.takeWhile_append_dropWhile]
  · cases h

/-- What follows the first of two colons. -/
theorem eq_append_of_enclosed {c : CodePoint} {t name : Text}
    (h : (if c = .char ':' then nameBefore? t else none) = some name) :
    c = .char ':' ∧ t = name ++ .char ':' :: t.drop (name.length + 1) := by
  split at h
  · rename_i hcolon
    exact ⟨hcolon, eq_append_of_nameBefore? h⟩
  · cases h

theorem isPictured_of_emojiOf? [EmojiNames] {name shown : Text} (h : emojiOf? name = some shown) :
    ∀ c ∈ shown, isPictured c = true := by
  have hselectors : ∀ variant ∈ variants, ∀ c ∈ variant.2, isPictured c = true := by decide
  unfold emojiOf? at h
  split at h
  · rename_i suffix selector hfind
    obtain ⟨emoji, hemoji, rfl⟩ := Option.map_eq_some_iff.mp h
    exact List.forall_mem_append.mpr ⟨EmojiNames.isPictured_of_find? hemoji,
      hselectors _ (List.mem_of_find?_eq_some hfind)⟩
  · exact EmojiNames.isPictured_of_find? h

theorem isOrdinary_of_emojiOf? [EmojiNames] {name shown : Text} (h : emojiOf? name = some shown) :
    ∀ c ∈ shown, c.IsOrdinary := by
  intro c hc
  have hpictured := isPictured_of_emojiOf? h c hc
  simp only [isPictured, Bool.and_eq_true, decide_eq_true_eq] at hpictured
  exact Or.inr hpictured.2

/-- An emoji holds neither colons nor backslashes, so that it differs from whatever does. -/
theorem fades_emojiOf? [EmojiNames] {kept : Text} (hkept : 0 < signs kept) (name : Text) :
    Fades ((emojiOf? name).getD kept) kept ∧
      ((emojiOf? name).getD kept = kept ↔ emojiOf? name = none) := by
  cases hemoji : emojiOf? name with
  | none => exact ⟨.refl kept, iff_of_true rfl rfl⟩
  | some emoji =>
      have hnone : signs emoji = 0 := signs_eq_zero (isPictured_of_emojiOf? hemoji)
      have hlt : signs emoji < signs kept := hnone ▸ hkept
      refine ⟨Or.inr hlt, iff_of_false (fun heq => ?_) nofun⟩
      exact Nat.ne_of_lt hlt (congrArg signs heq)

/-- Replacing emoji costs a text colons, unless there are none. -/
theorem replaceEmoji_eq_iff [EmojiNames] (skip : Nat) (t : Text) :
    Fades (replaceEmoji skip t) (t.drop skip) ∧
      (replaceEmoji skip t = t.drop skip ↔ ∀ name ∈ namesFrom skip t, emojiOf? name = none) := by
  fun_induction replaceEmoji skip t with
  | case1 skip => simp [namesFrom, Fades]
  | case2 c rest skip ih => simpa [namesFrom] using ih
  | case3 c rest hnone ih =>
      have hfades := (Fades.refl [c]).append ih.1
      exact ⟨hfades, by simpa [namesFrom, hnone] using ih.2⟩
  | case4 c rest name hname shown ih =>
      have hnames : namesFrom 0 (c :: rest) = name :: namesFrom (name.length + 1) rest := by
        rw [namesFrom, hname]
      obtain ⟨rfl, hrest⟩ := eq_append_of_enclosed hname
      have htext : CodePoint.char ':' :: rest =
          (.char ':' :: name ++ [CodePoint.char ':']) ++ rest.drop (name.length + 1) := by
        conv_lhs => rw [hrest]
        simp
      have hcolons : 0 < signs (.char ':' :: name ++ [.char ':']) := by
        rw [List.cons_append, signs, List.countP_cons_of_pos (by decide)]
        exact Nat.succ_pos _
      obtain ⟨hfades, hshown⟩ := fades_emojiOf? hcolons name
      rw [hnames, List.forall_mem_cons, List.drop_zero, htext, hfades.append_eq_iff ih.1, hshown,
        ih.2]
      exact ⟨hfades.append ih.1, Iff.rfl⟩

theorem isOrdinary_replaceEmoji [EmojiNames] (skip : Nat) {t : Text} (h : ∀ c ∈ t, c.IsOrdinary) :
    ∀ c ∈ replaceEmoji skip t, c.IsOrdinary := by
  fun_induction replaceEmoji skip t with
  | case1 skip => exact nofun
  | case2 c rest skip ih => exact ih (List.forall_mem_cons.mp h).2
  | case3 c rest hnone ih =>
      obtain ⟨hc, hrest⟩ := List.forall_mem_cons.mp h
      exact List.forall_mem_cons.mpr ⟨hc, ih hrest⟩
  | case4 c rest name hname shown ih =>
      obtain ⟨hc, hrest⟩ := List.forall_mem_cons.mp h
      refine List.forall_mem_append.mpr ⟨?_, ih hrest⟩
      cases hemoji : emojiOf? name with
      | some face => simpa [shown, hemoji] using isOrdinary_of_emojiOf? hemoji
      | none =>
          have hcolon : (CodePoint.char ':').IsOrdinary := by decide
          have hinner : ∀ d ∈ name, d.IsOrdinary := by
            rw [(eq_append_of_enclosed hname).2] at hrest
            exact fun d hd => hrest d (List.mem_append_left _ hd)
          have hkept : shown = CodePoint.char ':' :: name ++ [CodePoint.char ':'] := by
            simp [shown, hemoji]
          rw [hkept]
          exact List.forall_mem_append.mpr
            ⟨List.forall_mem_cons.mpr ⟨hcolon, hinner⟩, List.forall_mem_singleton.mpr hcolon⟩

/-! ## Stretches -/

/-- A backslash right before an opening bracket. -/
def bracketEscape : Text :=
  [.char '\\', .char '[']

/-- Dropping backslashes before brackets costs a text these backslashes, unless there are none. -/
theorem unescapeBrackets_cases (t : Text) :
    (unescapeBrackets t = t ∧ ¬bracketEscape <:+: t) ∨
      (signs (unescapeBrackets t) < signs t ∧ bracketEscape <:+: t) := by
  fun_induction unescapeBrackets t with
  | case1 rest ih =>
      refine Or.inr ⟨?_, ⟨[], rest, rfl⟩⟩
      have hle : signs (unescapeBrackets rest) ≤ signs rest := by
        rcases ih with ⟨heq, -⟩ | ⟨hlt, -⟩
        · exact Nat.le_of_eq (congrArg signs heq)
        · exact Nat.le_of_lt hlt
      have hbracket (t : Text) : signs (.char '[' :: t) = signs t :=
        List.countP_cons_of_neg (by decide)
      have hbackslash : signs (.char '\\' :: .char '[' :: rest) = signs rest + 1 := by
        rw [← hbracket rest]
        exact List.countP_cons_of_pos (by decide)
      rw [hbracket, hbackslash]
      omega
  | case2 c rest hother ih =>
      have hfirst : ¬bracketEscape <+: c :: rest := by
        rintro ⟨after, heq⟩
        cases heq
        exact hother after rfl rfl
      rcases ih with ⟨heq, hnone⟩ | ⟨hlt, hsome⟩
      · exact Or.inl ⟨by rw [heq], fun h => (List.infix_cons_iff.mp h).elim hfirst hnone⟩
      · have hcons := Nat.add_lt_add_left hlt (signs [c])
        rw [← signs_append, ← signs_append] at hcons
        exact Or.inr ⟨hcons, List.infix_cons_iff.mpr (Or.inr hsome)⟩
  | case3 => exact Or.inl ⟨rfl, by decide⟩

/-- **What the console does to ordinary text.**  It is shown as it is exactly if no bracket in it
follows a backslash and no two of its colons enclose the name of an emoji; otherwise it loses
colons or backslashes. -/
theorem shownPlain_eq_iff [EmojiNames] (t : Text) :
    Fades (shownPlain t) t ∧ (shownPlain t = t ↔ ¬bracketEscape <:+: t ∧ NamesNoEmoji t) := by
  obtain ⟨hfades, hiff⟩ := replaceEmoji_eq_iff 0 (unescapeBrackets t)
  rw [List.drop_zero] at hfades hiff
  rw [shownPlain]
  rcases unescapeBrackets_cases t with ⟨heq, hnone⟩ | ⟨hlt, hsome⟩
  · rw [heq] at hfades hiff ⊢
    exact ⟨hfades, hiff.trans (and_iff_right hnone).symm⟩
  · have hless := Nat.lt_of_le_of_lt hfades.signs_le hlt
    refine ⟨Or.inr hless, iff_of_false (fun heq => ?_) fun h => h.1 hsome⟩
    exact Nat.ne_of_lt hless (congrArg signs heq)

theorem isOrdinary_shownPlain [EmojiNames] {t : Text} (h : ∀ c ∈ t, c.IsOrdinary) :
    ∀ c ∈ shownPlain t, c.IsOrdinary := by
  refine isOrdinary_replaceEmoji 0 ?_
  fun_induction unescapeBrackets t with
  | case1 rest ih =>
      obtain ⟨-, hbracket, hrest⟩ := by simpa only [List.forall_mem_cons] using h
      exact List.forall_mem_cons.mpr ⟨hbracket, ih hrest⟩
  | case2 c rest _ ih =>
      obtain ⟨hc, hrest⟩ := List.forall_mem_cons.mp h
      exact List.forall_mem_cons.mpr ⟨hc, ih hrest⟩
  | case3 => exact nofun

/-- The stretches in which the console looks for emoji: each tag with its brackets, and what stands
between two tags without the backslashes that belong to them. -/
def stretchesFrom (before : Text) : List Token → List Text
  | [] => [before]
  | .plain c :: rest => stretchesFrom (before ++ [c]) rest
  | .tag _ body :: rest => before :: bracketed body :: stretchesFrom [] rest

/-- The stretches of a text. -/
def stretches (t : Text) : List Text :=
  stretchesFrom [] (tokens t)

/-- Tokens whose tags are ordinary text are shown as their text exactly if every stretch is. -/
theorem shownTokens_guarded_eq_iff [EmojiNames] (before : Text) (found : List Token) :
    Fades (shownTokens before (found.map Token.guarded)) (before ++ found.flatMap Token.text) ∧
      (shownTokens before (found.map Token.guarded) = before ++ found.flatMap Token.text ↔
        ∀ stretch ∈ stretchesFrom before found, shownPlain stretch = stretch) := by
  induction found generalizing before with
  | nil => simpa [shownTokens, stretchesFrom] using (shownPlain_eq_iff before).1
  | cons token rest ih =>
      cases token with
      | plain c =>
          simpa [shownTokens, stretchesFrom, Token.guarded, Token.text] using ih (before ++ [c])
      | tag n body =>
          obtain ⟨hrest, hrestiff⟩ := ih []
          have hbefore := (shownPlain_eq_iff before).1
          have hbody := (shownPlain_eq_iff (bracketed body)).1
          have hhalf : (2 * n + 1) / 2 = n := by omega
          have hodd : (2 * n + 1) % 2 = 1 := by omega
          have hshown : shownTokens before ((Token.tag n body :: rest).map Token.guarded) =
              shownPlain before ++ (Text.repeated n '\\' ++ (shownPlain (bracketed body) ++
                shownTokens [] (rest.map Token.guarded))) := by
            simp [shownTokens, Token.guarded, hhalf, hodd]
          have htext : before ++ (Token.tag n body :: rest).flatMap Token.text =
              before ++ (Text.repeated n '\\' ++ (bracketed body ++
                ([] ++ rest.flatMap Token.text))) := by
            simp [Token.text]
          have hkept := Fades.refl (Text.repeated n '\\')
          have htail := hbody.append hrest
          rw [hshown, htext, hbefore.append_eq_iff (hkept.append htail), hkept.append_eq_iff htail,
            hbody.append_eq_iff hrest, hrestiff, stretchesFrom, List.forall_mem_cons,
            List.forall_mem_cons]
          exact ⟨hbefore.append (hkept.append htail), by simp⟩

theorem isOrdinary_shownTokens [EmojiNames] {before : Text} {found : List Token}
    (hbefore : ∀ c ∈ before, c.IsOrdinary)
    (hfound : ∀ token ∈ found, ∀ c ∈ token.text, c.IsOrdinary) :
    ∀ c ∈ shownTokens before (found.map Token.guarded), c.IsOrdinary := by
  induction found generalizing before with
  | nil => exact isOrdinary_shownPlain hbefore
  | cons token rest ih =>
      obtain ⟨htoken, hrest⟩ := List.forall_mem_cons.mp hfound
      cases token with
      | plain c => exact ih (List.forall_mem_append.mpr ⟨hbefore, htoken⟩) hrest
      | tag n body =>
          have hbackslash : (CodePoint.char '\\').IsOrdinary := by decide
          have hbackslashes : ∀ c ∈ Text.repeated ((2 * n + 1) / 2) '\\', c.IsOrdinary :=
            fun c hc => List.eq_of_mem_replicate hc ▸ hbackslash
          have hbody := isOrdinary_shownPlain (List.forall_mem_append.mp htoken).2
          have hodd : (2 * n + 1) % 2 = 1 := by omega
          simp only [List.map_cons, Token.guarded, shownTokens, if_pos hodd,
            List.forall_mem_append]
          exact ⟨⟨⟨isOrdinary_shownPlain hbefore, hbackslashes⟩, hbody⟩, ih nofun hrest⟩

/-! ## Backslashes at the end -/

theorem nameBefore?_cons (c : CodePoint) (t : Text) :
    nameBefore? (c :: t) =
      if c ≠ .char ':' && !c.isBlank then (nameBefore? t).map (c :: ·)
      else if c = .char ':' then some [] else none := by
  by_cases hcolon : c = .char ':'
  · subst hcolon
    simp [nameBefore?]
  · by_cases hblank : c.isBlank = true
    · simp [nameBefore?, hcolon, hblank]
    · simp [nameBefore?, hcolon, hblank]

theorem nameBefore?_concat_backslash (t : Text) :
    nameBefore? (t ++ [.char '\\']) = nameBefore? t := by
  induction t with
  | nil => decide
  | cons c rest ih => rw [List.cons_append, nameBefore?_cons, nameBefore?_cons, ih]

theorem replaceEmoji_concat_backslash [EmojiNames] {skip : Nat} {t : Text} (h : skip ≤ t.length) :
    replaceEmoji skip (t ++ [.char '\\']) = replaceEmoji skip t ++ [.char '\\'] := by
  fun_induction replaceEmoji skip t with
  | case1 skip =>
      obtain rfl : skip = 0 := Nat.le_zero.mp h
      rfl
  | case2 c rest skip ih => exact ih (Nat.le_of_succ_le_succ h)
  | case3 c rest hnone ih =>
      rw [List.cons_append, replaceEmoji, nameBefore?_concat_backslash, hnone]
      simp [ih]
  | case4 c rest name hname shown ih =>
      have hle : name.length + 1 ≤ rest.length := by
        rw [(eq_append_of_enclosed hname).2]
        simp
      rw [List.cons_append, replaceEmoji, nameBefore?_concat_backslash, hname]
      simp [ih hle, shown]

theorem unescapeBrackets_concat_backslash (t : Text) :
    unescapeBrackets (t ++ [.char '\\']) = unescapeBrackets t ++ [.char '\\'] := by
  fun_induction unescapeBrackets t with
  | case1 rest ih => simp [unescapeBrackets, ih]
  | case2 c rest hother ih =>
      rw [List.cons_append, unescapeBrackets, ih, List.cons_append]
      rintro after rfl heq
      cases rest with
      | nil => cases heq
      | cons d rest =>
          cases heq
          exact hother _ rfl rfl
  | case3 => rfl

theorem shownTokens_concat_backslash [EmojiNames] (before : Text) (found : List Token) :
    shownTokens before (found ++ [.plain '\\']) = shownTokens before found ++ [.char '\\'] := by
  induction found generalizing before with
  | nil =>
      change shownPlain (before ++ _) = _
      rw [shownPlain, unescapeBrackets_concat_backslash,
        replaceEmoji_concat_backslash (Nat.zero_le _)]
      rfl
  | cons token rest ih => cases token <;> simp [shownTokens, ih]

/-! ## Inert texts -/

/-- The console does nothing to the text once it is escaped. -/
structure IsInert [EmojiNames] (t : Text) : Prop where
  /-- No two colons in a stretch enclose the name of an emoji. -/
  names : ∀ stretch ∈ stretches t, NamesNoEmoji stretch
  /-- No bracket that begins no tag follows a backslash. -/
  brackets : ∀ stretch ∈ stretches t, ¬bracketEscape <:+: stretch
  /-- There are no backslashes at the end, or several. -/
  ending : backslashesAtEnd t ≠ 1

theorem isInert_iff [EmojiNames] (t : Text) :
    IsInert t ↔ (∀ stretch ∈ stretches t, shownPlain stretch = stretch) ∧
      backslashesAtEnd t ≠ 1 := by
  constructor
  · intro h
    refine ⟨fun stretch hmem => ?_, h.ending⟩
    exact (shownPlain_eq_iff stretch).2.mpr ⟨h.brackets stretch hmem, h.names stretch hmem⟩
  · rintro ⟨hshown, hending⟩
    have hboth stretch (hmem : stretch ∈ stretches t) :=
      (shownPlain_eq_iff stretch).2.mp (hshown stretch hmem)
    exact ⟨fun stretch hmem => (hboth stretch hmem).2, fun stretch hmem => (hboth stretch hmem).1,
      hending⟩

instance [EmojiNames] (t : Text) : Decidable (IsInert t) :=
  decidable_of_iff' _ (isInert_iff t)

theorem flatMap_text_tokens (t : Text) : (tokens t).flatMap Token.text = t :=
  (scans_tokens t).flatMap_text

theorem plain_escape_of_ending [EmojiNames] {t : Text} (h : backslashesAtEnd t ≠ 1) :
    plain (escape t) = shownTokens [] ((tokens t).map Token.guarded) := by
  rw [plain, tokens_escape, if_neg h, List.append_nil]

/-- Without a single backslash at the end nothing is added to a text. -/
theorem fades_plain_escape [EmojiNames] {t : Text} (h : backslashesAtEnd t ≠ 1) :
    Fades (plain (escape t)) t := by
  have hfades := (shownTokens_guarded_eq_iff [] (tokens t)).1
  rwa [List.nil_append, flatMap_text_tokens, ← plain_escape_of_ending h] at hfades

/-- A single backslash at the end is shown twice. -/
theorem plain_escape_concat_backslash [EmojiNames] {t : Text} (h : backslashesAtEnd t = 0) :
    plain (escape (t ++ [.char '\\'])) = plain (escape t) ++ [.char '\\', .char '\\'] := by
  have htokens : tokens (t ++ [.char '\\']) = tokens t ++ [.plain '\\'] :=
    (scans_tokens t).concat_backslash.eq_tokensFrom.symm
  have hending : backslashesAtEnd (t ++ [.char '\\']) = 1 := by
    simpa [backslashesAtEnd] using h
  have hne : backslashesAtEnd t ≠ 1 := by omega
  rw [plain_escape_of_ending hne, plain, tokens_escape, if_pos hending, htokens,
    List.map_append, List.map_singleton, Token.guarded, shownTokens_concat_backslash,
    shownTokens_concat_backslash, List.append_assoc]
  rfl

/-- A text with a single backslash at its end. -/
theorem exists_of_backslashesAtEnd_eq_one {t : Text} (h : backslashesAtEnd t = 1) :
    ∃ before, t = before ++ [.char '\\'] ∧ backslashesAtEnd before = 0 := by
  obtain rfl | ⟨before, c, rfl⟩ := List.eq_nil_or_concat t
  · cases h
  · by_cases hc : c = .char '\\'
    · subst hc
      exact ⟨before, List.concat_eq_append, by simpa [backslashesAtEnd] using h⟩
    · simp [backslashesAtEnd, hc] at h

/-- **Escaping.**  An escaped text is shown as it is exactly if it is inert. -/
theorem plain_escape_eq_iff [EmojiNames] (t : Text) : plain (escape t) = t ↔ IsInert t := by
  rw [isInert_iff]
  by_cases h : backslashesAtEnd t = 1
  · refine iff_of_false (fun heq => ?_) fun hinert => hinert.2 h
    obtain ⟨before, rfl, hbefore⟩ := exists_of_backslashesAtEnd_eq_one h
    rw [plain_escape_concat_backslash hbefore] at heq
    -- One of the two backslashes is the last code point of what stands before the other.
    have hshown : plain (escape before) ++ [.char '\\'] = before := by
      simpa using congrArg List.dropLast heq
    rw [← hshown] at hbefore
    simp [backslashesAtEnd] at hbefore
  · have hiff := (shownTokens_guarded_eq_iff [] (tokens t)).2
    rw [List.nil_append, flatMap_text_tokens] at hiff
    rw [plain_escape_of_ending h, hiff, and_iff_left h]
    rfl

theorem isOrdinary_plain_escape [EmojiNames] {t : Text} (h : ∀ c ∈ t, c.IsOrdinary) :
    ∀ c ∈ plain (escape t), c.IsOrdinary := by
  have htexts : ∀ token ∈ tokens t, ∀ c ∈ token.text, c.IsOrdinary := by
    intro token htoken c hc
    refine h c ?_
    rw [← flatMap_text_tokens t]
    exact List.mem_flatMap.mpr ⟨token, htoken, hc⟩
  have hnone : ∀ c ∈ ([] : Text), c.IsOrdinary := nofun
  have hshown := isOrdinary_shownTokens hnone htexts
  rw [plain, tokens_escape]
  split
  · rw [shownTokens_concat_backslash]
    exact List.forall_mem_append.mpr ⟨hshown, by decide⟩
  · rwa [List.append_nil]

end Markup

end DocumentQuery
