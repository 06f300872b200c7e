import DocumentQuery.Text.LetterCase

/-!
# Console markup

Texts for the console may hold tags in square brackets, which style what follows, and names of
emoji between colons.  A backslash before a tag makes it ordinary text.  `Markup.escape` prepares a
text that is to appear as it is; `Markup.plain` is what a console without colours shows.

Which emoji have names is for a console to say, so all that is shown depends on its dictionary,
`Markup.EmojiNames`.
-/

namespace DocumentQuery

namespace Markup

/-! ## Emoji -/

/-- The code point may stand in an emoji: it is no control character, and it is neither a colon nor
a backslash, which mean something to a console. -/
def isPictured (c : CodePoint) : Bool :=
  c ≠ .char ':' && c ≠ .char '\\' && 0x20 ≤ c.toNat

/-- The emoji that a console knows by name, with names in small letters. -/
class EmojiNames where
  find? : Text → Option Text
  isPictured_of_find? : ∀ {name emoji}, find? name = some emoji → ∀ c ∈ emoji, isPictured c = true

/-- The dictionary with the given entries, of which those that are no emoji do not count. -/
abbrev EmojiNames.ofEntries (entries : List (Text × Text)) : EmojiNames where
  find? name := (entries.lookup name).filter (·.all isPictured)
  isPictured_of_find? h := List.all_eq_true.mp (Option.filter_eq_some_iff.mp h).2

/-- The dictionary where no other is given.  It stands in for that of a console, which has thousands
of entries; nothing that is proved of reports depends on what they are. -/
instance EmojiNames.standard : EmojiNames :=
  .ofEntries [("smile", "😄")]

/-- The variants that the name of an emoji may ask for after a hyphen. -/
def variants : List (Text × Text) :=
  [("-emoji", "\uFE0F"), ("-text", "\uFE0E")]

/-- The emoji of a name in letters of any case, with its variant if the name asks for one. -/
def emojiOf? [EmojiNames] (name : Text) : Option Text :=
  match variants.find? fun (suffix, _) => suffix.isSuffixOf name with
  | some (suffix, selector) =>
      let stem : Text := name.take (name.length - suffix.length)
      (EmojiNames.find? stem.lowerCase).map (· ++ selector)
  | none => EmojiNames.find? name.lowerCase

/-- The name between the colon before the given text and the next colon; a name holds no blanks. -/
def nameBefore? (t : Text) : Option Text :=
  let name := t.takeWhile fun c => c ≠ .char ':' && !c.isBlank
  if (t.drop name.length).head? = some (.char ':') then some name else none

/-- A text in which names of emoji are replaced; what stands between two colons without being the
name of one is kept.  The first `skip` code points have been dealt with. -/
def replaceEmoji [EmojiNames] (skip : Nat) : Text → Text
  | [] => []
  | c :: rest =>
      match skip with
      | skip + 1 => replaceEmoji skip rest
      | 0 =>
          match if c = .char ':' then nameBefore? rest else none with
          | none => c :: replaceEmoji 0 rest
          | some name =>
              let shown := (emojiOf? name).getD (.char ':' :: name ++ [.char ':'])
              shown ++ replaceEmoji (name.length + 1) rest

/-! ## Tags -/

/-- A piece of a text with markup. -/
inductive Token where
  /-- A code point that belongs to no tag. -/
  | plain (c : CodePoint)
  /-- A tag, given by what stands in its brackets, and the number of backslashes before it. -/
  | tag (backslashes : Nat) (body : Text)
  deriving DecidableEq

/-- The code point may come first in a tag. -/
def opensTag : CodePoint → Bool
  | .char c => c.isLower || c = '#' || c = '/' || c = '@'
  | .surrogate _ => false

/-- What stands in the brackets of the tag whose opening bracket precedes the given text. -/
def tagBody? (t : Text) : Option Text :=
  let body := t.takeWhile fun c => c ≠ .char '[' && c ≠ .char ']'
  if (body.head?.any opensTag) && (t.drop body.length).head? = some (.char ']') then some body
  else none

/-- The pieces of a text.  The first `skip` code points have been dealt with, and `backslashes`
stand right before the text. -/
def tokensFrom (skip backslashes : Nat) : Text → List Token
  | [] => List.replicate backslashes (.plain '\\')
  | c :: rest =>
      match skip with
      | skip + 1 => tokensFrom skip 0 rest
      | 0 =>
          if c = .char '\\' then tokensFrom 0 (backslashes + 1) rest
          else
            match if c = .char '[' then tagBody? rest else none with
            | some body => .tag backslashes body :: tokensFrom (body.length + 1) 0 rest
            | none =>
                List.replicate backslashes (.plain '\\') ++ .plain c :: tokensFrom 0 0 rest

/-- The pieces of a text with markup. -/
def tokens (t : Text) : List Token :=
  tokensFrom 0 0 t

/-- A tag with its brackets. -/
def bracketed (body : Text) : Text :=
  .char '[' :: body ++ [.char ']']

/-- A piece with every tag made ordinary text. -/
def Token.escaped : Token → Text
  | .plain c => [c]
  | .tag backslashes body => Text.repeated (2 * backslashes + 1) '\\' ++ bracketed body

/-- A text that shows as the given one.  A single backslash at the end is doubled, lest it act on
what follows. -/
def escape (t : Text) : Text :=
  let escaped := (tokens t).flatMap Token.escaped
  let trailing := (escaped.reverse.takeWhile (· = .char '\\')).length
  if trailing = 1 then escaped ++ [.char '\\'] else escaped

/-- A text in which a backslash before an opening bracket is dropped. -/
def unescapeBrackets : Text → Text
  | .char '\\' :: .char '[' :: rest => .char '[' :: unescapeBrackets rest
  | c :: rest => c :: unescapeBrackets rest
  | [] => []

/-- Ordinary text as it is shown. -/
def shownPlain [EmojiNames] (t : Text) : Text :=
  replaceEmoji 0 (unescapeBrackets t)

/-- What is shown for pieces; `before` is the ordinary text right before them.  Of the backslashes
before a tag every pair stands for one; one that is left over makes the tag ordinary text, and
otherwise the tag shows nothing. -/
def shownTokens [EmojiNames] (before : Text) : List Token → Text
  | [] => shownPlain before
  | .plain c :: rest => shownTokens (before ++ [c]) rest
  | .tag backslashes body :: rest =>
      shownPlain before ++ Text.repeated (backslashes / 2) '\\' ++
        (if backslashes % 2 = 1 then shownPlain (bracketed body) else []) ++ shownTokens [] rest

/-- What a console without colours shows for a text with markup. -/
def plain [EmojiNames] (t : Text) : Text :=
  shownTokens [] (tokens t)

end Markup

end DocumentQuery
