import DocumentQuery.Console.Markup
import DocumentQuery.Pattern.SyntaxError
import DocumentQuery.Settings
import DocumentQuery.Text.Width

/-!
# Output to the console

Results are written to standard output, highlighted if that is wanted; errors are reported on the
other stream, a fault in a pattern together with a caret below it.  The console has no colours, so
highlighting only changes white space and control characters.
-/

namespace DocumentQuery

namespace Display

/-! ## Tabs and control characters -/

/-- Control characters that a console does not show. -/
def isDropped (c : CodePoint) : Bool :=
  c = .char '\x07' || c = .char '\x08' || c = .char '\x0B' || c = .char '\x0C' || c = .char '\r'

/-- A text with every tab replaced by blanks up to the next multiple of `stop`.  Every code point
counts as one column, and every line ending begins a new line; `column` is where the text begins. -/
def expandTabs (stop column : Nat) : Text → Text
  | [] => []
  | c :: rest =>
      if c = .char '\n' ∨ c = .char '\r' then c :: expandTabs stop 0 rest
      else if c = .char '\t' then
        let blanks := stop - column % stop
        Text.repeated blanks ' ' ++ expandTabs stop (column + blanks) rest
      else c :: expandTabs stop (column + 1) rest

/-- The part of a line before a tab, which becomes one blank and as many more as lead to the next
multiple of `stop` columns. -/
def filled (stop : Nat) (part : Text) : Text :=
  let shown := part ++ " "
  shown ++ Text.repeated ((stop - shown.columns % stop) % stop) ' '

/-- A line with its tabs replaced by blanks, by the columns that code points take on a console. -/
def alignedLine (stop : Nat) (line : Text) : Text :=
  let parts := line.split '\t'
  parts.dropLast.flatMap (filled stop) ++ parts.getLastD []

/-- A text with its tabs replaced by blanks, by the columns that code points take on a console. -/
def aligned (stop : Nat) (t : Text) : Text :=
  Text.joined "\n" ((t.split '\n').map (alignedLine stop))

/-! ## Results -/

/-- Results are highlighted if that is chosen, or if it is left open and the console is a
terminal. -/
def isHighlighted (color : ColorChoice) (terminal : Bool) : Bool :=
  match color with
  | .always => true
  | .auto => terminal
  | .never => false

/-- A text without the byte order mark before it. -/
def withoutByteOrderMark : Text → Text
  | .char '\uFEFF' :: rest => rest
  | t => t

/-- What highlighting makes of a text without newlines at its end, and a newline after it: tabs
become blanks up to multiples of four, a byte order mark is lost, line endings become newlines and
control characters are dropped. -/
def highlighted (body : Text) : Text :=
  (Text.normalizedNewlines (withoutByteOrderMark (expandTabs 4 0 body) ++ "\n")).filter
    fun c => !isDropped c

/-- What is written for a result: its text with exactly one newline at the end. -/
def emitted (color : ColorChoice) (terminal : Bool) (result : Text) : Text :=
  let body := result.dropEndWhile (· = .char '\n')
  if isHighlighted color terminal then highlighted body else body ++ "\n"

/-! ## Errors -/

/-- A text as the console shows it, on lines of its own. -/
def printed (t : Text) : Text :=
  aligned 8 (t.filter fun c => !isDropped c) ++ "\n"

/-- The report of an error with the given message. -/
def reported [Markup.EmojiNames] (message : Text) : Text :=
  printed (Markup.plain ("[bold red]error:[/] " ++ Markup.escape message))

/-- The report of a failure. -/
def report [Markup.EmojiNames] : Failure → Text
  | .pattern e => reported e.message ++ printed (Markup.replaceEmoji 0 e.caret)
  | failure => reported failure.message

/-- A text for a stream that cannot take surrogates: they are written as escapes. -/
def withoutSurrogates (t : Text) : Text :=
  t.flatMap fun c => if c.isSurrogate then .char '\\' :: .char 'u' :: Text.hex 4 c.toNat else [c]

end Display

end DocumentQuery
