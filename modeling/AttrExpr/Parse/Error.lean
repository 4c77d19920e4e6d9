import AttrExpr.Span

/-!
# Parse Errors

Why a text is not an expression, and where.

An error names its cause and the span it refers to; the message is computed
from the cause. The cause of a bad number carries the source text up to and
including the character that spoiled it, which is exactly the text under its
span.

## Main definitions

* `NumberFault`: The three ways a number can be bad.
* `ParseFault`: Everything that can be wrong with a text.
* `ParseError`: A fault and where it is.
-/

namespace AttrExpr

/-- What is wrong with a number. A token that begins like a number is never
    taken for a symbol instead, so each of these ends the reading. -/
inductive NumberFault where
  /-- It holds something other than digits and one point. -/
  | malformed
  /-- It holds a second point. -/
  | extraDecimalPoint
  /-- It is an integer that does not fit in 64 bits. -/
  | tooLarge
deriving DecidableEq, Repr

/-- What is wrong with a text. Two of the faults are about its end and are met
    only there; the others belong to one token or bracket, and nothing behind
    it is looked at. -/
inductive ParseFault where
  /-- A bad number, with its text as far as it was read. -/
  | number (fault : NumberFault) (text : String)
  /-- The text ends inside a string. -/
  | unterminatedString
  /-- The text ends inside a group. -/
  | unterminatedGroup (opening : Char)
  /-- A group is closed by the other kind of bracket. -/
  | mismatchedCloser (expected found : Char)
  /-- A closing bracket stands where no group is open. -/
  | unexpectedCloser (found : Char)
deriving DecidableEq, Repr

namespace ParseFault

def message : ParseFault → String
  | number .malformed text => "malformed number, starting with: " ++ text
  | number .extraDecimalPoint text =>
      "malformed number; found more than one decimal point, starting with: " ++ text
  | number .tooLarge text => "number literal is too large: " ++ text
  | unterminatedString => "unterminated string; expected a closing '"
  | unterminatedGroup opening =>
      let closing := if opening = '(' then ')' else ']'
      s!"unterminated `{opening}`; expected a closing `{closing}`"
  | mismatchedCloser expected found => s!"expected `{expected}`, found `{found}`"
  | unexpectedCloser found => s!"unexpected `{found}`"

end ParseFault

/-- The first fault of a text, and the span it refers to. -/
structure ParseError where
  fault : ParseFault
  span : Span
deriving DecidableEq, Repr

namespace ParseError

/-- The message without the place, for those who show the place themselves. -/
def message (error : ParseError) : String := error.fault.message

/-- The message, and the place after it. -/
def text (error : ParseError) : String := s!"{error.message} (at {error.span.text})"

end ParseError

end AttrExpr
