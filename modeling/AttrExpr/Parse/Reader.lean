import AttrExpr.Node.Basic
import AttrExpr.Parse.Token

/-!
# Reading Expressions

From a text to the trees it writes.

The reader descends with the brackets: a group is read by reading nodes until
its closing bracket, and the whole text by reading nodes until its end. The
two differ only in what may end them, so one function, `readNodes`, serves
both, and an `Enclosure` says what surrounds the nodes being read. Nothing is
ever taken back, which is why the first fault met is the first fault of the
text.

`readNodes` counts down a bound on the characters left. Every node takes at
least one character and so does every opening bracket, so a bound no smaller
than the rest of the text never runs out before the text does; where it does
run out the text has ended, and the bound needs no failure of its own.

## Main definitions

* `Input`: The unread text and how much was read before it.
* `Progress`: What was read and the input after it, or a fault.
* `Enclosure`: What surrounds the nodes being read.
* `readString`, `readToken`: The leaves.
* `readNodes`: The nodes up to the end of their enclosure.
* `readNode`: One node.
* `parse`: The nodes of a text.
-/

namespace AttrExpr

namespace Parse

/-- The unread part of a text, and how many bytes come before it. The reader
    never looks back, so of what it has read only the length is kept. -/
structure Input where
  rest : List Char
  offset : Nat
deriving DecidableEq, Repr

namespace Input

def ofString (source : String) : Input := ⟨source.toList, 0⟩

/-- The input after the characters `taken`, when `rest` follows them. -/
def after (input : Input) (taken rest : List Char) : Input :=
  ⟨rest, input.offset + Text.byteLength taken⟩

/-- The input without the blanks it begins with. The blanks are still counted,
    so the spans behind them stay exact. -/
def skipBlanks (input : Input) : Input :=
  input.after (input.rest.takeWhile isBlank) (input.rest.dropWhile isBlank)

/-- Where the text ends. -/
def stop (input : Input) : Nat := input.offset + Text.byteLength input.rest

end Input

/-- What reading comes to: something read and the input after it, or the
    first fault. -/
abbrev Progress (α : Type) := Except ParseError (α × Input)

/-- What surrounds the nodes being read. It decides what may end them, and a
    group remembers its own start, which is where an unclosed one is reported
    to begin. -/
inductive Enclosure where
  /-- Nothing does: they are the nodes of the whole text. -/
  | text
  /-- A group whose opening bracket stands at `start`. -/
  | group (bracket : Bracket) (start : Nat)
deriving DecidableEq, Repr

namespace Enclosure

/-- What the end of the text means here: nothing is amiss at the top, and a
    group that is still open is a fault that reaches from its bracket to the
    end. -/
def atEnd (enclosure : Enclosure) (nodes : List Node) (input : Input) :
    Progress (List Node) :=
  match enclosure with
  | text => .ok (nodes, input)
  | group bracket start =>
      .error ⟨.unterminatedGroup bracket.opening, Span.ofRange start input.offset⟩

/-- What a closing bracket means here; `rest` follows it. At the top any is one
    too many, and in a group only its own is right. A fault covers the one
    bracket found and not the group. -/
def atCloser (enclosure : Enclosure) (nodes : List Node) (found : Bracket) (input : Input)
    (rest : List Char) : Progress (List Node) :=
  let beyond := input.after [found.closing] rest
  match enclosure with
  | text =>
      .error ⟨.unexpectedCloser found.closing, Span.ofRange input.offset beyond.offset⟩
  | group bracket _ =>
      if found = bracket then .ok (nodes, beyond)
      else
        .error ⟨.mismatchedCloser bracket.closing found.closing,
          Span.ofRange input.offset beyond.offset⟩

end Enclosure

/-- Reads a string whose opening quote has been read; `rest` follows it. The
    input is the one at that quote, so the span covers both quotes, and a string
    without an end is reported from its quote to the end of the text. -/
def readString (input : Input) (rest : List Char) : Progress Node :=
  match closeString? false rest with
  | none => .error ⟨.unterminatedString, Span.ofRange input.offset input.stop⟩
  | some (body, rest) =>
      let beyond := input.after ('\'' :: (body ++ ['\''])) rest
      .ok (.string (stringValue body) (Span.ofRange input.offset beyond.offset), beyond)

/-- Reads the token at the front of the input. The token is cut out before it is
    looked at, so a bad number is no reason to end it elsewhere; its error
    covers the token only as far as the character at fault. -/
def readToken (input : Input) : Progress Node :=
  let token := input.rest.takeWhile fun c => !isDelimiter c
  let beyond := input.after token (input.rest.dropWhile fun c => !isDelimiter c)
  let span := Span.ofRange input.offset beyond.offset
  if startsNumber token then
    match readNumber token with
    | .ok value => .ok (.number value span, beyond)
    | .error (fault, seen) =>
        .error ⟨.number fault (String.ofList seen),
          Span.ofRange input.offset (input.offset + Text.byteLength seen)⟩
  else .ok (.symbol (String.ofList token) span, beyond)

/-- Reads the node at the front of the input, which has to be neither at its
    end nor at a blank or closing bracket. `readGroup` reads what an
    enclosure holds, after the nodes already read. -/
def readNodeWith (readGroup : Enclosure → List Node → Input → Progress (List Node))
    (input : Input) : Progress Node :=
  match input.rest with
  | [] => readToken input
  | c :: rest =>
      match Bracket.ofOpening? c with
      | some bracket =>
          match readGroup (.group bracket input.offset) [] (input.after [c] rest) with
          | .error e => .error e
          | .ok (children, beyond) =>
              .ok (.group bracket children (Span.ofRange input.offset beyond.offset), beyond)
      | none => if c = '\'' then readString input rest else readToken input

/-- Reads nodes up to the end of their enclosure, which is read as well.
    `read` holds the nodes before, the last one first, and `bound` is at
    least the number of characters left. -/
def readNodes (bound : Nat) (enclosure : Enclosure) (read : List Node) (input : Input) :
    Progress (List Node) :=
  match bound with
  | 0 => enclosure.atEnd read.reverse input
  | bound + 1 =>
      let input := input.skipBlanks
      match input.rest with
      | [] => enclosure.atEnd read.reverse input
      | c :: rest =>
          match Bracket.ofClosing? c with
          | some found => enclosure.atCloser read.reverse found input rest
          | none =>
              match readNodeWith (readNodes bound) input with
              | .error e => .error e
              | .ok (node, beyond) => readNodes bound enclosure (node :: read) beyond

/-- Reads the node at the front of the input; `bound` is at least the number
    of characters after the first. -/
def readNode (bound : Nat) (input : Input) : Progress Node :=
  readNodeWith (readNodes bound) input

end Parse

/-- The nodes a text writes, in order, or its first fault. A text of blanks
    writes none. -/
def parse (source : String) : Except ParseError (List Node) :=
  let input := Parse.Input.ofString source
  (Parse.readNodes input.rest.length .text [] input).map Prod.fst

end AttrExpr
