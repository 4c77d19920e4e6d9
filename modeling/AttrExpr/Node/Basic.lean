import AttrExpr.Number
import AttrExpr.Span

/-!
# Expression Trees

What an attribute expression is once it has been read.

There are five kinds of node: numbers, strings and symbols at the leaves, and
two kinds of group, which differ in their brackets only. A group in round
brackets is a call of what stands first in it; a group in square brackets is
a vector of values. Keeping one constructor for both means that whatever does
not care for the difference, such as writing a tree out or walking it, says
so by having one case.

Every node remembers the span it was read from.

## Main definitions

* `Bracket`: The two pairs of brackets.
* `Node`: An expression.
* `Node.same`: Equality of trees, spans included.
* `Node.sameShape`: Equality of trees but for the outermost span.

## Theorems

* `ofOpening?_opening`, `ofClosing?_closing`: A bracket is known by either of
  its characters.
-/

namespace AttrExpr

/-- A pair of brackets. The two pairs never close each other, and that is all
    that reading has to know of them; only an evaluation gives them different
    meanings. -/
inductive Bracket where
  | round
  | square
deriving DecidableEq, Repr, Inhabited

namespace Bracket

def opening : Bracket → Char
  | round => '('
  | square => '['

def closing : Bracket → Char
  | round => ')'
  | square => ']'

/-- The bracket a character opens, if it opens one. Asking for the pair and not
    for a truth value lets a group remember what it has to be closed with. -/
def ofOpening? : Char → Option Bracket
  | '(' => some round
  | '[' => some square
  | _ => none

/-- The bracket a character closes, if it closes one. A closing bracket ends a
    run of nodes whichever it is; whether it is the right one is asked after. -/
def ofClosing? : Char → Option Bracket
  | ')' => some round
  | ']' => some square
  | _ => none

/-- What a group in these brackets is called in messages, where the brackets
    themselves would not be told from the text around them. -/
def groupName : Bracket → String
  | round => "list"
  | square => "vector"

theorem ofOpening?_opening (b : Bracket) : ofOpening? b.opening = some b := by
  cases b with
  | round => rfl
  | square => rfl

theorem ofClosing?_closing (b : Bracket) : ofClosing? b.closing = some b := by
  cases b with
  | round => rfl
  | square => rfl

end Bracket

/-- An expression and where it stood in the source. The span of a group covers
    its brackets, and that of a string its quotes, so what a node was read from
    can be cut out of the source whatever kind it is. -/
inductive Node where
  /-- A number literal. -/
  | number (value : Number) (span : Span)
  /-- A string literal, escapes already resolved. -/
  | string (value : String) (span : Span)
  /-- A name, looked up when the expression is evaluated. -/
  | symbol (name : String) (span : Span)
  /-- A call in round brackets or a vector in square ones. -/
  | group (bracket : Bracket) (children : List Node) (span : Span)
deriving Inhabited

namespace Node

def span : Node → Span
  | number _ span => span
  | string _ span => span
  | symbol _ span => span
  | group _ _ span => span

/-- The kind of a node, as messages name it. A group is named for its brackets,
    since that is what its writer sees. -/
def kindName : Node → String
  | number _ _ => "number"
  | string _ _ => "string"
  | symbol _ _ => "symbol"
  | group bracket _ _ => bracket.groupName

/-- The name, if the node is a symbol. -/
def symbol? : Node → Option String
  | symbol name _ => some name
  | _ => none

/-- The value, if the node is a number. -/
def number? : Node → Option Number
  | number value _ => some value
  | _ => none

/-- What the group holds; leaves hold nothing, so a walk over a tree needs no
    case for them. -/
def children : Node → List Node
  | group _ children _ => children
  | _ => []

mutual

/-- Equality of trees, with their spans. Numbers compare as numbers do, so a
    tree holding what is not a number differs from itself, and two trees with
    the two zeros in one place are the same although they are written
    differently. -/
def same : Node → Node → Bool
  | number a s, number b t => a.same b && s == t
  | string a s, string b t => a == b && s == t
  | symbol a s, symbol b t => a == b && s == t
  | group p as s, group q bs t => p == q && sameAll as bs && s == t
  | _, _ => false

/-- Equality of sequences of trees, one by one and with nothing left over. -/
def sameAll : List Node → List Node → Bool
  | [], [] => true
  | a :: as, b :: bs => same a b && sameAll as bs
  | _, _ => false

end

/-- Equality of trees in which the span of the outermost node does not count,
    although the spans inside it do. What it compares is a node without its
    place, and the children of a node are nodes with theirs. -/
def sameShape : Node → Node → Bool
  | number a _, number b _ => a.same b
  | string a _, string b _ => a == b
  | symbol a _, symbol b _ => a == b
  | group p as _, group q bs _ => p == q && sameAll as bs
  | _, _ => false

end Node

end AttrExpr
