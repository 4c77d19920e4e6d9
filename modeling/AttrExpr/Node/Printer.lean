import AttrExpr.Node.Basic

/-!
# Writing Expressions

A tree as source text again.

Groups are written with single spaces between their children and none inside
the brackets, so the text of a tree is canonical: two trees that differ in
their spans only are written alike. A string is put back between quotes with
each quote inside it escaped.

## Main definitions

* `Node.text`: The source text of a tree.
* `Node.textAll`: The source text of a sequence of trees.

## Theorems

* `textAll_cons_cons`: Neighbours are separated by one space.
-/

namespace AttrExpr

namespace Node

/-- A string literal: the value between single quotes, each single quote in
    it after a backslash. A backslash of the value is not escaped, but no text
    that is read has one in a value. -/
def quoted (value : String) : String :=
  "'" ++ String.ofList (value.toList.flatMap fun c => if c = '\'' then ['\\', c] else [c]) ++ "'"

mutual

/-- The source text of a tree. -/
def text : Node → String
  | number value _ => value.literal
  | string value _ => quoted value
  | symbol name _ => name
  | group bracket children _ =>
      bracket.opening.toString ++ textAll children ++ bracket.closing.toString

/-- The source text of a sequence of trees, one space apart. -/
def textAll : List Node → String
  | [] => ""
  | node :: rest =>
      match rest with
      | [] => text node
      | _ :: _ => text node ++ " " ++ textAll rest

end

theorem textAll_singleton (node : Node) : textAll [node] = text node := by
  simp only [textAll]

theorem textAll_cons_cons (a b : Node) (rest : List Node) :
    textAll (a :: b :: rest) = text a ++ " " ++ textAll (b :: rest) := by
  simp only [textAll]

end Node

end AttrExpr
