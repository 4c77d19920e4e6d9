import AttrExpr.Node.Printer
import AttrExpr.Text.Quoted

/-!
# Outlines of Expressions

A tree as a list of lines.

The preorder of a tree, each node with its depth, says everything about the
tree's shape. An outline writes one line per entry of it, indented by two
spaces a level. Line breaks inside a string do not add lines, because strings
are written as quoted text there.

## Main definitions

* `Node.preorder`: Every node of a tree with its depth, parents first.
* `Node.outline`: The lines of a sequence of trees.

## Theorems

* `preorderOnto_eq_append`: What is put in front does not depend on what
  follows.
-/

namespace AttrExpr

namespace Node

mutual

/-- Puts the nodes of a tree that stands at `depth` in front of `rest`. -/
def preorderOnto (depth : Nat) (node : Node) (rest : List (Nat × Node)) : List (Nat × Node) :=
  match node with
  | number value span => (depth, number value span) :: rest
  | string value span => (depth, string value span) :: rest
  | symbol name span => (depth, symbol name span) :: rest
  | group bracket children span =>
      (depth, group bracket children span) :: preorderAllOnto (depth + 1) children rest

/-- Puts the nodes of several trees in front of `rest`. -/
def preorderAllOnto (depth : Nat) (nodes : List Node) (rest : List (Nat × Node)) :
    List (Nat × Node) :=
  match nodes with
  | [] => rest
  | node :: nodes => preorderOnto depth node (preorderAllOnto depth nodes rest)

end

/-- Every node of the tree with its depth below the top, each before its
    children. -/
def preorder (node : Node) : List (Nat × Node) := preorderOnto 0 node []

/-- What a leaf says about itself, and nothing for a group, whose children have
    lines of their own. A string is quoted here with all escapes, so that its
    line stays one line. -/
def leafText : Node → String
  | number value _ => " " ++ value.literal
  | string value _ => " " ++ Text.Quoted.encode value
  | symbol name _ => " " ++ name
  | group _ _ _ => ""

/-- The line of a node that stands at a given depth. -/
def outlineLine (depth : Nat) (node : Node) : String :=
  String.ofList (List.replicate (2 * depth) ' ') ++ node.kindName ++ node.leafText
    ++ " @" ++ node.span.text ++ "\n"

/-- The lines of a sequence of trees, one below the other. Every line carries
    its own end, so the outline of nothing is empty. -/
def outline (nodes : List Node) : String :=
  String.join ((preorderAllOnto 0 nodes []).map fun entry => outlineLine entry.1 entry.2)

mutual

/-- The entries of a tree do not depend on what follows them. -/
theorem preorderOnto_eq_append (depth : Nat) (node : Node) (rest : List (Nat × Node)) :
    preorderOnto depth node rest = preorderOnto depth node [] ++ rest := by
  match node with
  | number _ _ => simp only [preorderOnto, List.cons_append, List.nil_append]
  | string _ _ => simp only [preorderOnto, List.cons_append, List.nil_append]
  | symbol _ _ => simp only [preorderOnto, List.cons_append, List.nil_append]
  | group _ children _ =>
      simp only [preorderOnto, List.cons_append]
      rw [preorderAllOnto_eq_append]

theorem preorderAllOnto_eq_append (depth : Nat) (nodes : List Node) (rest : List (Nat × Node)) :
    preorderAllOnto depth nodes rest = preorderAllOnto depth nodes [] ++ rest := by
  match nodes with
  | [] => simp only [preorderAllOnto, List.nil_append]
  | node :: nodes =>
      simp only [preorderAllOnto]
      rw [preorderOnto_eq_append depth node, preorderAllOnto_eq_append depth nodes rest,
        preorderOnto_eq_append depth node (preorderAllOnto depth nodes []), List.append_assoc]

end

end Node

end AttrExpr
