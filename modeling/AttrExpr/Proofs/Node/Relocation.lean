import AttrExpr.Node.Basic

/-!
# Trees with Other Spans

The same tree, with something else said about where it stands.

Spans change for three reasons. Two trees are compared without their places,
which is to say that both are made to stand nowhere. A text that stands further
on in another one has all its places further on. And a place that may already
have been pushed back to the limit on spans is pushed back again when it goes
further on, so it does not move by an addition. In all three a tree is gone
through once and nothing but its spans is touched, so there is one such walk
and what becomes of a span is its parameter. Whatever holds of every change of
spans is then said once, and the three are cases of it.

## Main definitions

* `Node.relocate`, `Node.relocateAll`: Trees with other spans.
* `Node.bare`, `Node.bareAll`: Trees that stand nowhere.
* `Span.shift`, `Node.shift`, `Node.shiftAll`: Trees that stand further on.

## Theorems

* `relocate_id`: A tree with the spans it has is the tree.
* `relocate_relocate`: Spans are changed twice by changing them once.
* `bare_relocate`: Other spans make no difference to a tree without any.
-/

namespace AttrExpr

/-- The span `n` bytes further on. The bounds of the span are not looked at, so
    this is how exact places move, which are kept without a limit. -/
def Span.shift (n : Nat) (span : Span) : Span := ⟨span.start + n, span.stop + n⟩

namespace Node

mutual

/-- The tree with other spans, `f` saying what becomes of each. The shape of the
    tree and everything its leaves hold stay. -/
def relocate (f : Span → Span) : Node → Node
  | number value span => number value (f span)
  | string value span => string value (f span)
  | symbol name span => symbol name (f span)
  | group bracket children span => group bracket (relocateAll f children) (f span)

/-- The trees with other spans. -/
def relocateAll (f : Span → Span) : List Node → List Node
  | [] => []
  | node :: rest => relocate f node :: relocateAll f rest

end

/-- The tree, standing nowhere. Two trees that were read from different places
    are compared in this form, since their spans cannot be expected to agree. -/
def bare (node : Node) : Node := node.relocate fun _ => Span.dummy

/-- The trees, standing nowhere. -/
def bareAll (nodes : List Node) : List Node := relocateAll (fun _ => Span.dummy) nodes

/-- The tree with all its spans `n` bytes further on, as it is read behind `n`
    other bytes. -/
def shift (n : Nat) (node : Node) : Node := node.relocate (Span.shift n)

/-- The trees with all their spans `n` bytes further on. -/
def shiftAll (n : Nat) (nodes : List Node) : List Node := relocateAll (Span.shift n) nodes

@[simp] theorem bare_group (bracket : Bracket) (children : List Node) (span : Span) :
    (group bracket children span).bare = group bracket (bareAll children) Span.dummy := rfl

@[simp] theorem bareAll_nil : bareAll [] = [] := rfl

@[simp] theorem bareAll_cons (node : Node) (rest : List Node) :
    bareAll (node :: rest) = node.bare :: bareAll rest := rfl

mutual

/-- A tree with the spans it has is the tree. -/
theorem relocate_id (node : Node) : node.relocate id = node := by
  match node with
  | number value span => rfl
  | string value span => rfl
  | symbol name span => rfl
  | group bracket children span => rw [relocate, relocateAll_id children, id]

theorem relocateAll_id (nodes : List Node) : relocateAll id nodes = nodes := by
  match nodes with
  | [] => rfl
  | node :: rest => rw [relocateAll, relocate_id node, relocateAll_id rest]

end

mutual

/-- Spans are changed twice by changing them once. -/
theorem relocate_relocate (f g : Span → Span) (node : Node) :
    (node.relocate f).relocate g = node.relocate (g ∘ f) := by
  match node with
  | number value span => rfl
  | string value span => rfl
  | symbol name span => rfl
  | group bracket children span =>
      rw [relocate, relocate, relocate, relocateAll_relocateAll f g children, Function.comp_apply]

theorem relocateAll_relocateAll (f g : Span → Span) (nodes : List Node) :
    relocateAll g (relocateAll f nodes) = relocateAll (g ∘ f) nodes := by
  match nodes with
  | [] => rfl
  | node :: rest =>
      rw [relocateAll, relocateAll, relocateAll, relocate_relocate f g node,
        relocateAll_relocateAll f g rest]

end

/-- Other spans make no difference to a tree without any, because whatever a
    span was changed to is forgotten again. -/
theorem bare_relocate (f : Span → Span) (node : Node) : (node.relocate f).bare = node.bare :=
  relocate_relocate f (fun _ => Span.dummy) node

end Node

end AttrExpr
