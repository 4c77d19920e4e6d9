import AttrExpr.Proofs.Node.ReadBack

/-!
# The Text of a Subtree

A node that was read somewhere in a text was read from a part of it, and that
part alone writes the node again.

The grammar derives a node from its own characters and from no others, but it
does so at a position. Standing by itself the same text begins at zero, so all
of its spans move, and nothing else about it changes. What may follow a token
is no obstacle: at the end of a text every token ends.

The span of a node is the range of its part. In a text beyond the limit that
range may not be recorded exactly, but the part is there all the same.

## Main definitions

* `Node.subtrees`, `Node.subtreesAll`: All nodes of trees.

## Theorems

* `Sequence.exists_text`: Every node of a derived sequence has a text.
* `Sequence.exists_relocated`: A text writes the same trees wherever it
  stands.
* `parse_subtree`: Every node that was read has a part of the text, which
  reads as the node.
-/

namespace AttrExpr

namespace Node

mutual

/-- The tree and all trees in it, in preorder: a group comes before what it
    holds. -/
def subtrees : Node → List Node
  | number value span => [number value span]
  | string value span => [string value span]
  | symbol name span => [symbol name span]
  | group bracket children span => group bracket children span :: subtreesAll children

/-- The trees and all trees in them. -/
def subtreesAll : List Node → List Node
  | [] => []
  | node :: nodes => subtrees node ++ subtreesAll nodes

end

theorem mem_subtrees (node : Node) : node ∈ subtrees node := by
  cases node with
  | number value span => exact List.mem_cons_self
  | string value span => exact List.mem_cons_self
  | symbol name span => exact List.mem_cons_self
  | group bracket children span => exact List.mem_cons_self

end Node

namespace Parse

open Node

theorem Leaf.span_eq {span : Span} {token rest : List Char} {node : Node}
    (h : Leaf span token rest node) : node.span = span := by
  cases h with
  | string hbody => rfl
  | symbol htoken hends => rfl
  | number hvalue hends => rfl

theorem Leaf.subtrees_eq {span : Span} {token rest : List Char} {node : Node}
    (h : Leaf span token rest node) : subtrees node = [node] := by
  cases h with
  | string hbody => rfl
  | symbol htoken hends => rfl
  | number hvalue hends => rfl

/-- Wherever a text stands it writes the same trees, spans aside, and however
    places are recorded there. Unlike in `Sequence.relocate` nothing has to
    lead from the old spans to the new ones, which is why a text can be taken
    back to the beginning from a place that was not recorded exactly. -/
theorem Sequence.exists_relocated {locate : Nat → Nat → Span} {start : Nat} {text : List Char}
    {nodes : List Node} (h : Sequence locate start text nodes) (locate' : Nat → Nat → Span)
    (start' : Nat) :
    ∃ moved, Sequence locate' start' text moved ∧ bareAll moved = bareAll nodes := by
  induction h generalizing start' with
  | nil start => exact ⟨[], Sequence.nil start', rfl⟩
  | blank hblank _ ih =>
      rcases ih (start' + _) with ⟨moved, hmoved, hbare⟩
      exact ⟨moved, Sequence.blank hblank hmoved, hbare⟩
  | @leaf start token rest node nodes hleaf _ ih =>
      -- A leaf is the same one with any span, so it can be given the new one.
      have hfirst := hleaf.relocate fun _ => locate' start' (start' + Text.byteLength token)
      rcases ih (start' + Text.byteLength token) with ⟨moved, hmoved, hbares⟩
      refine ⟨_, Sequence.leaf hfirst hmoved, ?_⟩
      rw [bareAll_cons, bareAll_cons, bare_relocate, hbares]
  | @group start bracket body rest children nodes _ _ ihbody ihrest =>
      rcases ihbody (start' + 1) with ⟨inner, hinner, hbare⟩
      rcases ihrest (start' + (Text.byteLength body + 2)) with ⟨moved, hmoved, hbares⟩
      refine ⟨_, Sequence.group bracket hinner hmoved, ?_⟩
      rw [bareAll_cons, bareAll_cons, bare_group, bare_group, hbare, hbares]

/-- A node in a derived sequence has a text of its own, whose range is its
    span. The induction follows the derivation, and each step puts what it
    passes in front of the text that is found. -/
theorem Sequence.exists_text {locate : Nat → Nat → Span} {start : Nat} {text : List Char}
    {nodes : List Node} (h : Sequence locate start text nodes) {node : Node}
    (hnode : node ∈ subtreesAll nodes) :
    ∃ front own back, text = front ++ (own ++ back) ∧
      node.span = locate (start + Text.byteLength front)
        (start + Text.byteLength front + Text.byteLength own) ∧
      Sequence locate (start + Text.byteLength front) own [node] := by
  induction h generalizing node with
  | nil start => exact absurd hnode List.not_mem_nil
  | @blank start c text nodes hblank _ ih =>
      rcases ih hnode with ⟨front, own, back, rfl, hspan, hown⟩
      rw [Nat.add_assoc start] at hspan hown
      exact ⟨c :: front, own, back, rfl, hspan, hown⟩
  | @leaf start token rest first nodes hleaf _ ih =>
      rw [subtreesAll, hleaf.subtrees_eq, List.singleton_append] at hnode
      rcases List.mem_cons.mp hnode with rfl | hnode
      · -- The leaf is written by its token, and that ends at the end of a text.
        have halone : Leaf (locate start (start + Text.byteLength token)) token [] node :=
          Leaf.of_append (hleaf : Leaf _ token ([] ++ rest) node)
        refine ⟨[], token, rest, rfl, hleaf.span_eq, ?_⟩
        have hown := Sequence.leaf halone (Sequence.nil _)
        rwa [List.append_nil] at hown
      · rcases ih hnode with ⟨front, own, back, rfl, hspan, hown⟩
        rw [Nat.add_assoc start, ← Text.byteLength_append] at hspan hown
        exact ⟨token ++ front, own, back, (List.append_assoc _ _ _).symm, hspan, hown⟩
  | @group start bracket body rest children nodes hbody _ ihbody ihrest =>
      rw [subtreesAll, subtrees, List.cons_append] at hnode
      rcases List.mem_cons.mp hnode with rfl | hnode
      · -- The group itself, from its opening bracket to its closing one.
        refine ⟨[], bracket.opening :: (body ++ [bracket.closing]), rest, ?_, ?_, ?_⟩
        · simp only [List.nil_append, List.cons_append, List.append_assoc]
        · rw [byteLength_group]
          rfl
        · exact Sequence.group bracket hbody (Sequence.nil _)
      · rcases List.mem_append.mp hnode with hnode | hnode
        · -- Inside, the opening bracket comes in front.
          rcases ihbody hnode with ⟨front, own, back, rfl, hspan, hown⟩
          have hopening : Text.byteLength (bracket.opening :: front) =
              1 + Text.byteLength front := by
            rw [← byteLength_opening bracket, ← Text.byteLength_append, List.singleton_append]
          rw [Nat.add_assoc start, ← hopening] at hspan hown
          refine ⟨bracket.opening :: front, own, back ++ bracket.closing :: rest, ?_, hspan, hown⟩
          simp only [List.cons_append, List.append_assoc]
        · -- Behind it, all of the group comes in front.
          rcases ihrest hnode with ⟨front, own, back, rfl, hspan, hown⟩
          have hgroup := byteLength_group bracket body front
          rw [Nat.add_assoc start, ← hgroup] at hspan hown
          refine ⟨bracket.opening :: (body ++ bracket.closing :: front), own, back, ?_, hspan, hown⟩
          simp only [List.cons_append, List.append_assoc]

/-- Every node that was read was read from a part of the text, whose range is
    its span, and that part alone reads as the node. Whoever has a span can
    therefore cut out a text that stands for the node. -/
theorem parse_subtree {source : String} {nodes : List Node} (h : parse source = .ok nodes)
    {node : Node} (hnode : node ∈ subtreesAll nodes) :
    ∃ front own back, source.toList = front ++ (own ++ back) ∧
      node.span = Span.ofRange (Text.byteLength front)
        (Text.byteLength front + Text.byteLength own) ∧
      ∃ alone, parse (String.ofList own) = .ok [alone] ∧ alone.bare = node.bare := by
  rcases (parse_eq_ok_iff_ofRange.mp h).exists_text hnode with
    ⟨front, own, back, hsource, hspan, hown⟩
  rw [Nat.zero_add] at hspan
  refine ⟨front, own, back, hsource, hspan, ?_⟩
  rcases hown.exists_relocated Span.ofRange 0 with ⟨moved, hmoved, hbare⟩
  -- One tree is written, so it is the one that was moved.
  rcases moved with _ | ⟨alone, _ | ⟨other, more⟩⟩
  · cases hbare
  · simp only [bareAll_cons, List.cons.injEq, bareAll_nil, and_true] at hbare
    exact ⟨alone, parse_eq_ok_iff_ofRange.mpr (by rwa [String.toList_ofList]), hbare⟩
  · simp only [bareAll_cons, bareAll_nil, List.cons.injEq, reduceCtorEq, and_false] at hbare

end Parse

end AttrExpr
