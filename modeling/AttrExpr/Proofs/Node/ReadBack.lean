import AttrExpr.Proofs.Node.Literal
import AttrExpr.Proofs.Parse.Derivation

/-!
# Written Trees Read Back

The text of a tree is read as the tree, spans aside, if its leaves allow it,
and otherwise it is not.

Two things can go wrong with a leaf. A symbol has to be a name and a string
must not hold a backslash, which reading would take away; a tree that was read
has no other leaves. A float has to be one that is written out. What the text
of a tree reads as is said for all trees of the first kind at once: there is a
fault or another tree exactly if some float is in the way. What stands between
two children or behind the last one ends a token, so it makes no difference to
a child that others follow it.

## Main definitions

* `Node.leaves`: The leaves of a tree.
* `Node.PlainLeaf`, `Node.WritableLeaf`: The two conditions on a leaf.
* `Outcome`: What a text reads as, compared with what it was written for.

## Theorems

* `outcome_text`, `outcome_textAll`: What the text of plain trees reads as.
* `readsBack_iff`: When plain trees read back.
* `plainLeaf_of_sequence`: The leaves of trees that were read are plain.
* `parse_textAll`: Printable trees read back.
* `parse_textAll_iff`: Trees that were read read back again exactly if their
  floats are written out.
-/

namespace AttrExpr

open Parse

namespace Node

mutual

/-- The nodes of the tree that are no groups. Only these can keep a tree from
    reading back, since brackets and what is between them are written as they
    are read. -/
def leaves : Node → List Node
  | number value span => [number value span]
  | string value span => [string value span]
  | symbol name span => [symbol name span]
  | group _ children _ => leavesAll children

/-- The leaves of several trees. -/
def leavesAll : List Node → List Node
  | [] => []
  | node :: nodes => leaves node ++ leavesAll nodes

end

/-- A symbol is a name, and a string has no backslash to lose. Every leaf that
    was read is such a one, so the condition is about trees made otherwise. -/
def PlainLeaf : Node → Prop
  | string value _ => '\\' ∉ value.toList
  | symbol name _ => SymbolToken name.toList
  | _ => True

/-- A number is one whose literal reads back. This is the condition that trees
    which were read may fail, with floats that are written in exponents. -/
def WritableLeaf : Node → Prop
  | number value _ => value.Writable
  | _ => True

end Node

namespace Parse

/-- What was read, compared with what was written: all of the text up to
    `beyond`, and the same exactly if that was writable. A fault is met only
    if it was not. Both directions of the final equivalence are in the one
    statement, so they are carried through the trees together. -/
def Outcome {α : Type} (same : α → Prop) (writable : Prop) (beyond : Input) : Progress α → Prop
  | .error _ => ¬ writable
  | .ok (value, last) => last = beyond ∧ (same value ↔ writable)

/-- The outcome of reading a leaf that has the same meaning anywhere. The leaf
    that is read need not be the one that was written; `h` compares them. -/
theorem outcome_of_leaf {token tail : List Char} {offset : Nat} {node : Node} {same : Node → Prop}
    {writable : Prop}
    (hleaf : Leaf (Span.ofRange offset (offset + Text.byteLength token)) token tail node)
    (h : same node ↔ writable) :
    Outcome same writable ⟨tail, offset + Text.byteLength token⟩
      (readOne ⟨token ++ tail, offset⟩) := by
  rw [readOne_of_leaf hleaf]
  exact ⟨rfl, h⟩

/-- A token that has to be a number and is not is a fault. -/
theorem outcome_of_badNumberToken {token tail : List Char} {offset : Nat} {same : Node → Prop}
    {writable : Prop} {beyond : Input} (htoken : BadNumberToken token) (htail : TokenEnds tail)
    (h : ¬ writable) : Outcome same writable beyond (readOne ⟨token ++ tail, offset⟩) := by
  rcases htoken.bad with ⟨⟨fault, seen⟩, hbad⟩
  have hread := (token_append offset htoken.inside htail).1
  have hstart := htoken.starts
  rw [← hread] at hstart hbad
  rw [readOne_append offset (ne_nil_of_startsNumber htoken.starts) htoken.inside
      (head?_ne_quote_of_startsNumber htoken.starts), readToken_badNumber hstart hbad]
  exact h

end Parse

namespace Node

/-! ## Leaves -/

/-- What the literal of a number reads as. One that is not writable reads as a
    symbol if it reads at all: `inf` and `NaN` are names, and an exponent is a
    fault. -/
theorem outcome_literal (value : Number) (span : Span) {tail : List Char} (htail : TokenEnds tail)
    (offset : Nat) :
    Outcome (fun other => other.bare = (number value span).bare) value.Writable
      ⟨tail, offset + Text.byteLength value.literal.toList⟩
      (readOne ⟨value.literal.toList ++ tail, offset⟩) := by
  by_cases hwritable : value.Writable
  · exact outcome_of_leaf (Leaf.number (Number.numeral_literal hwritable) htail)
      ⟨fun _ => hwritable, fun _ => rfl⟩
  · rcases Number.literal_of_not_writable hwritable with hsymbol | hbad
    · -- It is read, but as a name and not as a number.
      have hother : ∀ name place, (symbol name place).bare ≠ (number value span).bare :=
        fun _ _ => Node.noConfusion
      exact outcome_of_leaf (Leaf.symbol hsymbol htail) (iff_of_false (hother _ _) hwritable)
    · exact outcome_of_badNumberToken hbad htail hwritable

/-- A group is its children between two brackets, whichever they are. -/
theorem toList_group (bracket : Bracket) (children : List Node) (span : Span) :
    (text (group bracket children span)).toList =
      bracket.opening :: ((textAll children).toList ++ [bracket.closing]) := by
  rw [text, String.toList_append, String.toList_append, List.append_assoc]
  cases bracket with
  | round => rfl
  | square => rfl

/-- No text of a tree begins with a blank or a closing bracket, so a node is
    read where it begins. -/
theorem atNode_text {node : Node} (hplain : ∀ leaf ∈ leaves node, PlainLeaf leaf)
    (tail : List Char) (offset : Nat) : (Input.mk ((text node).toList ++ tail) offset).AtNode := by
  cases node with
  | number value span =>
      rw [text]
      by_cases hwritable : value.Writable
      · have hnumeral := Number.numeral_literal hwritable
        exact atNode_append tail offset (ne_nil_of_startsNumber hnumeral.startsNumber)
          hnumeral.inside
      · -- What is not read back still begins a token, a symbol or a bad number.
        rcases Number.literal_of_not_writable hwritable with hsymbol | hbad
        · exact atNode_append tail offset hsymbol.nonempty hsymbol.inside
        · exact atNode_append tail offset (ne_nil_of_startsNumber hbad.starts) hbad.inside
  | string value span =>
      rw [text, toList_quoted]
      exact ⟨'\'', _, rfl, rfl, rfl⟩
  | symbol name span =>
      have hsymbol : SymbolToken name.toList := hplain (symbol name span) List.mem_cons_self
      rw [text]
      exact atNode_append tail offset hsymbol.nonempty hsymbol.inside
  | group bracket children span =>
      rw [toList_group]
      exact atNode_opening bracket _ offset

/-! ## Trees -/

/-- A group comes out as what is in it does. The hypothesis is about the whole
    of its inside, closing bracket included, as the reader goes over it. -/
theorem outcome_group {bracket : Bracket} {children : List Node} {span : Span} {tail : List Char}
    {offset : Nat} {writable : Prop} {beyond : Input}
    (h : Outcome (fun others => bareAll others = bareAll children) writable beyond
      (readAll (.group bracket offset)
        ⟨(textAll children).toList ++ bracket.closing :: tail, offset + 1⟩)) :
    Outcome (fun other => other.bare = (group bracket children span).bare) writable beyond
      (readOne ⟨(text (group bracket children span)).toList ++ tail, offset⟩) := by
  -- The bracket opens a group, and the children are read up to its end.
  have htext : (text (group bracket children span)).toList ++ tail =
      bracket.opening :: ((textAll children).toList ++ bracket.closing :: tail) := by
    rw [toList_group, List.cons_append, List.append_assoc, List.singleton_append]
  rw [htext, readOne_group rfl, Input.after, byteLength_opening]
  rcases hread : readAll (.group bracket offset)
      ⟨(textAll children).toList ++ bracket.closing :: tail, offset + 1⟩ with e | ⟨others, last⟩
  · rw [hread] at h
    exact h
  · rw [hread] at h
    rcases h with ⟨rfl, hsame⟩
    constructor
    · rfl
    · -- The brackets agree, so all depends on the children.
      simp only [bare_group, group.injEq, true_and, and_true]
      exact hsame

/-- A sequence comes out as its first node and the others do. The two outcomes
    meet at `middle`, which is where the first says it ends. -/
theorem outcome_cons {enclosure : Enclosure} {input middle last : Input} {node : Node}
    {nodes : List Node} {writable writable' : Prop} (hat : input.AtNode)
    (hnode : Outcome (fun other => other.bare = node.bare) writable middle (readOne input))
    (hnodes : Outcome (fun others => bareAll others = bareAll nodes) writable' last
      (readAll enclosure middle)) :
    Outcome (fun others => bareAll others = bareAll (node :: nodes)) (writable ∧ writable') last
      (readAll enclosure input) := by
  rcases hone : readOne input with e | ⟨other, beyond⟩
  · -- A fault of the first node is the fault of the sequence.
    rw [hone] at hnode
    rw [readAll_badNode hat hone]
    exact fun h => hnode h.1
  · rw [hone] at hnode
    rcases hnode with ⟨rfl, hsame⟩
    rw [readAll_node hat hone]
    rcases hread : readAll enclosure beyond with e | ⟨others, finish⟩
    · rw [hread] at hnodes
      exact fun h => hnodes h.2
    · rw [hread] at hnodes
      rcases hnodes with ⟨rfl, hsame'⟩
      constructor
      · rfl
      · -- Both parts were read to their ends, and each may have changed.
        simp only [bareAll_cons, List.cons.injEq, hsame, hsame']

mutual

/-- What the text of a plain tree reads as, where it is followed by the end of
    a token. The induction is on the tree, mutual with the one on sequences,
    and all that comes behind is generalised. -/
theorem outcome_text (node : Node) (hplain : ∀ leaf ∈ leaves node, PlainLeaf leaf)
    {tail : List Char} (htail : TokenEnds tail) (offset : Nat) :
    Outcome (fun other => other.bare = node.bare) (∀ leaf ∈ leaves node, WritableLeaf leaf)
      ⟨tail, offset + Text.byteLength (text node).toList⟩
      (readOne ⟨(text node).toList ++ tail, offset⟩) := by
  match node with
  | number value span =>
      have houtcome := outcome_literal value span htail offset
      simp only [leaves, List.forall_mem_singleton, WritableLeaf, text]
      exact houtcome
  | string value span =>
      -- Only numbers can fail to be writable, so a plain string reads back.
      have hvalue : '\\' ∉ value.toList := hplain (string value span) List.mem_cons_self
      have hwritable : ∀ leaf ∈ leaves (string value span), WritableLeaf leaf := by
        simp only [leaves, List.forall_mem_singleton, WritableLeaf]
      rw [text]
      exact outcome_of_leaf (leaf_quoted hvalue _ tail) (iff_of_true rfl hwritable)
  | symbol name span =>
      have hname : SymbolToken name.toList := hplain (symbol name span) List.mem_cons_self
      have hwritable : ∀ leaf ∈ leaves (symbol name span), WritableLeaf leaf := by
        simp only [leaves, List.forall_mem_singleton, WritableLeaf]
      have hleaf : Leaf (Span.ofRange offset (offset + Text.byteLength name.toList)) name.toList
          tail (.symbol (String.ofList name.toList) _) := Leaf.symbol hname htail
      rw [String.ofList_toList] at hleaf
      rw [text]
      exact outcome_of_leaf hleaf (iff_of_true rfl hwritable)
  | group bracket children span =>
      refine outcome_group ?_
      -- The closing bracket ends the group right where its text ends.
      have hlast : readAll (.group bracket offset) ⟨bracket.closing :: tail,
          offset + 1 + Text.byteLength (textAll children).toList⟩ = .ok ([],
            ⟨tail, offset + Text.byteLength (text (group bracket children span)).toList⟩) := by
        have hopening := byteLength_opening bracket
        have hclosing := byteLength_closing bracket
        rw [readAll_closing, toList_group]
        simp only [Enclosure.atCloser, if_true, Input.after, Except.ok.injEq, Prod.mk.injEq,
          Input.mk.injEq, true_and, Text.byteLength, Text.byteLength_append] at hopening hclosing ⊢
        omega
      exact outcome_textAll children hplain (.group bracket offset) (tokenEnds_closing bracket tail)
        (offset + 1) hlast

/-- What the text of plain trees reads as, where it is followed by the end of
    its enclosure. -/
theorem outcome_textAll (nodes : List Node) (hplain : ∀ leaf ∈ leavesAll nodes, PlainLeaf leaf)
    (enclosure : Enclosure) {tail : List Char} (htail : TokenEnds tail) (offset : Nat)
    {last : Input} (hlast : readAll enclosure
      ⟨tail, offset + Text.byteLength (textAll nodes).toList⟩ = .ok ([], last)) :
    Outcome (fun others => bareAll others = bareAll nodes)
      (∀ leaf ∈ leavesAll nodes, WritableLeaf leaf) last
      (readAll enclosure ⟨(textAll nodes).toList ++ tail, offset⟩) := by
  match nodes with
  | [] =>
      have hnone : ∀ leaf ∈ leavesAll [], WritableLeaf leaf :=
        fun leaf hleaf => absurd hleaf List.not_mem_nil
      rw [show (textAll []).toList = [] from rfl, List.nil_append]
      rw [show offset + Text.byteLength (textAll []).toList = offset from rfl] at hlast
      rw [hlast]
      exact ⟨rfl, iff_of_true rfl hnone⟩
  | [node] =>
      rw [leavesAll, List.forall_mem_append] at hplain
      rw [textAll_singleton] at hlast ⊢
      -- The last node has its enclosure's end behind it, and no space.
      have hnone : Outcome (fun others => bareAll others = bareAll [])
          (∀ leaf ∈ leavesAll [], WritableLeaf leaf) last
          (readAll enclosure ⟨tail, offset + Text.byteLength (text node).toList⟩) := by
        rw [hlast]
        exact ⟨rfl, iff_of_true rfl fun leaf hleaf => absurd hleaf List.not_mem_nil⟩
      rw [leavesAll, List.forall_mem_append]
      exact outcome_cons (atNode_text hplain.1 tail offset)
        (outcome_text node hplain.1 htail offset) hnone
  | node :: next :: rest =>
      rw [leavesAll, List.forall_mem_append] at hplain
      -- A space follows the node, which ends its token and is skipped after it.
      have htext : (textAll (node :: next :: rest)).toList =
          (text node).toList ++ ' ' :: (textAll (next :: rest)).toList := by
        rw [textAll_cons_cons, String.toList_append, String.toList_append, List.append_assoc]
        rfl
      have hspace : TokenEnds (' ' :: ((textAll (next :: rest)).toList ++ tail)) := by
        intro c hc
        cases hc
        rfl
      rw [htext, Text.byteLength_append, Text.byteLength, ← Nat.add_assoc, ← Nat.add_assoc] at hlast
      have hothers := outcome_textAll (next :: rest) hplain.2 enclosure htail
        (offset + Text.byteLength (text node).toList + ' '.utf8Size) hlast
      rw [← readAll_of_skipBlanks_eq (skipBlanks_cons rfl)] at hothers
      rw [leavesAll, List.forall_mem_append, htext, List.append_assoc, List.cons_append]
      exact outcome_cons (atNode_text hplain.1 _ offset) (outcome_text node hplain.1 hspace offset)
        hothers

end

/-! ## Texts -/

/-- Plain trees read back exactly if their floats are written out. It is the
    outcome of the whole text, whose enclosure ends with it. -/
theorem readsBack_iff {nodes : List Node} (hplain : ∀ leaf ∈ leavesAll nodes, PlainLeaf leaf) :
    (∃ others, parse (textAll nodes) = .ok others ∧ bareAll others = bareAll nodes) ↔
      ∀ leaf ∈ leavesAll nodes, WritableLeaf leaf := by
  have hover : readAll .text ⟨[], 0 + Text.byteLength (textAll nodes).toList⟩ =
      .ok ([], ⟨[], 0 + Text.byteLength (textAll nodes).toList⟩) := readAll_end rfl
  have houtcome := outcome_textAll nodes hplain .text tokenEnds_nil 0 hover
  rw [List.append_nil] at houtcome
  have hinput : Input.ofString (textAll nodes) = ⟨(textAll nodes).toList, 0⟩ := rfl
  rw [parse_eq_readAll, hinput]
  -- If the text does not read, the outcome says that some float is not written out.
  rcases hread : readAll .text ⟨(textAll nodes).toList, 0⟩ with e | ⟨others, beyond⟩
  · rw [hread] at houtcome
    constructor
    · rintro ⟨others, h, _⟩
      cases h
    · exact fun hwritable => absurd hwritable houtcome
  · rw [hread] at houtcome
    constructor
    · rintro ⟨others, h, hsame⟩
      cases h
      exact houtcome.2.mp hsame
    · exact fun hwritable => ⟨others, rfl, houtcome.2.mpr hwritable⟩

/-- A tree that was read has a name for every symbol and no backslash in a
    string. It is read off the grammar, whose leaves say what they are made
    of. -/
theorem plainLeaf_of_sequence {locate : Nat → Nat → Span} {start : Nat} {text : List Char}
    {nodes : List Node} (h : Sequence locate start text nodes) :
    ∀ leaf ∈ leavesAll nodes, PlainLeaf leaf := by
  induction h with
  | nil start => exact fun leaf hleaf => absurd hleaf List.not_mem_nil
  | blank hblank _ ih => exact ih
  | leaf hleaf _ ih =>
      rw [leavesAll, List.forall_mem_append]
      constructor
      · cases hleaf with
        | string hbody =>
            simp only [leaves, List.forall_mem_singleton, PlainLeaf, String.toList_ofList]
            -- Reading a string takes all backslashes away.
            intro hmem
            exact absurd rfl (of_decide_eq_true (List.mem_filter.mp hmem).2)
        | symbol htoken hends =>
            simp only [leaves, List.forall_mem_singleton, PlainLeaf, String.toList_ofList]
            exact htoken
        | number hvalue hends => simp only [leaves, List.forall_mem_singleton, PlainLeaf]
      · exact ih
  | group bracket _ _ ihbody ihrest =>
      rw [leavesAll, List.forall_mem_append]
      exact ⟨ihbody, ihrest⟩

/-- Printable trees read back: the text of any sequence of trees whose leaves
    are plain and writable reads as the same trees. The trees need not have been
    read from anything, so their spans say nothing and are left out of the
    comparison; everything else about a node is in it. -/
theorem parse_textAll {nodes : List Node}
    (h : ∀ leaf ∈ leavesAll nodes, PlainLeaf leaf ∧ WritableLeaf leaf) :
    ∃ others, parse (textAll nodes) = .ok others ∧ bareAll others = bareAll nodes :=
  (readsBack_iff fun leaf hleaf => (h leaf hleaf).1).mpr fun leaf hleaf => (h leaf hleaf).2

/-- A call and a name behind it, with a quote in the string and a zero that
    keeps its sign. -/
theorem parse_textAll_call : ∃ nodes, textAll nodes = "(- 'it\\'s' [-0.0 -3]) f" ∧
    (∀ leaf ∈ leavesAll nodes, PlainLeaf leaf ∧ WritableLeaf leaf) ∧
    ∃ others, parse (textAll nodes) = .ok others ∧ bareAll others = bareAll nodes := by
  have hleaves : ∀ leaf ∈ leavesAll
      [.group .round [.symbol "-" .dummy, .string "it's" .dummy,
        .group .square [.number (.float (-0.0)) .dummy, .number (.int (-3)) .dummy] .dummy] .dummy,
      .symbol "f" .dummy], PlainLeaf leaf ∧ WritableLeaf leaf := by
    have hminus : SymbolToken "-".toList :=
      symbolToken_of_startsNumber (by decide) (inside_of_all rfl) (by decide) rfl
    have hname : SymbolToken "f".toList :=
      symbolToken_of_startsNumber (by decide) (inside_of_all rfl) (by decide) rfl
    have hzero : (Number.float (-0.0)).Writable := ⟨by decide, Or.inl (by decide)⟩
    have hquote : '\\' ∉ "it's".toList := by decide
    intro leaf hleaf
    simp only [leavesAll, leaves, List.cons_append, List.nil_append, List.mem_cons,
      List.not_mem_nil, or_false] at hleaf
    rcases hleaf with rfl | rfl | rfl | rfl | rfl
    · exact ⟨hminus, trivial⟩
    · exact ⟨hquote, trivial⟩
    · exact ⟨trivial, hzero⟩
    · exact ⟨trivial, trivial⟩
    · exact ⟨hname, trivial⟩
  exact ⟨_, by decide +kernel, hleaves, parse_textAll hleaves⟩

/-- Trees that were read read back again exactly if every float in them is
    finite and is zero or between the limits of what is written out. Strings,
    symbols and integers are no obstacle once they come from a text, and a float
    outside the limits is written with an exponent, which the reader takes for
    a bad number. -/
theorem parse_textAll_iff {source : String} {nodes : List Node} (h : parse source = .ok nodes) :
    (∃ others, parse (textAll nodes) = .ok others ∧ bareAll others = bareAll nodes) ↔
      ∀ leaf ∈ leavesAll nodes, WritableLeaf leaf :=
  readsBack_iff (plainLeaf_of_sequence (parse_eq_ok_iff_ofRange.mp h))

/-- A call whose float loses a zero and reads back. -/
theorem parse_textAll_iff_half : ∃ nodes, parse "(f 0.50)" = .ok nodes ∧
    textAll nodes = "(f 0.5)" ∧
    ((∃ others, parse (textAll nodes) = .ok others ∧ bareAll others = bareAll nodes) ↔
      ∀ leaf ∈ leavesAll nodes, WritableLeaf leaf) := by
  have hparse : parse "(f 0.50)" = .ok [.group .round [.symbol "f" (Span.ofRange 1 2),
      .number (.float (Decimal.ofDigits ['0'] ['5', '0']).toFloat) (Span.ofRange 3 7)]
      (Span.ofRange 0 8)] := by rfl
  exact ⟨_, hparse, by decide +kernel, parse_textAll_iff hparse⟩

/-- A float at the upper limit is written with an exponent, which is no number
    to a reader. -/
theorem parse_textAll_exponent : ∃ nodes, parse "10000000000000000.0" = .ok nodes ∧
    textAll nodes = "1e16" ∧ ∀ others, parse (textAll nodes) ≠ .ok others := by
  have htext : textAll [.number (.float (Decimal.ofDigits "10000000000000000".toList ['0']).toFloat)
      (Span.ofRange 0 19)] = "1e16" := by decide +kernel
  have hparse : parse "1e16" = .error ⟨.number .malformed "1e", Span.ofRange 0 2⟩ := by rfl
  refine ⟨_, by rfl, htext, ?_⟩
  intro others h
  rw [htext, hparse] at h
  cases h

end Node

end AttrExpr
