import AttrExpr.Command.Run
import AttrExpr.Proofs.Node.Distinct
import AttrExpr.Proofs.Node.ReadBack
import AttrExpr.Proofs.Text.Quoted

/-!
# Outlines Read Back

An outline has one line for each node, and the trees can be had back from it.

A line is indented by the depth of its node and goes on with words: the kind, the
text of a leaf, and the span. A kind, a number and a symbol end at the next
space. A string may have spaces in it, but it is quoted and ends at its quote. No
string, whatever is in it, adds a line or ends one, so the lines of an outline
are told apart, and each says all about its node but its children.

The children are the lines below that are indented more. So trees are had back
from the top: behind the lines of a node's children comes a line that is not
indented as much as they are, or none, and the number of spaces tells.

## Main definitions

* `Node.shownLine`: What a node's line says.
* `Node.Outlined`: The lines of trees, parents first.

## Theorems

* `shownLine_inj`: Lines tell their depth, and their nodes but for the children.
* `Outlined.append_inj`: Lines with others behind them tell the trees.
* `outline_injective`: Plain trees are told apart by their outlines.
* `sameAll_self_of_sequence`: Trees that were read are equal to themselves.
* `Command.parse_outlined`: What is printed for a source tells its trees.
-/

namespace AttrExpr

open Parse

namespace Node

/-! ## Lines -/

/-- What a line says behind the kind of its node. Of a group it is the span
    only, since its children have lines of their own. -/
def details : Node → List Char
  | number value span => value.literal.toList ++ ' ' :: '@' :: span.text.toList
  | string value span => (Text.Quoted.encode value).toList ++ ' ' :: '@' :: span.text.toList
  | symbol name span => name.toList ++ ' ' :: '@' :: span.text.toList
  | group _ _ span => '@' :: span.text.toList

/-- The line of a node that stands at a given depth, without its end: two spaces
    a level, the kind, the text of a leaf, and the span. -/
def shownLine (depth : Nat) (node : Node) : List Char :=
  List.replicate (2 * depth) ' ' ++ (node.kindName.toList ++ ' ' :: node.details)

/-- The lines of trees that stand at a given depth: the line of the first, those
    of what is in it, one level down, and those of the other trees. It says
    what an outline is without the accumulator that computes it. -/
inductive Outlined : Nat → List Node → List (List Char) → Prop
  | nil (depth : Nat) : Outlined depth [] []
  | cons {depth : Nat} {node : Node} {nodes : List Node} {inner others : List (List Char)}
      (hinner : Outlined (depth + 1) node.children inner)
      (hothers : Outlined depth nodes others) :
      Outlined depth (node :: nodes) (shownLine depth node :: (inner ++ others))

/-- The printed line is the one above with its end. -/
theorem toList_outlineLine (depth : Nat) (node : Node) :
    (outlineLine depth node).toList = shownLine depth node ++ ['\n'] := by
  have htext : node.leafText.toList ++ ' ' :: '@' :: node.span.text.toList =
      ' ' :: node.details := by
    cases node with
    | number | string | symbol =>
        rw [leafText, String.toList_append]
        rfl
    | group => rfl
  simp only [outlineLine, String.toList_append, String.toList_ofList, shownLine, ← htext,
    List.append_assoc]
  rfl

/-! ## Words -/

/-- A literal ends at the first space, whether it reads back or not: it is some
    token in either case. -/
theorem literal_inside (value : Number) : ∀ c ∈ value.literal.toList, isDelimiter c = false := by
  by_cases hwritable : value.Writable
  · exact (Number.numeral_literal hwritable).inside
  · rcases Number.literal_of_not_writable hwritable with hsymbol | hbad
    · exact hsymbol.inside
    · exact hbad.inside

theorem ne_of_inside {text : List Char} (h : ∀ c ∈ text, isDelimiter c = false) {d : Char}
    (hd : isDelimiter d = true) : ∀ c ∈ text, (c != d) = true := by
  intro c hc
  refine bne_iff_ne.mpr ?_
  rintro rfl
  rw [h c hc] at hd
  cases hd

/-- What ends at a space is told apart from what is behind it. Kinds, numbers
    and symbols are such words; strings may hold spaces and are not. -/
theorem word_append_inj {word other rest tail : List Char}
    (hword : ∀ c ∈ word, isDelimiter c = false) (hother : ∀ c ∈ other, isDelimiter c = false)
    (h : word ++ ' ' :: rest = other ++ ' ' :: tail) : word = other ∧ rest = tail :=
  cut_inj (p := fun c => c != ' ') rfl (ne_of_inside hword rfl) (ne_of_inside hother rfl) h

theorem kindName_mem (node : Node) :
    node.kindName ∈ ["number", "string", "symbol", "list", "vector"] := by
  cases node with
  | number => exact .head _
  | string => exact .tail _ (.head _)
  | symbol => exact .tail _ (.tail _ (.head _))
  | group bracket =>
      cases bracket with
      | round => exact .tail _ (.tail _ (.tail _ (.head _)))
      | square => exact .tail _ (.tail _ (.tail _ (.tail _ (.head _))))

theorem kindName_inside (node : Node) : ∀ c ∈ node.kindName.toList, isDelimiter c = false := by
  have hkinds : ∀ kind ∈ ["number", "string", "symbol", "list", "vector"],
      kind.toList.all (fun c => !isDelimiter c) = true := by decide
  exact inside_of_all (hkinds _ node.kindName_mem)

theorem kindName_ne_nil (node : Node) : node.kindName.toList ≠ [] := by
  have hkinds : ∀ kind ∈ ["number", "string", "symbol", "list", "vector"], kind.toList ≠ [] := by
    decide
  exact hkinds _ node.kindName_mem

theorem toList_text (span : Span) : span.text.toList =
    Nat.toDigits 10 span.start ++ '.' :: '.' :: Nat.toDigits 10 span.stop := by
  simp only [Span.text, String.toList_append, Nat.toString_eq_repr, Nat.toList_repr,
    List.append_assoc]
  rfl

/-- Spans are told apart by their texts: the first end stops at a point. -/
theorem span_eq_of_text_eq {a b : Span} (h : a.text.toList = b.text.toList) : a = b := by
  rw [toList_text, toList_text] at h
  have hparts := cut_inj rfl (digits_toDigits a.start) (digits_toDigits b.start) h
  have hstart := toDigits_ten_injective hparts.1
  have hstop := toDigits_ten_injective (List.cons.inj hparts.2).2
  cases a
  cases b
  exact congrArg₂ Span.mk hstart hstop

/-! ## Lines tell their nodes -/

/-- How two nodes can be of one kind. Brackets are part of it, since lists and
    vectors are printed as different kinds. -/
inductive Akin : Node → Node → Prop
  | number (value other : Number) (s t : Span) : Akin (number value s) (number other t)
  | string (value other : String) (s t : Span) : Akin (string value s) (string other t)
  | symbol (name other : String) (s t : Span) : Akin (symbol name s) (symbol other t)
  | group (bracket : Bracket) (as bs : List Node) (s t : Span) :
      Akin (group bracket as s) (group bracket bs t)

theorem akin_of_kindName_eq {a b : Node} (h : a.kindName = b.kindName) : Akin a b := by
  -- The words for the two groups are none of the other three.
  have hgroup : ∀ p : Bracket,
      p.groupName ≠ "number" ∧ p.groupName ≠ "string" ∧ p.groupName ≠ "symbol" := by
    intro p
    cases p with
    | round => decide
    | square => decide
  cases a with
  | number value s =>
      cases b with
      | number other t => exact Akin.number value other s t
      | string | symbol => simp only [kindName, String.reduceEq] at h
      | group p => exact absurd h.symm (hgroup p).1
  | string value s =>
      cases b with
      | string other t => exact Akin.string value other s t
      | number | symbol => simp only [kindName, String.reduceEq] at h
      | group p => exact absurd h.symm (hgroup p).2.1
  | symbol name s =>
      cases b with
      | symbol other t => exact Akin.symbol name other s t
      | number | string => simp only [kindName, String.reduceEq] at h
      | group p => exact absurd h.symm (hgroup p).2.2
  | group p as s =>
      cases b with
      | number => exact absurd h (hgroup p).1
      | string => exact absurd h (hgroup p).2.1
      | symbol => exact absurd h (hgroup p).2.2
      | group q bs t =>
          have hbrackets : ∀ p q : Bracket, p.groupName = q.groupName → p = q := by
            intro p q hname
            cases p with
            | round =>
                cases q with
                | round => rfl
                | square => exact absurd hname (by decide)
            | square =>
                cases q with
                | round => exact absurd hname (by decide)
                | square => rfl
          rw [hbrackets p q h]
          exact Akin.group q as bs s t

/-- Of one kind, nodes are told apart by the rest of their lines and by their
    children. -/
theorem Akin.eq {a b : Node} (h : Akin a b) (ha : PlainLeaf a) (hb : PlainLeaf b)
    (hdetails : a.details = b.details) (hchildren : a.children = b.children) : a = b := by
  -- Behind the text of a leaf comes its span.
  have hspan : ∀ {s t : Span}, '@' :: s.text.toList = '@' :: t.text.toList → s = t :=
    fun hsame => span_eq_of_text_eq (List.cons.inj hsame).2
  cases h with
  | number value other s t =>
      have hparts := word_append_inj (literal_inside value) (literal_inside other) hdetails
      rw [Number.literal_injective (String.toList_inj.mp hparts.1), hspan hparts.2]
  | string value other s t =>
      have hparts := Text.Quoted.encode_append_inj hdetails
      rw [hparts.1, hspan (List.cons.inj hparts.2).2]
  | symbol name other s t =>
      have hname : SymbolToken name.toList := ha
      have hother : SymbolToken other.toList := hb
      have hparts := word_append_inj hname.inside hother.inside hdetails
      rw [String.toList_inj.mp hparts.1, hspan hparts.2]
  | group bracket as bs s t =>
      rw [show as = bs from hchildren, hspan hdetails]

/-- A line tells its depth, and all about its node but the children. So a node
    is known once its line and its children are. -/
theorem shownLine_inj {d e : Nat} {a b : Node} (ha : PlainLeaf a) (hb : PlainLeaf b)
    (h : shownLine d a = shownLine e b) : d = e ∧ (a.children = b.children → a = b) := by
  have hspaces : ∀ n, ∀ c ∈ List.replicate n ' ', (c == ' ') = true := by
    intro n c hc
    rw [List.eq_of_mem_replicate hc]
    rfl
  -- A kind begins with no space, so the spaces in front are the indentation.
  have hkind : ∀ node : Node, ∀ c,
      (node.kindName.toList ++ ' ' :: node.details).head? = some c → (c == ' ') = false := by
    intro node c hc
    have hinside := ne_of_inside node.kindName_inside (d := ' ') rfl
    cases hname : node.kindName.toList with
    | nil => exact absurd hname node.kindName_ne_nil
    | cons first others =>
        rw [hname] at hc hinside
        cases hc
        exact beq_eq_false_iff_ne.mpr (bne_iff_ne.mp (hinside c List.mem_cons_self))
  have hparts := span_inj (hspaces (2 * d)) (hspaces (2 * e)) (hkind a) (hkind b) h
  have hdepth := congrArg List.length hparts.1
  rw [List.length_replicate, List.length_replicate] at hdepth
  have hwords := word_append_inj a.kindName_inside b.kindName_inside hparts.2
  have hakin := akin_of_kindName_eq (String.toList_inj.mp hwords.1)
  constructor
  · omega
  · exact hakin.eq ha hb hwords.2

/-- No line has the end of a line in it, whatever is in a string. A string is
    quoted, and the end of a line is one of the characters that are escaped. -/
theorem newline_not_mem_shownLine (depth : Nat) {node : Node} (h : PlainLeaf node) :
    '\n' ∉ shownLine depth node := by
  -- The end of a line is a delimiter, and most of a line is made of tokens.
  have hword : ∀ {word : List Char}, (∀ c ∈ word, isDelimiter c = false) → '\n' ∉ word := by
    intro word hinside hmem
    exact absurd (hinside _ hmem) (by decide)
  have hspan : ∀ s : Span, '\n' ∉ '@' :: s.text.toList := by
    intro s
    apply hword
    rw [toList_text, List.forall_mem_cons, List.forall_mem_append, List.forall_mem_cons,
      List.forall_mem_cons]
    exact ⟨rfl, (digits_toDigits _).inside, rfl, rfl, (digits_toDigits _).inside⟩
  have hspace : ∀ {rest : List Char}, '\n' ∉ rest → '\n' ∉ ' ' :: rest := by
    intro rest hrest hmem
    rcases List.mem_cons.mp hmem with h | h
    · exact absurd h (by decide)
    · exact hrest h
  have hdetails : '\n' ∉ node.details := by
    cases node with
    | number value s =>
        exact List.not_mem_append (hword (literal_inside value)) (hspace (hspan s))
    | string value s =>
        exact List.not_mem_append (Text.Quoted.newline_not_mem_encode value) (hspace (hspan s))
    | symbol name s =>
        have hname : SymbolToken name.toList := h
        exact List.not_mem_append (hword hname.inside) (hspace (hspan s))
    | group bracket children s => exact hspan s
  have hindentation : '\n' ∉ List.replicate (2 * depth) ' ' := by
    intro hmem
    exact absurd (List.eq_of_mem_replicate hmem) (by decide)
  exact List.not_mem_append hindentation
    (List.not_mem_append (hword node.kindName_inside) (hspace hdetails))

/-! ## Outlines tell their trees -/

/-- A list of lines goes on, if it does, with a line above a given depth. This
    is what may stand behind the lines of trees without being taken for more
    of them. -/
def Above (depth : Nat) (lines : List (List Char)) : Prop :=
  ∀ line, lines.head? = some line → ∃ d node, d < depth ∧ PlainLeaf node ∧ line = shownLine d node

/-- A node is plain if its leaves are: it is its only leaf, or it is a group. -/
theorem plainLeaf_of_leaves {node : Node} (h : ∀ leaf ∈ leaves node, PlainLeaf leaf) :
    PlainLeaf node := by
  cases node with
  | number | group => trivial
  | string | symbol => exact h _ List.mem_cons_self

theorem plainLeaf_children {node : Node} (h : ∀ leaf ∈ leaves node, PlainLeaf leaf) :
    ∀ leaf ∈ leavesAll node.children, PlainLeaf leaf := by
  cases node with
  | number | string | symbol => exact List.forall_mem_nil _
  | group => exact h

/-- What is above trees is above what is in them, and so are the lines of the
    trees beside them. -/
theorem Outlined.above {depth : Nat} {nodes : List Node} {lines rest : List (List Char)}
    (h : Outlined depth nodes lines) (hplain : ∀ leaf ∈ leavesAll nodes, PlainLeaf leaf)
    (hrest : Above depth rest) : Above (depth + 1) (lines ++ rest) := by
  cases h with
  | nil =>
      intro line hline
      rcases hrest line hline with ⟨d, node, hd, hnode⟩
      exact ⟨d, node, by omega, hnode⟩
  | @cons _ node =>
      rintro line ⟨⟩
      rw [leavesAll, List.forall_mem_append] at hplain
      exact ⟨depth, node, by omega, plainLeaf_of_leaves hplain.1, rfl⟩

/-- The lines of trees are not continued by a line above them. So where one list
    of lines has such a line, another that is the same has no tree left. -/
theorem Outlined.nil_of_above {depth : Nat} {nodes : List Node} {lines rest tail : List (List Char)}
    (h : Outlined depth nodes lines) (hplain : ∀ leaf ∈ leavesAll nodes, PlainLeaf leaf)
    (hrest : Above depth rest) (hsame : rest = lines ++ tail) : nodes = [] ∧ rest = tail := by
  cases h with
  | nil => exact ⟨rfl, hsame⟩
  | @cons _ node =>
      rw [leavesAll, List.forall_mem_append] at hplain
      rcases hrest _ (congrArg List.head? hsame) with ⟨d, other, hd, hother, hline⟩
      have hdepth := (shownLine_inj (plainLeaf_of_leaves hplain.1) hother hline).1
      omega

/-- Lines with others behind them tell the trees, if what is behind them is
    above them. The induction is on the lines, with what is behind them
    generalised: for the children it includes all other trees. -/
theorem Outlined.append_inj {depth : Nat} {as bs : List Node} {ls ms r s : List (List Char)}
    (has : Outlined depth as ls) (hbs : Outlined depth bs ms)
    (hplain : ∀ leaf ∈ leavesAll as, PlainLeaf leaf)
    (hplain' : ∀ leaf ∈ leavesAll bs, PlainLeaf leaf) (hr : Above depth r) (hs : Above depth s)
    (h : ls ++ r = ms ++ s) : as = bs ∧ r = s := by
  induction has generalizing bs ms r s with
  | nil =>
      have hnone := hbs.nil_of_above hplain' hr h
      exact ⟨hnone.1.symm, hnone.2⟩
  | @cons depth a as inner others hinner hothers ihinner ihothers =>
      cases hbs with
      | nil =>
          have hnone := (Outlined.cons hinner hothers).nil_of_above hplain hs h.symm
          exact ⟨hnone.1, hnone.2.symm⟩
      | @cons _ b bs inner' others' hinner' hothers' =>
          rw [leavesAll, List.forall_mem_append] at hplain hplain'
          simp only [List.cons_append, List.append_assoc, List.cons.injEq] at h
          -- First the children, behind whose lines the other trees come.
          have hchildren := ihinner hinner' (plainLeaf_children hplain.1)
            (plainLeaf_children hplain'.1) (hothers.above hplain.2 hr) (hothers'.above hplain'.2 hs)
            h.2
          -- Then these, and the node by its line and its children.
          have hnodes := ihothers hothers' hplain.2 hplain'.2 hr hs hchildren.2
          have hnode := (shownLine_inj (plainLeaf_of_leaves hplain.1)
            (plainLeaf_of_leaves hplain'.1) h.1).2 hchildren.1
          rw [hnode, hnodes.1]
          exact ⟨rfl, hnodes.2⟩

/-! ## What is printed -/

/-- The lines of trees that stand at a given depth, as the traversal with an
    accumulator lists them. -/
def shownLines (depth : Nat) (nodes : List Node) : List (List Char) :=
  (preorderAllOnto depth nodes []).map fun entry => shownLine entry.1 entry.2

/-- The accumulator comes apart: first the line of the node, then those of its
    children, then those of the other trees. -/
theorem shownLines_cons (depth : Nat) (node : Node) (nodes : List Node) :
    shownLines depth (node :: nodes) =
      shownLine depth node :: (shownLines (depth + 1) node.children ++ shownLines depth nodes) := by
  have hnode : preorderOnto depth node (preorderAllOnto depth nodes []) =
      (depth, node) :: (preorderAllOnto (depth + 1) node.children [] ++
        preorderAllOnto depth nodes []) := by
    cases node with
    | number | string | symbol => rfl
    | group bracket children span =>
        rw [preorderOnto, preorderAllOnto_eq_append]
        rfl
  rw [shownLines, preorderAllOnto, hnode, List.map_cons, List.map_append]
  rfl

mutual

theorem outlined_children (depth : Nat) (node : Node) :
    Outlined depth node.children (shownLines depth node.children) := by
  match node with
  | number _ _ | string _ _ | symbol _ _ => exact Outlined.nil depth
  | group _ children _ => exact outlined_shownLines depth children

/-- What the traversal lists are the lines of the trees. -/
theorem outlined_shownLines (depth : Nat) (nodes : List Node) :
    Outlined depth nodes (shownLines depth nodes) := by
  match nodes with
  | [] => exact Outlined.nil depth
  | node :: nodes =>
      rw [shownLines_cons]
      exact Outlined.cons (outlined_children (depth + 1) node) (outlined_shownLines depth nodes)

end

/-- An outline is its lines, each with its end. -/
theorem outline_eq (nodes : List Node) :
    outline nodes = String.ofList ((shownLines 0 nodes).flatMap fun line => line ++ ['\n']) := by
  rw [← String.toList_inj, outline, String.toList_join, String.toList_ofList, shownLines,
    List.flatMap_map, List.flatMap_map]
  simp only [toList_outlineLine]

theorem Outlined.newline_not_mem {depth : Nat} {nodes : List Node} {lines : List (List Char)}
    (h : Outlined depth nodes lines) (hplain : ∀ leaf ∈ leavesAll nodes, PlainLeaf leaf) :
    ∀ line ∈ lines, '\n' ∉ line := by
  induction h with
  | nil => exact List.forall_mem_nil _
  | @cons depth node nodes inner others _ _ ihinner ihothers =>
      rw [leavesAll, List.forall_mem_append] at hplain
      rw [List.forall_mem_cons, List.forall_mem_append]
      exact ⟨newline_not_mem_shownLine depth (plainLeaf_of_leaves hplain.1),
        ihinner (plainLeaf_children hplain.1), ihothers hplain.2⟩

/-- Lines are cut at their ends, so a text tells its lines if none of them has
    an end in it. -/
theorem lines_inj {ls ms : List (List Char)} (hls : ∀ line ∈ ls, '\n' ∉ line)
    (hms : ∀ line ∈ ms, '\n' ∉ line)
    (h : (ls.flatMap fun line => line ++ ['\n']) = ms.flatMap fun line => line ++ ['\n']) :
    ls = ms := by
  have hinside : ∀ {line : List Char}, '\n' ∉ line → ∀ c ∈ line, (c != '\n') = true := by
    intro line hline c hc
    rw [bne_iff_ne]
    rintro rfl
    exact hline hc
  have hne : ∀ (line rest : List Char), line ++ ['\n'] ++ rest ≠ [] := by
    intro line rest
    rw [List.append_assoc]
    exact List.append_ne_nil_of_right_ne_nil _ (List.cons_ne_nil _ _)
  induction ls generalizing ms with
  | nil =>
      cases ms with
      | nil => rfl
      | cons m ms => exact absurd h.symm (hne m _)
  | cons l ls ih =>
      cases ms with
      | nil => exact absurd h (hne l _)
      | cons m ms =>
          rw [List.forall_mem_cons] at hls hms
          rw [List.flatMap_cons, List.flatMap_cons, List.append_assoc, List.append_assoc] at h
          -- Both first lines end at the first end of a line there is.
          have hparts := cut_inj rfl (hinside hls.1) (hinside hms.1) h
          rw [hparts.1, ih hls.2 hms.2 hparts.2]

/-- Plain trees with one outline are the same: the text tells the lines, and the
    lines tell the trees. -/
theorem outline_injective {as bs : List Node} (has : ∀ leaf ∈ leavesAll as, PlainLeaf leaf)
    (hbs : ∀ leaf ∈ leavesAll bs, PlainLeaf leaf) (h : outline as = outline bs) : as = bs := by
  have hnone : Above 0 [] := by
    intro line hline
    cases hline
  have houtlined := outlined_shownLines 0 as
  have houtlined' := outlined_shownLines 0 bs
  rw [outline_eq, outline_eq] at h
  have hlines := lines_inj (houtlined.newline_not_mem has) (houtlined'.newline_not_mem hbs)
    (String.ofList_injective h)
  -- Behind the last line there is nothing, which is above everything.
  exact (houtlined.append_inj houtlined' has hbs hnone hnone (by rw [hlines])).1

/-- Trees that were read are equal to themselves, since no text writes what is
    not a number. -/
theorem sameAll_self_of_sequence {locate : Nat → Nat → Span} {start : Nat} {text : List Char}
    {nodes : List Node} (h : Sequence locate start text nodes) : sameAll nodes nodes = true := by
  induction h with
  | nil => rfl
  | blank _ _ ih => exact ih
  | leaf hleaf _ ih =>
      -- Only a number could differ from itself, and a numeral does not.
      rw [sameAll, ih, Bool.and_true]
      cases hleaf with
      | string =>
          rw [same, beq_self_eq_true, beq_self_eq_true]
          rfl
      | symbol =>
          rw [same, beq_self_eq_true, beq_self_eq_true]
          rfl
      | number hvalue =>
          rw [same, Number.same_self_of_numeral hvalue, beq_self_eq_true]
          rfl
  | group bracket _ _ ihbody ihrest =>
      rw [sameAll, same, beq_self_eq_true, beq_self_eq_true, ihbody, ihrest]
      rfl

end Node

namespace Command

/-- What is printed for a source has one line for each of its nodes, and any
    source that is printed alike has the same trees, spans included. Nothing is
    asked of the other source: what is printed for it shows that it reads. The
    trees are the same for the equality of trees as well, which takes an
    argument because a number that is not one would differ from itself; no text
    writes such a number. -/
theorem parse_outlined {source : String} {nodes : List Node}
    (h : AttrExpr.parse source = .ok nodes) :
    ∃ lines, Node.Outlined 0 nodes lines ∧ (∀ line ∈ lines, '\n' ∉ line) ∧
      parse source = .ok (String.ofList (lines.flatMap fun line => line ++ ['\n'])) ∧
      ∀ other, parse other = parse source → ∃ others, AttrExpr.parse other = .ok others ∧
        others = nodes ∧ Node.sameAll others nodes = true := by
  have hsequence := parse_eq_ok_iff_ofRange.mp h
  have hplain := Node.plainLeaf_of_sequence hsequence
  have hprinted : parse source = .ok (Node.outline nodes) := by
    simp only [parse, h]
  have hlines := Node.outlined_shownLines 0 nodes
  refine ⟨Node.shownLines 0 nodes, hlines, hlines.newline_not_mem hplain, ?_, ?_⟩
  · rw [hprinted, Node.outline_eq]
  · intro other hother
    rw [hprinted] at hother
    unfold parse at hother
    split at hother
    · -- A source that does not read is not printed as an outline.
      cases hother
    · rename_i others hothers
      have hplain' := Node.plainLeaf_of_sequence (parse_eq_ok_iff_ofRange.mp hothers)
      have hsame := Node.outline_injective hplain' hplain (Except.ok.inj hother)
      refine ⟨others, hothers, hsame, ?_⟩
      rw [hsame]
      exact Node.sameAll_self_of_sequence hsequence

/-- The end of a line inside a string does not end the line of the string, and
    what looks like a node behind it is none. -/
theorem parse_outlined_string :
    AttrExpr.parse "(f 'a\n  symbol \"b' [-1])" = .ok
      [.group .round [.symbol "f" ⟨1, 2⟩, .string "a\n  symbol \"b" ⟨3, 18⟩,
        .group .square [.number (.int (-1)) ⟨20, 22⟩] ⟨19, 23⟩] ⟨0, 24⟩] ∧
    parse "(f 'a\n  symbol \"b' [-1])" = .ok
      ("list @0..24\n  symbol f @1..2\n  string \"a\\n  symbol \\\"b\" @3..18\n" ++
        "  vector @19..23\n    number -1 @20..22\n") ∧
    ∀ other, parse other = parse "(f 'a\n  symbol \"b' [-1])" →
      AttrExpr.parse other = AttrExpr.parse "(f 'a\n  symbol \"b' [-1])" := by
  have hread : AttrExpr.parse "(f 'a\n  symbol \"b' [-1])" = .ok
      [.group .round [.symbol "f" ⟨1, 2⟩, .string "a\n  symbol \"b" ⟨3, 18⟩,
        .group .square [.number (.int (-1)) ⟨20, 22⟩] ⟨19, 23⟩] ⟨0, 24⟩] := by rfl
  rcases parse_outlined hread with ⟨_, _, _, _, hfaithful⟩
  refine ⟨hread, ?_, ?_⟩
  · simp only [parse, hread]
    exact congrArg Except.ok (by decide)
  · intro other hother
    rcases hfaithful other hother with ⟨others, hothers, hsame, _⟩
    rw [hread, hothers, hsame]

end Command

end AttrExpr
