import AttrExpr.Proofs.Node.Subtree
import AttrExpr.Proofs.Parse.Relocation

/-!
# Reading Elsewhere within the Limit

Where a text stays within the limit on spans, reading it further on adds to its
places and does nothing else.

That is the case most texts are in, and the only one in which a place can be
counted back to where it was. So the text under the span of a node can be cut
out and read by itself, and what comes of it is the node, with its spans
counted from where it stood: a node knows nothing of what is around it. A place
that had been pushed back to the limit could not be moved like this any more,
which is the reason for the hypotheses on lengths.

## Theorems

* `Sequence.shift`: A derivation with exact places holds further on.
* `readAll_elsewhere`: A text reads the same further on.
* `parse_slice`: The text under the span of a node reads as the node.
* `parse_concat`: Texts that are separated by blanks are read one by one.
-/

namespace AttrExpr

/-- Where the end of a span stays within the limit, further on is an
    addition. -/
theorem Span.further_eq_shift {span : Span} {n : Nat} (hordered : span.start ≤ span.stop)
    (hlimit : span.stop + n ≤ limit) : span.further n = span.shift n :=
  ofRange_of_le (by omega) hlimit

namespace Parse

open Node

/-- The text of a derived sequence writes the same nodes further on, every one
    of them with its range there. -/
theorem Sequence.shift {start : Nat} {text : List Char} {nodes : List Node}
    (h : Sequence Span.mk start text nodes) (n : Nat) :
    Sequence Span.mk (start + n) text (shiftAll n nodes) :=
  h.relocate (Nat.le_refl _) fun _ _ _ _ => rfl

/-- A text that stands behind `n` bytes is read as it is by itself, with all
    places `n` bytes further on. -/
theorem readAll_elsewhere {n : Nat} (source : String)
    (hlimit : n + Text.byteLength source.toList ≤ Span.limit) :
    (readAll .text ⟨source.toList, n⟩).map Prod.fst = shifted n (parse source) := by
  rcases hparse : parse source with e | nodes
  · -- The fault is in the text, so its span can be moved by an addition.
    have hwithin := within_firstFault (firstFault?_of_parse (by omega) hparse)
    have hstop := hwithin.stop
    rw [readAll_further, hparse, shifted, relocated, relocated, ParseError.relocate,
      ParseError.relocate, Span.further_eq_shift hwithin.ordered (by omega)]
  · have hderived := (Sequence.ofRange_iff (by omega)).mp (parse_eq_ok_iff_ofRange.mp hparse)
    have hmoved := hderived.shift n
    rw [Nat.zero_add] at hmoved
    exact ((Sequence.ofRange_iff hlimit).mpr hmoved).readAll_text

/-- Where the text stays within the limit, further on is exact. -/
theorem relocated_further_eq_shifted {source : String} {n : Nat}
    (hlimit : n + Text.byteLength source.toList ≤ Span.limit) :
    relocated (Span.further n) (parse source) = shifted n (parse source) := by
  rw [← readAll_further, readAll_elsewhere source hlimit]

/-! ## Nodes and texts -/

/-- What comes to one node further on comes to one node. -/
theorem exists_of_shifted {n : Nat} {result : Except ParseError (List Node)} {node : Node}
    (h : shifted n result = .ok [node]) : ∃ alone, result = .ok [alone] ∧ alone.shift n = node := by
  rcases result with e | nodes
  · cases h
  · rcases nodes with _ | ⟨alone, _ | ⟨other, more⟩⟩
    · cases h
    · cases h
      exact ⟨alone, rfl, rfl⟩
    · cases h

/-- The text under the span of a node, at any depth, reads by itself as one
    node. That is the node, once its spans are counted from where it stood.
    Nothing around a node has a part in what it is, neither the blanks it stands
    behind nor the brackets it stands in. -/
theorem parse_slice {source : String} {nodes : List Node}
    (hlimit : Text.byteLength source.toList ≤ Span.limit) (h : parse source = .ok nodes)
    {node : Node} (hnode : node ∈ subtreesAll nodes) :
    ∃ alone, parse (node.span.slice source) = .ok [alone] ∧
      alone.shift node.span.start = node := by
  rcases (parse_eq_ok_iff_ofRange.mp h).exists_text hnode with
    ⟨front, own, back, hsource, hspan, hown⟩
  have hlength := congrArg Text.byteLength hsource
  rw [Text.byteLength_append, Text.byteLength_append] at hlength
  rw [Nat.zero_add] at hspan hown
  rw [Span.ofRange_of_le (by omega) (by omega)] at hspan
  have hslice : node.span.slice source = String.ofList own := by
    rw [hspan, Span.slice, Span.slice?_part hsource, Option.getD_some]
  -- Where it stands the text is read as the node, so by itself it is as well.
  have hread := hown.readAll_text
  rw [← String.toList_ofList (l := own),
    readAll_elsewhere (String.ofList own) (by rw [String.toList_ofList]; omega)] at hread
  rw [hslice, hspan]
  exact exists_of_shifted hread

/-- A string in a vector in a call, with a character of more than one byte in
    front of it. -/
theorem parse_slice_string :
    let nodes : List Node := [group .round [symbol "é" ⟨1, 3⟩,
      group .square [string "a" ⟨5, 8⟩, number (.int (-1)) ⟨9, 11⟩] ⟨4, 12⟩] ⟨0, 13⟩]
    Text.byteLength "(é ['a' -1])".toList ≤ Span.limit ∧ parse "(é ['a' -1])" = .ok nodes ∧
      string "a" ⟨5, 8⟩ ∈ subtreesAll nodes ∧
      ∃ alone, parse "'a'" = .ok [alone] ∧ alone.shift 5 = string "a" ⟨5, 8⟩ := by
  have hparse : parse "(é ['a' -1])" = .ok [group .round [symbol "é" ⟨1, 3⟩,
      group .square [string "a" ⟨5, 8⟩, number (.int (-1)) ⟨9, 11⟩] ⟨4, 12⟩] ⟨0, 13⟩] := by rfl
  have hnode : string "a" ⟨5, 8⟩ ∈ subtreesAll [group .round [symbol "é" ⟨1, 3⟩,
      group .square [string "a" ⟨5, 8⟩, number (.int (-1)) ⟨9, 11⟩] ⟨4, 12⟩] ⟨0, 13⟩] := by
    simp only [subtreesAll, subtrees, List.mem_append, List.mem_cons, true_or, or_true]
  have hslice : Span.slice ⟨5, 8⟩ "(é ['a' -1])" = "'a'" := by decide
  have halone := parse_slice (by decide) hparse hnode
  rw [Node.span, hslice] at halone
  exact ⟨by decide, hparse, hnode, halone⟩

/-- Behind a text that reads, and some blanks, another text is read as it is by
    itself, further on by what is in front of it. Its nodes follow those of the
    first text, or its fault is the fault of the whole. -/
theorem parse_concat {first blanks second : String} {nodes : List Node}
    (hlimit : Text.byteLength (first ++ blanks ++ second).toList ≤ Span.limit)
    (hne : blanks ≠ "") (hblanks : ∀ c ∈ blanks.toList, isBlank c = true)
    (hfirst : parse first = .ok nodes) :
    parse (first ++ blanks ++ second) =
      (shifted (Text.byteLength first.toList + Text.byteLength blanks.toList)
        (parse second)).map (nodes ++ ·) := by
  have hbytes : Text.byteLength (first ++ blanks ++ second).toList = Text.byteLength first.toList +
      Text.byteLength blanks.toList + Text.byteLength second.toList := by
    rw [String.toList_append, String.toList_append, Text.byteLength_append, Text.byteLength_append]
  rw [parse_behind hne hblanks hfirst, relocated_further_eq_shifted (by rwa [hbytes] at hlimit)]

/-- A text whose second part has a fault of its own, behind a character of more
    than one byte. -/
theorem parse_concat_fault : Text.byteLength ("(é)" ++ "\n " ++ "x [1.2.3").toList ≤ Span.limit ∧
    "\n " ≠ "" ∧ (∀ c ∈ "\n ".toList, isBlank c = true) ∧
    parse "(é)" = .ok [.group .round [.symbol "é" ⟨1, 3⟩] ⟨0, 4⟩] ∧
    parse "x [1.2.3" = .error ⟨.number .extraDecimalPoint "1.2.", ⟨3, 7⟩⟩ ∧
    parse ("(é)" ++ "\n " ++ "x [1.2.3") =
      .error ⟨.number .extraDecimalPoint "1.2.", ⟨9, 13⟩⟩ := by
  have hlimit : Text.byteLength ("(é)" ++ "\n " ++ "x [1.2.3").toList ≤ Span.limit := by
    rw [String.toList_append, String.toList_append]
    decide
  have hblanks : ∀ c ∈ "\n ".toList, isBlank c = true :=
    List.forall_mem_cons.mpr ⟨rfl, List.forall_mem_singleton.mpr rfl⟩
  have hfirst : parse "(é)" = .ok [.group .round [.symbol "é" ⟨1, 3⟩] ⟨0, 4⟩] := by rfl
  have hsecond : parse "x [1.2.3" = .error ⟨.number .extraDecimalPoint "1.2.", ⟨3, 7⟩⟩ := by rfl
  have hconcat := parse_concat hlimit (by decide) hblanks hfirst
  rw [hsecond] at hconcat
  exact ⟨hlimit, by decide, hblanks, hfirst, hsecond, hconcat⟩

end Parse

end AttrExpr
