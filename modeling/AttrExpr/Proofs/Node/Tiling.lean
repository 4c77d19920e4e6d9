import AttrExpr.Proofs.Node.Subtree
import AttrExpr.Proofs.Text.Encoded

/-!
# Spans Tile the Source

The spans of the nodes that were read account for every byte of the text.

Siblings stand in an interval of the text: the whole of it, or what is between
the brackets of a group. There they come one after the other, none of them
empty and none reaching into the next, and what they leave open is blank. So a
byte belongs to one node at most, and a byte that belongs to none separates
nothing but nodes. The same holds again between the brackets of every group,
which is how the tiling goes down to the leaves.

Everything is said of the bytes of the source as UTF-8 encodes them, because a
span counts bytes. A derivation, on the other hand, cuts its text into
characters. What connects the two is that any part of the text in front of a
place is made of whole characters: the place is then the length of that part,
it is a character boundary, and a character of one byte that follows is the
byte found there.

## Main definitions

* `Tiles`: Siblings account for every byte of an interval.
* `Bracketed`: A span begins and ends with the brackets of a group.

## Theorems

* `Tiles.blank`, `Tiles.cons`: An interval grows to the left, by a blank or by
  a node.
* `Sequence.tiles`: A derived sequence tiles the interval it is written in, and
  so do the children of its groups.
* `tiles_of_parse`: What was read from a text tiles it.
-/

namespace AttrExpr

namespace Parse

open Node

/-- The siblings `nodes` account for every byte of the source from `start` to
    `stop`. They are not empty, they come in order and apart from each other,
    and the bytes between them are blanks. -/
structure Tiles (source : String) (start stop : Nat) (nodes : List Node) : Prop where
  nonempty : ∀ node ∈ nodes, node.span.start < node.span.stop
  boundaries : ∀ node ∈ nodes, (String.Pos.Raw.mk node.span.start).IsValid source ∧
    (String.Pos.Raw.mk node.span.stop).IsValid source
  inside : ∀ node ∈ nodes, start ≤ node.span.start ∧ node.span.stop ≤ stop
  apart : nodes.Pairwise fun a b => a.span.stop ≤ b.span.start
  gaps : ∀ i, start ≤ i → i < stop →
    (∀ node ∈ nodes, ¬ (node.span.start ≤ i ∧ i < node.span.stop)) →
    ∃ c, isBlank c = true ∧ Text.byteAt? source i = some c.toUInt8

/-- The span begins with the opening bracket and ends with the closing one,
    which are two bytes. Without `wide` the two could be one byte. -/
structure Bracketed (source : String) (bracket : Bracket) (span : Span) : Prop where
  wide : span.start + 2 ≤ span.stop
  opening : Text.byteAt? source span.start = some bracket.opening.toUInt8
  closing : Text.byteAt? source (span.stop - 1) = some bracket.closing.toUInt8

section

variable {source : String} {start middle stop : Nat} {nodes : List Node}

/-- No siblings account for no bytes. -/
theorem Tiles.nil (source : String) (start : Nat) : Tiles source start start [] where
  nonempty := fun _ hnode => absurd hnode List.not_mem_nil
  boundaries := fun _ hnode => absurd hnode List.not_mem_nil
  inside := fun _ hnode => absurd hnode List.not_mem_nil
  apart := List.Pairwise.nil
  gaps := fun i hstart hstop _ => absurd hstop (by omega)

/-- A blank in front of siblings is one more byte that they leave open. Nothing
    is to be shown of the nodes, which are the same. -/
theorem Tiles.blank {c : Char} (h : Tiles source (start + 1) stop nodes)
    (hblank : isBlank c = true) (hbyte : Text.byteAt? source start = some c.toUInt8) :
    Tiles source start stop nodes where
  nonempty := h.nonempty
  boundaries := h.boundaries
  inside := fun node hnode => ⟨by have := (h.inside node hnode).1; omega, (h.inside node hnode).2⟩
  apart := h.apart
  gaps := by
    intro i hstart hstop hopen
    by_cases hfirst : i = start
    · subst hfirst
      exact ⟨c, hblank, hbyte⟩
    · exact h.gaps i (by omega) hstop hopen

/-- A node in front of siblings takes all bytes up to where they begin. That the
    others begin behind it is not asked for: it is what `inside` says of their
    own interval. -/
theorem Tiles.cons {node : Node} (h : Tiles source middle stop nodes)
    (hspan : node.span = ⟨start, middle⟩) (hlt : start < middle) (hle : middle ≤ stop)
    (hstart : (String.Pos.Raw.mk start).IsValid source)
    (hmiddle : (String.Pos.Raw.mk middle).IsValid source) :
    Tiles source start stop (node :: nodes) where
  nonempty := by
    rw [List.forall_mem_cons, hspan]
    exact ⟨hlt, h.nonempty⟩
  boundaries := by
    rw [List.forall_mem_cons, hspan]
    exact ⟨⟨hstart, hmiddle⟩, h.boundaries⟩
  inside := by
    rw [List.forall_mem_cons, hspan]
    constructor
    · exact ⟨Nat.le_refl _, hle⟩
    · -- The others were inside from `middle` on, which is further right.
      intro other hother
      have hinside := h.inside other hother
      exact ⟨by omega, hinside.2⟩
  apart := by
    refine List.Pairwise.cons (fun other hother => ?_) h.apart
    rw [hspan]
    exact (h.inside other hother).1
  gaps := by
    intro i hi hstop hopen
    rw [List.forall_mem_cons, hspan] at hopen
    -- The node leaves nothing open, so the byte is one of those behind it.
    have hbehind : middle ≤ i := Nat.le_of_not_lt fun hlt => hopen.1 ⟨hi, hlt⟩
    exact h.gaps i hbehind hstop hopen.2

end

/-- A leaf is written by one byte at least: by two quotes, or by a token that is
    not empty. So no span of a leaf is empty. -/
theorem Leaf.byteLength_pos {span : Span} {token rest : List Char} {node : Node}
    (h : Leaf span token rest node) : 0 < Text.byteLength token := by
  have hne : token ≠ [] := by
    cases h with
    | string hbody => exact List.cons_ne_nil _ _
    | symbol htoken hends => exact htoken.nonempty
    | number hvalue hends => exact ne_nil_of_startsNumber hvalue.startsNumber
  cases token with
  | nil => exact absurd rfl hne
  | cons c token => exact Text.byteLength_pos c token

/-- The brackets of a group are where its span says. Each of them is one byte,
    so a place in front of it is the place of that byte. -/
theorem bracketed_of_text {source : String} {bracket : Bracket} {front body back : List Char}
    (h : source.toList = front ++ bracket.opening :: (body ++ bracket.closing :: back)) :
    Bracketed source bracket
      ⟨Text.byteLength front, Text.byteLength front + (Text.byteLength body + 2)⟩ where
  wide := by
    simp only
    omega
  opening := Text.byteAt?_front h (utf8Size_opening bracket)
  closing := by
    have hclosing : source.toList =
        (front ++ (bracket.opening :: body)) ++ bracket.closing :: back := by
      rw [h, List.append_assoc, List.cons_append]
    -- In front of it stand the text, one byte of bracket and the body.
    have hsize := byteLength_opening bracket
    have hbyte := Text.byteAt?_front hclosing (utf8Size_closing bracket)
    rw [Text.byteLength_append, ← List.singleton_append, Text.byteLength_append, hsize] at hbyte
    rw [← hbyte]
    congr 1
    simp only
    omega

/-- The groups in the trees begin and end with their brackets, and their
    children tile what is in between. All groups at any depth are meant, so the
    trees are tiled down to their leaves. -/
def GroupsTiled (source : String) (nodes : List Node) : Prop :=
  ∀ bracket children span, group bracket children span ∈ subtreesAll nodes →
    Bracketed source bracket span ∧ Tiles source (span.start + 1) (span.stop - 1) children

section

variable {source : String} {nodes : List Node}

theorem GroupsTiled.nil (source : String) : GroupsTiled source [] :=
  fun _ _ _ hgroup => absurd hgroup List.not_mem_nil

/-- A leaf is no group and has none in it. -/
theorem GroupsTiled.leaf {span : Span} {token rest : List Char} {node : Node}
    (hleaf : Leaf span token rest node) (h : GroupsTiled source nodes) :
    GroupsTiled source (node :: nodes) := by
  intro bracket children span hgroup
  rw [subtreesAll, hleaf.subtrees_eq, List.singleton_append] at hgroup
  rcases List.mem_cons.mp hgroup with rfl | hgroup
  · cases hleaf
  · exact h bracket children span hgroup

/-- A group has itself, the groups inside of it, and those behind it. -/
theorem GroupsTiled.group {bracket : Bracket} {children : List Node} {span : Span}
    (hbracketed : Bracketed source bracket span)
    (htiles : Tiles source (span.start + 1) (span.stop - 1) children)
    (hchildren : GroupsTiled source children) (h : GroupsTiled source nodes) :
    GroupsTiled source (.group bracket children span :: nodes) := by
  intro bracket' children' span' hgroup
  rw [subtreesAll, subtrees, List.cons_append] at hgroup
  rcases List.mem_cons.mp hgroup with heq | hgroup
  · cases heq
    exact ⟨hbracketed, htiles⟩
  · rcases List.mem_append.mp hgroup with hgroup | hgroup
    · exact hchildren bracket' children' span' hgroup
    · exact h bracket' children' span' hgroup

end

/-- A derived sequence tiles the part of the source that it is written in, and
    so does every sequence inside one of its groups. What grows along the
    derivation is the text in front, whose length is the place. -/
theorem Sequence.tiles {source : String} {start : Nat} {text : List Char} {nodes : List Node}
    (h : Sequence Span.mk start text nodes) {front back : List Char}
    (hsource : source.toList = front ++ (text ++ back)) (hstart : Text.byteLength front = start) :
    Tiles source start (start + Text.byteLength text) nodes ∧ GroupsTiled source nodes := by
  induction h generalizing front back with
  | nil start => exact ⟨Tiles.nil source start, GroupsTiled.nil source⟩
  | @blank start c text nodes hblank _ ih =>
      have hsize := (byte_of_isBlank hblank).1
      have hfront : source.toList = (front ++ [c]) ++ (text ++ back) := by
        rw [hsource, List.append_assoc, List.singleton_append, List.cons_append]
      have hnext : Text.byteLength (front ++ [c]) = start + c.utf8Size := by
        rw [Text.byteLength_append, hstart]
        rfl
      rcases ih hfront hnext with ⟨htiles, hgroups⟩
      rw [hsize] at htiles
      rw [Text.byteLength, hsize, ← Nat.add_assoc]
      exact ⟨htiles.blank hblank (hstart ▸ Text.byteAt?_front hsource hsize), hgroups⟩
  | @leaf start token rest node nodes hleaf _ ih =>
      have hpos := hleaf.byteLength_pos
      have hfront : source.toList = (front ++ token) ++ (rest ++ back) := by
        rw [hsource, List.append_assoc, List.append_assoc]
      have hmiddle : Text.byteLength (front ++ token) = start + Text.byteLength token := by
        rw [Text.byteLength_append, hstart]
      rcases ih hfront hmiddle with ⟨htiles, hgroups⟩
      have hvalid : (String.Pos.Raw.mk start).IsValid source :=
        hstart ▸ Text.isValid_front hsource
      have hvalid' : (String.Pos.Raw.mk (start + Text.byteLength token)).IsValid source :=
        hmiddle ▸ Text.isValid_front hfront
      rw [Text.byteLength_append, ← Nat.add_assoc]
      exact ⟨htiles.cons hleaf.span_eq (by omega) (by omega) hvalid hvalid', hgroups.leaf hleaf⟩
  | @group start bracket body rest children nodes _ _ ihbody ihrest =>
      have hopening := byteLength_opening bracket
      -- The text in front of the group, of what is in it, and of what follows it.
      have hgroup : source.toList =
          front ++ bracket.opening :: (body ++ bracket.closing :: (rest ++ back)) := by
        rw [hsource, List.cons_append, List.append_assoc, List.cons_append]
      have hinner : source.toList =
          (front ++ [bracket.opening]) ++ (body ++ bracket.closing :: (rest ++ back)) := by
        rw [hgroup, List.append_assoc, List.singleton_append]
      have hafter : source.toList =
          (front ++ bracket.opening :: (body ++ [bracket.closing])) ++ (rest ++ back) := by
        rw [hgroup]
        simp only [List.append_assoc, List.cons_append, List.nil_append]
      have hmiddle : Text.byteLength (front ++ bracket.opening :: (body ++ [bracket.closing])) =
          start + (Text.byteLength body + 2) := by
        rw [Text.byteLength_append, hstart, byteLength_group]
        rfl
      have hinside : Text.byteLength (front ++ [bracket.opening]) = start + 1 := by
        rw [Text.byteLength_append, hstart, hopening]
      rcases ihbody hinner hinside with ⟨htilesBody, hgroupsBody⟩
      rcases ihrest hafter hmiddle with ⟨htilesRest, hgroupsRest⟩
      -- What the children fill is the span of the group without its two brackets.
      rw [show start + 1 + Text.byteLength body = start + (Text.byteLength body + 2) - 1 by omega]
        at htilesBody
      have hvalid : (String.Pos.Raw.mk start).IsValid source :=
        hstart ▸ Text.isValid_front hgroup
      have hvalid' : (String.Pos.Raw.mk (start + (Text.byteLength body + 2))).IsValid source :=
        hmiddle ▸ Text.isValid_front hafter
      have hbracketed := bracketed_of_text hgroup
      rw [hstart] at hbracketed
      rw [byteLength_group, ← Nat.add_assoc]
      constructor
      · exact htilesRest.cons rfl (by omega) (by omega) hvalid hvalid'
      · exact .group hbracketed htilesBody hgroupsBody hgroupsRest

/-- What was read from a text tiles it, and in every group, however deep, the
    children tile what is between its brackets. So every byte of a text is
    accounted for once: it is in a leaf, is a bracket, or is a blank between two
    nodes, and no span cuts a character in two. -/
theorem tiles_of_parse {source : String} {nodes : List Node}
    (hlimit : Text.byteLength source.toList ≤ Span.limit) (h : parse source = .ok nodes) :
    Tiles source 0 (Text.byteLength source.toList) nodes ∧ GroupsTiled source nodes := by
  have hderived := (Sequence.ofRange_iff (by omega)).mp (parse_eq_ok_iff_ofRange.mp h)
  have htext : source.toList = [] ++ (source.toList ++ []) := by
    rw [List.append_nil, List.nil_append]
  have htiles := hderived.tiles htext rfl
  rwa [Nat.zero_add] at htiles

/-- A call of a name and a vector, with characters of more than one byte and
    blanks before the brackets. -/
theorem tiles_of_parse_call :
    let nodes : List Node := [.group .round [.symbol "é" ⟨2, 4⟩,
      .group .square [.string "ü " ⟨5, 10⟩] ⟨4, 12⟩] ⟨1, 14⟩]
    Text.byteLength " (é['ü ' ] )".toList ≤ Span.limit ∧ parse " (é['ü ' ] )" = .ok nodes ∧
      Tiles " (é['ü ' ] )" 0 14 nodes ∧ GroupsTiled " (é['ü ' ] )" nodes := by
  have hparse : parse " (é['ü ' ] )" = .ok [.group .round [.symbol "é" ⟨2, 4⟩,
      .group .square [.string "ü " ⟨5, 10⟩] ⟨4, 12⟩] ⟨1, 14⟩] := by rfl
  exact ⟨by decide, hparse, tiles_of_parse (by decide) hparse⟩

end Parse

end AttrExpr
