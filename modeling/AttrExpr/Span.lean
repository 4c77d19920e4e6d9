import AttrExpr.Text.Bytes

/-!
# Byte Spans

Where in a source text something stands: a half-open range of byte offsets.

A span is kept small on purpose. Offsets stop at `Span.limit`, the largest
offset a span records, and a range past it is either refused (`tryOfRange`)
or pushed back to the limit (`ofRange`). Reading a text uses the second form,
because a position in a text that large is worth having even when it is no
longer exact.

## Main definitions

* `Span`: A range of byte offsets, end excluded.
* `Span.ofRange`, `Span.tryOfRange`: A span from a range of any size.
* `Span.merge`: The smallest span covering two.
* `Span.slice`: The text a span covers.

## Theorems

* `ofRange_of_le`: A range within the limit is kept as it is.
* `slice?_part`: The range of a part of a source covers that part.
-/

namespace AttrExpr

/-- A range of byte offsets: `start` is included and `stop` is not. Nothing
    makes `start` the smaller one, and a span from elsewhere need not fit the
    text it is used with, so whatever cuts a text with a span has to check. -/
structure Span where
  start : Nat
  stop : Nat
deriving DecidableEq, Repr, Inhabited

/-- Why a range is no span. The offset at fault is kept, since a range whose
    two ends are both too large is reported by its start alone. -/
inductive SpanError where
  | startTooLarge (offset : Nat)
  | endTooLarge (offset : Nat)
deriving DecidableEq, Repr

namespace SpanError

def message : SpanError → String
  | startTooLarge offset => s!"span start {offset} exceeds u32::MAX"
  | endTooLarge offset => s!"span end {offset} exceeds u32::MAX"

end SpanError

namespace Span

/-- The largest offset a span records, `2 ^ 32 - 1`. Two offsets of 32 bits make
    a span as small as one machine word, and every node carries one. -/
def limit : Nat := 4294967295

/-- The span of something that never stood in a source text. It is a span like
    any other, and an empty one at the beginning, so it shows nothing. -/
def dummy : Span := ⟨0, 0⟩

/-- The span of a range, if both ends are within the limit. The start is
    looked at first. -/
def tryOfRange (start stop : Nat) : Except SpanError Span :=
  if limit < start then .error (.startTooLarge start)
  else if limit < stop then .error (.endTooLarge stop)
  else .ok ⟨start, stop⟩

/-- The span of a range, with offsets past the limit pushed back to it. A
    range that starts past the limit has no offset left to be exact about, so
    its end goes to the limit as well. -/
def ofRange (start stop : Nat) : Span :=
  match tryOfRange start stop with
  | .ok span => span
  | .error _ => ⟨min start limit, limit⟩

/-- How many bytes the span covers. -/
def length (span : Span) : Nat := span.stop - span.start

def isEmpty (span : Span) : Bool := span.start == span.stop

/-- The smallest span covering both, and whatever is between them. The two may
    come in either order, or overlap. -/
def merge (a b : Span) : Span := ⟨min a.start b.start, max a.stop b.stop⟩

/-- Both ends as text, `start..stop`. -/
def text (span : Span) : String := s!"{span.start}..{span.stop}"

/-- The text the span covers, if it covers one: both ends have to lie on
    character boundaries of the source, in order. -/
def slice? (span : Span) (source : String) : Option String :=
  if span.start ≤ span.stop then
    (Text.dropBytes? span.start source.toList).bind fun rest =>
      (Text.takeBytes? span.length rest).map String.ofList
  else none

/-- The text the span covers, empty if it does not fit the source. It is meant
    for messages, where a span of another text is better shown as nothing than
    met with a failure. -/
def slice (span : Span) (source : String) : String :=
  (span.slice? source).getD ""

theorem ofRange_of_le {start stop : Nat} (hs : start ≤ limit) (he : stop ≤ limit) :
    ofRange start stop = ⟨start, stop⟩ := by
  simp only [ofRange, tryOfRange, Nat.not_lt.mpr hs, Nat.not_lt.mpr he, if_false]

/-- What the reader gives a node is such a range: the bytes in front of a part,
    and those together with the part's own. -/
theorem slice?_part {source : String} {front part back : List Char}
    (h : source.toList = front ++ (part ++ back)) :
    slice? ⟨Text.byteLength front, Text.byteLength front + Text.byteLength part⟩ source =
      some (String.ofList part) := by
  rw [slice?, if_pos (Nat.le_add_right _ _), h, Text.dropBytes?_append, Option.bind_some, length,
    Nat.add_sub_cancel_left, Text.takeBytes?_append, Option.map_some]

end Span

end AttrExpr
