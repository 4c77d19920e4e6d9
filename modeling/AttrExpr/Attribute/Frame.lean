import AttrExpr.Attribute.Error

/-!
# Binding Frames

The bindings that an element of a document can see.

Elements nest, and each may record bindings of its own. A frame is what one
element sees: its own table and the tables of the elements around it, the
nearest first. Only the own table can be written to, so what a child records
never reaches its parent.

A name is resolved from the inside out, and the same policy that decides
whether an answer of a resolver gives way decides whether a binding hides the
ones further out.

## Main definitions

* `Frame`: An element's table and those around it.
* `Frame.infer`: The nearest binding of a name.
* `Frame.bindPairs`: Records the pairs of a `let` value.
* `Frame.iterationItems`: Takes a `for` value apart.
* `Frame.bindIteration`: Records what one repetition of a `for` binds.
* `Frame.repetitions`: The frames of all repetitions.

## Theorems

* `get?_bind`: A binding is what the own table answers afterwards.
* `outer_bind`: Binding leaves the tables around alone.
-/

namespace AttrExpr

/-- What one element sees: its own bindings, and those of the elements around
    it from the inside out. -/
structure Frame where
  own : Bindings
  outer : List Bindings
deriving Inhabited

namespace Frame

/-- The frame of an element that nothing is around. -/
def root : Frame := ⟨.empty, []⟩

/-- The frame of an element inside another, without bindings of its own. The
    table of the outer element becomes the nearest of those around, and it is
    out of reach for `bind` from then on. -/
def child (frame : Frame) : Frame := ⟨.empty, frame.own :: frame.outer⟩

/-- The frame of the element around, if there is one. What the inner element
    bound is not in it, since the outer tables were never written to. -/
def parent? (frame : Frame) : Option Frame :=
  match frame.outer with
  | [] => none
  | table :: rest => some ⟨table, rest⟩

/-- How many elements are around. -/
def depth (frame : Frame) : Nat := frame.outer.length

/-- The frame with a name bound. The tables around stay as they are, so an
    element hides what is further out but never changes it. -/
def bind (frame : Frame) (name : String) (value : Value) : Frame :=
  { frame with own := frame.own.insert name value }

/-- What the element itself binds a name to, whether or not the value would give
    way to one further out. -/
def get? (frame : Frame) (name : String) : Option Value := frame.own.get? name

/-- The nearest binding of a name that does not give way, searching from the
    inside out. -/
def infer (policy : Fallthrough) (frame : Frame) (name : String) : Option Value :=
  (frame.own :: frame.outer).findSome? fun table => (table.get? name).filter policy.keeps

/-- The options under which symbols resolve through a frame. `walk` is the
    policy inside the frame and `policy` the one for the step beyond it. -/
def options (frame : Frame) (walk policy : Fallthrough) : Options :=
  ⟨some (infer walk frame), policy⟩

/-- One entry of a `let` value: a list of a key and a value. -/
def bindingPair? : Value → Option (String × Value)
  | .list [.str key, value] => some (key, value)
  | _ => none

/-- The entries of a `let` value, all of which have to be pairs. The first
    that is none is what does not fit. The list is read as a whole before
    anything is recorded, which is why a value with one bad entry at its end
    records nothing. -/
def bindingPairs : List Value → Except AttributeError (List (String × Value))
  | [] => .ok []
  | entry :: rest =>
      match bindingPair? entry with
      | none => .error (.malformedValue .bindings entry.display)
      | some pair => (bindingPairs rest).map (pair :: ·)

/-- Records the pairs of a `let` value and says how many there were. Either
    all of them are recorded or, if one does not fit, none. -/
def bindPairs (frame : Frame) (value : Value) : Except AttributeError (Nat × Frame) :=
  match value.list? with
  | none => .error (.malformedValue .bindings value.display)
  | some entries =>
      (bindingPairs entries).map fun pairs =>
        (pairs.length, { frame with own := frame.own.insertAll pairs })

/-- The name that a repetition binds its position to. -/
def indexName : String := "index"

/-- Records what one repetition binds: its position, and then the item under
    the key of the `for`, which may be the name of the position. A position
    that is too large to count is the largest. -/
def bindIteration (frame : Frame) (key : String) (index : Nat) (item : Value) : Frame :=
  let position := (Number.integer? index).getD Int64.maxValue
  (frame.bind indexName (.int position)).bind key item

/-- The key and the items of a `for` value. Nothing is asked of the items, which
    may be of different types, or none at all. -/
def iterationItems (value : Value) : Except AttributeError (String × List Value) :=
  match value with
  | .list [.str key, .list items] => .ok (key, items)
  | other => .error (.malformedValue .iteration other.display)

/-- The frames of the repetitions of a `for`, one child for each item. They all
    have the same parent, so no repetition sees what another one binds. -/
def repetitions (frame : Frame) (key : String) (items : List Value) : List Frame :=
  items.mapIdx fun index item => frame.child.bindIteration key index item

theorem get?_bind (frame : Frame) (name other : String) (value : Value) :
    (frame.bind name value).get? other = if other = name then some value else frame.get? other :=
  Bindings.get?_insert frame.own name other value

theorem outer_bind (frame : Frame) (name : String) (value : Value) :
    (frame.bind name value).outer = frame.outer := rfl

end Frame

end AttrExpr
