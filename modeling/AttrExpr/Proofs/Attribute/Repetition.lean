import AttrExpr.Proofs.Attribute.Visibility

/-!
# Nested Repetitions

What an expression sees from inside repetitions that stand inside each other.

Every repetition of a `for` has a frame of its own, a child of the frame it is
in, and writes two bindings into it: its position, and its item under the key of
the `for`. The order of the two matters, since the key may be the name of the
position, and then it is the item that stays.

Seen from the innermost frame, the position is therefore always that of the
innermost repetition, or its item, and no position further out can be seen. A
key is bound by every repetition that has it, and the innermost of these hides
the others, whatever its item counts as. Nothing else is bound on the way, so
for any other name the frames do not matter at all: it is looked up in the frame
that all repetitions are in. An expression that mentions only such names comes
to the same there.

## Main definitions

* `Repetition`: What one repetition binds.
* `Frame.enter`, `Frame.enterAll`: The frames of repetitions inside a frame.

## Theorems

* `infer_enter`: What one more repetition changes.
* `infer_enterAll_of_ne`: Names that no repetition binds.
* `infer_enterAll`: What can be seen from inside all repetitions.
-/

namespace AttrExpr

/-- What one repetition of a `for` binds: its item under the key, and its
    position. -/
structure Repetition where
  key : String
  index : Nat
  item : Value

namespace Repetition

/-- The position as a value, which is the largest integer for all positions
    beyond that. -/
def position (repetition : Repetition) : Int64 :=
  (Number.integer? repetition.index).getD Int64.maxValue

/-- Positions are counted as far as integers go, and all further ones are the
    largest of them. -/
theorem toInt_position (repetition : Repetition) :
    repetition.position.toInt = min (repetition.index : Int) Int64.maxValue.toInt := by
  unfold position
  have hleast : Int64.minValue.toInt ≤ (repetition.index : Int) :=
    le_trans (by decide) (Int.natCast_nonneg repetition.index)
  by_cases hfits : (repetition.index : Int) ≤ Int64.maxValue.toInt
  · have hsome : Number.integer? repetition.index = some (Int64.ofInt repetition.index) :=
      if_pos ⟨hleast, hfits⟩
    rw [min_eq_left hfits, hsome, Option.getD_some]
    exact Number.toInt_of_integer? hsome
  · have hnone : Number.integer? repetition.index = none := if_neg fun h => hfits h.2
    rw [min_eq_right (not_le.mp hfits).le, hnone, Option.getD_none]

end Repetition

namespace Frame

/-- The frame of a repetition inside a frame. -/
def enter (frame : Frame) (repetition : Repetition) : Frame :=
  frame.child.bindIteration repetition.key repetition.index repetition.item

/-- The innermost frame of repetitions inside each other, the outermost of which
    comes first and is inside the given frame. Whatever is proved of several is
    an induction on this fold, whose step is `enter`. -/
def enterAll (frame : Frame) (repetitions : List Repetition) : Frame :=
  repetitions.foldl enter frame

section

variable (policy : Fallthrough) (frame : Frame) (repetition : Repetition) (name : String)

/-- The frame of a repetition holds two bindings, and the item is the later
    one. So a key that is the name of the position hides the position. -/
theorem get?_enter : (frame.enter repetition).get? name =
    if name = repetition.key then some repetition.item
    else if name = indexName then some (.int repetition.position)
    else none := by
  have hempty : frame.child.get? name = none := Bindings.get?_empty name
  unfold enter bindIteration
  rw [get?_bind, get?_bind, hempty]
  rfl

/-- A repetition comes in front of what is around it, with what the policy keeps
    of its two bindings. -/
theorem infer_enter_eq_or : (frame.enter repetition).infer policy name =
    (((frame.enter repetition).get? name).filter policy.keeps).or (frame.infer policy name) := by
  have htables : (frame.enter repetition).outer = frame.own :: frame.outer := rfl
  have hown : (frame.enter repetition).own.get? name = (frame.enter repetition).get? name := rfl
  unfold infer
  rw [htables, List.findSome?_cons, hown]
  cases ((frame.enter repetition).get? name).filter policy.keeps with
  | none => rfl
  | some value => rfl

/-- What one more repetition changes: the answers for its key and for the name
    of its position. -/
theorem infer_enter : (frame.enter repetition).infer .absent name =
    if name = repetition.key then some repetition.item
    else if name = indexName then some (.int repetition.position)
    else frame.infer .absent name := by
  have hkept : ∀ value : Value, Option.filter Fallthrough.absent.keeps (some value) = some value :=
    fun _ => rfl
  rw [infer_enter_eq_or, get?_enter]
  by_cases hkey : name = repetition.key
  · rw [if_pos hkey, if_pos hkey, hkept, Option.some_or]
  · rw [if_neg hkey, if_neg hkey]
    by_cases hindex : name = indexName
    · rw [if_pos hindex, if_pos hindex, hkept, Option.some_or]
    · -- Neither binding is of this name, so the frame around answers.
      rw [if_neg hindex, if_neg hindex, Option.filter_none, Option.none_or]

variable {repetition name} in
/-- Any other name is looked up outside, under whatever policy. -/
theorem infer_enter_of_ne (hindex : name ≠ indexName) (hkey : repetition.key ≠ name) :
    (frame.enter repetition).infer policy name = frame.infer policy name := by
  rw [infer_enter_eq_or, get?_enter, if_neg (Ne.symm hkey), if_neg hindex, Option.filter_none,
    Option.none_or]

variable {name} in
/-- No number of repetitions changes a name that none of them binds. -/
theorem infer_enterAll_of_ne (hindex : name ≠ indexName) {repetitions : List Repetition}
    (hkeys : ∀ repetition ∈ repetitions, repetition.key ≠ name) :
    (frame.enterAll repetitions).infer policy name = frame.infer policy name := by
  induction repetitions generalizing frame with
  | nil => rfl
  | cons repetition inner ih =>
      rw [List.forall_mem_cons] at hkeys
      -- The innermost frame of the others starts from the frame of this one.
      have hstep : frame.enterAll (repetition :: inner) =
          (frame.enter repetition).enterAll inner := rfl
      rw [hstep, ih (frame.enter repetition) hkeys.2, infer_enter_of_ne policy frame hindex hkeys.1]

theorem enterAll_append (before after : List Repetition) :
    frame.enterAll (before ++ after) = (frame.enterAll before).enterAll after :=
  List.foldl_append

end

/-- What can be seen from inside repetitions that stand in a frame. A key is
    bound to the item of the innermost repetition that has it. The name of the
    position is bound by the innermost repetition alone, to its item if it has
    that key, and to its position otherwise. All other names are what they are
    in the frame around the repetitions, and so is every attribute that mentions
    only those. -/
theorem infer_enterAll (base : Frame) (repetitions : List Repetition) :
    (∀ before repetition after, repetitions = before ++ repetition :: after →
      repetition.key ≠ indexName → (∀ inner ∈ after, inner.key ≠ repetition.key) →
      (base.enterAll repetitions).infer .absent repetition.key = some repetition.item) ∧
    (∀ before last, repetitions = before ++ [last] →
      (last.key = indexName →
        (base.enterAll repetitions).infer .absent indexName = some last.item) ∧
      (last.key ≠ indexName →
        ∃ position : Int64, position.toInt = min (last.index : Int) Int64.maxValue.toInt ∧
          (base.enterAll repetitions).infer .absent indexName = some (.int position))) ∧
    (∀ policy name, name ≠ indexName → (∀ repetition ∈ repetitions, repetition.key ≠ name) →
      (base.enterAll repetitions).infer policy name = base.infer policy name) ∧
    ∀ host namespaces policy (attr : Attribute),
      (∀ name, Mentions attr.value name →
        name ≠ indexName ∧ ∀ repetition ∈ repetitions, repetition.key ≠ name) →
      attr.evaluate host namespaces policy (base.enterAll repetitions) =
        attr.evaluate host namespaces policy base := by
  refine ⟨?_, ?_, ?_, ?_⟩
  · -- A key: what is further in binds other keys, and the frame itself has the item.
    intro before repetition after hsplit hindex hinner
    have hframe : base.enterAll repetitions =
        ((base.enterAll before).enter repetition).enterAll after := by
      rw [hsplit, enterAll_append]
      rfl
    rw [hframe, infer_enterAll_of_ne .absent _ hindex hinner, infer_enter, if_pos rfl]
  · -- The name of the position: the innermost frame answers by itself.
    intro before last hsplit
    have hframe : base.enterAll repetitions = (base.enterAll before).enter last := by
      rw [hsplit, enterAll_append]
      rfl
    rw [hframe, infer_enter]
    constructor
    · intro hkey
      rw [if_pos hkey.symm]
    · intro hkey
      rw [if_neg (Ne.symm hkey), if_pos rfl]
      exact ⟨last.position, last.toInt_position, rfl⟩
  · exact fun policy name hindex hkeys => infer_enterAll_of_ne policy base hindex hkeys
  · -- A text that mentions other names only: each of them is found as outside.
    intro host namespaces policy attr hmentions
    apply Attribute.evaluate_of_infer
    intro name hname
    have hother := hmentions name hname
    exact infer_enterAll_of_ne policy base hother.1 hother.2

/-- A key in two repetitions, one of which has the name of the position for its
    key: the inner item hides the outer one although it counts as false, the
    position is that of the innermost repetition, and the binding outside can
    be seen from there. -/
theorem infer_enterAll_falsy :
    let base := Frame.root.bind "y" (.str "out")
    let repetitions : List Repetition :=
      [⟨"x", 4, .str "a"⟩, ⟨"index", 3, .str "b"⟩, ⟨"x", 7, .int 0⟩]
    let attr : Attribute := ⟨.text, none, "[y]"⟩
    (base.enterAll repetitions).infer .absent "x" = some (.int 0) ∧
      (∃ position : Int64, position.toInt = 7 ∧
        (base.enterAll repetitions).infer .absent "index" = some (.int position)) ∧
      (base.enterAll (repetitions.take 2)).infer .absent "index" = some (.str "b") ∧
      attr.evaluate .none (fun _ => none) .absent (base.enterAll repetitions) =
        attr.evaluate .none (fun _ => none) .absent base ∧
      attr.evaluate .none (fun _ => none) .absent base = .ok (.list [.str "out"]) := by
  intro base repetitions attr
  have hall := infer_enterAll base repetitions
  have hfirst := infer_enterAll base (repetitions.take 2)
  have hparse : parse "[y]" = .ok [.group .square [.symbol "y" ⟨1, 2⟩] ⟨0, 3⟩] := by rfl
  have hmentions : ∀ name, Mentions attr.value name →
      name ≠ indexName ∧ ∀ repetition ∈ repetitions, repetition.key ≠ name := by
    intro name hname
    have hy : name = "y" := List.mem_singleton.mp ((mentions_iff hparse name).mp hname)
    rw [hy]
    decide
  -- The last repetition binds both names, and the one before it its own name only.
  have hinner : (base.enterAll repetitions).infer .absent "x" = some (.int 0) :=
    hall.1 (repetitions.take 2) _ [] rfl (by decide) (List.forall_mem_nil _)
  have hposition := (hall.2.1 (repetitions.take 2) _ rfl).2 (by decide)
  have hkey := (hfirst.2.1 [⟨"x", 4, .str "a"⟩] _ rfl).1 rfl
  have hvalue : attr.evaluate .none (fun _ => none) .absent base = .ok (.list [.str "out"]) := by
    simp only [Attribute.evaluate, Attribute.environment, evaluateSource, attr, hparse]
    rfl
  exact ⟨hinner, hposition, hkey, hall.2.2.2 .none (fun _ => none) .absent attr hmentions, hvalue⟩

end Frame

end AttrExpr
