import AttrExpr.Proofs.Builtin.PairwiseComparison
import AttrExpr.Proofs.Node.Distinct

/-!
# Values and Their Copies

Which values are equal to a copy of themselves.

A copy is built anew, item by item, and only functions are shared: a copied
function is the same function. One would expect it to be equal to what it was
copied from, and that is so unless there is a `NaN` somewhere inside, at any
depth. So equality is a partial equivalence, reflexive exactly on the values
without one.

The standard `=` goes its own way for numbers, which it compares as floats, and
agrees with equality for all else. Integers are rounded on that way, and that
can make different ones equal but never tells equal ones apart. So whatever is
equal is equal for `=` too.

## Main definitions

* `copy`: A copy of a value.
* `Within`: What is inside a value, at any depth.
* `NaNFree`: That no float inside a value is `NaN`.

## Theorems

* `copy_eq`: A copy is the value it was copied from.
* `same_self_iff`: A value is equal to itself exactly if no `NaN` is in it.
* `looselyEqual_of_same`: Equal values are loosely equal.
* `same_laws`: The laws that equality of values keeps.
-/

namespace AttrExpr

open Binary64 Comparison

/-- A float is equal to itself exactly if it is a number. What it is equal to has a
    place among the numbers and the infinities, and `NaN` has none. -/
theorem Binary64.beq_self_iff (x : Float) : (x == x) = true ↔ x.isNaN = false := by
  constructor
  · intro h
    rcases beq_iff_related.mp h with ⟨a, _, ha, _⟩
    rw [isNaN_eq]
    cases hform : unpacked x with
    | notANumber =>
        rw [hform] at ha
        cases ha
    | infinity | zero | finite => rfl
  · exact beq_self

namespace Value

mutual

/-- A copy of a value. Lists are copied item by item, and a copied function is
    the function itself. -/
def copy : Value → Value
  | nil => nil
  | bool value => bool value
  | number value => number value
  | str value => str value
  | list items => list (copyAll items)
  | function value => function value

/-- Copies of the items of a list. -/
def copyAll : List Value → List Value
  | [] => []
  | item :: items => copy item :: copyAll items

end

/-- What is inside a value, at any depth. It is inside itself. -/
inductive Within (inner : Value) : Value → Prop where
  | self : Within inner inner
  | item {item : Value} {items : List Value} (hmem : item ∈ items) (h : Within inner item) :
      Within inner (list items)

/-- No float inside a value, at any depth, is `NaN`. -/
def NaNFree (value : Value) : Prop := ∀ x, Within (float x) value → x.isNaN = false

/-! ## Copies -/

mutual

/-- A copy is the value it was copied from. -/
theorem copy_eq : ∀ value : Value, value.copy = value
  | nil | bool _ | number _ | str _ | function _ => rfl
  | list items => congrArg list (copyAll_eq items)

theorem copyAll_eq : ∀ items : List Value, copyAll items = items
  | [] => rfl
  | item :: items => congrArg₂ List.cons (copy_eq item) (copyAll_eq items)

end

/-! ## What is equal to itself -/

/-- What is inside a list is inside one of its items. -/
theorem naNFree_list {items : List Value} :
    NaNFree (list items) ↔ ∀ item ∈ items, NaNFree item := by
  constructor
  · exact fun h item hmem x hx => h x (.item hmem hx)
  · intro h x hx
    cases hx with
    | item hmem hx => exact h _ hmem x hx

theorem naNFree_float {x : Float} : NaNFree (float x) ↔ x.isNaN = false := by
  constructor
  · intro h
    exact h x .self
  · intro h y hy
    cases hy
    exact h

mutual

/-- A value is equal to itself exactly if no `NaN` is in it. A `NaN` differs from
    itself, and makes every list around it do so too. -/
theorem same_self_iff (value : Value) : same value value = true ↔ NaNFree value := by
  -- Floats and lists are where a value can differ from itself; the rest is compared as
  -- data, and nothing is inside it.
  match value with
  | nil => exact iff_of_true rfl nofun
  | bool value => exact iff_of_true (beq_self_eq_true value) nofun
  | number (.int value) => exact iff_of_true (beq_self_eq_true value) nofun
  | number (.float x) => exact (beq_self_iff x).trans naNFree_float.symm
  | str value => exact iff_of_true (beq_self_eq_true value) nofun
  | list items => exact (sameAll_self_iff items).trans naNFree_list.symm
  | function value => exact iff_of_true (beq_self_eq_true value) nofun

theorem sameAll_self_iff (items : List Value) :
    sameAll items items = true ↔ ∀ item ∈ items, NaNFree item := by
  match items with
  | [] => exact iff_of_true rfl nofun
  | item :: items =>
      rw [sameAll, Bool.and_eq_true, same_self_iff item, sameAll_self_iff items,
        List.forall_mem_cons]

end

/-! ## Loose equality -/

/-- Equal numbers are equal as floats: integers because they are the same, so that
    they are rounded to the same float. -/
theorem beq_toFloat_of_same {a b : Number} (h : a.same b = true) :
    (a.toFloat == b.toFloat) = true := by
  cases a with
  | int a =>
      cases b with
      | int b =>
          -- Rounding can make different integers equal, but these are one.
          have heq : a = b := beq_iff_eq.mp h
          rw [heq]
          exact (float_beq_iff b b).mpr rfl
      | float b => cases h
  | float a =>
      cases b with
      | int b => cases h
      | float b => exact h

/-- Equal values are loosely equal. Only numbers are compared differently. -/
theorem looselyEqual_of_same {a b : Value} (h : same a b = true) : looselyEqual a b = true := by
  rw [looselyEqual_iff]
  cases alike_of_same h with
  | number hnumber => exact Or.inl (inOrder_number.mpr (beq_toFloat_of_same hnumber))
  | nil | bool | str | list | function => exact Or.inr ⟨rfl, rfl, h⟩

theorem same_function_iff {f g : Function} : same (function f) (function g) = true ↔ f = g :=
  beq_iff_eq

/-- Equality is symmetric and transitive. A value is equal to its copy exactly
    if no `NaN` is inside it, and what is equal is so for `=` too. Functions
    are equal only if they are the same, and a copy is. That is as near to an
    equivalence as floats allow: a list that holds what is not a number differs
    from itself however deep it holds it. -/
theorem same_laws (a b c : Value) :
    same a b = same b a ∧
    (same a b = true → same b c = true → same a c = true) ∧
    (same a a.copy = true ↔ NaNFree a) ∧
    (same a b = true → Builtin.equal.apply [a, b] = .ok (.bool true)) ∧
    ∀ f g : Function, (same (function f) (function g) = true ↔ f = g) ∧
      (function g).copy = function g := by
  have hsymm : same a b = same b a := Bool.eq_iff_iff.mpr ⟨same_symm a b, same_symm b a⟩
  -- A copy is the value itself, so what is asked is whether that is equal to itself.
  have hcopy : same a a.copy = true ↔ NaNFree a := by rw [copy_eq, same_self_iff]
  have hequal : same a b = true → Builtin.equal.apply [a, b] = .ok (.bool true) := by
    intro h
    rw [Builtin.apply, adjacent, looselyEqual_of_same h]
    rfl
  exact ⟨hsymm, same_trans a b c, hcopy, hequal, fun f g => ⟨same_function_iff, rfl⟩⟩

/-- The two zeros are equal, in lists too, and both are numbers. -/
theorem same_laws_zeros :
    same (list [float 0.0, nil]) (list [float (-0.0), nil]) = true ∧
    same (list [float (-0.0), nil]) (list [float 0.0, nil]) = true ∧
    same (list [float 0.0, nil]) (list [float 0.0, nil]) = true ∧
    NaNFree (list [float 0.0, nil]) ∧
    Builtin.equal.apply [list [float 0.0, nil], list [float (-0.0), nil]] = .ok (.bool true) := by
  have hsame : same (list [float 0.0, nil]) (list [float (-0.0), nil]) = true := by decide
  rcases same_laws (list [float 0.0, nil]) (list [float (-0.0), nil]) (list [float 0.0, nil]) with
    ⟨hsymm, htrans, hcopy, hequal, _⟩
  have hback := hsymm.symm.trans hsame
  exact ⟨hsame, hback, htrans hsame hback, hcopy.mp (htrans hsame hback), hequal hsame⟩

/-- A list in a list is enough. -/
example : same (list [nil, list [float (0.0 / 0.0)]]) (list [nil, list [float (0.0 / 0.0)]]) =
    false := by decide

end Value

end AttrExpr
