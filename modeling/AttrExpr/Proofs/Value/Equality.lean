import AttrExpr.Proofs.Float.Extended
import AttrExpr.Value.Basic

/-!
# The Laws of Equality

What equality of values keeps of the laws of an equality.

A float that is not a number differs from itself, and so does every list that
holds it, at any depth. So equality of values is not reflexive, and none of the
lemmas about lawful equality tests apply. It is symmetric and transitive, which
is all that chains need, and both are inherited: from floats by numbers, from
items by lists.

## Main definitions

* `Alike`: How two values can be equal.

## Theorems

* `alike_of_same`: Equal values are equal in one of these ways.
* `same_symm`, `same_trans`: Equality is symmetric and transitive.
-/

namespace AttrExpr

open Binary64

namespace Number

/-- Equality of numbers is symmetric. Numbers of different kinds are never equal,
    so it is enough to compare integers with integers and floats with floats. -/
theorem same_symm {a b : Number} (h : a.same b = true) : b.same a = true := by
  cases a with
  | int a =>
      cases b with
      | int b => exact beq_iff_eq.mpr (beq_iff_eq.mp h).symm
      | float b => cases h
  | float a =>
      cases b with
      | int b => cases h
      | float b => exact beq_symmetric h

/-- Equality of numbers is transitive. The number in the middle says of what kind
    the other two are. -/
theorem same_trans {a b c : Number} (hab : a.same b = true) (hbc : b.same c = true) :
    a.same c = true := by
  -- A float in the middle is equal to floats only, an integer to itself.
  cases b with
  | int b =>
      cases a with
      | float a => cases hab
      | int a =>
          have heq : a = b := beq_iff_eq.mp hab
          rw [heq]
          exact hbc
  | float b =>
      cases a with
      | int a => cases hab
      | float a =>
          cases c with
          | int c => cases hbc
          | float c => exact beq_transitive hab hbc

end Number

namespace Value

/-- How two values can be equal, by kind. Values without floats or lists in them
    are equal only to themselves, and for the other two it is put off to what is
    inside. A proof about equal values has six cases this way, and not thirty-six. -/
inductive Alike : Value → Value → Prop where
  | nil : Alike nil nil
  | bool (value : Bool) : Alike (bool value) (bool value)
  | number {a b : Number} (h : a.same b = true) : Alike (number a) (number b)
  | str (value : String) : Alike (str value) (str value)
  | list {as bs : List Value} (h : sameAll as bs = true) : Alike (list as) (list bs)
  | function (value : Function) : Alike (function value) (function value)

/-- Equal values are of one kind and equal in the way of that kind. -/
theorem alike_of_same {a b : Value} (h : same a b = true) : Alike a b := by
  -- In each case a value of any other kind is not equal, by definition.
  cases a with
  | nil =>
      cases b with
      | nil => exact .nil
      | _ => cases h
  | bool a =>
      cases b with
      | bool b =>
          have heq : a = b := beq_iff_eq.mp h
          rw [heq]
          exact .bool b
      | _ => cases h
  | number a =>
      cases b with
      | number b => exact .number h
      | _ => cases h
  | str a =>
      cases b with
      | str b =>
          have heq : a = b := beq_iff_eq.mp h
          rw [heq]
          exact .str b
      | _ => cases h
  | list as =>
      cases b with
      | list bs => exact .list h
      | _ => cases h
  | function a =>
      cases b with
      | function b =>
          have heq : a = b := beq_iff_eq.mp h
          rw [heq]
          exact .function b
      | _ => cases h

mutual

/-- Equality of values is symmetric. The recursion is on the first value, and it
    goes on only where both are lists. -/
theorem same_symm (a b : Value) (h : same a b = true) : same b a = true := by
  match a, b, alike_of_same h with
  | _, _, .nil => rfl
  | _, _, .bool value => exact beq_self_eq_true value
  | _, _, .number hnumber => exact Number.same_symm hnumber
  | _, _, .str value => exact beq_self_eq_true value
  | .list as, .list bs, .list hitems => exact sameAll_symm as bs hitems
  | _, _, .function value => exact beq_self_eq_true value

theorem sameAll_symm (as bs : List Value) (h : sameAll as bs = true) : sameAll bs as = true := by
  match as, bs with
  | [], [] => rfl
  -- Lists of different lengths are not equal.
  | [], b :: bs => cases h
  | a :: as, [] => cases h
  | a :: as, b :: bs =>
      rw [sameAll, Bool.and_eq_true] at h ⊢
      exact ⟨same_symm a b h.1, sameAll_symm as bs h.2⟩

end

mutual

/-- Equality of values is transitive. All three are of one kind, since neighbours
    are, and floats and lists put it off to what is inside. -/
theorem same_trans (a b c : Value) (hab : same a b = true) (hbc : same b c = true) :
    same a c = true := by
  match a, b, c, alike_of_same hab, alike_of_same hbc with
  | _, _, _, .nil, .nil => rfl
  | _, _, _, .bool value, .bool _ => exact beq_self_eq_true value
  | _, _, _, .number hab, .number hbc => exact Number.same_trans hab hbc
  | _, _, _, .str value, .str _ => exact beq_self_eq_true value
  | .list as, .list bs, .list cs, .list hab, .list hbc => exact sameAll_trans as bs cs hab hbc
  | _, _, _, .function value, .function _ => exact beq_self_eq_true value

theorem sameAll_trans (as bs cs : List Value) (hab : sameAll as bs = true)
    (hbc : sameAll bs cs = true) : sameAll as cs = true := by
  match as, bs, cs with
  | [], [], [] => rfl
  -- A length that differs from the one next to it makes that pair unequal.
  | _ :: _, [], _ => cases hab
  | [], _ :: _, _ => cases hab
  | _, [], _ :: _ => cases hbc
  | _, _ :: _, [] => cases hbc
  | a :: as, b :: bs, c :: cs =>
      rw [sameAll, Bool.and_eq_true] at hab hbc ⊢
      exact ⟨same_trans a b c hab.1 hbc.1, sameAll_trans as bs cs hab.2 hbc.2⟩

end

end Value

end AttrExpr
