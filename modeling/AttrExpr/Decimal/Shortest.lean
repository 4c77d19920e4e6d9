import AttrExpr.Decimal.Basic

/-!
# The Shortest Decimal of a Float

The fewest digits that still name one particular float.

The exact value of a float is a decimal already, only a long one. Dropping
its last `n` digits leaves two neighbours on a coarser grid, one below and
one above, and a grid is fine enough as soon as one of its two neighbours
reads back as the float that was started from. So the search is over grids,
from the coarsest down, and it needs no knowledge of how floats are spaced:
what reads back is decided by reading.

## Main definitions

* `neighbours`: The two decimals around a value after dropping digits, nearer
  one first.
* `shortest`: The shortest decimal that reads back.

## Theorems

* `toFloat_shortest`: The shortest decimal reads back, as soon as the exact
  one does.
-/

namespace AttrExpr

namespace Decimal

/-- The two neighbours of a value on the grid left by dropping `dropped`
    digits, the nearer one first. Halfway between them the upper one counts
    as nearer. -/
def neighbours (d : Decimal) (dropped : Nat) : List Decimal :=
  let unit := Nat.pow 10 dropped
  let below : Decimal := ⟨d.coefficient / unit, d.exponent + dropped⟩
  let above : Decimal := ⟨d.coefficient / unit + 1, d.exponent + dropped⟩
  if unit ≤ 2 * (d.coefficient % unit) then [above, below] else [below, above]

/-- The decimal of fewest digits that reads back as the magnitude of a finite
    float; of several, the one nearest to it. Dropping all digits but one is
    the coarsest grid tried, dropping none the finest. -/
def shortest (magnitude : Float) : Decimal :=
  let exact := ofFloat magnitude
  let grids := (List.range exact.digits.length).reverse
  let found := grids.findSome? fun dropped =>
    (exact.neighbours dropped).find? fun d => d.toFloat = magnitude
  (found.getD exact).normalize

/-- The shortest decimal reads back. A decimal found on some grid does
    because that was the test, and where none is found the exact value is
    taken. -/
theorem toFloat_shortest {x : Float} (h : (ofFloat x).toFloat = x) :
    (shortest x).toFloat = x := by
  simp only [shortest, toFloat_normalize]
  cases hfound : ((List.range (ofFloat x).digits.length).reverse.findSome? fun dropped =>
      ((ofFloat x).neighbours dropped).find? fun d => d.toFloat = x) with
  | none => exact h
  | some d =>
      rw [Option.getD_some]
      obtain ⟨dropped, _, hd⟩ := List.exists_of_findSome?_eq_some hfound
      simpa only [decide_eq_true_eq] using List.find?_some hd

end Decimal

end AttrExpr
