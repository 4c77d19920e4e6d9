import AttrExpr.Builtin.Arithmetic

/-!
# Comparison

The standard functions that compare their arguments.

Each of them looks at neighbours only: `(< a b c)` asks whether `a` is below
`b` and `b` below `c`. Numbers are compared as floats, whichever kind they
are. The orderings are for numbers alone, and every argument is checked to be
one before any two are compared; equality takes all values.

## Main definitions

* `adjacent`: Whether every two neighbours are related.
* `looselyEqual`: Equality that does not tell an integer from a float.
* `ordering`: The shape of the four orderings.

## Theorems

* `adjacent_cons_cons`: The first two arguments are compared, and then the
  second one with the next.
-/

namespace AttrExpr

namespace Comparison

/-- Whether every two neighbours of a list are related. A list of one item has
    no neighbours, so whatever stands alone is in order, even if it is not
    related to itself. -/
def adjacent {α : Type} (related : α → α → Bool) : List α → Bool
  | [] => true
  | a :: rest =>
      match rest with
      | [] => true
      | b :: _ => related a b && adjacent related rest

/-- Equality that takes `1` and `1.0` for the same number. Inside lists the
    two stay different, since lists are compared by the equality of values,
    which keeps kinds apart. -/
def looselyEqual (a b : Value) : Bool :=
  match a.number?, b.number? with
  | some x, some y => x.toFloat == y.toFloat
  | _, _ => a.same b

/-- The numbers the arguments are, as floats; the first argument that is none
    is the error. An integer beyond `2 ^ 53` loses its last digits here, and a
    comparison is then made without them. -/
def expectFloats : List Value → Except EvalFault (List Float)
  | [] => .ok []
  | argument :: rest => do
      let number ← argument.expectNumber
      let floats ← expectFloats rest
      return number.toFloat :: floats

/-- An ordering of numbers, asked of every two neighbours. -/
def ordering (related : Float → Float → Bool) (arguments : List Value) :
    Except EvalFault Bool := do
  return adjacent related (← expectFloats arguments)

theorem adjacent_cons_cons {α : Type} (related : α → α → Bool) (a b : α) (rest : List α) :
    adjacent related (a :: b :: rest) = (related a b && adjacent related (b :: rest)) := rfl

end Comparison

end AttrExpr
