import AttrExpr.Decimal.Layout

/-!
# Numbers

The numbers of the language: 64-bit integers and floats, kept apart.

An integer stays an integer as long as every operation on it has an integer
result that fits, and widens to a float where it meets one. Equality here is
the structural one, so `1` and `1.0` differ; comparing across the two kinds
is an operation of the standard functions.

## Main definitions

* `Number`: An integer or a float.
* `Number.integer?`: An integer of any size, if it fits.
* `Number.toFloat`: Widening.
* `Number.literal`, `Number.shown`: The two texts of a number.
-/

namespace AttrExpr

/-- A number of the language. The kinds are never mixed silently: `1` and `1.0`
    are two numbers here, and it takes an operation to make one of the other. -/
inductive Number where
  | int (value : Int64)
  | float (value : Float)
deriving DecidableEq, Inhabited

namespace Number

/-- The 64-bit integer of a given value, if there is one. Arithmetic computes on
    integers of any size and comes back through here, so an overflow is a
    missing answer and nothing ever wraps around. -/
def integer? (n : Int) : Option Int64 :=
  if Int64.minValue.toInt ≤ n ∧ n ≤ Int64.maxValue.toInt then some (Int64.ofInt n) else none

/-- The value as a float; an integer beyond `2 ^ 53` may be rounded. -/
def toFloat : Number → Float
  | int value => Float.ofInt value.toInt
  | float value => value

/-- Equality within a kind. Floats compare as floats do, so a number that is
    not a number differs from itself and the two zeros are one. -/
def same : Number → Number → Bool
  | int a, int b => a == b
  | float a, float b => a == b
  | _, _ => false

/-- The number as it is written in source text, where a float has to be told
    from an integer. -/
def literal : Number → String
  | int value => Decimal.integerText value.toInt
  | float value => Decimal.Layout.literal.float value

/-- The number as it is shown to a reader, who is spared the `.0` of a whole
    float. Different numbers may therefore be shown alike. -/
def shown : Number → String
  | int value => Decimal.integerText value.toInt
  | float value => Decimal.Layout.shown.float value

/-- Zero and what is not a number are falsy. -/
def isTruthy : Number → Bool
  | int value => value != 0
  | float value => value != 0.0 && !value.isNaN

/-- An integer that fits is not changed by being stored. -/
theorem toInt_of_integer? {n : Int} {i : Int64} (h : integer? n = some i) : i.toInt = n := by
  unfold integer? at h
  split at h
  · rename_i hn
    cases h
    exact Int64.toInt_ofInt_of_le hn.1 (Int.lt_add_one_of_le hn.2)
  · cases h

end Number

end AttrExpr
