import AttrExpr.Decimal.Shortest

/-!
# Laying Out Floats as Text

Where the point goes, and when an exponent is written instead.

Two texts of a float are needed. As a literal it has to be told from an
integer, so a whole number keeps `.0`, and a very large or very small number
is written with an exponent. Shown to a reader it is always written out in
full, and a whole number has no point. Both use the shortest digits and
differ only in a `Layout`, which records those two decisions.

## Main definitions

* `Layout`: What one format decides.
* `Layout.literal`, `Layout.shown`: The two formats.
* `Layout.positional`, `Layout.scientific`: The two ways to write digits.
* `Layout.float`: The text of any float.
-/

namespace AttrExpr

namespace Decimal

/-- What a float format decides. The digits are the same under every layout; a
    layout only says where the point goes and how a whole number ends. -/
structure Layout where
  /-- Whether a number whose leading digit stands at this power of ten is
      written out in full. -/
  isPositional : Int → Bool
  /-- What follows the digits of a whole number written out in full. -/
  wholeEnding : List Char

namespace Layout

/-- Literals are written out from `10 ^ -4` up to, but not including,
    `10 ^ 16`, and a whole number ends in `.0`. -/
def literal : Layout where
  isPositional lead := -4 ≤ lead && lead < 16
  wholeEnding := ['.', '0']

/-- Numbers shown to a reader are always written out, without a point where
    none is needed. -/
def shown : Layout where
  isPositional _ := true
  wholeEnding := []

/-- The digits written out in full, with zeros up to the point. -/
def positional (layout : Layout) (d : Decimal) : List Char :=
  let digits := d.digits
  if 0 ≤ d.exponent then
    digits ++ List.replicate d.exponent.toNat '0' ++ layout.wholeEnding
  else
    let places := (-d.exponent).toNat
    if places < digits.length then
      digits.take (digits.length - places) ++ '.' :: digits.drop (digits.length - places)
    else '0' :: '.' :: (List.replicate (places - digits.length) '0' ++ digits)

/-- The power of ten at which the leading digit stands. It measures the size of
    a number without regard to how many digits it has. -/
def lead (d : Decimal) : Int := d.exponent + (d.digits.length - 1 : Nat)

/-- The digits with a point after the first, if there are more, and the power
    of ten after `e`. -/
def scientific (d : Decimal) : List Char :=
  let power := 'e' :: (integerText (lead d)).toList
  match d.digits with
  | first :: second :: rest => first :: '.' :: second :: (rest ++ power)
  | digits => digits ++ power

/-- A decimal under a layout. -/
def decimal (layout : Layout) (d : Decimal) : List Char :=
  if layout.isPositional (lead d) then layout.positional d else scientific d

/-- Whether the sign bit is set, also on a zero. A comparison with zero would
    not see it there, and the two zeros are written differently. -/
def isNegative (x : Float) : Bool := x.toBits.toNat.testBit 63

/-- The text of a float under a layout. Only a number has a sign, so there is
    one text for everything that is not a number. -/
def float (layout : Layout) (x : Float) : String :=
  if x.isNaN then "NaN"
  else
    let magnitude := if x.isInf then ['i', 'n', 'f'] else layout.decimal (shortest x.abs)
    String.ofList (if isNegative x then '-' :: magnitude else magnitude)

end Layout

end Decimal

end AttrExpr
