/-!
# Decimals

Exact decimal numbers, `coefficient × 10 ^ exponent`, and the way from them
to floats.

A number is written in decimal and stored in binary, so two texts such as
`100.0` and `1e2` can name one number. Going to a float through the
normalized decimal, whose coefficient has no trailing zero, makes that
evident: two decimals of one value normalize to the same pair and are then
rounded by the same call.

## Main definitions

* `Decimal`: A coefficient and a power of ten.
* `Decimal.ofDigits`: The decimal written by digits before and after a point.
* `Decimal.normalize`: The same value without trailing zeros.
* `Decimal.toFloat`: The nearest float.
* `Decimal.ofFloat`: The exact value of a float, sign aside.
* `Decimal.integerText`: A whole number in decimal.

## Theorems

* `div_trailingZeros`: What is left without the trailing zeros ends in none.
* `normalize_normalize`: A normalized decimal is its own normal form.
* `toFloat_normalize`: Normalizing does not change the float.
-/

namespace AttrExpr

/-- The number `coefficient × 10 ^ exponent`. Signs are kept elsewhere: a
    float has two zeros, so its sign is no part of its value. -/
structure Decimal where
  coefficient : Nat
  exponent : Int
deriving DecidableEq, Repr, Inhabited

namespace Decimal

/-- The digits of the coefficient, most significant first. Zero has one digit,
    so the list is never empty. -/
def digits (d : Decimal) : List Char := Nat.toDigits 10 d.coefficient

/-- The decimal written by the digits before and the digits after a point.
    Either may be empty. -/
def ofDigits (whole fraction : List Char) : Decimal where
  coefficient := Nat.ofDigitChars 10 (whole ++ fraction) 0
  exponent := -(fraction.length : Int)

/-- How many zeros the digits of a number end in. Zero itself would be all
    trailing zeros, which is why `normalize` sets it apart. -/
def trailingZeros (n : Nat) : Nat :=
  ((Nat.toDigits 10 n).reverse.takeWhile (· == '0')).length

/-- The same value with no trailing zero in the coefficient. Zero has one
    normal form as well, of exponent zero. -/
def normalize (d : Decimal) : Decimal :=
  if d.coefficient = 0 then ⟨0, 0⟩
  else
    let zeros := trailingZeros d.coefficient
    ⟨d.coefficient / Nat.pow 10 zeros, d.exponent + zeros⟩

/-- The float nearest to the value, a tie going to the even one; a value past
    the largest float is infinite. -/
def toFloat (d : Decimal) : Float :=
  let n := d.normalize
  Float.ofScientific n.coefficient (n.exponent < 0) n.exponent.natAbs

/-- The leading bit of a float's significand, `2 ^ 52`, which is not
    stored. -/
def hiddenBit : Nat := 4503599627370496

/-- The exact magnitude of a finite float. The stored bits hold a
    significand and a power of two, and a negative power of two is a power
    of five over a power of ten, so the value has a finite decimal
    expansion. -/
def ofFloat (x : Float) : Decimal :=
  let bits := x.toBits.toNat
  let fraction := bits % hiddenBit
  let biased := (bits / hiddenBit) % 2048
  -- A biased exponent of zero marks the numbers without a leading one bit.
  let significand := if biased = 0 then fraction else fraction + hiddenBit
  let power : Int := (max biased 1 : Nat) - 1075
  if 0 ≤ power then ⟨significand * Nat.pow 2 power.toNat, 0⟩
  else ⟨significand * Nat.pow 5 (-power).toNat, power⟩

/-- A whole number in decimal, with a sign only if it is negative. -/
def integerText (n : Int) : String :=
  if n < 0 then "-" ++ n.natAbs.repr else n.natAbs.repr

theorem digitChar_ne_zero : ∀ d, d < 10 → d ≠ 0 → (Nat.digitChar d == '0') = false := by
  decide

/-- Trailing zeros are counted from the last digit on. -/
theorem trailingZeros_eq {n : Nat} (hn : 0 < n) :
    trailingZeros n = if n % 10 = 0 then trailingZeros (n / 10) + 1 else 0 := by
  by_cases hlt : n < 10
  · rw [if_neg (by omega), trailingZeros, Nat.toDigits_of_lt_base hlt]
    simp only [List.reverse_singleton, List.takeWhile_cons,
      digitChar_ne_zero n hlt (by omega), Bool.false_eq_true, if_false, List.length_nil]
  · rw [trailingZeros, Nat.toDigits_of_base_le (by decide) (by omega), List.reverse_append,
      List.reverse_singleton, List.cons_append, List.nil_append, List.takeWhile_cons]
    by_cases hz : n % 10 = 0
    · simp only [hz, if_true, trailingZeros]
      rfl
    · simp only [if_neg hz, digitChar_ne_zero _ (Nat.mod_lt n (by decide)) hz,
        Bool.false_eq_true, if_false, List.length_nil]

theorem pow_ten_succ (k : Nat) : Nat.pow 10 (k + 1) = 10 * Nat.pow 10 k :=
  Nat.mul_comm _ _

/-- Dividing the trailing zeros away leaves a positive number that ends in
    another digit. -/
theorem div_trailingZeros {n : Nat} (hn : 0 < n) :
    0 < n / Nat.pow 10 (trailingZeros n) ∧ n / Nat.pow 10 (trailingZeros n) % 10 ≠ 0 := by
  induction n using Nat.strongRecOn with
  | _ n ih =>
      rw [trailingZeros_eq hn]
      split
      · -- One zero goes, and the rest is the shorter number's.
        rw [pow_ten_succ, ← Nat.div_div_eq_div_mul]
        exact ih (n / 10) (by omega) (by omega)
      · rename_i hlast
        rw [show Nat.pow 10 0 = 1 by rfl, Nat.div_one]
        exact ⟨hn, hlast⟩

theorem normalize_normalize (d : Decimal) : d.normalize.normalize = d.normalize := by
  by_cases hc : d.coefficient = 0
  · simp only [normalize, hc, if_true]
  · obtain ⟨hpos, hlast⟩ := div_trailingZeros (Nat.pos_of_ne_zero hc)
    have hzeros : trailingZeros (d.coefficient / Nat.pow 10 (trailingZeros d.coefficient)) = 0 := by
      rw [trailingZeros_eq hpos, if_neg hlast]
    simp only [normalize, if_neg hc, if_neg (Nat.ne_of_gt hpos), hzeros,
      show Nat.pow 10 0 = 1 by rfl, Nat.div_one, Int.natCast_zero, Int.add_zero]

/-- Two decimals of one normal form name one float, because only the normal
    form is ever rounded. -/
theorem toFloat_normalize (d : Decimal) : d.normalize.toFloat = d.toFloat := by
  simp only [toFloat, normalize_normalize]

end Decimal

end AttrExpr
