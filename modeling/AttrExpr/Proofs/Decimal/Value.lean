import AttrExpr.Decimal.Layout
import Mathlib.Algebra.Order.Field.Power
import Mathlib.Data.Rat.Cast.Order
import Mathlib.Tactic.FieldSimp
import Mathlib.Tactic.Linarith
import Mathlib.Tactic.NormNum
import Mathlib.Tactic.Positivity
import Mathlib.Tactic.Ring

/-!
# The Value of a Decimal

What a decimal stands for, and that nothing else about it matters.

A decimal can be written with more or fewer trailing zeros, and reading one
goes through the form without any. Two such forms of one value are equal: the
one with the larger exponent would leave a factor of ten in the coefficient of
the other. So the float of a decimal depends on its value alone.

The value also decides the layout. The leading digit stands at a power of ten
that bounds the value from below, and ten times which bounds it from above.

## Main definitions

* `value`: The number a decimal stands for.

## Theorems

* `value_normalize`: Normalizing keeps the value.
* `normalize_eq_of_value_eq`: Decimals of one value normalize to one.
* `toFloat_eq_of_value_eq`: Decimals of one value read as one float.
* `ten_zpow_le_value_iff`: A power of ten is below a value if it is not above
  the leading digit.
-/

namespace AttrExpr

namespace Decimal

/-- The number `coefficient × 10 ^ exponent`. It is a rational one, so that what
    is said of it holds exactly and a negative exponent needs no case of its own. -/
def value (d : Decimal) : ℚ := d.coefficient * 10 ^ d.exponent

theorem ten_zpow_pos (k : Int) : (0 : ℚ) < 10 ^ k := zpow_pos (by norm_num) k

theorem ten_zpow_add (j k : Int) : (10 : ℚ) ^ (j + k) = 10 ^ j * 10 ^ k :=
  zpow_add₀ (by norm_num) j k

theorem value_eq_zero_iff (d : Decimal) : d.value = 0 ↔ d.coefficient = 0 := by
  rw [value, mul_eq_zero, Nat.cast_eq_zero]
  exact or_iff_left (ten_zpow_pos d.exponent).ne'

/-- Moving zeros between the coefficient and the exponent keeps the value. -/
theorem value_shift (c zeros : Nat) (e : Int) :
    value ⟨c * 10 ^ zeros, e⟩ = value ⟨c, e + zeros⟩ := by
  rw [value, value, ten_zpow_add, zpow_natCast]
  push_cast
  ring

/-! ## Normal forms -/

/-- The zeros a number ends in are a power of ten that divides it, so taking them
    off is a division without a remainder. -/
theorem pow_trailingZeros_dvd {n : Nat} (hn : 0 < n) : 10 ^ trailingZeros n ∣ n := by
  induction n using Nat.strongRecOn with
  | _ n ih =>
      rw [trailingZeros_eq hn]
      split
      · rename_i hlast
        rcases ih (n / 10) (by omega) (by omega) with ⟨rest, hrest⟩
        -- The last digit is a zero, and the others end in the remaining ones.
        have hwhole : n = 10 ^ (trailingZeros (n / 10) + 1) * rest := by
          rw [Nat.pow_succ', Nat.mul_assoc, ← hrest]
          omega
        exact ⟨rest, hwhole⟩
      · rw [Nat.pow_zero]
        exact Nat.one_dvd n

/-- Normalizing keeps the value: the zeros that are taken off the coefficient are
    put into the exponent. -/
theorem value_normalize (d : Decimal) : d.normalize.value = d.value := by
  by_cases hc : d.coefficient = 0
  · rw [(value_eq_zero_iff d).mpr hc, value_eq_zero_iff, normalize, if_pos hc]
  · have hzeros := Nat.div_mul_cancel (pow_trailingZeros_dvd (Nat.pos_of_ne_zero hc))
    rw [normalize, if_neg hc]
    exact (value_shift _ _ _).symm.trans (congrArg (fun c => value ⟨c, d.exponent⟩) hzeros)

/-- A normal form has a coefficient that ends in another digit than zero, or
    it is the one of zero. -/
theorem normalize_cases (d : Decimal) :
    d.normalize = ⟨0, 0⟩ ∨ 0 < d.normalize.coefficient ∧ d.normalize.coefficient % 10 ≠ 0 := by
  by_cases hc : d.coefficient = 0
  · exact Or.inl (by rw [normalize, if_pos hc])
  · right
    rw [normalize, if_neg hc]
    exact div_trailingZeros (Nat.pos_of_ne_zero hc)

/-- Of two coefficients of one value the one with the smaller exponent has the
    difference in trailing zeros. -/
theorem coefficient_eq_of_value_eq {c c' : Nat} {e : Int} {zeros : Nat}
    (h : value ⟨c, e⟩ = value ⟨c', e + zeros⟩) : c = c' * 10 ^ zeros := by
  rw [← value_shift, value, value] at h
  exact_mod_cast mul_right_cancel₀ (ten_zpow_pos e).ne' h

/-- A coefficient that does not end in a zero has the largest exponent that its
    value can be written with. -/
theorem exponent_le_of_value_eq {d d' : Decimal} (h : d.value = d'.value)
    (hlast : d.coefficient % 10 ≠ 0) : d'.exponent ≤ d.exponent := by
  by_contra hlarger
  -- With a larger exponent the other coefficient would have the zeros.
  obtain ⟨zeros, hzeros⟩ : ∃ zeros : Nat, d'.exponent = d.exponent + (zeros + 1 : Nat) :=
    ⟨(d'.exponent - d.exponent - 1).toNat, by omega⟩
  have hvalue : value ⟨d.coefficient, d.exponent⟩ =
      value ⟨d'.coefficient, d.exponent + (zeros + 1 : Nat)⟩ := by
    rw [← hzeros]
    exact h
  apply hlast
  rw [coefficient_eq_of_value_eq hvalue, Nat.pow_succ, ← Nat.mul_assoc]
  exact Nat.mul_mod_left _ 10

/-- Decimals of one value have one normal form. Zero has one by definition; of two
    that are not zero, each has the larger exponent, so the exponents are equal
    and so are the coefficients. -/
theorem normalize_eq_of_value_eq {d d' : Decimal} (h : d.value = d'.value) :
    d.normalize = d'.normalize := by
  rw [← value_normalize d, ← value_normalize d'] at h
  rcases normalize_cases d with hd | ⟨hpos, hlast⟩
  · rcases normalize_cases d' with hd' | ⟨hpos', _⟩
    · rw [hd, hd']
    · have hvalue : d.normalize.value = 0 := by rw [value_eq_zero_iff, hd]
      have hzero := (value_eq_zero_iff d'.normalize).mp (h.symm.trans hvalue)
      omega
  · rcases normalize_cases d' with hd' | ⟨_, hlast'⟩
    · have hvalue : d'.normalize.value = 0 := by rw [value_eq_zero_iff, hd']
      have hzero := (value_eq_zero_iff d.normalize).mp (h.trans hvalue)
      omega
    · -- Neither coefficient ends in a zero, so neither exponent is the larger.
      have hexponent : d.normalize.exponent = d'.normalize.exponent :=
        Int.le_antisymm (exponent_le_of_value_eq h.symm hlast') (exponent_le_of_value_eq h hlast)
      have hcoefficient : d.normalize.coefficient = d'.normalize.coefficient := by
        -- On one grid the coefficients are what is left.
        rw [value, value, hexponent] at h
        exact_mod_cast mul_right_cancel₀ (ten_zpow_pos _).ne' h
      cases hform : d.normalize
      cases hform' : d'.normalize
      rw [hform, hform'] at hexponent hcoefficient
      exact congrArg₂ Decimal.mk hcoefficient hexponent

/-- The float of a decimal depends on its value only. Reading a decimal normalizes
    it first, which is where the way it was written is lost. -/
theorem toFloat_eq_of_value_eq {d d' : Decimal} (h : d.value = d'.value) :
    d.toFloat = d'.toFloat := by
  rw [← toFloat_normalize d, ← toFloat_normalize d', normalize_eq_of_value_eq h]

/-! ## The leading digit -/

/-- A number has no more digits than it needs. -/
theorem pow_le_of_digits {n : Nat} (hn : 0 < n) : 10 ^ ((Nat.toDigits 10 n).length - 1) ≤ n := by
  by_cases hone : (Nat.toDigits 10 n).length - 1 = 0
  · rw [hone, Nat.pow_zero]
    exact hn
  · by_contra hsmall
    have hlength := (Nat.length_toDigits_le_iff (by decide) (Nat.pos_of_ne_zero hone)).mpr
      (Nat.not_le.mp hsmall)
    omega

theorem lt_pow_digits (n : Nat) : n < 10 ^ (Nat.toDigits 10 n).length :=
  (Nat.length_toDigits_le_iff (by decide) Nat.length_toDigits_pos).mp (Nat.le_refl _)

/-- Powers of ten that are not below the last digit compare with a value as
    their digits do with the coefficient. -/
theorem ten_zpow_le_value_iff_pow_le (d : Decimal) (zeros : Nat) :
    10 ^ (d.exponent + zeros) ≤ d.value ↔ 10 ^ zeros ≤ d.coefficient := by
  rw [value, ten_zpow_add, mul_comm, mul_le_mul_iff_left₀ (ten_zpow_pos d.exponent), zpow_natCast]
  exact_mod_cast Iff.rfl

theorem value_le_ten_zpow_iff_le_pow (d : Decimal) (zeros : Nat) :
    d.value ≤ 10 ^ (d.exponent + zeros) ↔ d.coefficient ≤ 10 ^ zeros := by
  rw [value, ten_zpow_add, mul_comm ((10 : ℚ) ^ d.exponent),
    mul_le_mul_iff_left₀ (ten_zpow_pos d.exponent), zpow_natCast]
  exact_mod_cast Iff.rfl

/-- A value is below the power of ten next to its leading digit. -/
theorem value_lt_ten_zpow_lead (d : Decimal) : d.value < 10 ^ (Layout.lead d + 1) := by
  have hlength : 0 < d.digits.length := Nat.length_toDigits_pos
  have hlead : Layout.lead d + 1 = d.exponent + d.digits.length := by
    rw [Layout.lead]
    omega
  rw [hlead, ← not_le, ten_zpow_le_value_iff_pow_le, not_le]
  exact lt_pow_digits d.coefficient

theorem value_le_value_succ (c : Nat) (e : Int) : value ⟨c, e⟩ ≤ value ⟨c + 1, e⟩ :=
  mul_le_mul_of_nonneg_right (by exact_mod_cast Nat.le_succ c) (ten_zpow_pos e).le

/-- The two neighbours of a value, whichever is the nearer one. They are tried in
    the order of their distance, which makes no difference to what they are. -/
theorem mem_neighbours {d n : Decimal} {dropped : Nat} (h : n ∈ d.neighbours dropped) :
    n = ⟨d.coefficient / 10 ^ dropped, d.exponent + dropped⟩ ∨
      n = ⟨d.coefficient / 10 ^ dropped + 1, d.exponent + dropped⟩ := by
  simp only [neighbours, Nat.pow_eq] at h
  split at h
  · exact (List.mem_pair.mp h).symm
  · exact List.mem_pair.mp h

section

variable {d : Decimal} (hc : 0 < d.coefficient)

include hc

/-- A power of ten is at most a value if it is at most the power at which the
    leading digit stands. The layout compares that power with its limits, and this
    makes a comparison of values of it. -/
theorem ten_zpow_le_value_iff (k : Int) : 10 ^ k ≤ d.value ↔ k ≤ Layout.lead d := by
  constructor
  · intro h
    have hlt := (zpow_lt_zpow_iff_right₀ (by norm_num)).mp (h.trans_lt (value_lt_ten_zpow_lead d))
    omega
  · intro h
    have hlead : 10 ^ Layout.lead d ≤ d.value :=
      (ten_zpow_le_value_iff_pow_le d _).mpr (pow_le_of_digits hc)
    exact (zpow_le_zpow_right₀ (by norm_num) h).trans hlead

/-! ## Neighbours -/

variable {dropped : Nat} (hdropped : dropped < d.digits.length)

include hdropped

/-- Dropping less than all of the digits leaves one at least. -/
theorem pow_dropped_le : 10 ^ dropped ≤ d.coefficient :=
  (Nat.pow_le_pow_right (by decide) (Nat.le_sub_one_of_lt hdropped)).trans (pow_le_of_digits hc)

/-- A power of ten that is not above a value is not above its neighbours,
    whose grid either contains it or is coarser. -/
theorem ten_zpow_le_neighbour {k : Int} (hk : 10 ^ k ≤ d.value) {n : Decimal}
    (hn : n ∈ d.neighbours dropped) : 10 ^ k ≤ n.value := by
  have hbelow : 10 ^ k ≤ value ⟨d.coefficient / 10 ^ dropped, d.exponent + dropped⟩ := by
    rcases Int.le_total (d.exponent + dropped) k with hgrid | hcoarse
    · -- The power is on the grid, and going down to the grid does not pass it.
      obtain ⟨j, rfl⟩ : ∃ j : Nat, k = d.exponent + dropped + j :=
        ⟨(k - (d.exponent + dropped)).toNat, by omega⟩
      rw [Int.add_assoc, ← Nat.cast_add, ten_zpow_le_value_iff_pow_le, Nat.add_comm,
        Nat.pow_add] at hk
      have hdigits : 10 ^ j ≤ d.coefficient / 10 ^ dropped :=
        (Nat.le_div_iff_mul_le (Nat.pow_pos (by decide))).mpr hk
      exact (ten_zpow_le_value_iff_pow_le ⟨_, _⟩ j).mpr hdigits
    · -- The grid is coarser, and the value is at least its first step.
      have hone : 10 ^ 0 ≤ d.coefficient / 10 ^ dropped :=
        Nat.div_pos (pow_dropped_le hc hdropped) (Nat.pow_pos (by decide))
      have hstep := (ten_zpow_le_value_iff_pow_le ⟨_, d.exponent + dropped⟩ 0).mpr hone
      rw [Nat.cast_zero, Int.add_zero] at hstep
      exact (zpow_le_zpow_right₀ (by norm_num) hcoarse).trans hstep
  rcases mem_neighbours hn with rfl | rfl
  · exact hbelow
  · exact hbelow.trans (value_le_value_succ _ _)

/-- A power of ten above a value is on every grid of its neighbours, so they
    are not above it. -/
theorem neighbour_le_ten_zpow {k : Int} (hk : d.value < 10 ^ k) {n : Decimal}
    (hn : n ∈ d.neighbours dropped) : n.value ≤ 10 ^ k := by
  -- The power is above the leading digit, and fewer than all digits are dropped.
  have hlead : Layout.lead d < k := Int.not_le.mp fun hle =>
    absurd ((ten_zpow_le_value_iff hc k).mpr hle) (not_le.mpr hk)
  have hgrid : d.exponent + dropped ≤ k := by
    rw [Layout.lead] at hlead
    omega
  obtain ⟨j, rfl⟩ : ∃ j : Nat, k = d.exponent + dropped + j :=
    ⟨(k - (d.exponent + dropped)).toNat, by omega⟩
  rw [Int.add_assoc, ← Nat.cast_add, ← not_le, ten_zpow_le_value_iff_pow_le, not_le, Nat.add_comm,
    Nat.pow_add] at hk
  have habove : value ⟨d.coefficient / 10 ^ dropped + 1, d.exponent + dropped⟩ ≤
      10 ^ (d.exponent + dropped + j) := by
    have hdigits : d.coefficient / 10 ^ dropped < 10 ^ j :=
      (Nat.div_lt_iff_lt_mul (Nat.pow_pos (by decide))).mpr hk
    exact (value_le_ten_zpow_iff_le_pow ⟨_, _⟩ j).mpr hdigits
  rcases mem_neighbours hn with rfl | rfl
  · exact (value_le_value_succ _ _).trans habove
  · exact habove

end

end Decimal

end AttrExpr
