import AttrExpr.Proofs.Float.Order

/-!
# Integers as Floats

Which number an integer becomes as a float.

A float keeps fifty-three bits, so up to `2 ^ 53` an integer is a float, and
beyond that floats are further apart the larger they are. An integer between
two of them becomes the nearer one, and in the middle the one whose last bit is
zero. `nearest` says so by dividing, without a word of bits.

An integer is read as a decimal without a point, by multiplying it with one,
and it is the product that is rounded. Its significand is shifted to the right
until fifty-three bits are left. On the way the shift keeps the last bit it
took away, and whether there was any bit before that, which is enough to
compare what it took away with one half. Rounding up may carry into a bit of
its own; then the significand is shifted once more, by a zero.

## Main definitions

* `quotientEven`: A quotient rounded to the nearest integer.
* `spacing`: How far floats are apart.
* `nearest`: The float nearest to an integer.

## Theorems

* `nearest_mono`: Rounding keeps the order.
* `nearest_of_le`: Up to `2 ^ 53` nothing is rounded.
* `roundedMantissa_shift`: What a shift keeps is enough to round.
* `denotes_ofInt`: Integers become the nearest floats.
-/

namespace AttrExpr

namespace Binary64

open Float.Model Float.Model.UnpackedFloat

/-- How often a unit fits into a number, rounded to the nearest, and to the even
    one of two that are equally near. -/
def quotientEven (n unit : Nat) : Nat :=
  if 2 * (n % unit) < unit ∨ 2 * (n % unit) = unit ∧ n / unit % 2 = 0 then n / unit
  else n / unit + 1

/-- How far floats are apart where a whole number stands: it keeps fifty-three
    bits, so the last one that is kept is this many. Up to `2 ^ 53` it is one. -/
def spacing (n : Nat) : Nat := 2 ^ (n.log2 - 52)

/-- The float nearest to a whole number, as a whole number. -/
def nearestNat (n : Nat) : Nat := quotientEven n (spacing n) * spacing n

/-- The float nearest to an integer, as an integer. -/
def nearest (n : Int) : Int :=
  if n < 0 then -(nearestNat n.natAbs : Int) else nearestNat n.natAbs

/-- Between `2 ^ 53` and `2 ^ 54` every other integer is a float. -/
example : nearest 9007199254740993 = 9007199254740992 := by decide

/-! ## Rounding integers -/

section

variable (n unit : Nat)

theorem le_quotientEven : n / unit ≤ quotientEven n unit := by
  rw [quotientEven]
  split
  · exact Nat.le_refl _
  · exact Nat.le_succ _

theorem quotientEven_le : quotientEven n unit ≤ n / unit + 1 := by
  rw [quotientEven]
  split
  · exact Nat.le_succ _
  · exact Nat.le_refl _

end

/-- Rounding a quotient keeps the order. Of different quotients the smaller one is
    rounded to the larger one at most; of equal ones the remainders decide. -/
theorem quotientEven_mono {m n : Nat} (h : m ≤ n) (unit : Nat) :
    quotientEven m unit ≤ quotientEven n unit := by
  have hquotient : m / unit ≤ n / unit := Nat.div_le_div_right h
  rcases Nat.lt_or_eq_of_le hquotient with hlt | heq
  · have hm := quotientEven_le m unit
    have hn := le_quotientEven n unit
    omega
  · -- Of equal quotients the larger number has the larger remainder.
    have hm := Nat.div_add_mod m unit
    have hn := Nat.div_add_mod n unit
    rw [heq] at hm
    rw [quotientEven, quotientEven, heq]
    split
    · -- The smaller one is not rounded up.
      split
      · exact Nat.le_refl _
      · exact Nat.le_succ _
    · -- The smaller one is rounded up, so the larger one is not below the middle.
      rename_i hup
      rw [if_neg (by omega)]

theorem log2_mono {m n : Nat} (h : m ≤ n) : m.log2 ≤ n.log2 := by
  rw [Nat.log2_eq_log_two, Nat.log2_eq_log_two]
  exact Nat.log_mono_right h

/-- A number that has no more bits than a float keeps them all. -/
theorem nearestNat_of_lt {n : Nat} (h : n < 2 ^ 53) : nearestNat n = n := by
  have hlog : n.log2 ≤ 52 := by
    rcases Nat.eq_zero_or_pos n with rfl | hpos
    · decide
    · exact Nat.le_of_lt_succ ((Nat.log2_lt (Nat.ne_of_gt hpos)).mpr h)
  have hspacing : spacing n = 1 := by
    rw [spacing, Nat.sub_eq_zero_of_le hlog, Nat.pow_zero]
  rw [nearestNat, hspacing, Nat.mul_one, quotientEven, Nat.mod_one, Nat.div_one,
    if_pos (Or.inl (by decide))]

section

variable {n : Nat} (h : 2 ^ 53 ≤ n)

include h

theorem log2_ge : 53 ≤ n.log2 := (Nat.le_log2 (by omega)).mpr h

/-- The quotient by the spacing has fifty-three bits. -/
theorem quotient_bounds : 2 ^ 52 ≤ n / spacing n ∧ n / spacing n < 2 ^ 53 := by
  have hlog := log2_ge h
  have hne : n ≠ 0 := by omega
  have hlower : 52 + (n.log2 - 52) = n.log2 := by omega
  have hupper : 53 + (n.log2 - 52) = n.log2 + 1 := by omega
  rw [spacing, Nat.le_div_iff_mul_le (Nat.two_pow_pos _), Nat.div_lt_iff_lt_mul (Nat.two_pow_pos _),
    ← Nat.pow_add, ← Nat.pow_add, hlower, hupper]
  exact ⟨Nat.log2_self_le hne, Nat.lt_log2_self⟩

/-- The rounded quotient has fifty-three bits too, or it is the next power of two. -/
theorem rounded_bounds :
    2 ^ 52 ≤ quotientEven n (spacing n) ∧ quotientEven n (spacing n) ≤ 2 ^ 53 := by
  have hquotient := quotient_bounds h
  have hlower := le_quotientEven n (spacing n)
  have hupper := quotientEven_le n (spacing n)
  omega

end

/-- Rounding does not leave the powers of two around a number. -/
theorem nearestNat_bounds {n : Nat} (hpos : 0 < n) :
    2 ^ n.log2 ≤ nearestNat n ∧ nearestNat n ≤ 2 ^ (n.log2 + 1) := by
  have hne := Nat.ne_of_gt hpos
  rcases Nat.lt_or_ge n (2 ^ 53) with hlt | hge
  · rw [nearestNat_of_lt hlt]
    exact ⟨Nat.log2_self_le hne, Nat.lt_log2_self.le⟩
  · -- The bounds of the rounded quotient, times the spacing, are these powers.
    have hlog := log2_ge hge
    have hbounds := rounded_bounds hge
    have hlower : 52 + (n.log2 - 52) = n.log2 := by omega
    have hupper : 53 + (n.log2 - 52) = n.log2 + 1 := by omega
    rw [nearestNat]
    constructor
    · calc 2 ^ n.log2 = 2 ^ 52 * spacing n := by rw [spacing, ← Nat.pow_add, hlower]
        _ ≤ _ := Nat.mul_le_mul_right _ hbounds.1
    · calc _ ≤ 2 ^ 53 * spacing n := Nat.mul_le_mul_right _ hbounds.2
        _ = 2 ^ (n.log2 + 1) := by rw [spacing, ← Nat.pow_add, hupper]

/-- Rounding whole numbers keeps the order. Where the spacing changes there is a
    power of two between the numbers, and that is not rounded. -/
theorem nearestNat_mono {m n : Nat} (h : m ≤ n) : nearestNat m ≤ nearestNat n := by
  rcases Nat.eq_zero_or_pos m with rfl | hpos
  · exact Nat.zero_le _
  · rcases Nat.lt_or_eq_of_le (log2_mono h) with hlt | heq
    · -- A power of two lies between the numbers, and stays between them.
      calc nearestNat m ≤ 2 ^ (m.log2 + 1) := (nearestNat_bounds hpos).2
        _ ≤ 2 ^ n.log2 := Nat.pow_le_pow_right (by decide) hlt
        _ ≤ nearestNat n := (nearestNat_bounds (by omega)).1
    · have hspacing : spacing m = spacing n := by rw [spacing, spacing, heq]
      rw [nearestNat, nearestNat, hspacing]
      exact Nat.mul_le_mul_right _ (quotientEven_mono h _)

/-- Rounding integers keeps the order, the negative ones being rounded like their
    magnitudes. -/
theorem nearest_mono {a b : Int} (h : a ≤ b) : nearest a ≤ nearest b := by
  rw [nearest, nearest]
  split
  · split
    · have hmagnitude : b.natAbs ≤ a.natAbs := by omega
      have hrounded := nearestNat_mono hmagnitude
      omega
    · omega
  · have hmagnitude : a.natAbs ≤ b.natAbs := by omega
    have hrounded := nearestNat_mono hmagnitude
    rw [if_neg (by omega)]
    omega

theorem nearest_of_le {n : Int} (h : n.natAbs ≤ 2 ^ 53) : nearest n = n := by
  have hnat : nearestNat n.natAbs = n.natAbs := by
    rcases Nat.lt_or_eq_of_le h with hlt | heq
    · exact nearestNat_of_lt hlt
    · rw [heq]
      decide
  rw [nearest, hnat]
  split
  · omega
  · omega

/-! ## Rounding significands -/

theorem quotientEven_mul (n unit : Nat) {scale : Nat} (hscale : 0 < scale) :
    quotientEven (n * scale) (unit * scale) = quotientEven n unit := by
  have hlt : 2 * (n % unit * scale) < unit * scale ↔ 2 * (n % unit) < unit := by
    rw [← Nat.mul_assoc, Nat.mul_lt_mul_right hscale]
  have heq : 2 * (n % unit * scale) = unit * scale ↔ 2 * (n % unit) = unit := by
    rw [← Nat.mul_assoc, Nat.mul_left_inj (Nat.ne_of_gt hscale)]
  rw [quotientEven, quotientEven, Nat.mul_mod_mul_right, Nat.mul_div_mul_right _ _ hscale]
  simp only [hlt, heq]

/-- Shifting keeps the last bit that it takes away, and whether any bit before
    that was set. A shift takes away one bit at a time, so at each step the bit
    that was the last so far is joined to those before it. -/
theorem shift_bits (n shift : Nat) :
    (ExtendedMantissa.mk n false false) >>> (shift + 1) =
      ⟨n / 2 ^ (shift + 1), n / 2 ^ shift % 2 != 0, n % 2 ^ shift != 0⟩ := by
  induction shift with
  | zero =>
      rw [Nat.pow_zero, Nat.div_one, Nat.mod_one]
      rfl
  | succ shift ih =>
      -- A remainder by a larger power is zero if the bit and the smaller one are.
      have hsticky : (n / 2 ^ shift % 2 != 0 || n % 2 ^ shift != 0) =
          (n % 2 ^ (shift + 1) != 0) := by
        rw [Nat.mod_pow_succ, Bool.eq_iff_iff, Bool.or_eq_true, bne_iff_ne, bne_iff_ne, bne_iff_ne]
        have hunit := Nat.two_pow_pos shift
        rcases Nat.mod_two_eq_zero_or_one (n / 2 ^ shift) with hbit | hbit
        · rw [hbit]
          omega
        · rw [hbit]
          omega
      calc
        (ExtendedMantissa.mk n false false) >>> (shift + 1 + 1)
            = ExtendedMantissa.shiftRightOne
                ⟨n / 2 ^ (shift + 1), n / 2 ^ shift % 2 != 0, n % 2 ^ shift != 0⟩ :=
          congrArg ExtendedMantissa.shiftRightOne ih
        _ = ⟨n / 2 ^ (shift + 1 + 1), n / 2 ^ (shift + 1) % 2 != 0,
              n % 2 ^ (shift + 1) != 0⟩ := by
          rw [ExtendedMantissa.shiftRightOne, hsticky, Nat.div_div_eq_div_mul, ← Nat.pow_succ]

/-- What is kept of a shift is enough to round it: the last bit says whether the
    remainder is below one half, and if it is not, the others say whether it is in
    the middle. -/
theorem roundedMantissa_shift (n shift : Nat) :
    ((ExtendedMantissa.mk n false false) >>> (shift + 1)).roundedMantissa =
      quotientEven n (2 ^ (shift + 1)) := by
  have hunit := Nat.two_pow_pos shift
  have hmod := Nat.mod_lt n hunit
  rw [shift_bits, quotientEven, Nat.mod_pow_succ, Nat.pow_succ]
  rcases Nat.mod_two_eq_zero_or_one (n / 2 ^ shift) with hbit | hbit
  · -- Below the middle.
    rw [hbit, Nat.mul_zero, Nat.add_zero, if_pos (Or.inl (by omega))]
    cases hrest : (n % 2 ^ shift != 0) with
    | false | true => rfl
  · rw [hbit, Nat.mul_one]
    cases hrest : (n % 2 ^ shift != 0) with
    | false =>
        -- In the middle.
        rw [bne_eq_false_iff_eq] at hrest
        rw [hrest]
        change n / (2 ^ shift * 2) + n / (2 ^ shift * 2) % 2 = _
        split
        · omega
        · omega
    | true =>
        -- Above the middle.
        rw [bne_iff_ne] at hrest
        rw [if_neg (by omega)]
        rfl

section

variable {n : Nat} (h : 2 ^ 53 ≤ n)

include h

/-- A whole number is given with room for rounding, and is shifted until
    fifty-three bits are left. -/
theorem shiftToTargetExponent_whole :
    (shiftToTargetExponent Format.binary64 (n * 2 ^ 53) (-53) .exact).1.roundedMantissa =
        quotientEven n (spacing n) ∧
      (shiftToTargetExponent Format.binary64 (n * 2 ^ 53) (-53) .exact).2 = n.log2 - 52 := by
  have hlog := log2_ge h
  have htotal : totalExponent (n * 2 ^ 53) (-53) = n.log2 + 1 := by
    have hpos : 0 < n := by omega
    have hshift := totalExponent_shift hpos 53 0
    have hroom : (0 : Int) - (53 : Nat) = -53 := rfl
    rw [hroom] at hshift
    rw [hshift, totalExponent]
    omega
  have htarget : Format.binary64.targetExponent (n.log2 + 1) = n.log2 - 52 := by
    rw [targetExponent_eq]
    omega
  have hcount : ((n.log2 : Int) - 52 - -53).toNat = n.log2 + 1 := by omega
  rw [shiftToTargetExponent, htotal, htarget, shiftToExponent]
  simp only [ExtendedMantissa.ofMantissaAndAccuracy, hcount]
  constructor
  · -- The room for rounding is shifted out with what is above the spacing.
    have hbits : n.log2 - 52 + 53 = n.log2 + 1 := by omega
    have hunit : 2 ^ (n.log2 + 1) = spacing n * 2 ^ 53 := by
      rw [spacing, ← Nat.pow_add, hbits]
    rw [roundedMantissa_shift, hunit, quotientEven_mul _ _ (Nat.two_pow_pos 53)]
  · omega

/-- Rounding up may give a significand of one bit more, which is a zero then. -/
theorem exists_canonical (hlog : n.log2 < 1023) :
    ∃ (significand shift : Nat), Canonical significand ((n.log2 : Int) - 52 + shift) ∧
      quotientEven n (spacing n) = significand * 2 ^ shift := by
  have hge := log2_ge h
  have hbounds := rounded_bounds h
  rcases Nat.lt_or_eq_of_le hbounds.2 with hlt | heq
  · exact ⟨_, 0, ⟨by omega, hlt, by omega, by omega, Or.inl hbounds.1⟩, (Nat.mul_one _).symm⟩
  · exact ⟨2 ^ 52, 1, ⟨by decide, by decide, by omega, by omega, Or.inl (by decide)⟩, heq⟩

/-- A whole number is rounded to the nearest float. It is shifted twice, the second
    time to take away the zero that a carry leaves. -/
theorem denotes_roundWithAccuracy (hlog : n.log2 < 1023) :
    Denotes (roundWithAccuracy Format.binary64 .positive (n * 2 ^ 53) (-53) .exact)
      (nearestNat n) := by
  rcases exists_canonical h hlog with ⟨significand, shift, hcanonical, hrounded⟩
  have hagain := shiftToTargetExponent_exact hcanonical shift
  rw [add_sub_cancel_right] at hagain
  have hform : roundWithAccuracy Format.binary64 .positive (n * 2 ^ 53) (-53) .exact =
      .finite .positive significand ((n.log2 : Int) - 52 + shift) hcanonical.pos := by
    rw [roundWithAccuracy]
    simp only [shiftToTargetExponent_whole h, hrounded, hagain]
    rw [dif_neg (Nat.ne_of_gt hcanonical.pos)]
  -- The form is found; what is left is that it has the value that was divided out.
  have hvalue : (nearestNat n : ℚ) = value significand ((n.log2 : Int) - 52 + shift) := by
    have hge := log2_ge h
    have hpower : (n.log2 : Int) - 52 + shift = (shift + (n.log2 - 52 : Nat) : Nat) := by omega
    rw [nearestNat, hrounded, spacing, value, hpower, zpow_natCast, pow_add]
    push_cast
    ring
  rw [hform, hvalue]
  exact .positive hcanonical

end

/-! ## Conversion -/

/-- To read a whole number is to multiply it by one. -/
theorem ofScientific_whole {n : Nat} (hpos : 0 < n) :
    UnpackedFloat.ofScientific Format.binary64 n 0 =
      roundWithAccuracy Format.binary64 .positive (n * 2 ^ 53) (-53) .exact := by
  have hleast : -(2048 + (n.log2 : Int)) ≤ 0 := by omega
  unfold UnpackedFloat.ofScientific
  rw [dif_neg (Nat.ne_of_gt hpos), if_neg (by decide), if_neg (by exact Int.not_lt.mpr hleast),
    if_pos (Int.le_refl 0)]
  simp only [UnpackedFloat.mul, Nat.shiftLeft_eq, Int.toNat_zero, Nat.pow_zero, Nat.mul_one,
    Int.add_zero]
  rfl

/-- A whole number becomes a float by being read as a decimal without a point. -/
theorem ofNat_eq (n : Nat) : Float.ofNat n = Float.ofScientific n false 0 := rfl

/-- Whole numbers become the nearest floats. -/
theorem denotes_ofNat {n : Nat} (hlog : n.log2 < 1023) :
    Denotes (unpacked (Float.ofNat n)) (nearestNat n) := by
  rcases Nat.eq_zero_or_pos n with rfl | hpos
  · have hzero : Float.ofNat 0 = packed (.zero .positive) := by decide
    have hcanonical : IsCanonical (.zero .positive) := trivial
    have hnearest : nearestNat 0 = 0 := by decide
    rw [hzero, unpacked_packed hcanonical, hnearest, Nat.cast_zero]
    exact .zero .positive
  · rw [ofNat_eq]
    rcases Nat.lt_or_ge n (2 ^ 53) with hlt | hge
    · -- As a decimal it is the value of a float.
      rcases unpacked_toFloat hpos hlt with ⟨significand, power, hcanonical, _, hvalue⟩
      have hexact : (n : ℚ) * 10 ^ (0 : Int) = value significand power := by
        rw [hvalue, zpow_zero, mul_one]
      have hread := unpacked_ofScientific hpos hcanonical hexact
      have hwhole : decide ((0 : Int) < 0) = false := rfl
      rw [hwhole, Int.natAbs_zero] at hread
      rw [hread, nearestNat_of_lt hlt, ← hvalue]
      exact .positive hcanonical
    · -- As a decimal it is multiplied by one, which rounds it.
      have hround := denotes_roundWithAccuracy hge hlog
      rw [← ofScientific_whole hpos] at hround
      unfold Float.ofScientific
      rw [dif_neg (by omega)]
      change Denotes (unpacked (packed (UnpackedFloat.ofScientific Format.binary64 n 0))) _
      rw [unpacked_packed hround.isCanonical]
      exact hround

/-- Integers become the nearest floats. The magnitude is converted and the sign put
    in front, so it is enough to know it of whole numbers. -/
theorem denotes_ofInt {n : Int} (hlog : n.natAbs.log2 < 1023) :
    Denotes (unpacked (Float.ofInt n)) (nearest n) := by
  cases n with
  | ofNat n =>
      have hnearest : nearest (Int.ofNat n) = nearestNat n :=
        if_neg (Int.not_lt.mpr (Int.natCast_nonneg n))
      rw [hnearest, Int.cast_natCast]
      exact denotes_ofNat hlog
  | negSucc n =>
      have hnearest : nearest (Int.negSucc n) = -(nearestNat (n + 1) : Int) :=
        if_pos (Int.negSucc_lt_zero n)
      rw [hnearest, Int.cast_neg, Int.cast_natCast]
      have hneg := (denotes_ofNat hlog).neg
      rw [← unpacked_neg] at hneg
      exact hneg

end Binary64

end AttrExpr
