import AttrExpr.Proofs.Float.Canonical

/-!
# Results that Need no Rounding

Reading a decimal multiplies or divides, and both round. Where the exact
result is a float there is nothing to round, and the result is that float,
whichever of its ways the reading takes: by a product, by a quotient, or by
one float operation on small numbers.

Rounding shifts a significand right until it fits. An exact result that is
given with a smaller power than its canonical one is shifted back by zeros
only, so nothing is lost; what has to be seen to each time is that the power
is smaller, and for that it is enough to know the size of the operands to
within a factor of two.

## Main definitions

* `value`: The number a significand and a power stand for.

## Theorems

* `roundWithAccuracy_exact`: A number that fits is not changed by rounding.
* `mul_exact`, `div_exact`: A product or quotient that fits is exact.
* `unpacked_ofScientific`: A decimal that is the value of a float reads as it.
-/

namespace AttrExpr

namespace Binary64

open Float.Model Float.Model.UnpackedFloat

/-- The number `significand × 2 ^ power`. Different pairs may have one value; a
    canonical pair is told from the others by its size. -/
def value (significand : Nat) (power : Int) : ℚ := significand * 2 ^ power

/-! ## Sizes -/

theorem two_zpow_pos (k : Int) : (0 : ℚ) < 2 ^ k := zpow_pos (by norm_num) k

theorem two_zpow_add (j k : Int) : (2 : ℚ) ^ (j + k) = 2 ^ j * 2 ^ k :=
  zpow_add₀ (by norm_num) j k

theorem lt_of_two_zpow_lt {j k : Int} (h : (2 : ℚ) ^ j < 2 ^ k) : j < k :=
  (zpow_lt_zpow_iff_right₀ (by norm_num)).mp h

section

variable {m : Nat} (hm : 0 < m) (e : Int)

include hm

/-- The total exponent bounds a number from above. -/
theorem value_lt : value m e < 2 ^ totalExponent m e := by
  have hlt : (m : ℚ) < 2 ^ (m.log2 + 1) := by
    exact_mod_cast (Nat.log2_lt (Nat.ne_of_gt hm)).mp (Nat.lt_succ_self m.log2)
  rw [value, totalExponent, two_zpow_add]
  exact mul_lt_mul_of_pos_right (by exact_mod_cast hlt) (two_zpow_pos e)

/-- The total exponent less one bounds a number from below, so the size of a number
    is known from its total exponent up to a factor of two. -/
theorem le_value : 2 ^ (totalExponent m e - 1) ≤ value m e := by
  have hle : (2 : ℚ) ^ m.log2 ≤ m := by
    exact_mod_cast (Nat.le_log2 (Nat.ne_of_gt hm)).mp (Nat.le_refl m.log2)
  have hexponent : (m.log2 : Int) + 1 + e - 1 = m.log2 + e := by ring
  rw [value, totalExponent, hexponent, two_zpow_add, zpow_natCast]
  exact mul_le_mul_of_nonneg_right hle (two_zpow_pos e).le

theorem value_pos : 0 < value m e :=
  mul_pos (by exact_mod_cast hm) (two_zpow_pos e)

end

/-- A number of some size is kept with 53 bits, or with the least power. -/
theorem targetExponent_eq (total : Int) :
    Format.binary64.targetExponent total = max (total - 53) (-1074) := rfl

theorem Canonical.log2_lt {significand : Nat} {power : Int} (h : Canonical significand power) :
    significand.log2 < 53 :=
  (Nat.log2_lt (Nat.ne_of_gt h.pos)).mpr h.lt

/-- The power of a canonical form is the one its size asks for. This is what being
    canonical comes to when a number is rounded. -/
theorem Canonical.target {significand : Nat} {power : Int} (h : Canonical significand power) :
    Format.binary64.targetExponent (totalExponent significand power) = power := by
  have hlt := h.log2_lt
  have hleast := h.least
  rw [targetExponent_eq, totalExponent]
  -- A full significand has all of its 53 bits; any other is at the least power.
  rcases h.full with hfull | hpower
  · have hle : 52 ≤ significand.log2 := (Nat.le_log2 (Nat.ne_of_gt h.pos)).mpr hfull
    omega
  · omega

/-! ## Rounding -/

/-- Shifting zeros out loses nothing. -/
theorem shift_exact (significand shift : Nat) :
    (ExtendedMantissa.mk (significand * 2 ^ shift) false false) >>> shift =
      ⟨significand, false, false⟩ := by
  -- The zeros are shifted out one by one, the last of them at the end, so the
  -- induction hypothesis is about the significand with that one left.
  induction shift generalizing significand with
  | zero =>
      rw [Nat.pow_zero, Nat.mul_one]
      rfl
  | succ shift ih =>
      rw [Nat.pow_succ', ← Nat.mul_assoc]
      calc
        (ExtendedMantissa.mk (significand * 2 * 2 ^ shift) false false) >>> (shift + 1)
            = ExtendedMantissa.shiftRightOne ⟨significand * 2, false, false⟩ :=
          congrArg ExtendedMantissa.shiftRightOne (ih (significand * 2))
        _ = ⟨significand, false, false⟩ := by
          simp only [ExtendedMantissa.shiftRightOne, Nat.mul_div_cancel _ Nat.zero_lt_two,
            Nat.mul_mod_left, bne_self_eq_false, Bool.or_self]

/-- Zeros behind a significand, with the power lowered by as many, leave its size
    as it is. -/
theorem totalExponent_shift {significand : Nat} (hpos : 0 < significand) (shift : Nat)
    (power : Int) : totalExponent (significand * 2 ^ shift) (power - shift) =
      totalExponent significand power := by
  have hlog : (significand * 2 ^ shift).log2 = significand.log2 + shift := by
    have hne : significand ≠ 0 := Nat.ne_of_gt hpos
    have hle := (Nat.le_log2 hne).mp (Nat.le_refl significand.log2)
    have hlt := (Nat.log2_lt hne).mp (Nat.lt_succ_self significand.log2)
    -- Multiplying by a power of two moves both bounds of the logarithm.
    have hshifted : significand * 2 ^ shift ≠ 0 :=
      Nat.mul_ne_zero hne (Nat.ne_of_gt (Nat.two_pow_pos shift))
    rw [Nat.log2_eq_iff hshifted, Nat.pow_add, Nat.add_right_comm,
      Nat.pow_add _ (significand.log2 + 1)]
    exact ⟨Nat.mul_le_mul_right _ hle, Nat.mul_lt_mul_of_pos_right hlt (Nat.two_pow_pos shift)⟩
  rw [totalExponent, totalExponent, hlog]
  push_cast
  ring

/-- Shifting to the target exponent undoes a shift by zeros. -/
theorem shiftToTargetExponent_exact {significand : Nat} {power : Int}
    (h : Canonical significand power) (shift : Nat) :
    shiftToTargetExponent Format.binary64 (significand * 2 ^ shift) (power - shift) .exact =
      (⟨significand, false, false⟩, power) := by
  have hzeros : (power - (power - (shift : Int))).toNat = shift := by omega
  rw [shiftToTargetExponent, totalExponent_shift h.pos, h.target, shiftToExponent]
  simp only [hzeros, ExtendedMantissa.ofMantissaAndAccuracy, shift_exact, sub_add_cancel]

/-- A number that fits is not changed by rounding, whatever smaller power it
    is given with. -/
theorem roundWithAccuracy_exact {significand : Nat} {power : Int} (sign : Sign)
    (h : Canonical significand power) {m : Nat} {e : Int} (he : e ≤ power)
    (hvalue : value m e = value significand power) :
    roundWithAccuracy Format.binary64 sign m e .exact = .finite sign significand power h.pos := by
  obtain ⟨shift, rfl⟩ : ∃ shift : Nat, e = power - shift := ⟨(power - e).toNat, by omega⟩
  -- The two ways of writing the number differ by zeros at the end.
  have hm : m = significand * 2 ^ shift := by
    have hpower : (2 : ℚ) ^ power = 2 ^ shift * 2 ^ (power - shift) := by
      rw [← zpow_natCast, ← two_zpow_add, add_sub_cancel]
    rw [value, value, hpower, ← mul_assoc] at hvalue
    exact_mod_cast mul_right_cancel₀ (two_zpow_pos (power - shift)).ne' hvalue
  subst hm
  -- Rounding shifts once more in case it carried, and here it did not.
  have hagain := shiftToTargetExponent_exact h 0
  rw [Nat.pow_zero, Nat.mul_one, Nat.cast_zero, sub_zero] at hagain
  simp only [roundWithAccuracy, shiftToTargetExponent_exact h, ExtendedMantissa.roundedMantissa,
    ExtendedMantissa.accuracy, Accuracy.roundToNearestEven, hagain]
  rw [dif_neg (Nat.ne_of_gt h.pos)]

/-! ## Products and quotients -/

/-- The target exponent of a number's size is no larger than its canonical
    power, even if the size is too small by a factor of two. -/
theorem Canonical.target_le {significand : Nat} {power total : Int}
    (h : Canonical significand power) (hle : 2 ^ (total - 1) ≤ value significand power) :
    Format.binary64.targetExponent total ≤ power := by
  have hlt := lt_of_two_zpow_lt (hle.trans_lt (value_lt h.pos power))
  have htarget := h.target
  rw [targetExponent_eq] at htarget ⊢
  omega

/-- Numbers are multiplied by multiplying their significands and adding their
    powers. -/
theorem value_mul (m n : Nat) (d e : Int) : value (m * n) (d + e) = value m d * value n e := by
  rw [value, value, value, two_zpow_add]
  push_cast
  ring

section

variable {s t : Sign} {m n significand : Nat} {d e power : Int} {hm : 0 < m} {hn : 0 < n}

/-- A product that is a float is not rounded. Its significand is the product of the
    two, with too small a power if anything. -/
theorem mul_exact (h : Canonical significand power) (hpower : d + e ≤ power)
    (hvalue : value m d * value n e = value significand power) :
    UnpackedFloat.mul Format.binary64 (.finite s m d hm) (.finite t n e hn) =
      .finite (s * t) significand power h.pos :=
  roundWithAccuracy_exact (s * t) h hpower ((value_mul m n d e).trans hvalue)

/-- The quotient is computed with a power no larger than its canonical one, so
    if it fits the division leaves no remainder. -/
theorem div_exact (h : Canonical significand power)
    (hvalue : value m d = value significand power * value n e) :
    UnpackedFloat.div Format.binary64 (.finite s m d hm) (.finite t n e hn) =
      .finite (s / t) significand power h.pos := by
  -- The size of the quotient is known to within a factor of two.
  have hscaled : (2 : ℚ) ^ (totalExponent m d - totalExponent n e - 1) * 2 ^ totalExponent n e ≤
      value significand power * 2 ^ totalExponent n e := by
    calc (2 : ℚ) ^ (totalExponent m d - totalExponent n e - 1) * 2 ^ totalExponent n e
        = 2 ^ (totalExponent m d - 1) := by
          rw [← two_zpow_add]
          congr 1
          ring
      _ ≤ value m d := le_value hm d
      _ = value significand power * value n e := hvalue
      _ ≤ value significand power * 2 ^ totalExponent n e :=
          mul_le_mul_of_nonneg_left (value_lt hn e).le (value_pos h.pos power).le
  have hsize : Format.binary64.targetExponent (totalExponent m d - totalExponent n e) ≤ power :=
    h.target_le (le_of_mul_le_mul_right hscaled (two_zpow_pos (totalExponent n e)))
  -- The power the quotient is computed with.
  generalize hlow : min (d - e)
    (Format.binary64.targetExponent (totalExponent m d - totalExponent n e)) = low
  -- The operands and the result are at or above it, each by some zeros.
  obtain ⟨shift, hshift⟩ : ∃ shift : Nat, d - e = low + shift := ⟨(d - e - low).toNat, by omega⟩
  obtain ⟨extra, hextra⟩ : ∃ extra : Nat, power = low + extra := ⟨(power - low).toNat, by omega⟩
  -- Widened by its zeros, the dividend is a multiple of the divisor.
  have hproduct : m <<< shift = significand * 2 ^ extra * n := by
    have hcast : ((m * 2 ^ shift : Nat) : ℚ) * 2 ^ (low + e) =
        ((significand * 2 ^ extra * n : Nat) : ℚ) * 2 ^ (low + e) := by
      have hd : d = shift + (low + e) := by omega
      have hleft : value m d = ((m * 2 ^ shift : Nat) : ℚ) * 2 ^ (low + e) := by
        rw [value, hd, two_zpow_add, zpow_natCast]
        push_cast
        ring
      rw [← hleft, hvalue, value, value, hextra, two_zpow_add, two_zpow_add, zpow_natCast]
      push_cast
      ring
    rw [Nat.shiftLeft_eq]
    exact_mod_cast mul_right_cancel₀ (two_zpow_pos (low + e)).ne' hcast
  have hwidened : (d - e - low).toNat = shift := by omega
  simp only [UnpackedFloat.div, divCore, hlow, hwidened, hproduct, Nat.mul_mod_left,
    Nat.mul_div_cancel _ hn, accuracyOfFraction, if_true]
  -- What is left to round is the result with its zeros.
  have hbelow : low ≤ power := by omega
  have hresult : value (significand * 2 ^ extra) low = value significand power := by
    rw [value, value, hextra, two_zpow_add, zpow_natCast]
    push_cast
    ring
  exact roundWithAccuracy_exact (s / t) h hbelow hresult

end

/-! ## Decimals -/

theorem two_zpow_le_ten_zpow {k : Int} (hk : 0 ≤ k) : (2 : ℚ) ^ k ≤ 10 ^ k :=
  zpow_le_zpow_left₀ hk (by norm_num) (by norm_num)

theorem ten_zpow_le_two_zpow {k : Int} (hk : k ≤ 0) : (10 : ℚ) ^ k ≤ 2 ^ k := by
  have hneg := two_zpow_le_ten_zpow (neg_nonneg.mpr hk)
  rw [zpow_neg, zpow_neg] at hneg
  exact (inv_le_inv₀ (two_zpow_pos k) (zpow_pos (by norm_num) k)).mp hneg

theorem value_ten_pow {k : Int} (hk : 0 ≤ k) : value (10 ^ k.toNat) 0 = 10 ^ k := by
  obtain ⟨n, rfl⟩ := Int.eq_ofNat_of_zero_le hk
  rw [value, zpow_zero, mul_one, Int.toNat_natCast, zpow_natCast]
  push_cast
  rfl

section

variable {c significand : Nat} {k power : Int} (hc : 0 < c) (h : Canonical significand power)
  (hvalue : (c : ℚ) * 10 ^ k = value significand power)

include hc h hvalue

/-- The decimal of a float is not so large that it would be given up on. The
    coefficient is at least one, so the power of ten alone would be beyond the
    largest float. -/
theorem exponent_le : k ≤ 2048 := by
  have hlog := h.log2_lt
  have hmost := h.most
  by_contra hlarge
  have hlt : (2 : ℚ) ^ k < 2 ^ totalExponent significand power := by
    calc (2 : ℚ) ^ k ≤ 10 ^ k := two_zpow_le_ten_zpow (by omega)
      _ ≤ c * 10 ^ k := le_mul_of_one_le_left (zpow_pos (by norm_num) k).le (by exact_mod_cast hc)
      _ = value significand power := hvalue
      _ < 2 ^ totalExponent significand power := value_lt h.pos power
  have hpower := lt_of_two_zpow_lt hlt
  rw [totalExponent] at hpower
  omega

/-- The decimal of a float is not so small that it would be given up on, either.
    Below the least float a power of two is larger than the power of ten, and the
    coefficient makes up for its own digits at most. -/
theorem le_exponent : -(2048 + (c.log2 : Int)) ≤ k := by
  have hleast := h.least
  by_contra hsmall
  have hlt : (2 : ℚ) ^ power < 2 ^ (totalExponent c k) := by
    calc (2 : ℚ) ^ power ≤ value significand power :=
          le_mul_of_one_le_left (two_zpow_pos power).le (by exact_mod_cast h.pos)
      _ = c * 10 ^ k := hvalue.symm
      _ ≤ value c k := mul_le_mul_of_nonneg_left (ten_zpow_le_two_zpow (by omega)) c.cast_nonneg
      _ < 2 ^ totalExponent c k := value_lt hc k
  have hpower := lt_of_two_zpow_lt hlt
  rw [totalExponent] at hpower
  omega

/-- Reading a decimal by whole numbers is exact where its value is a float. The
    sign of the exponent decides between a product and a quotient. -/
theorem ofScientific_exact : UnpackedFloat.ofScientific Format.binary64 c k =
    .finite .positive significand power h.pos := by
  have hmost := exponent_le hc h hvalue
  have hleast := le_exponent hc h hvalue
  unfold UnpackedFloat.ofScientific
  rw [dif_neg (Nat.ne_of_gt hc), if_neg (by exact Int.not_lt.mpr hmost),
    if_neg (by exact Int.not_lt.mpr hleast)]
  by_cases hk : 0 ≤ k
  · -- Whole numbers are multiplied, the coefficient with room for rounding.
    have hten := value_ten_pow hk
    have hfactor : value (c <<< 53) (-53) = c := by
      rw [value, Nat.shiftLeft_eq]
      push_cast
      rw [mul_assoc]
      norm_num
    -- A whole number is at least one, so its power is not below that of one.
    have hone : (2 : ℚ) ^ ((1 : Int) - 1) ≤ value significand power := by
      rw [← hvalue, sub_self, zpow_zero]
      exact one_le_mul_of_one_le_of_one_le (by exact_mod_cast hc) (one_le_zpow₀ (by norm_num) hk)
    have hpower := h.target_le hone
    rw [targetExponent_eq] at hpower
    have hbelow : (-53 : Int) + 0 ≤ power := by omega
    have hproduct : value (c <<< 53) (-53) * value (10 ^ k.toNat) 0 = value significand power := by
      rw [hfactor, hten, hvalue]
    rw [if_pos hk]
    exact mul_exact h hbelow hproduct
  · -- The coefficient is divided by the power of ten.
    have hnegative : 0 ≤ -k := by omega
    have hquotient : value c 0 = value significand power * value (10 ^ (-k).toNat) 0 := by
      rw [value_ten_pow hnegative, ← hvalue, mul_assoc, ← zpow_add₀ (by norm_num), add_neg_cancel,
        zpow_zero, mul_one, value, zpow_zero, mul_one]
    rw [if_neg hk]
    exact div_exact h hquotient

end

/-! ## Small decimals -/

section

variable {c shift : Nat} (hc : 0 < c) (hshift : c.log2 + 1 + shift = 53)

include hc hshift

/-- A whole number with zeros behind it that fill the significand. -/
theorem canonical_filled : Canonical (c * 2 ^ shift) (-shift) := by
  have hne : c ≠ 0 := Nat.ne_of_gt hc
  have hle := (Nat.le_log2 hne).mp (Nat.le_refl c.log2)
  have hlt := (Nat.log2_lt hne).mp (Nat.lt_succ_self c.log2)
  -- The number is between two powers of two, and the zeros make these `2 ^ 52` and `2 ^ 53`.
  have hupper : 2 ^ (c.log2 + 1) * 2 ^ shift = 9007199254740992 := by
    rw [← Nat.pow_add, hshift]
  have hlower : 2 ^ c.log2 * 2 ^ shift = 4503599627370496 := by
    have hbits : c.log2 + shift = 52 := by omega
    rw [← Nat.pow_add, hbits]
  have hbelow : c * 2 ^ shift < 9007199254740992 := by
    rw [← hupper]
    exact Nat.mul_lt_mul_of_pos_right hlt (Nat.two_pow_pos shift)
  have hfull : 4503599627370496 ≤ c * 2 ^ shift := by
    rw [← hlower]
    exact Nat.mul_le_mul_right _ hle
  exact ⟨Nat.mul_pos hc (Nat.two_pow_pos shift), hbelow, by omega, by omega, Or.inl hfull⟩

/-- Rounding a whole number fills its significand first and then has nothing
    to do. -/
theorem round_whole : UnpackedFloat.round Format.binary64 .positive c 0 =
    .finite .positive (c * 2 ^ shift) (-shift) (canonical_filled hc hshift).pos := by
  have htarget : Format.binary64.targetExponent (totalExponent c 0) = -shift := by
    rw [targetExponent_eq, totalExponent]
    omega
  have hzeros : (0 - -(shift : Int)).toNat = shift := by omega
  simp only [UnpackedFloat.round, htarget, decreaseExponent, Nat.shiftLeft_eq, hzeros]
  rw [Int.zero_sub]
  exact roundWithAccuracy_exact .positive (canonical_filled hc hshift) (Int.le_refl _) rfl

end

/-- A whole number below `2 ^ 53` is a float. -/
theorem unpacked_toFloat {c : Nat} (hc : 0 < c) (hlt : c < 2 ^ 53) :
    ∃ (significand : Nat) (power : Int) (h : Canonical significand power),
      unpacked c.toUInt64.toFloat = .finite .positive significand power h.pos ∧
        value significand power = c := by
  have hlog := (Nat.log2_lt (Nat.ne_of_gt hc)).mpr hlt
  obtain ⟨shift, hshift⟩ : ∃ shift : Nat, c.log2 + 1 + shift = 53 := ⟨52 - c.log2, by omega⟩
  have hcanonical := canonical_filled hc hshift
  refine ⟨c * 2 ^ shift, -shift, hcanonical, ?_, ?_⟩
  · have hnat : c.toUInt64.toNat = c := Nat.mod_eq_of_lt (hlt.trans (by norm_num))
    have hform : UnpackedFloat.ofUInt64 Format.binary64 c.toUInt64 =
        .finite .positive (c * 2 ^ shift) (-shift) hcanonical.pos := by
      have hcompare : compare (c : Int) 0 = .gt := Int.compare_eq_gt.mpr (by omega)
      simp only [UnpackedFloat.ofUInt64, UnpackedFloat.ofNat, UnpackedFloat.ofInt,
        UnpackedFloat.normalize, hnat, hcompare, Int.toNat_natCast, round_whole hc hshift]
    rw [UInt64.toFloat, Float.Model.ofUInt64, hform]
    exact unpacked_packed hcanonical
  · -- The power takes away the zeros that were put behind.
    rw [value, zpow_neg, zpow_natCast]
    push_cast
    field_simp

/-- Whether a form is a given whole number, decided on natural numbers so that a
    table of floats can be checked by evaluation. -/
def isWhole : UnpackedFloat → Nat → Bool
  | .finite .positive significand power _, n =>
      significand * 2 ^ power.toNat == n * 2 ^ (-power).toNat
  | _, _ => false

theorem value_of_isWhole {u : UnpackedFloat} {n : Nat} (h : isWhole u n = true) :
    ∃ significand power hpos, u = .finite .positive significand power hpos ∧
      value significand power = n := by
  unfold isWhole at h
  split at h
  · rename_i significand power hpos
    refine ⟨significand, power, hpos, rfl, ?_⟩
    have hnat : (significand : ℚ) * 2 ^ power.toNat = n * 2 ^ (-power).toNat := by
      exact_mod_cast eq_of_beq h
    -- One of the two parts of the power is zero, but both are written.
    have hsplit : power = (power.toNat : Int) - ((-power).toNat : Int) := by omega
    have hbelow : (2 : ℚ) ^ (-power).toNat ≠ 0 := pow_ne_zero _ (by norm_num)
    rw [value, hsplit, zpow_sub₀ (by norm_num), zpow_natCast, zpow_natCast, ← mul_div_assoc, hnat,
      mul_div_assoc, div_self hbelow, mul_one]
  · cases h

/-- The table of powers of ten, each entry checked against its power. -/
theorem isWhole_powersOfTen : ∀ i : Fin Float.exactlyRepresentablePowersOfTen.size,
    isWhole (unpacked Float.exactlyRepresentablePowersOfTen[i]) (10 ^ i.val) = true := by
  decide

/-- The powers of ten in the table are the powers of ten. -/
theorem unpacked_powersOfTen {i : Nat} (hi : i < Float.exactlyRepresentablePowersOfTen.size) :
    ∃ (significand : Nat) (power : Int) (h : Canonical significand power),
      unpacked (Float.exactlyRepresentablePowersOfTen[i]) =
          .finite .positive significand power h.pos ∧
        value significand power = 10 ^ i := by
  rcases value_of_isWhole (isWhole_powersOfTen ⟨i, hi⟩) with
    ⟨significand, power, hpos, hform, hvalue⟩
  have hform : unpacked (Float.exactlyRepresentablePowersOfTen[i]) =
    .finite .positive significand power hpos := hform
  refine ⟨significand, power, canonical_of_unpacked hform, hform, ?_⟩
  rw [hvalue]
  push_cast
  rfl

/-- The canonical power of a product of two numbers that are at least one is
    no smaller than the sum of their own. -/
theorem Canonical.power_add_le {m n significand : Nat} {d e power : Int} (hm : Canonical m d)
    (hn : Canonical n e) (h : Canonical significand power) (hm' : 1 ≤ value m d)
    (hn' : 1 ≤ value n e) (hvalue : value m d * value n e = value significand power) :
    d + e ≤ power := by
  -- From one on, the power is what the size leaves of 53 bits.
  have hsize : ∀ {m : Nat} {d : Int}, Canonical m d → 1 ≤ value m d →
      d = totalExponent m d - 53 := by
    intro m d hm hone
    have hlt : (2 : ℚ) ^ (0 : Int) < 2 ^ totalExponent m d := hone.trans_lt (value_lt hm.pos d)
    have hpositive := lt_of_two_zpow_lt hlt
    have htarget := hm.target
    rw [targetExponent_eq] at htarget
    omega
  -- Each factor may be short of its size by one bit, and so the product by two.
  have hle : (2 : ℚ) ^ (totalExponent m d + totalExponent n e - 1 - 1) ≤
      value significand power := by
    have hsum : totalExponent m d + totalExponent n e - 1 - 1 =
        (totalExponent m d - 1) + (totalExponent n e - 1) := by ring
    rw [← hvalue, hsum, two_zpow_add]
    exact mul_le_mul (le_value hm.pos d) (le_value hn.pos e) (two_zpow_pos _).le
      (value_pos hm.pos d).le
  have htarget := h.target_le hle
  rw [targetExponent_eq] at htarget
  have hd := hsize hm hm'
  have he := hsize hn hn'
  omega

section

variable {x y : Float} {s t : Sign} {m n significand : Nat} {d e power : Int} {hm : 0 < m}
  {hn : 0 < n}

theorem unpacked_mul_exact (hx : unpacked x = .finite s m d hm) (hy : unpacked y = .finite t n e hn)
    (h : Canonical significand power) (hpower : d + e ≤ power)
    (hvalue : value m d * value n e = value significand power) :
    unpacked (x * y) = .finite (s * t) significand power h.pos := by
  have hform : UnpackedFloat.mul Format.binary64 (unpacked x) (unpacked y) =
      .finite (s * t) significand power h.pos := by
    rw [hx, hy, mul_exact h hpower hvalue]
  have hmul : x * y = packed (UnpackedFloat.mul Format.binary64 (unpacked x) (unpacked y)) := rfl
  rw [hmul, hform]
  exact unpacked_packed h

theorem unpacked_div_exact (hx : unpacked x = .finite s m d hm) (hy : unpacked y = .finite t n e hn)
    (h : Canonical significand power) (hvalue : value m d = value significand power * value n e) :
    unpacked (x / y) = .finite (s / t) significand power h.pos := by
  have hform : UnpackedFloat.div Format.binary64 (unpacked x) (unpacked y) =
      .finite (s / t) significand power h.pos := by
    rw [hx, hy, div_exact h hvalue]
  have hdiv : x / y = packed (UnpackedFloat.div Format.binary64 (unpacked x) (unpacked y)) := rfl
  rw [hdiv, hform]
  exact unpacked_packed h

end

/-- A decimal that is the value of a float reads as that float. A small one is
    read by one operation on floats, any other by one on whole numbers. -/
theorem unpacked_ofScientific {c significand : Nat} {k power : Int} (hc : 0 < c)
    (h : Canonical significand power) (hvalue : (c : ℚ) * 10 ^ k = value significand power) :
    unpacked (Float.ofScientific c (k < 0) k.natAbs) =
      .finite .positive significand power h.pos := by
  unfold Float.ofScientific
  split
  · -- Both operands are floats, and one operation on them gives the result.
    rename_i hsmall
    rcases unpacked_toFloat hc hsmall.1 with ⟨m, d, hm, hform, hwhole⟩
    rcases unpacked_powersOfTen (Nat.lt_succ_of_le hsmall.2) with ⟨n, e, hn, hten, hpow⟩
    by_cases hk : k < 0
    · have habs : k + (k.natAbs : Int) = 0 := by omega
      have hquotient : value m d = value significand power * value n e := by
        rw [hwhole, hpow, ← hvalue, mul_assoc, ← zpow_natCast, ← zpow_add₀ (by norm_num), habs,
          zpow_zero, mul_one]
      rw [if_pos (decide_eq_true hk)]
      exact unpacked_div_exact hform hten h hquotient
    · have habs : (k.natAbs : Int) = k := by omega
      have hproduct : value m d * value n e = value significand power := by
        rw [hwhole, hpow, ← hvalue, ← zpow_natCast, habs]
      have hfirst : 1 ≤ value m d := by
        rw [hwhole]
        exact_mod_cast hc
      have hsecond : 1 ≤ value n e := by
        rw [hpow]
        exact one_le_pow₀ (by norm_num)
      have hpower : d + e ≤ power := hm.power_add_le hn h hfirst hsecond hproduct
      rw [if_neg (by rwa [decide_eq_true_iff])]
      exact unpacked_mul_exact hform hten h hpower hproduct
  · -- The sign of the exponent is put back, and whole numbers are used.
    have hsign : (if (decide (k < 0)) = true then Int.negOfNat k.natAbs else Int.ofNat k.natAbs) =
        k := by
      by_cases hk : k < 0
      · rw [if_pos (decide_eq_true hk), Int.negOfNat_eq, Int.ofNat_eq_natCast]
        omega
      · rw [if_neg (by rwa [decide_eq_true_iff]), Int.ofNat_eq_natCast]
        omega
    have hread : unpacked (packed (UnpackedFloat.ofScientific Format.binary64 c
        (if (decide (k < 0)) = true then Int.negOfNat k.natAbs else Int.ofNat k.natAbs))) =
        .finite .positive significand power h.pos := by
      rw [hsign, ofScientific_exact hc h hvalue]
      exact unpacked_packed h
    exact hread

end Binary64

end AttrExpr
