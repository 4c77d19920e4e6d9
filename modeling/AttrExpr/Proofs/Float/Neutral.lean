import AttrExpr.Proofs.Float.Nearest

/-!
# Neutral Floats

Which floats change nothing in a sum or a product, and which sums are a
negative zero.

Multiplying by one gives any float back, and so does adding to zero, with one
exception: a positive and a negative zero add to the positive one. Whether a
running sum can be started over at zero thus hangs on whether it is the
negative zero. It is that only if every addend was. Two opposite numbers cancel
to the positive zero, and a sum of finite numbers is never rounded away: all
floats are multiples of the least one, so what is not zero is at least as large
as it.

## Main definitions

* `Stored`: The significands and powers that do not pack to zero.

## Theorems

* `stored_round`: Rounding keeps a form from packing to zero.
* `zero_add_eq`, `one_mul_eq`: Zero and one are neutral.
* `add_eq_negativeZero`: A sum is the negative zero only if both addends are.
-/

namespace AttrExpr

namespace Binary64

open Float.Model Float.Model.UnpackedFloat

/-- A significand and a power that do not pack to zero: the significand fits,
    and the power is not below the least one. It may be too large, though. -/
structure Stored (significand : Nat) (power : Int) : Prop where
  pos : 0 < significand
  lt : significand < 9007199254740992
  least : -1074 ≤ power

/-! ## Rounding -/

theorem Stored.log2_lt {significand : Nat} {power : Int} (h : Stored significand power) :
    significand.log2 < 53 :=
  (Nat.log2_lt (Nat.ne_of_gt h.pos)).mpr h.lt

/-- A significand that fits is not shifted. -/
theorem shiftToTargetExponent_of_stored {m : Nat} {e : Int} (h : Stored m e) :
    shiftToTargetExponent Format.binary64 m e .exact = (⟨m, false, false⟩, e) := by
  have hlog := h.log2_lt
  have hleast := h.least
  have hshift : (Format.binary64.targetExponent (totalExponent m e) - e).toNat = 0 := by
    rw [targetExponent_eq, totalExponent]
    omega
  simp only [shiftToTargetExponent, shiftToExponent, hshift, Nat.cast_zero, Int.add_zero]
  rfl

/-- A significand that does not fit is shifted and rounded to fifty-three bits, or
    it carries into one more. -/
theorem rounded_of_large {m : Nat} {e : Int} (hlarge : 2 ^ 53 ≤ m) (hleast : -1074 ≤ e) :
    (shiftToTargetExponent Format.binary64 m e .exact).1.roundedMantissa =
        quotientEven m (spacing m) ∧
      (shiftToTargetExponent Format.binary64 m e .exact).2 = e + (m.log2 - 52 : Nat) := by
  have hlog := log2_ge hlarge
  have hshift : (Format.binary64.targetExponent (totalExponent m e) - e).toNat =
      m.log2 - 53 + 1 := by
    rw [targetExponent_eq, totalExponent]
    omega
  -- At least one bit is shifted out, so there is a last one to round by.
  have hcount : m.log2 - 52 = m.log2 - 53 + 1 := by omega
  have hunit : spacing m = 2 ^ (m.log2 - 53 + 1) := by rw [spacing, hcount]
  simp only [shiftToTargetExponent, shiftToExponent, hshift,
    ExtendedMantissa.ofMantissaAndAccuracy]
  constructor
  · rw [roundedMantissa_shift, hunit]
  · omega

/-- Shifting once more is for the carry only. Without one the significand fits, and
    with one it is a power of two, of which a zero is shifted out. -/
theorem stored_shift {q : Nat} {e : Int} (hpos : 0 < q) (hle : q ≤ 2 ^ 53) (hleast : -1074 ≤ e) :
    Stored (shiftToTargetExponent Format.binary64 q e .exact).1.mantissa
      (shiftToTargetExponent Format.binary64 q e .exact).2 := by
  rcases Nat.lt_or_eq_of_le hle with hlt | rfl
  · have hstored : Stored q e := ⟨hpos, hlt, hleast⟩
    rw [shiftToTargetExponent_of_stored hstored]
    exact hstored
  · have hshift : (Format.binary64.targetExponent (totalExponent (2 ^ 53) e) - e).toNat = 1 := by
      rw [targetExponent_eq, totalExponent, Nat.log2_two_pow]
      omega
    simp only [shiftToTargetExponent, shiftToExponent, hshift]
    exact ⟨by decide, by decide, by omega⟩

/-- A number that is not below the least power is rounded to one that is not zero,
    if it is given with an exact significand. -/
theorem stored_roundWithAccuracy (sign : Sign) {m : Nat} {e : Int} (hpos : 0 < m)
    (hleast : -1074 ≤ e) :
    ∃ significand power, ∃ h : Stored significand power,
      roundWithAccuracy Format.binary64 sign m e .exact =
        .finite sign significand power h.pos := by
  -- The first shift leaves fifty-three bits or a carry, and only where there were more.
  have hrounded : ∃ q, 0 < q ∧ q ≤ 2 ^ 53 ∧
      (shiftToTargetExponent Format.binary64 m e .exact).1.roundedMantissa = q ∧
      -1074 ≤ (shiftToTargetExponent Format.binary64 m e .exact).2 := by
    rcases Nat.lt_or_ge m (2 ^ 53) with hlt | hlarge
    · rw [shiftToTargetExponent_of_stored ⟨hpos, hlt, hleast⟩]
      exact ⟨m, hpos, hlt.le, rfl, hleast⟩
    · have hfirst := rounded_of_large hlarge hleast
      have hbounds := rounded_bounds hlarge
      exact ⟨_, by omega, hbounds.2, hfirst.1, by omega⟩
  rcases hrounded with ⟨q, hq, hle, hmantissa, hpower⟩
  -- The second one takes the carry away.
  have hstored := stored_shift hq hle hpower
  refine ⟨_, _, hstored, ?_⟩
  simp only [roundWithAccuracy, hmantissa]
  rw [dif_neg (Nat.ne_of_gt hstored.pos)]

/-- What is not below the least power is not rounded away. -/
theorem stored_round (sign : Sign) {m : Nat} {e : Int} (hpos : 0 < m) (hleast : -1074 ≤ e) :
    ∃ significand power, ∃ h : Stored significand power,
      UnpackedFloat.round Format.binary64 sign m e = .finite sign significand power h.pos := by
  simp only [UnpackedFloat.round, decreaseExponent, targetExponent_eq, Nat.shiftLeft_eq]
  apply stored_roundWithAccuracy sign (Nat.mul_pos hpos (Nat.two_pow_pos _))
  omega

/-! ## Packing -/

/-- Stored forms without an exponent keep their significand, since only a full
    one drops a bit. -/
theorem fraction_pack_of_stored {sign : Sign} {significand : Nat} {power : Int}
    (h : Stored significand power) :
    exponent (UnpackedFloat.pack Format.binary64 (.finite sign significand power h.pos)) = 0 →
      fraction (UnpackedFloat.pack Format.binary64 (.finite sign significand power h.pos)) =
        significand := by
  have hleast := h.least
  have hlt := h.log2_lt
  unfold UnpackedFloat.pack
  rw [toNat_biased]
  dsimp only
  split
  · -- An overflow has the largest exponent.
    intro hexponent
    rw [packedInfinity, exponent_packComponents] at hexponent
    cases hexponent
  · rename_i hfits
    have hrange : 2 ^ Format.binary64.exponentBits = 2048 := rfl
    rw [hrange] at hfits
    split
    · -- The least power of a full significand has an exponent.
      intro hexponent
      rw [exponent_packComponents, toNat_ofNat_exponent (by omega)] at hexponent
      omega
    · -- Any other is stored as it is.
      rename_i hfull
      intro _
      have hbits : Format.binary64.mantissaBits = 53 := rfl
      rw [hbits] at hfull
      have hlog : significand.log2 < 52 := by omega
      have hsmall : significand < 2 ^ 52 := (Nat.log2_lt (Nat.ne_of_gt h.pos)).mp hlog
      rw [fraction_packComponents]
      exact toNat_ofNat_mantissa hsmall

/-- What is stored does not unpack to zero, even if it overflows. Zero has neither
    exponent nor fraction, and what has no exponent keeps its significand. -/
theorem unpacked_packed_ne_zero {sign zeroSign : Sign} {significand : Nat} {power : Int}
    (h : Stored significand power) :
    unpacked (packed (.finite sign significand power h.pos)) ≠ .zero zeroSign := by
  intro hzero
  have hunpack : UnpackedFloat.unpack Format.binary64 (UnpackedFloat.pack Format.binary64
      (.finite sign significand power h.pos)) = .zero zeroSign := hzero
  have hunpacks := unpacks
    (UnpackedFloat.pack Format.binary64 (.finite sign significand power h.pos))
  rw [hunpack] at hunpacks
  cases hunpacks with
  | zero hexponent hfraction =>
      rw [fraction_pack_of_stored h hexponent] at hfraction
      exact absurd hfraction (Nat.ne_of_gt h.pos)

/-! ## Sums -/

/-- A sum of numbers cancels to the positive zero or is not zero, the sign being
    that of the exact sum. -/
theorem normalize_ne_negativeZero (mantissa : Int) {e : Int} (hleast : -1074 ≤ e) :
    unpacked (packed (UnpackedFloat.normalize Format.binary64 mantissa e .positive)) ≠
      .zero .negative := by
  rcases Int.lt_trichotomy mantissa 0 with hlt | rfl | hgt
  · have hpos : 0 < (-mantissa).toNat := by omega
    rcases stored_round .negative hpos hleast with ⟨significand, power, hstored, hround⟩
    simp only [UnpackedFloat.normalize, Int.compare_eq_lt.mpr hlt, hround]
    exact unpacked_packed_ne_zero hstored
  · have hcanonical : IsCanonical (.zero .positive) := trivial
    simp only [UnpackedFloat.normalize, Int.compare_eq_eq.mpr rfl, unpacked_packed hcanonical]
    intro h
    cases h
  · have hpos : 0 < mantissa.toNat := by omega
    rcases stored_round .positive hpos hleast with ⟨significand, power, hstored, hround⟩
    simp only [UnpackedFloat.normalize, Int.compare_eq_gt.mpr hgt, hround]
    exact unpacked_packed_ne_zero hstored

/-- A sum of forms unpacks to the negative zero only if both are it. Sums with an
    infinity or a zero are settled by their definition; the one case with rounding
    is that of two numbers. -/
theorem add_form_eq_negativeZero {u v : UnpackedFloat} (hu : IsCanonical u) (hv : IsCanonical v)
    (h : unpacked (packed (UnpackedFloat.add Format.binary64 u v)) = .zero .negative) :
    u = .zero .negative ∧ v = .zero .negative := by
  -- Only two numbers are rounded. Any other sum is an addend or has no size.
  have hform : ∀ w, UnpackedFloat.add Format.binary64 u v = w → IsCanonical w →
      w = .zero .negative := by
    rintro w rfl hw
    rwa [unpacked_packed hw] at h
  cases u with
  | notANumber => cases hform .notANumber rfl trivial
  | infinity s =>
      cases v with
      | notANumber => cases hform .notANumber rfl trivial
      | infinity t =>
          by_cases hsign : (s == t) = true
          · cases hform (.infinity s) (if_pos hsign) trivial
          · cases hform .notANumber (if_neg hsign) trivial
      | zero t | finite t => cases hform (.infinity s) rfl trivial
  | zero s =>
      cases v with
      | notANumber => cases hform .notANumber rfl trivial
      | infinity t => cases hform (.infinity t) rfl trivial
      | zero t =>
          by_cases hsign : (s == t) = true
          · cases hform (.zero s) (if_pos hsign) trivial
            cases t with
            | negative => exact ⟨rfl, rfl⟩
            | positive => cases hsign
          · cases hform (.zero .positive) (if_neg hsign) trivial
      | finite t n e hn => cases hform _ rfl hv
  | finite s m d hm =>
      cases v with
      | notANumber => cases hform .notANumber rfl trivial
      | infinity t => cases hform (.infinity t) rfl trivial
      | zero t => cases hform (.finite s m d hm) rfl hu
      | finite t n e hn =>
          exact absurd h (normalize_ne_negativeZero _ (le_min hu.least hv.least))

/-- A sum is the negative zero only if both addends are. -/
theorem add_eq_negativeZero {x y : Float} (h : unpacked (x + y) = .zero .negative) :
    unpacked x = .zero .negative ∧ unpacked y = .zero .negative :=
  add_form_eq_negativeZero (isCanonical_unpacked x) (isCanonical_unpacked y) h

/-- The zero a sum starts from is the positive one. -/
theorem unpacked_zero : unpacked 0.0 = .zero .positive := by
  have hpacked : (0.0 : Float) = packed (.zero .positive) := by decide
  have hcanonical : IsCanonical (.zero .positive) := trivial
  rw [hpacked, unpacked_packed hcanonical]

/-- The positive zero is neutral, except to the negative one. -/
theorem zero_add_eq {x : Float} (hx : unpacked x ≠ .zero .negative) : 0.0 + x = x := by
  have hadd : UnpackedFloat.add Format.binary64 (.zero .positive) (unpacked x) = unpacked x := by
    cases hform : unpacked x with
    | zero sign =>
        cases sign with
        | negative => exact absurd hform hx
        | positive => rfl
    | _ => rfl
  calc 0.0 + x
      = packed (UnpackedFloat.add Format.binary64 (unpacked 0.0) (unpacked x)) := rfl
    _ = packed (unpacked x) := by rw [unpacked_zero, hadd]
    _ = x := packed_unpacked x

/-! ## Products -/

theorem canonical_one : Canonical 4503599627370496 (-52) :=
  ⟨by decide, by decide, by decide, by decide, Or.inl (by decide)⟩

theorem unpacked_one :
    unpacked 1.0 = .finite .positive 4503599627370496 (-52) canonical_one.pos := by
  have hpacked : (1.0 : Float) =
      packed (.finite .positive 4503599627370496 (-52) canonical_one.pos) := by decide
  have hcanonical : IsCanonical (.finite .positive 4503599627370496 (-52) canonical_one.pos) :=
    canonical_one
  rw [hpacked, unpacked_packed hcanonical]

/-- One is neutral to every float. A product with it has the value of the float,
    which is a float, so it is not rounded. -/
theorem one_mul_eq (x : Float) : 1.0 * x = x := by
  have hmul : UnpackedFloat.mul Format.binary64 (unpacked 1.0) (unpacked x) = unpacked x := by
    rw [unpacked_one]
    cases hform : unpacked x with
    | finite sign significand power hpos =>
        -- The product is computed at a lower power, and its value fits.
        have hpower : -52 + power ≤ power := by omega
        have hvalue : value 4503599627370496 (-52) * value significand power =
            value significand power := by
          have hone : value 4503599627370496 (-52) = 1 := by norm_num [value]
          rw [hone, one_mul]
        rw [mul_exact (canonical_of_unpacked hform) hpower hvalue]
        cases sign with
        | positive | negative => rfl
    | infinity sign | zero sign =>
        cases sign with
        | positive | negative => rfl
    | notANumber => rfl
  calc 1.0 * x
      = packed (UnpackedFloat.mul Format.binary64 (unpacked 1.0) (unpacked x)) := rfl
    _ = packed (unpacked x) := by rw [hmul]
    _ = x := packed_unpacked x

end Binary64

end AttrExpr
