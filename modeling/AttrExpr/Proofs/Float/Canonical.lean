import AttrExpr.Decimal.Layout
import Mathlib

/-!
# The Bits of a Float

A float is 64 bits: a sign, eleven bits of exponent and fifty-two of
significand. Arithmetic is defined on an unpacked form of them, a sign, a
natural number and a power of two, which is not unique: doubling the number
and lowering the power changes nothing. What comes out of a float is the one
form whose number uses all fifty-three bits, or whose power is the least one.
On these canonical forms unpacking and packing undo each other, so a float is
as good as its unpacked form and its bits need not be looked at again.

## Main definitions

* `Canonical`: The significands and powers of two a float is unpacked to.
* `IsCanonical`: The unpacked forms a float can have.
* `Unpacks`: What bits unpack to, by cases on their stored exponent.
* `unpacked`: The unpacked form of a float.

## Theorems

* `unpacks`: Unpacking by division instead of by bits.
* `isCanonical_unpacked`: What is unpacked is canonical.
* `packed_unpacked`, `unpacked_packed`: Packing undoes unpacking, and on
  canonical forms it is undone by it.
* `unpacked_injective`: A float is given by its unpacked form.
* `neg_abs_eq`: A number is its magnitude under its sign.
-/

namespace AttrExpr

namespace Binary64

open Float.Model Float.Model.UnpackedFloat

/-- The significand and the power of two of a finite float that is not zero.
    The significand has fifty-three bits unless the power is the least. -/
structure Canonical (significand : Nat) (power : Int) : Prop where
  pos : 0 < significand
  lt : significand < 9007199254740992
  least : -1074 ≤ power
  most : power ≤ 971
  full : 4503599627370496 ≤ significand ∨ power = -1074

/-- The unpacked forms of floats. The others hold their numbers just as well, but
    are not what unpacking gives, so packing them loses which one it was. -/
def IsCanonical : UnpackedFloat → Prop
  | .finite _ significand power _ => Canonical significand power
  | _ => True

/-- The unpacked form of a float. -/
def unpacked (x : Float) : UnpackedFloat := x.toModel.unpack

/-! ## Unpacking -/

section

variable (bits : BitVec Format.binary64.numBits)

/-- The stored part of the significand, which is without its leading bit unless
    the float has the least exponent. -/
def fraction : Nat := bits.toNat % 4503599627370496

/-- The stored exponent, with its bias. -/
def exponent : Nat := bits.toNat / 4503599627370496 % 2048

/-- The sign, which is the highest bit. -/
def signOf : Sign := Sign.ofBitVec (unpackSign bits)

theorem toNat_unpackMantissa : (unpackMantissa bits).toNat = fraction bits := by
  simp only [unpackMantissa, BitVec.toNat_cast, BitVec.extractLsb_toNat, Nat.shiftRight_zero,
    fraction]

theorem toNat_unpackExponent : (unpackExponent bits).toNat = exponent bits := by
  simp only [unpackExponent, BitVec.toNat_cast, BitVec.extractLsb_toNat, Nat.shiftRight_eq_div_pow,
    exponent]

theorem toNat_unpackSign : (unpackSign bits).toNat = bits.toNat / 9223372036854775808 % 2 := by
  simp only [unpackSign, BitVec.toNat_cast, BitVec.extractLsb_toNat, Nat.shiftRight_eq_div_pow]

theorem unpackMantissa_eq_zero_iff : unpackMantissa bits = 0#_ ↔ fraction bits = 0 := by
  rw [← toNat_unpackMantissa, ← BitVec.toNat_inj]
  rfl

theorem unpackExponent_eq_zero_iff : unpackExponent bits = 0#_ ↔ exponent bits = 0 := by
  rw [← toNat_unpackExponent, ← BitVec.toNat_inj]
  rfl

theorem unpackExponent_eq_ones_iff : unpackExponent bits = -1#_ ↔ exponent bits = 2047 := by
  rw [← toNat_unpackExponent, ← BitVec.toNat_inj]
  rfl

/-- What the bits unpack to, by the stored exponent and the stored part of the
    significand. -/
inductive Unpacks : UnpackedFloat → Prop
  | infinity (hexponent : exponent bits = 2047) (hfraction : fraction bits = 0) :
      Unpacks (.infinity (signOf bits))
  | notANumber (hexponent : exponent bits = 2047) (hfraction : fraction bits ≠ 0) :
      Unpacks .notANumber
  | zero (hexponent : exponent bits = 0) (hfraction : fraction bits = 0) :
      Unpacks (.zero (signOf bits))
  | least (hexponent : exponent bits = 0) (hpos : 0 < fraction bits) :
      Unpacks (.finite (signOf bits) (fraction bits) (-1074) hpos)
  | full (hpositive : 0 < exponent bits) (hexponent : exponent bits < 2047)
      (hpos : 0 < fraction bits + 4503599627370496) :
      Unpacks (.finite (signOf bits) (fraction bits + 4503599627370496)
        ((exponent bits : Int) - 1075) hpos)

/-- Unpacking by division instead of by bits. The cases are those that unpacking
    itself makes, and in each the three parts are read off as numbers. -/
theorem unpacks : Unpacks bits (UnpackedFloat.unpack Format.binary64 bits) := by
  have hexponent : exponent bits < 2048 := Nat.mod_lt _ (by decide)
  unfold UnpackedFloat.unpack
  -- The largest exponent is kept for what has no size.
  by_cases hall : exponent bits = 2047
  · rw [if_pos ((unpackExponent_eq_ones_iff bits).mpr hall)]
    by_cases hzero : fraction bits = 0
    · rw [if_pos ((unpackMantissa_eq_zero_iff bits).mpr hzero)]
      exact Unpacks.infinity hall hzero
    · rw [if_neg (mt (unpackMantissa_eq_zero_iff bits).mp hzero)]
      exact Unpacks.notANumber hall hzero
  · rw [if_neg (mt (unpackExponent_eq_ones_iff bits).mp hall)]
    -- The smallest one has no implied bit.
    by_cases hleast : exponent bits = 0
    · rw [if_pos ((unpackExponent_eq_zero_iff bits).mpr hleast)]
      by_cases hzero : fraction bits = 0
      · rw [dif_pos ((unpackMantissa_eq_zero_iff bits).mpr hzero)]
        exact Unpacks.zero hleast hzero
      · rw [dif_neg (mt (unpackMantissa_eq_zero_iff bits).mp hzero)]
        simp only [toNat_unpackMantissa, toNat_unpackExponent, hleast]
        exact Unpacks.least hleast (Nat.pos_of_ne_zero hzero)
    · rw [if_neg (mt (unpackExponent_eq_zero_iff bits).mp hleast)]
      -- In between, the leading bit of the significand is implied.
      have hmantissa : (1#1 ++ unpackMantissa bits).toNat = fraction bits + 4503599627370496 := by
        rw [BitVec.toNat_append, ← Nat.shiftLeft_add_eq_or_of_lt (unpackMantissa bits).isLt,
          toNat_unpackMantissa, Nat.add_comm]
        rfl
      simp only [hmantissa, toNat_unpackExponent]
      exact Unpacks.full (Nat.pos_of_ne_zero hleast) (by omega) (by omega)

end

section

variable {bits : BitVec Format.binary64.numBits} {u : UnpackedFloat}

/-- What is unpacked is canonical: the largest stored exponent that has a size is
    2046, and without the implied bit the power is the least. -/
theorem Unpacks.isCanonical (h : Unpacks bits u) : IsCanonical u := by
  have hfraction : fraction bits < 4503599627370496 := Nat.mod_lt _ (by decide)
  cases h with
  | infinity hexponent hzero => trivial
  | notANumber hexponent hzero => trivial
  | zero hexponent hzero => trivial
  | least hexponent hpos => exact ⟨hpos, by omega, by decide, by decide, Or.inr rfl⟩
  | full hpositive hexponent hpos =>
      exact ⟨hpos, by omega, by omega, by omega, Or.inl (by omega)⟩

/-- Bits unpack to one thing. Two different cases would ask for different stored
    exponents, or for a fraction that is zero and is not. -/
theorem Unpacks.unpack_eq (h : Unpacks bits u) :
    UnpackedFloat.unpack Format.binary64 bits = u := by
  have hunpacks := unpacks bits
  generalize UnpackedFloat.unpack Format.binary64 bits = v at hunpacks
  -- One exponent belongs to two cases where the fraction decides, and to one otherwise.
  cases h with
  | infinity hexponent hfraction =>
      cases hunpacks with
      | infinity => rfl
      | notANumber _ hother => exact absurd hfraction hother
      | zero hother _ | least hother _ | full _ hother _ => omega
  | notANumber hexponent hfraction =>
      cases hunpacks with
      | notANumber => rfl
      | infinity _ hother => exact absurd hother hfraction
      | zero hother _ | least hother _ | full _ hother _ => omega
  | zero hexponent hfraction =>
      cases hunpacks with
      | zero => rfl
      | least _ hother => omega
      | infinity hother _ | notANumber hother _ | full hother _ _ => omega
  | least hexponent hpos =>
      cases hunpacks with
      | least => rfl
      | zero _ hother => omega
      | infinity hother _ | notANumber hother _ | full hother _ _ => omega
  | full hpositive hexponent hpos =>
      cases hunpacks with
      | full => rfl
      | infinity hother _ | notANumber hother _ | zero hother _ | least hother _ => omega

end

/-! ## Packing -/

section

variable (sign : Sign) (e : BitVec Format.binary64.exponentBits)
  (m : BitVec Format.binary64.mantissaBitsWithoutImplicit)

theorem fraction_packComponents : fraction (packComponents Format.binary64 sign e m) = m.toNat := by
  rw [← toNat_unpackMantissa, unpackMantissa_packComponents]

theorem exponent_packComponents : exponent (packComponents Format.binary64 sign e m) = e.toNat := by
  rw [← toNat_unpackExponent, unpackExponent_packComponents]

theorem signOf_packComponents : signOf (packComponents Format.binary64 sign e m) = sign := by
  rw [signOf, unpackSign_packComponents, Sign.ofBitVec_toBitVec]

end

theorem toNat_ofNat_exponent {n : Nat} (h : n < 2048) :
    (BitVec.ofNat Format.binary64.exponentBits n).toNat = n :=
  Nat.mod_eq_of_lt h

theorem toNat_ofNat_mantissa {n : Nat} (h : n < 4503599627370496) :
    (BitVec.ofNat Format.binary64.mantissaBitsWithoutImplicit n).toNat = n :=
  Nat.mod_eq_of_lt h

/-- The exponent is stored with a bias. -/
theorem toNat_biased (power : Int) : (power + Format.binary64.exponentBias +
    Format.binary64.mantissaBitsWithoutImplicit).toNat = (power + 1075).toNat := by
  have hbias : (Format.binary64.exponentBias : Int) = 1023 := rfl
  have hbits : (Format.binary64.mantissaBitsWithoutImplicit : Int) = 52 := rfl
  rw [hbias, hbits]
  omega

/-- A canonical form packs to its sign, the exponent of its power and its
    significand, whose leading bit is only implied. -/
theorem pack_finite {sign : Sign} {significand : Nat} {power : Int}
    (h : Canonical significand power) :
    UnpackedFloat.pack Format.binary64 (.finite sign significand power h.pos) =
      packComponents Format.binary64 sign
        (BitVec.ofNat _ (if 4503599627370496 ≤ significand then (power + 1075).toNat else 0))
        (BitVec.ofNat _ significand) := by
  have hne : significand ≠ 0 := Nat.ne_of_gt h.pos
  have hleast := h.least
  have hmost := h.most
  -- No canonical power overflows the stored exponent.
  have hfits : ¬ 2 ^ Format.binary64.exponentBits ≤ (power + 1075).toNat + 1 := by
    have hrange : 2 ^ Format.binary64.exponentBits = 2048 := rfl
    rw [hrange]
    omega
  -- A significand is full if its leading bit is the fifty-third.
  have hlog : significand.log2 + 1 = Format.binary64.mantissaBits ↔
      4503599627370496 ≤ significand := by
    have hbits : Format.binary64.mantissaBits = 53 := rfl
    have hleading : 4503599627370496 = 2 ^ 52 := rfl
    have hlt : significand.log2 < 53 := (Nat.log2_lt hne).mpr h.lt
    rw [hbits, hleading, ← Nat.le_log2 hne]
    omega
  unfold UnpackedFloat.pack
  rw [toNat_biased, if_neg hfits]
  by_cases hfull : 4503599627370496 ≤ significand
  · rw [if_pos (hlog.mpr hfull), if_pos hfull]
  · rw [if_neg (mt hlog.mp hfull), if_neg hfull]

/-- What bits with an implied leading bit unpack to, by the parts they store. -/
theorem Unpacks.of_full {bits : BitVec Format.binary64.numBits} {sign : Sign} {significand : Nat}
    {power : Int} (h : Canonical significand power) (hsign : signOf bits = sign)
    (hfull : 4503599627370496 ≤ significand)
    (hfraction : fraction bits = significand - 4503599627370496)
    (hexponent : exponent bits = (power + 1075).toNat) :
    Unpacks bits (.finite sign significand power h.pos) := by
  have hleast := h.least
  have hmost := h.most
  have hsignificand : significand = fraction bits + 4503599627370496 := by omega
  have hpower : power = (exponent bits : Int) - 1075 := by omega
  subst hsign hsignificand hpower
  exact Unpacks.full (by omega) (by omega) _

/-- What bits without an implied leading bit unpack to, by the parts they store. -/
theorem Unpacks.of_least {bits : BitVec Format.binary64.numBits} {sign : Sign} {significand : Nat}
    (hpos : 0 < significand) (hsign : signOf bits = sign) (hfraction : fraction bits = significand)
    (hexponent : exponent bits = 0) : Unpacks bits (.finite sign significand (-1074) hpos) := by
  subst hsign hfraction
  exact Unpacks.least hexponent hpos

/-- The bits a form is packed to unpack to it, if it is canonical. Of the finite
    ones, those with a leading bit and those at the least power are stored
    differently, and being canonical says that these are all there are. -/
theorem unpacks_pack {u : UnpackedFloat} (h : IsCanonical u) :
    Unpacks (UnpackedFloat.pack Format.binary64 u) u := by
  cases u with
  | infinity sign =>
      have hunpacks := Unpacks.infinity (exponent_packComponents sign (-1#_) 0)
        (fraction_packComponents sign (-1#_) 0)
      rwa [signOf_packComponents] at hunpacks
  | notANumber =>
      apply Unpacks.notANumber (exponent_packComponents .positive (-1#_) _)
      intro hzero
      have hfraction := (fraction_packComponents .positive (-1#_) _).symm.trans hzero
      revert hfraction
      decide
  | zero sign =>
      have hunpacks := Unpacks.zero (exponent_packComponents sign 0 0)
        (fraction_packComponents sign 0 0)
      rwa [signOf_packComponents] at hunpacks
  | finite sign significand power hpos =>
      have hlt := h.lt
      have hleast := h.least
      have hmost := h.most
      rw [pack_finite h]
      by_cases hfull : 4503599627370496 ≤ significand
      · -- The leading bit is dropped, and unpacking implies it.
        have hmod : significand % 4503599627370496 = significand - 4503599627370496 := by omega
        have hstored : (power + 1075).toNat < 2048 := by omega
        rw [if_pos hfull]
        apply Unpacks.of_full h (signOf_packComponents sign _ _) hfull
        · rw [fraction_packComponents, BitVec.toNat_ofNat]
          exact hmod
        · rw [exponent_packComponents, toNat_ofNat_exponent hstored]
      · -- All bits are stored, at the least power.
        have hpower := h.full.resolve_left hfull
        subst hpower
        rw [if_neg hfull]
        apply Unpacks.of_least hpos (signOf_packComponents sign _ _)
        · rw [fraction_packComponents, toNat_ofNat_mantissa (Nat.not_le.mp hfull)]
        · rw [exponent_packComponents]
          rfl

/-! ## Floats -/

theorem isCanonical_unpacked (x : Float) : IsCanonical (unpacked x) :=
  (unpacks x.toModel.toBits.toBitVec).isCanonical

/-- The float of an unpacked form. -/
def packed (u : UnpackedFloat) : Float := .ofModel (Float.Model.pack u)

/-- Packing undoes unpacking. All NaNs have the same bits here, which is what makes
    it hold without an exception. -/
theorem packed_unpacked (x : Float) : packed (unpacked x) = x := by
  obtain ⟨⟨bits, hvalid⟩⟩ := x
  have hbits := pack_unpack_of_valid hvalid
  simp only [packed, unpacked, Float.Model.pack, Float.Model.unpack, hbits]

/-- Unpacking undoes packing, for the forms that a float can have. -/
theorem unpacked_packed {u : UnpackedFloat} (h : IsCanonical u) : unpacked (packed u) = u :=
  (unpacks_pack h).unpack_eq

/-- A float is given by its unpacked form. Equalities of floats are shown by it,
    since the operations are defined on the forms. -/
theorem unpacked_injective {x y : Float} (h : unpacked x = unpacked y) : x = y := by
  rw [← packed_unpacked x, h, packed_unpacked]

theorem canonical_of_unpacked {x : Float} {sign : Sign} {significand : Nat} {power : Int}
    {hpos : 0 < significand} (hx : unpacked x = .finite sign significand power hpos) :
    Canonical significand power := by
  have hcanonical := isCanonical_unpacked x
  rw [hx] at hcanonical
  exact hcanonical

/-- A finite float is a zero or has a canonical form. -/
theorem finite_cases {x : Float} (hx : x.isFinite = true) :
    (∃ sign, unpacked x = .zero sign) ∨ ∃ (sign : Sign) (significand : Nat) (power : Int)
      (h : Canonical significand power), unpacked x = .finite sign significand power h.pos := by
  have hfinite : (unpacked x).isFinite = true := hx
  cases hform : unpacked x with
  | infinity sign =>
      rw [hform] at hfinite
      cases hfinite
  | notANumber =>
      rw [hform] at hfinite
      cases hfinite
  | zero sign => exact Or.inl ⟨sign, rfl⟩
  | finite sign significand power hpos =>
      exact Or.inr ⟨sign, significand, power, canonical_of_unpacked hform, rfl⟩

/-- A finite float is a number, and not infinite. -/
theorem of_isFinite {x : Float} (hx : x.isFinite = true) : x.isNaN = false ∧ x.isInf = false := by
  have hnumber : x.isNaN = (unpacked x).isNaN := rfl
  have hinf : x.isInf = (unpacked x).isInf := rfl
  rw [hnumber, hinf]
  rcases finite_cases hx with ⟨sign, hform⟩ | ⟨sign, significand, power, h, hform⟩
  · rw [hform]
    exact ⟨rfl, rfl⟩
  · rw [hform]
    exact ⟨rfl, rfl⟩

/-- A number that is not infinite is finite. -/
theorem isFinite_of_isNaN_isInf {x : Float} (hnumber : x.isNaN = false) (hinf : x.isInf = false) :
    x.isFinite = true := by
  have hnumber : (unpacked x).isNaN = false := hnumber
  have hinf : (unpacked x).isInf = false := hinf
  have hfinite : x.isFinite = (unpacked x).isFinite := rfl
  rw [hfinite]
  cases hform : unpacked x with
  | infinity sign =>
      rw [hform] at hinf
      cases hinf
  | notANumber =>
      rw [hform] at hnumber
      cases hnumber
  | zero sign => rfl
  | finite sign significand power hpos => rfl

/-! ## Signs -/

/-- Whether a form has a negative sign. What is not a number has none. -/
def negative : UnpackedFloat → Bool
  | .infinity sign => sign == .negative
  | .zero sign => sign == .negative
  | .finite sign _ _ _ => sign == .negative
  | .notANumber => false

theorem IsCanonical.neg {u : UnpackedFloat} (h : IsCanonical u) : IsCanonical u.neg := by
  cases u with
  | infinity sign | zero sign | notANumber => trivial
  | finite sign significand power hpos => exact h

theorem IsCanonical.abs {u : UnpackedFloat} (h : IsCanonical u) : IsCanonical u.abs := by
  cases u with
  | infinity sign | zero sign | notANumber => trivial
  | finite sign significand power hpos => exact h

theorem unpacked_neg (x : Float) : unpacked (-x) = (unpacked x).neg :=
  unpacked_packed (isCanonical_unpacked x).neg

theorem unpacked_abs (x : Float) : unpacked x.abs = (unpacked x).abs :=
  unpacked_packed (isCanonical_unpacked x).abs

theorem signOf_beq_negative (bits : BitVec Format.binary64.numBits) :
    (signOf bits == .negative) = bits.toNat.testBit 63 := by
  have hsign := toNat_unpackSign bits
  have hlt : (unpackSign bits).toNat < 2 := (unpackSign bits).isLt
  have hhighest : 2 ^ 63 = 9223372036854775808 := rfl
  rw [Nat.testBit_eq_decide_div_mod_eq, hhighest, ← hsign, signOf, Sign.ofBitVec]
  by_cases hzero : unpackSign bits = 0#1
  · rw [if_pos hzero, hzero]
    rfl
  · have hone : (unpackSign bits).toNat = 1 := by
      have hne : (unpackSign bits).toNat ≠ 0 := fun h => hzero (BitVec.eq_of_toNat_eq h)
      omega
    rw [if_neg hzero, hone]
    rfl

/-- The sign bit is the sign. It says nothing of what is not a number, whose sign
    bit the form does not keep. -/
theorem isNegative_eq {x : Float} (hx : x.isNaN = false) :
    Decimal.Layout.isNegative x = negative (unpacked x) := by
  have hunpacks := unpacks x.toModel.toBits.toBitVec
  have hnumber : (unpacked x).isNaN = false := hx
  have hbit : Decimal.Layout.isNegative x = x.toModel.toBits.toBitVec.toNat.testBit 63 := rfl
  have hform : UnpackedFloat.unpack Format.binary64 x.toModel.toBits.toBitVec = unpacked x := rfl
  rw [hbit, ← signOf_beq_negative]
  rw [hform] at hunpacks
  generalize unpacked x = u at hunpacks hnumber
  cases hunpacks with
  | infinity | zero | least | full => rfl
  | notANumber => cases hnumber

/-- A number is its magnitude under its sign. So a text that consists of a sign and
    a magnitude is read back once its magnitude is. -/
theorem neg_abs_eq {x : Float} (hx : x.isNaN = false) :
    (if Decimal.Layout.isNegative x = true then -x.abs else x.abs) = x := by
  have hnumber : (unpacked x).isNaN = false := hx
  rw [isNegative_eq hx]
  apply unpacked_injective
  -- The sign that is tested is the sign of the form, and `abs` takes just that away.
  split
  · rename_i hsign
    rw [unpacked_neg, unpacked_abs]
    cases hform : unpacked x with
    | notANumber =>
        rw [hform] at hsign
        cases hsign
    | infinity sign | zero sign | finite sign =>
        rw [hform] at hsign
        cases sign with
        | negative => rfl
        | positive => cases hsign
  · rename_i hsign
    rw [unpacked_abs]
    cases hform : unpacked x with
    | notANumber =>
        rw [hform] at hnumber
        cases hnumber
    | infinity sign | zero sign | finite sign =>
        rw [hform] at hsign
        cases sign with
        | negative => exact absurd rfl hsign
        | positive => rfl

/-! ## The exact value of a float -/

/-- The exact decimal of a float by the fields that its bits unpack to. -/
theorem ofFloat_eq (x : Float) :
    Decimal.ofFloat x =
      let bits := x.toModel.toBits.toBitVec
      let significand :=
        if exponent bits = 0 then fraction bits else fraction bits + Decimal.hiddenBit
      let power : Int := (max (exponent bits) 1 : Nat) - 1075
      if 0 ≤ power then ⟨significand * Nat.pow 2 power.toNat, 0⟩
      else ⟨significand * Nat.pow 5 (-power).toNat, power⟩ := rfl

/-- The exact decimal of a float by its canonical form: a whole number, or as many
    fives as there are halves. -/
theorem ofFloat_of_finite {x : Float} {sign : Sign} {significand : Nat} {power : Int}
    {hpos : 0 < significand} (hx : unpacked x = .finite sign significand power hpos) :
    Decimal.ofFloat x =
      if 0 ≤ power then ⟨significand * Nat.pow 2 power.toNat, 0⟩
      else ⟨significand * Nat.pow 5 (-power).toNat, power⟩ := by
  have hunpacks : Unpacks x.toModel.toBits.toBitVec (unpacked x) := unpacks _
  rw [hx] at hunpacks
  rw [ofFloat_eq]
  dsimp only
  cases hunpacks with
  | least hleast hpos =>
      -- The least power belongs to the exponents zero and one.
      have hmax : ((max 0 1 : Nat) : Int) - 1075 = -1074 := rfl
      rw [if_pos hleast, hleast, hmax]
  | full hpositive hmost hpos =>
      have hmax : ((max (exponent x.toModel.toBits.toBitVec) 1 : Nat) : Int) =
          exponent x.toModel.toBits.toBitVec := by omega
      simp only [if_neg (Nat.ne_of_gt hpositive), hmax]
      rfl

theorem coefficient_ofFloat_of_zero {x : Float} {sign : Sign} (hx : unpacked x = .zero sign) :
    (Decimal.ofFloat x).coefficient = 0 := by
  have hunpacks : Unpacks x.toModel.toBits.toBitVec (unpacked x) := unpacks _
  rw [hx] at hunpacks
  rw [ofFloat_eq]
  dsimp only
  cases hunpacks with
  | zero hleast hzero =>
      rw [if_pos hleast, hzero]
      split
      · exact Nat.zero_mul _
      · exact Nat.zero_mul _

end Binary64

end AttrExpr
