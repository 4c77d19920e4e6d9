import AttrExpr.Proofs.Decimal.Value
import AttrExpr.Proofs.Float.Order

/-!
# Floats Read Back

A float is read back from its exact decimal and from its shortest one, and the
shortest one is as large as the float as far as the layout can tell.

The layout looks at where the leading digit stands, that is, it compares the
shortest decimal with two powers of ten. The shortest decimal is not the value
of the float, but it lies on a grid next to it, and a power of ten lies on
that grid too or is smaller than its steps. So a power of ten that is between
the two can only be the shortest decimal itself, and then it is what the float
reads back from. The two powers of ten in question read as floats that are not
smaller, which rules it out.

## Theorems

* `value_ofFloat`: The exact decimal of a float has its value.
* `toFloat_ofFloat_abs`, `toFloat_shortest_abs`: Both decimals read back.
* `ten_zpow_le_shortest_iff`: A power of ten is on one side of a float and of
  its shortest decimal.
* `isPositional_shortest_iff`: A float is written out if it is zero or between
  the two limits.
-/

namespace AttrExpr

open Float.Model Float.Model.UnpackedFloat

namespace Decimal

open Binary64

/-! ## Reading decimals -/

/-- A decimal reads as the float whose value it has. The rounding is exact on the
    values of floats, so nothing need be said of how the decimal was found. -/
theorem unpacked_toFloat_of_value {d : Decimal} {significand : Nat} {power : Int}
    (h : Canonical significand power) (hvalue : d.value = Binary64.value significand power) :
    unpacked d.toFloat = .finite .positive significand power h.pos := by
  rw [← value_normalize] at hvalue
  have hpos : 0 < d.normalize.coefficient := by
    apply Nat.pos_of_ne_zero
    intro hzero
    rw [(value_eq_zero_iff d.normalize).mpr hzero] at hvalue
    exact (value_pos h.pos power).ne hvalue
  exact unpacked_ofScientific hpos h hvalue

/-- A decimal with nothing but zeros reads as zero, whatever its exponent. -/
theorem unpacked_toFloat_of_zero {d : Decimal} (h : d.coefficient = 0) :
    unpacked d.toFloat = .zero .positive := by
  have hform : d.toFloat = packed (.zero .positive) := by
    rw [toFloat, normalize, if_pos h]
    decide
  rw [hform]
  exact unpacked_packed (u := .zero .positive) trivial

/-- The exact decimal of a float has its value. A negative power of two is a power
    of five and one of ten, so every float has an exact decimal. -/
theorem value_ofFloat {x : Float} {sign : Sign} {significand : Nat} {power : Int}
    {hpos : 0 < significand} (hx : unpacked x = .finite sign significand power hpos) :
    (ofFloat x).value = Binary64.value significand power := by
  rw [ofFloat_of_finite hx]
  split
  · rename_i hwhole
    obtain ⟨n, rfl⟩ := Int.eq_ofNat_of_zero_le hwhole
    rw [value, Binary64.value, zpow_zero, mul_one, Int.toNat_natCast, zpow_natCast, Nat.pow_eq]
    push_cast
    rfl
  · rename_i hpart
    -- Halving is multiplying by five and taking a tenth.
    have hnegative : 0 ≤ -power := by omega
    obtain ⟨n, hn⟩ := Int.eq_ofNat_of_zero_le hnegative
    obtain rfl : power = -(n : Int) := by omega
    have hten : (10 : ℚ) = 5 * 2 := by norm_num
    rw [value, Binary64.value, Int.neg_neg, Int.toNat_natCast, Nat.pow_eq]
    push_cast
    rw [mul_assoc, zpow_neg, zpow_neg, zpow_natCast, zpow_natCast, hten, mul_pow, mul_inv,
      ← mul_assoc ((5 : ℚ) ^ n), mul_inv_cancel₀ (pow_ne_zero n (by norm_num)), one_mul]

/-- The magnitude of a finite float is zero or has a canonical form. -/
theorem unpacked_abs_cases {x : Float} (hx : x.isFinite = true) :
    unpacked x.abs = .zero .positive ∨ ∃ (significand : Nat) (power : Int)
      (h : Canonical significand power),
        unpacked x.abs = .finite .positive significand power h.pos := by
  rw [unpacked_abs]
  rcases finite_cases hx with ⟨sign, hform⟩ | ⟨sign, significand, power, h, hform⟩
  · rw [hform]
    exact Or.inl rfl
  · rw [hform]
    exact Or.inr ⟨significand, power, h, rfl⟩

/-- The exact decimal of a float reads back. -/
theorem toFloat_ofFloat_abs {x : Float} (hx : x.isFinite = true) :
    (ofFloat x.abs).toFloat = x.abs := by
  apply unpacked_injective
  rcases unpacked_abs_cases hx with hzero | ⟨significand, power, h, hform⟩
  · rw [hzero, unpacked_toFloat_of_zero (coefficient_ofFloat_of_zero hzero)]
  · rw [hform, unpacked_toFloat_of_value h (value_ofFloat hform)]

/-- The shortest decimal of a float reads back. -/
theorem toFloat_shortest_abs {x : Float} (hx : x.isFinite = true) :
    (shortest x.abs).toFloat = x.abs :=
  toFloat_shortest (toFloat_ofFloat_abs hx)

/-! ## The size of the shortest decimal -/

/-- The shortest decimal is the exact one or a neighbour that reads back,
    trailing zeros aside. This is all that is used of the search: not which
    neighbour is found, only that it is one and that it reads back. -/
theorem shortest_cases (y : Float) : (shortest y).value = (ofFloat y).value ∨
    ∃ dropped < (ofFloat y).digits.length, ∃ n ∈ (ofFloat y).neighbours dropped,
      n.toFloat = y ∧ (shortest y).value = n.value := by
  simp only [shortest, value_normalize]
  cases hfound : ((List.range (ofFloat y).digits.length).reverse.findSome? fun dropped =>
      ((ofFloat y).neighbours dropped).find? fun d => d.toFloat = y) with
  -- Nothing on a coarser grid reads back, so all digits are kept.
  | none => exact Or.inl rfl
  | some n =>
      right
      rcases List.exists_of_findSome?_eq_some hfound with ⟨dropped, hdropped, hn⟩
      have hrange : dropped < (ofFloat y).digits.length :=
        List.mem_range.mp (List.mem_reverse.mp hdropped)
      have hread : n.toFloat = y := by
        simpa only [decide_eq_true_eq] using List.find?_some hn
      exact ⟨dropped, hrange, n, List.mem_of_find?_eq_some hn, hread, rfl⟩

/-- Zero is on the only grid there is, and it is the shortest decimal of
    itself. -/
theorem shortest_of_zero {y : Float} (hy : unpacked y = .zero .positive) :
    shortest y = ⟨0, 0⟩ := by
  have hcoefficient := coefficient_ofFloat_of_zero hy
  have hdigits : (ofFloat y).digits.length = 1 := by
    rw [digits, hcoefficient]
    rfl
  have hread : toFloat ⟨0, (ofFloat y).exponent⟩ = y := by
    apply unpacked_injective
    rw [hy]
    exact unpacked_toFloat_of_zero rfl
  -- Zero is the nearer neighbour, so it is tried first.
  have hneighbours : (ofFloat y).neighbours 0 =
      [⟨0, (ofFloat y).exponent⟩, ⟨1, (ofFloat y).exponent⟩] := by
    rw [neighbours, hcoefficient, Nat.cast_zero, Int.add_zero]
    rfl
  have hgrid : ((ofFloat y).neighbours 0).find? (fun d => d.toFloat = y) =
      some ⟨0, (ofFloat y).exponent⟩ := by
    rw [hneighbours]
    exact List.find?_cons_of_pos (decide_eq_true hread)
  have hrange : (List.range 1).reverse = [0] := rfl
  rw [shortest, hdigits, hrange, List.findSome?_cons, hgrid, Option.getD_some, normalize,
    if_pos rfl]

/-- A power of ten that reads as no smaller float is on the same side of a float
    and of its shortest decimal. The exact decimal takes the place of the float
    here, since it has its value and lies on the grids the neighbours are from. -/
theorem ten_zpow_le_shortest_iff {y : Float} (hc : 0 < (ofFloat y).coefficient) {k : Int}
    (hk : y = toFloat ⟨1, k⟩ → 10 ^ k ≤ (ofFloat y).value) :
    10 ^ k ≤ (shortest y).value ↔ 10 ^ k ≤ (ofFloat y).value := by
  rcases shortest_cases y with hexact | ⟨dropped, hdropped, n, hn, hread, hvalue⟩
  · rw [hexact]
  · rw [hvalue]
    constructor
    · intro hle
      -- Were the power between the two, the shortest decimal would be the power.
      by_contra hbetween
      have hlt : (ofFloat y).value < 10 ^ k := not_le.mp hbetween
      have hone : n.value = Decimal.value ⟨1, k⟩ := by
        rw [le_antisymm (neighbour_le_ten_zpow hc hdropped hlt hn) hle, Decimal.value,
          Nat.cast_one, one_mul]
      exact hbetween (hk (hread.symm.trans (toFloat_eq_of_value_eq hone)))
    · intro hle
      exact ten_zpow_le_neighbour hc hdropped hle hn

/-! ## The limits of the layout -/

theorem canonical_lower : Canonical 7378697629483821 (-66) :=
  ⟨by decide, by decide, by decide, by decide, Or.inl (by decide)⟩

theorem canonical_upper : Canonical 5000000000000000 1 :=
  ⟨by decide, by decide, by decide, by decide, Or.inl (by decide)⟩

/-- The float written `1e-4` is the one just above it. -/
theorem unpacked_lower :
    unpacked 1e-4 = .finite .positive 7378697629483821 (-66) canonical_lower.pos := by
  have hform : (1e-4 : Float) =
      packed (.finite .positive 7378697629483821 (-66) canonical_lower.pos) := by
    decide
  rw [hform]
  exact unpacked_packed (u := .finite .positive _ _ canonical_lower.pos) canonical_lower

theorem unpacked_upper :
    unpacked 1e16 = .finite .positive 5000000000000000 1 canonical_upper.pos := by
  have hform : (1e16 : Float) =
      packed (.finite .positive 5000000000000000 1 canonical_upper.pos) := by
    decide
  rw [hform]
  exact unpacked_packed (u := .finite .positive _ _ canonical_upper.pos) canonical_upper

/-- There is no float between `10 ^ -4` and the one written so, which is a little
    larger. So a float is at least the one exactly if it is at least the other. -/
theorem lower_le_iff {significand : Nat} {power : Int} (h : Canonical significand power) :
    Binary64.value 7378697629483821 (-66) ≤ Binary64.value significand power ↔
      10 ^ (-4 : Int) ≤ Binary64.value significand power := by
  constructor
  · intro hle
    have hlimit : 10 ^ (-4 : Int) ≤ Binary64.value 7378697629483821 (-66) := by
      rw [Binary64.value]
      norm_num
    exact hlimit.trans hle
  · intro hle
    by_contra hsmaller
    -- Anything smaller is at most the float before, and that is below the power.
    have hbefore : Canonical 7378697629483820 (-66) :=
      ⟨by decide, by decide, by decide, by decide, Or.inl (by decide)⟩
    have hbelow : Binary64.value significand power ≤ Binary64.value 7378697629483820 (-66) := by
      rw [value_le_iff canonical_lower h] at hsmaller
      rw [value_le_iff h hbefore]
      omega
    have hsmall : Binary64.value 7378697629483820 (-66) < 10 ^ (-4 : Int) := by
      rw [Binary64.value]
      norm_num
    exact absurd hle (not_le.mpr (hbelow.trans_lt hsmall))

/-- `1e16` is a float. -/
theorem value_upper : Binary64.value 5000000000000000 1 = 10 ^ (16 : Int) := by
  rw [Binary64.value]
  norm_num

/-- The lower limit does not read as a smaller float than itself, since that float
    would be the one just above it. -/
theorem lower_le_ofFloat : 10 ^ (-4 : Int) ≤ (ofFloat (toFloat ⟨1, -4⟩)).value := by
  have hread : unpacked (toFloat ⟨1, -4⟩) =
      .finite .positive 7378697629483821 (-66) canonical_lower.pos := unpacked_lower
  rw [value_ofFloat hread]
  exact (lower_le_iff canonical_lower).mp le_rfl

theorem upper_le_ofFloat : 10 ^ (16 : Int) ≤ (ofFloat (toFloat ⟨1, 16⟩)).value := by
  have hread : unpacked (toFloat ⟨1, 16⟩) =
      .finite .positive 5000000000000000 1 canonical_upper.pos := unpacked_upper
  rw [value_ofFloat hread, value_upper]

/-- What the layout decides by the place of the leading digit is a comparison of
    the value with the two limits. -/
theorem isPositional_iff {d : Decimal} (hc : 0 < d.coefficient) :
    Layout.literal.isPositional (Layout.lead d) = true ↔
      10 ^ (-4 : Int) ≤ d.value ∧ d.value < 10 ^ (16 : Int) := by
  rw [ten_zpow_le_value_iff hc, ← not_le, ten_zpow_le_value_iff hc]
  simp only [Layout.literal, Bool.and_eq_true, decide_eq_true_iff]
  omega

theorem beq_zero_iff {x : Float} (hx : x.isFinite = true) :
    (x == 0) = true ↔ unpacked x.abs = .zero .positive := by
  have hzero : unpacked 0 = .zero .positive := by
    have hform : (0 : Float) = packed (.zero .positive) := by decide
    rw [hform]
    exact unpacked_packed (u := .zero .positive) trivial
  -- On canonical forms the two zeros are the only ones that are equal to zero.
  have hbeq : (x == 0) = (unpacked x).beq (unpacked 0) := rfl
  rw [hbeq, hzero, unpacked_abs]
  rcases finite_cases hx with ⟨sign, hform⟩ | ⟨sign, significand, power, h, hform⟩
  · rw [hform]
    exact ⟨fun _ => rfl, fun _ => rfl⟩
  · rw [hform]
    constructor
    · intro h
      cases sign with
      | positive => cases h
      | negative => cases h
    · intro h
      cases h

/-- The exact decimal of a float that is not zero is not zero. -/
theorem coefficient_ofFloat_pos {y : Float} {sign : Sign} {significand : Nat} {power : Int}
    {hpos : 0 < significand} (hy : unpacked y = .finite sign significand power hpos) :
    0 < (ofFloat y).coefficient := by
  apply Nat.pos_of_ne_zero
  intro hzero
  have hvalue := value_ofFloat hy
  rw [(value_eq_zero_iff _).mpr hzero] at hvalue
  exact (value_pos hpos power).ne hvalue

/-- The shortest decimal of a float that is not zero is not zero either, since it
    reads back. -/
theorem coefficient_shortest_pos {x : Float} (hx : x.isFinite = true) {significand : Nat}
    {power : Int} {hpos : 0 < significand}
    (hform : unpacked x.abs = .finite .positive significand power hpos) :
    0 < (shortest x.abs).coefficient := by
  apply Nat.pos_of_ne_zero
  intro hzero
  have hread := unpacked_toFloat_of_zero hzero
  rw [toFloat_shortest_abs hx, hform] at hread
  cases hread

/-- The shortest decimal of a float is written out if the float is zero or
    its magnitude is at least `1e-4` and less than `1e16`. -/
theorem isPositional_shortest_iff {x : Float} (hx : x.isFinite = true) :
    Layout.literal.isPositional (Layout.lead (shortest x.abs)) = true ↔
      x == 0 ∨ (1e-4 ≤ x.abs ∧ x.abs < 1e16) := by
  rcases unpacked_abs_cases hx with hzero | ⟨significand, power, h, hform⟩
  · -- Zero is not between the limits, and is written out all the same.
    have hpositional : Layout.literal.isPositional (Layout.lead (shortest x.abs)) = true := by
      rw [shortest_of_zero hzero]
      rfl
    exact ⟨fun _ => Or.inl ((beq_zero_iff hx).mpr hzero), fun _ => hpositional⟩
  · have hnonzero : ¬ (x == 0) = true := by
      rw [beq_zero_iff hx, hform]
      intro hzero
      cases hzero
    have hexact := coefficient_ofFloat_pos hform
    have hlower : x.abs = toFloat ⟨1, -4⟩ → 10 ^ (-4 : Int) ≤ (ofFloat x.abs).value := by
      intro hread
      rw [hread]
      exact lower_le_ofFloat
    have hupper : x.abs = toFloat ⟨1, 16⟩ → 10 ^ (16 : Int) ≤ (ofFloat x.abs).value := by
      intro hread
      rw [hread]
      exact upper_le_ofFloat
    -- From the shortest decimal to the exact one, and on to the floats.
    rw [isPositional_iff (coefficient_shortest_pos hx hform), ← not_le,
      ten_zpow_le_shortest_iff hexact hlower, ten_zpow_le_shortest_iff hexact hupper,
      value_ofFloat hform, or_iff_right hnonzero, le_iff_value_le unpacked_lower hform,
      lt_iff_value_lt hform unpacked_upper, lower_le_iff h, value_upper, not_le]

end Decimal

end AttrExpr
