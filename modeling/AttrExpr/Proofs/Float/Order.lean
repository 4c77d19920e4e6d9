import AttrExpr.Proofs.Float.Exact

/-!
# The Order of Floats

Comparing floats is comparing the numbers they stand for.

Two unpacked forms are compared by their powers first and by their
significands only if the powers are equal. That is right for canonical forms:
a significand that is not full goes with the least power only, so a larger
power cannot be made up for by a larger significand. A sign turns the order
around, and both zeros are the same number.

## Main definitions

* `Denotes`: The number an unpacked form stands for.

## Theorems

* `value_le_iff`: Canonical forms are ordered by power, then by significand.
* `compare_eq`: Forms compare as the numbers they stand for.
* `le_iff_value_le`, `lt_iff_value_lt`: Positive floats compare by the values of
  their forms.
-/

namespace AttrExpr

namespace Binary64

open Float.Model Float.Model.UnpackedFloat

section

variable {m n : Nat} {d e : Int} (hm : Canonical m d) (hn : Canonical n e)

include hm hn

/-- A larger power makes a larger number, because only the least power goes
    with a significand that is not full. -/
theorem value_lt_of_power_lt (h : d < e) : value m d < value n e := by
  have hleast := hm.least
  have hfull : 4503599627370496 ≤ n := hn.full.resolve_right (by omega)
  calc value m d < (9007199254740992 : Nat) * 2 ^ d :=
        mul_lt_mul_of_pos_right (by exact_mod_cast hm.lt) (two_zpow_pos d)
    _ = (4503599627370496 : Nat) * 2 ^ (d + 1) := by
        rw [two_zpow_add]
        push_cast
        ring
    _ ≤ n * 2 ^ e := by
        have hsignificand : ((4503599627370496 : Nat) : ℚ) ≤ n := by exact_mod_cast hfull
        have hpower : (2 : ℚ) ^ (d + 1) ≤ 2 ^ e := zpow_le_zpow_right₀ (by norm_num) h
        exact mul_le_mul hsignificand hpower (two_zpow_pos _).le n.cast_nonneg

theorem value_le_iff : value m d ≤ value n e ↔ d < e ∨ d = e ∧ m ≤ n := by
  rcases Int.lt_trichotomy d e with hlt | rfl | hgt
  · exact ⟨fun _ => Or.inl hlt, fun _ => (value_lt_of_power_lt hm hn hlt).le⟩
  · rw [value, value, mul_le_mul_iff_left₀ (two_zpow_pos d), Nat.cast_le]
    omega
  · constructor
    · intro h
      exact absurd h (not_le.mpr (value_lt_of_power_lt hn hm hgt))
    · intro h
      omega

/-- The powers decide, and the significands only between equal ones. This is the
    comparison that is made on unpacked forms. -/
theorem compare_value : (compare d e).then (compare m n) = compare (value m d) (value n e) := by
  rcases Int.lt_trichotomy d e with hlt | rfl | hgt
  · rw [Int.compare_eq_lt.mpr hlt, compare_lt_iff_lt.mpr (value_lt_of_power_lt hm hn hlt)]
    rfl
  · have hvalue : ∀ {m n : Nat}, value m d < value n d ↔ m < n := by
      intro m n
      rw [value, value, mul_lt_mul_iff_left₀ (two_zpow_pos d), Nat.cast_lt]
    rw [Int.compare_eq_eq.mpr rfl, Ordering.eq_then]
    rcases Nat.lt_trichotomy m n with hlt | rfl | hgt
    · rw [Nat.compare_eq_lt.mpr hlt, compare_lt_iff_lt.mpr (hvalue.mpr hlt)]
    · rw [Nat.compare_eq_eq.mpr rfl, compare_eq_iff_eq.mpr rfl]
    · rw [Nat.compare_eq_gt.mpr hgt, compare_gt_iff_gt.mpr (hvalue.mpr hgt)]
  · rw [Int.compare_eq_gt.mpr hgt, compare_gt_iff_gt.mpr (value_lt_of_power_lt hn hm hgt)]
    rfl

end

/-! ## Numbers with a sign -/

/-- The number that an unpacked form stands for, if it is a canonical one. An
    infinity stands for none, and neither does what is not a number. -/
inductive Denotes : UnpackedFloat → ℚ → Prop
  | zero (sign : Sign) : Denotes (.zero sign) 0
  | positive {significand : Nat} {power : Int} (h : Canonical significand power) :
      Denotes (.finite .positive significand power h.pos) (value significand power)
  | negative {significand : Nat} {power : Int} (h : Canonical significand power) :
      Denotes (.finite .negative significand power h.pos) (-value significand power)

theorem Denotes.isCanonical {u : UnpackedFloat} {a : ℚ} (h : Denotes u a) : IsCanonical u := by
  cases h with
  | zero sign => trivial
  | positive h => exact h
  | negative h => exact h

theorem Denotes.neg {u : UnpackedFloat} {a : ℚ} (h : Denotes u a) : Denotes u.neg (-a) := by
  cases h with
  | zero sign =>
      rw [neg_zero]
      exact .zero (-sign)
  | positive h => exact .negative h
  | negative h =>
      rw [neg_neg]
      exact .positive h

/-- Below zero the order is the other way round. -/
theorem compare_neg (a b : ℚ) : compare (-a) (-b) = (compare a b).swap := by
  rcases lt_trichotomy a b with hlt | rfl | hgt
  · rw [compare_lt_iff_lt.mpr hlt, compare_gt_iff_gt.mpr (neg_lt_neg hlt)]
    rfl
  · rw [compare_eq_iff_eq.mpr rfl, compare_eq_iff_eq.mpr rfl]
    rfl
  · rw [compare_gt_iff_gt.mpr hgt, compare_lt_iff_lt.mpr (neg_lt_neg hgt)]
    rfl

/-- Forms compare as the numbers they stand for. Signs that differ decide by
    themselves, and below zero the comparison of the magnitudes is turned around. -/
theorem compare_eq {u v : UnpackedFloat} {a b : ℚ} (hu : Denotes u a) (hv : Denotes v b) :
    u.compare v = some (compare a b) := by
  cases hu with
  | zero sign =>
      cases hv with
      | zero other =>
          rw [compare_eq_iff_eq.mpr rfl]
          rfl
      | positive hn =>
          rw [compare_lt_iff_lt.mpr (value_pos hn.pos _)]
          rfl
      | negative hn =>
          rw [compare_gt_iff_gt.mpr (neg_neg_of_pos (value_pos hn.pos _))]
          rfl
  | positive hm =>
      -- Only two positive forms are compared by their parts, and two negative ones.
      have hpos := value_pos hm.pos
      cases hv with
      | zero sign =>
          rw [compare_gt_iff_gt.mpr (hpos _)]
          rfl
      | positive hn =>
          rw [← compare_value hm hn]
          rfl
      | negative hn =>
          rw [compare_gt_iff_gt.mpr ((neg_neg_of_pos (value_pos hn.pos _)).trans (hpos _))]
          rfl
  | negative hm =>
      have hneg := fun power => neg_neg_of_pos (value_pos hm.pos power)
      cases hv with
      | zero sign =>
          rw [compare_lt_iff_lt.mpr (hneg _)]
          rfl
      | positive hn =>
          rw [compare_lt_iff_lt.mpr ((hneg _).trans (value_pos hn.pos _))]
          rfl
      | negative hn =>
          rw [compare_neg, ← compare_value hm hn]
          rfl

theorem le_iff {x y : Float} : x ≤ y ↔ (unpacked x).le (unpacked y) = true := by
  have hle : x ≤ y ↔ decide (x.toModel ≤ y.toModel) = true := Iff.rfl
  rw [hle, decide_eq_true_iff]
  exact Iff.rfl

theorem lt_iff {x y : Float} : x < y ↔ (unpacked x).lt (unpacked y) = true := by
  have hlt : x < y ↔ decide (x.toModel < y.toModel) = true := Iff.rfl
  rw [hlt, decide_eq_true_iff]
  exact Iff.rfl

section

variable {x y : Float} {a b : ℚ} (hx : Denotes (unpacked x) a) (hy : Denotes (unpacked y) b)

include hx hy

theorem le_iff_le : x ≤ y ↔ a ≤ b := by
  rw [le_iff, UnpackedFloat.le, compare_eq hx hy, Option.any_some, ← Ordering.ne_gt_iff_isLE]
  exact compare_le_iff_le

theorem lt_iff_lt : x < y ↔ a < b := by
  rw [lt_iff, UnpackedFloat.lt, compare_eq hx hy, beq_iff_eq, Option.some.injEq, compare_lt_iff_lt]

/-- Floats are equal if their numbers are, so both zeros are. -/
theorem beq_iff : (x == y) = true ↔ a = b := by
  have hbeq : (x == y) = (unpacked x).beq (unpacked y) := rfl
  rw [hbeq, UnpackedFloat.beq, compare_eq hx hy, beq_iff_eq, Option.some.injEq, compare_eq_iff_eq]

end

section

variable {x y : Float} {m n : Nat} {d e : Int} {hm : 0 < m} {hn : 0 < n}
  (hx : unpacked x = .finite .positive m d hm) (hy : unpacked y = .finite .positive n e hn)

include hx hy

/-- Floats compare as the numbers they stand for. -/
theorem le_iff_value_le : x ≤ y ↔ value m d ≤ value n e :=
  le_iff_le (hx ▸ .positive (canonical_of_unpacked hx)) (hy ▸ .positive (canonical_of_unpacked hy))

theorem lt_iff_value_lt : x < y ↔ value m d < value n e :=
  lt_iff_lt (hx ▸ .positive (canonical_of_unpacked hx)) (hy ▸ .positive (canonical_of_unpacked hy))

end

end Binary64

end AttrExpr
