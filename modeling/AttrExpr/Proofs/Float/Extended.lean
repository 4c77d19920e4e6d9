import AttrExpr.Proofs.Float.Order

/-!
# The Order of All Floats

Comparisons of floats that need not be finite.

A float stands for a rational number, for one of the two infinities, or for
nothing at all. Comparing two of them is comparing what they stand for, with
the infinities at the ends, and is false as soon as one stands for nothing. So
the comparisons inherit the laws of a linear order, except those that would say
something of every float: `NaN` is not equal to itself, and neither below nor
above anything.

## Main definitions

* `place?`: What a form stands for among the rationals and the infinities.
* `Related`: That two floats stand for something, and it is related.

## Theorems

* `compare_place?`: Canonical forms compare as what they stand for.
* `lt_iff_related`, `le_iff_related`, `beq_iff_related`: Floats compare as what
  they stand for.
* `lt_transitive`, `le_transitive`, `beq_transitive`, `beq_symmetric`: The laws
  that are left.
-/

namespace AttrExpr

namespace Binary64

open Float.Model Float.Model.UnpackedFloat

/-- A rational number among the rationals and the infinities. -/
def finitePlace (a : ℚ) : WithBot (WithTop ℚ) := (a : WithTop ℚ)

/-- What an unpacked form stands for: a rational number or one of the
    infinities, if it is a number. -/
def place? : UnpackedFloat → Option (WithBot (WithTop ℚ))
  | .notANumber => none
  | .infinity .negative => some ⊥
  | .infinity .positive => some ⊤
  | .zero _ => some (finitePlace 0)
  | .finite .positive significand power _ => some (finitePlace (value significand power))
  | .finite .negative significand power _ => some (finitePlace (-value significand power))

/-- That two floats stand for something, and that what they stand for is
    related. -/
def Related (r : WithBot (WithTop ℚ) → WithBot (WithTop ℚ) → Prop) (x y : Float) : Prop :=
  ∃ a b, place? (unpacked x) = some a ∧ place? (unpacked y) = some b ∧ r a b

/-! ## Unpacked forms -/

theorem place?_of_denotes {u : UnpackedFloat} {a : ℚ} (h : Denotes u a) :
    place? u = some (finitePlace a) := by
  cases h with
  | zero sign => rfl
  | positive h => rfl
  | negative h => rfl

/-- A canonical form is no number, an infinity, or stands for a rational. The
    comparisons of rationals are known, so the cases below are by these three. -/
theorem denotes_cases {u : UnpackedFloat} (h : IsCanonical u) :
    u = .notANumber ∨ (∃ sign, u = .infinity sign) ∨ ∃ a, Denotes u a := by
  cases u with
  | notANumber => exact Or.inl rfl
  | infinity sign => exact Or.inr (Or.inl ⟨sign, rfl⟩)
  | zero sign => exact Or.inr (Or.inr ⟨0, .zero sign⟩)
  | finite sign significand power hpos =>
      cases sign with
      | positive => exact Or.inr (Or.inr ⟨_, .positive h⟩)
      | negative => exact Or.inr (Or.inr ⟨_, .negative h⟩)

theorem compare_finitePlace (a b : ℚ) :
    compare (finitePlace a) (finitePlace b) = compare a b := by
  rw [← cmp_eq_compare, ← cmp_eq_compare, finitePlace, finitePlace,
    WithBot.coe_strictMono.cmp_map_eq, WithTop.coe_strictMono.cmp_map_eq]

/-- An infinity compares with every rational as it does with zero. -/
theorem compare_infinity {u : UnpackedFloat} {a : ℚ} (h : Denotes u a) (sign : Sign) :
    (UnpackedFloat.infinity sign).compare u =
        (UnpackedFloat.infinity sign).compare (.zero .positive) ∧
      u.compare (.infinity sign) = (UnpackedFloat.zero .positive).compare (.infinity sign) := by
  cases sign with
  | positive =>
      cases h with
      | zero | positive | negative => exact ⟨rfl, rfl⟩
  | negative =>
      cases h with
      | zero | positive | negative => exact ⟨rfl, rfl⟩

/-- Canonical forms compare as what they stand for, and not at all if one of
    them stands for nothing. -/
theorem compare_place? {u v : UnpackedFloat} (hu : IsCanonical u) (hv : IsCanonical v) :
    u.compare v = (place? u).bind fun a => (place? v).map fun b => compare a b := by
  have hbot : ∀ a : ℚ, ⊥ < finitePlace a := fun a => WithBot.bot_lt_coe _
  have htop : ∀ a : ℚ, finitePlace a < ⊤ := fun a => WithBot.coe_lt_coe.mpr (WithTop.coe_lt_top a)
  rcases denotes_cases hu with rfl | ⟨sign, rfl⟩ | ⟨a, ha⟩
  · rfl
  · rcases denotes_cases hv with rfl | ⟨other, rfl⟩ | ⟨b, hb⟩
    · cases sign with
      | positive | negative => rfl
    · cases sign with
      | positive =>
          cases other with
          | positive | negative => rfl
      | negative =>
          cases other with
          | positive | negative => rfl
    · -- Against a rational an infinity is decided by its sign alone.
      rw [(compare_infinity hb sign).1, place?_of_denotes hb]
      cases sign with
      | positive => exact congrArg some (compare_gt_iff_gt.mpr (htop b)).symm
      | negative => exact congrArg some (compare_lt_iff_lt.mpr (hbot b)).symm
  · rcases denotes_cases hv with rfl | ⟨other, rfl⟩ | ⟨b, hb⟩
    · cases ha with
      | zero | positive | negative => rfl
    · rw [(compare_infinity ha other).2, place?_of_denotes ha]
      cases other with
      | positive => exact congrArg some (compare_lt_iff_lt.mpr (htop a)).symm
      | negative => exact congrArg some (compare_gt_iff_gt.mpr (hbot a)).symm
    · rw [compare_eq ha hb, place?_of_denotes ha, place?_of_denotes hb, Option.bind_some,
        Option.map_some, compare_finitePlace]

/-! ## Floats -/

section

variable {x y z : Float}

theorem compare_eq_some_iff {o : Ordering} :
    (unpacked x).compare (unpacked y) = some o ↔ Related (fun a b => compare a b = o) x y := by
  rw [compare_place? (isCanonical_unpacked x) (isCanonical_unpacked y), Option.bind_eq_some_iff]
  simp only [Option.map_eq_some_iff, Related]
  constructor
  · rintro ⟨a, ha, b, hb, h⟩
    exact ⟨a, b, ha, hb, h⟩
  · rintro ⟨a, b, ha, hb, h⟩
    exact ⟨a, ha, b, hb, h⟩

theorem lt_iff_related : x < y ↔ Related (· < ·) x y := by
  rw [lt_iff, UnpackedFloat.lt, beq_iff_eq, compare_eq_some_iff]
  simp only [compare_lt_iff_lt]

theorem beq_iff_related : (x == y) = true ↔ Related (· = ·) x y := by
  have hbeq : (x == y) = (unpacked x).beq (unpacked y) := rfl
  rw [hbeq, UnpackedFloat.beq, beq_iff_eq, compare_eq_some_iff]
  simp only [compare_eq_iff_eq]

theorem le_iff_related : x ≤ y ↔ Related (· ≤ ·) x y := by
  rw [le_iff, UnpackedFloat.le, compare_place? (isCanonical_unpacked x) (isCanonical_unpacked y),
    Related]
  cases place? (unpacked x) with
  | none =>
      apply iff_of_false Bool.false_ne_true
      rintro ⟨_, _, ha, _⟩
      cases ha
  | some a =>
      cases place? (unpacked y) with
      | none =>
          apply iff_of_false Bool.false_ne_true
          rintro ⟨_, _, _, hb, _⟩
          cases hb
      | some b =>
          -- Both stand for something, and being at most is not being greater.
          simp only [Option.bind_some, Option.map_some, Option.any_some, Option.some.injEq,
            exists_eq_left', exists_and_left]
          rw [← Ordering.ne_gt_iff_isLE]
          exact compare_le_iff_le

namespace Related

variable {r : WithBot (WithTop ℚ) → WithBot (WithTop ℚ) → Prop}

/-- Floats are related transitively if places are: the float in the middle stands
    for one thing only. -/
theorem trans (h : ∀ {a b c}, r a b → r b c → r a c) (hxy : Related r x y) (hyz : Related r y z) :
    Related r x z := by
  rcases hxy with ⟨a, b, ha, hb, hab⟩
  rcases hyz with ⟨b', c, hb', hc, hbc⟩
  rw [hb] at hb'
  cases hb'
  exact ⟨a, c, ha, hc, h hab hbc⟩

theorem symm (h : ∀ {a b}, r a b → r b a) (hxy : Related r x y) : Related r y x := by
  rcases hxy with ⟨a, b, ha, hb, hab⟩
  exact ⟨b, a, hb, ha, h hab⟩

end Related

/-! ## Laws -/

theorem lt_transitive (hxy : x < y) (hyz : y < z) : x < z := by
  rw [lt_iff_related] at hxy hyz ⊢
  exact hxy.trans (fun hab hbc => hab.trans hbc) hyz

/-- Being at most is transitive, although it is not reflexive. -/
theorem le_transitive (hxy : x ≤ y) (hyz : y ≤ z) : x ≤ z := by
  rw [le_iff_related] at hxy hyz ⊢
  exact hxy.trans (fun hab hbc => hab.trans hbc) hyz

theorem beq_transitive (hxy : (x == y) = true) (hyz : (y == z) = true) : (x == z) = true := by
  rw [beq_iff_related] at hxy hyz ⊢
  exact hxy.trans (fun hab hbc => hab.trans hbc) hyz

theorem beq_symmetric (hxy : (x == y) = true) : (y == x) = true := by
  rw [beq_iff_related] at hxy ⊢
  exact hxy.symm fun hab => hab.symm

end

end Binary64

end AttrExpr
