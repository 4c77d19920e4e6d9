import AttrExpr.Proofs.Builtin.IntegerComparison
import AttrExpr.Proofs.Builtin.RunningTotal

/-!
# Exact Division

When a quotient of integers is an integer.

The arguments are divided by from left to right, and the quotient stays an
integer as long as no division leaves a remainder. Like the other operations it
should then either fit or overflow. A quotient is no larger than its dividend,
so there is a single one that does not fit, that of the least integer by minus
one, and this one is not an overflow: it is taken for a division that is not
exact, and becomes a float.

So the rule holds as long as no exact quotient on the way leaves the range, and
it fails whenever one does, since what comes out then is a float.

## Main definitions

* `Division`: A dividend and its divisors.
* `Division.quotient?`: The exact quotient.
* `Division.LeavesRange`: Whether an exact quotient on the way does not fit.
* `Division.Rule`: That an exact quotient is an integer or an overflow.

## Theorems

* `Number.not_fits_ediv`: The only quotient that does not fit.
* `Division.leavesRange_iff_least`: How a division gets to it.
* `Division.total_divide`: The end of a division.
* `Builtin.divide_rule_iff`: The rule holds exactly where nothing overflows.
-/

namespace AttrExpr

open Binary64 Number

/-! ## Quotients that fit -/

/-- The quotient of integers is no larger than the dividend, which leaves only the
    least integer turned around. It is the one result that two's complement has
    no room for. -/
theorem Number.not_fits_ediv {q b : Int} (hq : Fits q) (hdvd : b ∣ q) (hb : b ≠ 0)
    (h : ¬Fits (q / b)) : q = Int64.minValue.toInt ∧ b = -1 := by
  rcases hdvd with ⟨c, rfl⟩
  rw [Int.mul_ediv_cancel_left c hb] at h
  have hmin : Int64.minValue.toInt = -9223372036854775808 := rfl
  have hmax : Int64.maxValue.toInt = 9223372036854775807 := rfl
  simp only [Fits, hmin, hmax] at hq h ⊢
  have habs : (b * c).natAbs = b.natAbs * c.natAbs := Int.natAbs_mul b c
  have hle : c.natAbs ≤ b.natAbs * c.natAbs := Nat.le_mul_of_pos_left _ (Int.natAbs_pos.mpr hb)
  -- The quotient is the first integer that is too large, so the divisor has size one.
  have hc : c = 9223372036854775808 := by omega
  subst hc
  omega

/-- A divisor is zero as a float only if it is zero. Division asks the float, so
    an integer that was rounded to zero would be refused; rounding is monotone
    and keeps one and minus one, so there is none. -/
theorem Number.toFloat_beq_zero_iff (b : Int64) :
    ((Number.int b).toFloat == 0.0) = true ↔ b = 0 := by
  have hzero : (0.0 : Float) = Float.ofInt (0 : Int64).toInt := by decide
  rw [Number.toFloat, hzero, float_beq_iff, ← Int64.toInt_inj]
  have hone : nearest 1 = 1 := nearest_of_le (by decide)
  have hneg : nearest (-1) = -1 := nearest_of_le (by decide)
  have hnone : nearest (0 : Int64).toInt = 0 := nearest_of_le (by decide)
  rcases Int.lt_trichotomy b.toInt 0 with hlt | heq | hgt
  · -- What is at most minus one is rounded to at most minus one.
    have hbelow : b.toInt ≤ -1 := by omega
    have hmono := nearest_mono hbelow
    change _ ↔ b.toInt = 0
    omega
  · change _ ↔ b.toInt = 0
    rw [heq]
    exact iff_of_true rfl rfl
  · have habove : 1 ≤ b.toInt := by omega
    have hmono := nearest_mono habove
    change _ ↔ b.toInt = 0
    omega

/-! ## Exact quotients -/

/-- A dividend, and what it is divided by from left to right. The arguments of a
    call give one, in a way that depends on how many there are. -/
structure Division where
  dividend : Int64
  divisors : List Int64

namespace Division

/-- The division that integer arguments ask for. A single argument divides one,
    and no argument is nothing to divide. -/
def ofArguments? : List Int64 → Option Division
  | [] => none
  | [only] => some ⟨1, [only]⟩
  | first :: second :: rest => some ⟨first, second :: rest⟩

/-- The quotient of a number of any size, if no division leaves a remainder. The
    results on the way need not fit; whether they do is asked separately. -/
def quotient? (dividend : Int) : List Int64 → Option Int
  | [] => some dividend
  | divisor :: rest =>
      if divisor.toInt ∣ dividend then quotient? (dividend / divisor.toInt) rest else none

/-- Whether the exact quotient by some of the first divisors does not fit. By no
    divisors the quotient is the dividend, so that has to fit as well. -/
def LeavesRange (dividend : Int) (divisors : List Int64) : Prop :=
  ∃ seen, seen <+: divisors ∧ ∃ q, quotient? dividend seen = some q ∧ ¬Fits q

instance (dividend : Int) (divisors : List Int64) : Decidable (LeavesRange dividend divisors) :=
  decidable_of_iff (∃ seen ∈ divisors.inits, ∃ q ∈ quotient? dividend seen, ¬Fits q) <| by
    simp only [List.mem_inits, Option.mem_def, LeavesRange]

/-- That an exact quotient is an integer or an overflow, and never a float. -/
structure Rule (division : Division) (result : Except EvalFault Value) : Prop where
  /-- An exact quotient is an integer, as long as it and those before it fit. -/
  integer : ∀ q, quotient? division.dividend.toInt division.divisors = some q →
    ¬LeavesRange division.dividend.toInt division.divisors →
      ∃ c : Int64, c.toInt = q ∧ result = .ok (.int c)
  /-- An exact quotient that does not fit is an overflow. -/
  overflow : LeavesRange division.dividend.toInt division.divisors →
    result = .error (.integerOverflow "division")
  /-- A float comes only from a division that is not exact. -/
  float : ∀ x, result = .ok (.float x) →
    quotient? division.dividend.toInt division.divisors = none

variable {dividend : Int} {divisor : Int64} {divisors : List Int64}

theorem quotient?_append (dividend : Int) (before after : List Int64) :
    quotient? dividend (before ++ after) =
      (quotient? dividend before).bind fun q => quotient? q after := by
  induction before generalizing dividend with
  | nil => rfl
  | cons divisor before ih =>
      rw [List.cons_append, quotient?, quotient?]
      split
      · exact ih _
      · rfl

theorem leavesRange_nil : LeavesRange dividend [] ↔ ¬Fits dividend := by
  constructor
  · rintro ⟨seen, hseen, q, hq, hfits⟩
    rw [List.prefix_nil.mp hseen] at hq
    cases hq
    exact hfits
  · exact fun hfits => ⟨[], List.prefix_rfl, dividend, rfl, hfits⟩

theorem leavesRange_of_not_fits (h : ¬Fits dividend) : LeavesRange dividend divisors :=
  ⟨[], List.nil_prefix, dividend, rfl, h⟩

/-- A division overflows behind its first divisor only if that one leaves no
    remainder. -/
theorem leavesRange_cons (h : Fits dividend) : LeavesRange dividend (divisor :: divisors) ↔
    divisor.toInt ∣ dividend ∧ LeavesRange (dividend / divisor.toInt) divisors := by
  constructor
  · rintro ⟨_ | ⟨first, seen⟩, hseen, q, hq, hfits⟩
    · -- Nothing has been divided yet, and the dividend itself is in the range.
      cases hq
      exact absurd h hfits
    · rcases List.cons_prefix_cons.mp hseen with ⟨rfl, htail⟩
      rw [quotient?] at hq
      split at hq
      · rename_i hdvd
        exact ⟨hdvd, seen, htail, q, hq, hfits⟩
      · cases hq
  · rintro ⟨hdvd, seen, hseen, q, hq, hfits⟩
    have hquotient : quotient? dividend (divisor :: seen) = some q := by
      rw [quotient?, if_pos hdvd, hq]
    exact ⟨divisor :: seen, List.cons_prefix_cons.mpr ⟨rfl, hseen⟩, q, hquotient, hfits⟩

/-- A division overflows only where it divides the least integer by minus one.
    The induction is on the divisors, and stops at the first quotient that does
    not fit: the one before it did. -/
theorem leavesRange_iff_least (h : Fits dividend) (hzero : ∀ divisor ∈ divisors, divisor ≠ 0) :
    LeavesRange dividend divisors ↔ ∃ before after, divisors = before ++ -1 :: after ∧
      quotient? dividend before = some Int64.minValue.toInt := by
  constructor
  · intro hleaves
    induction divisors generalizing dividend with
    | nil => exact absurd h (leavesRange_nil.mp hleaves)
    | cons divisor rest ih =>
        rcases (leavesRange_cons h).mp hleaves with ⟨hdvd, hrest⟩
        rcases List.forall_mem_cons.mp hzero with ⟨hdivisor, hzero⟩
        by_cases hfits : Fits (dividend / divisor.toInt)
        · rcases ih hfits hzero hrest with ⟨before, after, rfl, hleast⟩
          refine ⟨divisor :: before, after, rfl, ?_⟩
          rw [quotient?, if_pos hdvd, hleast]
        · -- This is the quotient that does not fit, so nothing comes before it.
          have hne : divisor.toInt ≠ 0 := fun heq => hdivisor (Int64.toInt_inj.mp heq)
          rcases not_fits_ediv h hdvd hne hfits with ⟨rfl, hminus⟩
          cases (Int64.toInt_inj.mp hminus : divisor = -1)
          exact ⟨[], rest, rfl, rfl⟩
  · rintro ⟨before, after, rfl, hleast⟩
    have hseen : before ++ [-1] <+: before ++ -1 :: after :=
      ⟨after, (List.append_cons before (-1) after).symm⟩
    have hquotient : quotient? dividend (before ++ [-1]) = some 9223372036854775808 := by
      rw [quotient?_append, hleast]
      decide
    exact ⟨before ++ [-1], hseen, 9223372036854775808, hquotient, by decide⟩

/-! ## Dividing -/

/-- A division of integers gives their quotient if it is exact and fits, and a
    float otherwise. There is no third case: the overflow that other operations
    have does not occur here. -/
theorem divide_integers (a : Int64) {b : Int64} (hb : b ≠ 0) :
    (b.toInt ∣ a.toInt ∧ ∃ c : Int64, c.toInt = a.toInt / b.toInt ∧
      Arithmetic.divide (.int a) (.int b) = .ok (.int c)) ∨
    (b.toInt ∣ a.toInt → ¬Fits (a.toInt / b.toInt)) ∧
      ∃ x, Arithmetic.divide (.int a) (.int b) = .ok (.float x) := by
  have hzero : ((Number.int b).toFloat == 0.0) = false :=
    Bool.eq_false_iff.mpr ((toFloat_beq_zero_iff b).not.mpr hb)
  by_cases hdvd : b.toInt ∣ a.toInt
  · by_cases hfits : Fits (a.toInt / b.toInt)
    · left
      rcases integer?_of_fits hfits with ⟨c, hsome, hc⟩
      refine ⟨hdvd, c, hc, ?_⟩
      simp only [Arithmetic.divide, hzero, Bool.false_eq_true, if_false,
        Arithmetic.exactQuotient?, if_pos hdvd, hsome, Option.map_some, Option.getD_some]
    · -- The quotient is exact and too large, and is taken for none.
      right
      refine ⟨fun _ => hfits, (Number.int a).toFloat / (Number.int b).toFloat, ?_⟩
      simp only [Arithmetic.divide, hzero, Bool.false_eq_true, if_false,
        Arithmetic.exactQuotient?, if_pos hdvd, integer?_of_not_fits hfits, Option.map_none,
        Option.getD_none]
  · right
    refine ⟨fun h => absurd h hdvd, (Number.int a).toFloat / (Number.int b).toFloat, ?_⟩
    simp only [Arithmetic.divide, hzero, Bool.false_eq_true, if_false,
      Arithmetic.exactQuotient?, if_neg hdvd, Option.map_none, Option.getD_none]

/-- A float stays a float, by whichever integers it is divided, as long as none
    of them is zero. -/
theorem total_divide_float (x : Float) (hzero : ∀ divisor ∈ divisors, divisor ≠ 0) :
    ∃ y, Arithmetic.total Arithmetic.divide (.float x) (divisors.map Value.int) =
      .ok (.float y) := by
  induction divisors generalizing x with
  | nil => exact ⟨x, rfl⟩
  | cons divisor rest ih =>
      rcases List.forall_mem_cons.mp hzero with ⟨hdivisor, hrest⟩
      -- No integer but zero is rounded to zero, so the division is carried out.
      have hstep : Arithmetic.divide (.float x) (.int divisor) =
          .ok (.float (x / (Number.int divisor).toFloat)) :=
        if_neg ((toFloat_beq_zero_iff divisor).not.mpr hdivisor)
      rcases ih (x / (Number.int divisor).toFloat) hrest with ⟨y, hy⟩
      refine ⟨y, ?_⟩
      rw [List.map_cons, Value.int, Arithmetic.total_number_cons, hstep]
      exact hy

/-- A division by integers ends as their exact quotient, or as a float. Each
    case says of the exact quotients whether it is the one, so the two are told
    apart without dividing. -/
theorem total_divide (start : Int64) (hzero : ∀ divisor ∈ divisors, divisor ≠ 0) :
    (¬LeavesRange start.toInt divisors ∧
      ∃ c : Int64, quotient? start.toInt divisors = some c.toInt ∧
        Arithmetic.total Arithmetic.divide (.int start) (divisors.map Value.int) = .ok (.int c)) ∨
    (quotient? start.toInt divisors = none ∨ LeavesRange start.toInt divisors) ∧
      ∃ x, Arithmetic.total Arithmetic.divide (.int start) (divisors.map Value.int) =
        .ok (.float x) := by
  -- The first division that gives no integer leaves floats to all behind it.
  induction divisors generalizing start with
  | nil =>
      have hstays := leavesRange_nil.not.mpr (not_not_intro (fits_toInt start))
      exact Or.inl ⟨hstays, start, rfl, rfl⟩
  | cons divisor rest ih =>
      rcases List.forall_mem_cons.mp hzero with ⟨hdivisor, hrest⟩
      rw [List.map_cons, Value.int, Arithmetic.total_number_cons, quotient?,
        leavesRange_cons (fits_toInt start)]
      rcases divide_integers start hdivisor with ⟨hdvd, c, hc, hstep⟩ | ⟨hfits, x, hstep⟩
      · rw [hstep, if_pos hdvd, and_iff_right hdvd, ← hc]
        exact ih c hrest
      · right
        rw [hstep]
        constructor
        · by_cases hdvd : divisor.toInt ∣ start.toInt
          · exact Or.inr ⟨hdvd, leavesRange_of_not_fits (hfits hdvd)⟩
          · exact Or.inl (if_neg hdvd)
        · exact total_divide_float x hrest

end Division

namespace Builtin

open Division

variable {division : Division} {arguments : List Int64}

theorem apply_division (h : ofArguments? arguments = some division) :
    divide.apply (arguments.map Value.int) =
      (Arithmetic.total Arithmetic.divide (.int division.dividend)
        (division.divisors.map Value.int)).map .number := by
  rcases arguments with _ | ⟨first, _ | ⟨second, rest⟩⟩
  · cases h
  · cases h
    rfl
  · cases h
    rfl

/-- A division that overflows ends as a float. This is where the rule fails. -/
theorem divide_of_leavesRange (h : ofArguments? arguments = some division)
    (hzero : ∀ divisor ∈ division.divisors, divisor ≠ 0)
    (hleaves : LeavesRange division.dividend.toInt division.divisors) :
    ∃ x, divide.apply (arguments.map Value.int) = .ok (.float x) := by
  rw [apply_division h]
  rcases total_divide division.dividend hzero with ⟨hnot, _⟩ | ⟨_, x, htotal⟩
  · exact absurd hleaves hnot
  · rw [htotal]
    exact ⟨x, rfl⟩

/-- A division that does not overflow ends as the rule says. -/
theorem rule_of_not_leavesRange (h : ofArguments? arguments = some division)
    (hzero : ∀ divisor ∈ division.divisors, divisor ≠ 0)
    (hleaves : ¬LeavesRange division.dividend.toInt division.divisors) :
    division.Rule (divide.apply (arguments.map Value.int)) := by
  rw [apply_division h]
  rcases total_divide division.dividend hzero with ⟨_, c, hquotient, htotal⟩ |
    ⟨hnone | hleaves', x, htotal⟩
  · -- The quotient is exact, and is what comes out.
    rw [htotal]
    constructor
    case integer =>
      intro q hq _
      rw [hquotient] at hq
      exact ⟨c, Option.some.inj hq, rfl⟩
    case overflow => exact fun h => absurd h hleaves
    case float => nofun
  · -- There is no exact quotient, so nothing is promised but that.
    rw [htotal]
    constructor
    case integer =>
      intro q hq _
      rw [hnone] at hq
      cases hq
    case overflow => exact fun h => absurd h hleaves
    case float => exact fun _ _ => hnone
  · exact absurd hleaves' hleaves

/-- An exact quotient is an integer or an overflow exactly if no exact quotient
    on the way leaves the range, and one does only where the least integer is
    divided by minus one. What comes out then is a float, as it is where some
    division is not exact, and nowhere else. -/
theorem divide_rule_iff (h : ofArguments? arguments = some division)
    (hzero : ∀ divisor ∈ division.divisors, divisor ≠ 0) :
    (division.Rule (divide.apply (arguments.map Value.int)) ↔
      ¬LeavesRange division.dividend.toInt division.divisors) ∧
    (LeavesRange division.dividend.toInt division.divisors ↔
      ∃ before after, division.divisors = before ++ -1 :: after ∧
        quotient? division.dividend.toInt before = some Int64.minValue.toInt) ∧
    ((∃ x, divide.apply (arguments.map Value.int) = .ok (.float x)) ↔
      quotient? division.dividend.toInt division.divisors = none ∨
        LeavesRange division.dividend.toInt division.divisors) := by
  have hbroken : division.Rule (divide.apply (arguments.map Value.int)) →
      ¬LeavesRange division.dividend.toInt division.divisors := by
    intro hrule hleaves
    rcases divide_of_leavesRange h hzero hleaves with ⟨x, hx⟩
    rw [hrule.overflow hleaves] at hx
    cases hx
  have hfloats : (∃ x, divide.apply (arguments.map Value.int) = .ok (.float x)) ↔
      quotient? division.dividend.toInt division.divisors = none ∨
        LeavesRange division.dividend.toInt division.divisors := by
    rw [apply_division h]
    -- A total stays an integer as long as it is exact and fits, and never comes back.
    rcases total_divide division.dividend hzero with ⟨hleaves, c, hquotient, htotal⟩ |
      ⟨hfloat, x, htotal⟩
    · rw [htotal, hquotient]
      apply iff_of_false nofun
      rintro (hnone | hleaves')
      · cases hnone
      · exact hleaves hleaves'
    · rw [htotal]
      exact iff_of_true ⟨x, rfl⟩ hfloat
  exact ⟨⟨hbroken, rule_of_not_leavesRange h hzero⟩,
    leavesRange_iff_least (fits_toInt _) hzero, hfloats⟩

/-- The least integer may be halved before it is divided by minus one. -/
theorem divide_rule_iff_half :
    let arguments := [Int64.minValue, 2, -1]
    ofArguments? arguments = some ⟨Int64.minValue, [2, -1]⟩ ∧
      (∀ divisor ∈ [(2 : Int64), -1], divisor ≠ 0) ∧
      ∃ c : Int64, c.toInt = 4611686018427387904 ∧
        divide.apply (arguments.map Value.int) = .ok (.int c) := by
  intro arguments
  have hdivision : ofArguments? arguments = some ⟨Int64.minValue, [2, -1]⟩ := rfl
  have hzero : ∀ divisor ∈ [(2 : Int64), -1], divisor ≠ 0 :=
    List.forall_mem_cons.mpr ⟨by decide, List.forall_mem_singleton.mpr (by decide)⟩
  have hleaves : ¬LeavesRange Int64.minValue.toInt [2, -1] := by decide +kernel
  have hrule := (divide_rule_iff hdivision hzero).1.mpr hleaves
  exact ⟨hdivision, hzero, hrule.integer _ (by decide) hleaves⟩

/-- By itself it may not: its quotient by minus one is exact and too large, and
    instead of an overflow it is a float. -/
theorem divide_least :
    let arguments := [Int64.minValue, -1]
    let division : Division := ⟨Int64.minValue, [-1]⟩
    ofArguments? arguments = some division ∧ (∀ divisor ∈ division.divisors, divisor ≠ 0) ∧
      quotient? division.dividend.toInt division.divisors = some 9223372036854775808 ∧
      ¬Fits 9223372036854775808 ∧
      (∃ x, divide.apply (arguments.map Value.int) = .ok (.float x)) ∧
      ¬division.Rule (divide.apply (arguments.map Value.int)) := by
  intro arguments division
  have hdivision : ofArguments? arguments = some division := rfl
  have hzero : ∀ divisor ∈ division.divisors, divisor ≠ 0 :=
    List.forall_mem_singleton.mpr (by decide)
  have hleaves : LeavesRange division.dividend.toInt division.divisors := by decide +kernel
  have hquotient : quotient? division.dividend.toInt division.divisors =
    some 9223372036854775808 := by decide
  rcases divide_of_leavesRange hdivision hzero hleaves with ⟨x, hx⟩
  -- By the rule a float comes out only where there is no exact quotient.
  have hbroken : ¬division.Rule (divide.apply (arguments.map Value.int)) := by
    intro hrule
    rw [hrule.float x hx] at hquotient
    cases hquotient
  exact ⟨hdivision, hzero, hquotient, by decide, ⟨x, hx⟩, hbroken⟩

end Builtin

end AttrExpr
