import AttrExpr.Proofs.Builtin.ExactDivision
import AttrExpr.Proofs.Float.Neutral

/-!
# Regrouping Calls

A call on many arguments is a call on the result of its first ones.

The functions that take any number of arguments work from left to right, so
what a call comes to after its first arguments can stand in for them. That is
plain while the call goes on, and it is not when it starts over: a sum starts
at zero and a product at one, and taking in a former result must give that
result back. With integers it does. With floats there is one number that zero
does not give back, the negative zero, and it is never the result of a sum,
because a total that is not the negative zero never becomes it.

Differences and quotients start at their first argument. They mean something
else with one argument only, so there the first call needs two of them, and the
second one something to take in.

## Main definitions

* `Arithmetic.Settled`: Totals that are not the negative zero.
* `Builtin.Regroups`: Which calls can be regrouped.

## Theorems

* `total_regroup`: A total starts over at any result its start gives back.
* `settled_apply`, `settled_total`: One step and a run stay settled.
* `apply_regroup`: A call is a call on the result of its first arguments.
-/

namespace AttrExpr

open Binary64 Float.Model.UnpackedFloat Number

namespace Arithmetic

/-- Totals that zero gives back: all but the negative zero. Adding that to zero
    gives the positive one. -/
def Settled : Number → Prop
  | .int _ => True
  | .float x => unpacked x ≠ .zero .negative

/-! ## Starting over -/

/-- A total can be started over with a result that its start gives back. What
    the step does with anything else is of no interest, so this is about any
    step. -/
theorem total_regroup {step : Number → Number → Except EvalFault Number} {start : Number}
    {as : List Value}
    (h : ∀ result, total step start as = .ok result → step start result = .ok result)
    (bs : List Value) :
    total step start (as ++ bs) =
      (total step start as).bind fun result => total step start (.number result :: bs) := by
  rw [total_append]
  cases hresult : total step start as with
  | error fault => rfl
  | ok result =>
      change total step result bs = total step start (.number result :: bs)
      rw [total_number_cons, h result hresult]
      rfl

/-- What starts at its first argument and has taken in a second one goes on
    with the result. Both counts are needed: with one argument such a function
    means something else. -/
theorem fold_regroup {step : Number → Number → Except EvalFault Number}
    {fold : List Value → Except EvalFault Number}
    (hfold : ∀ first second rest, fold (first :: second :: rest) =
      first.expectNumber.bind fun start => total step start (second :: rest))
    {as bs : List Value} (has : 2 ≤ as.length) (hbs : bs ≠ []) :
    fold (as ++ bs) = (fold as).bind fun result => fold (.number result :: bs) := by
  rcases as with _ | ⟨first, _ | ⟨second, rest⟩⟩
  · exact absurd has (Nat.not_le.mpr Nat.zero_lt_two)
  · exact absurd has (Nat.not_le.mpr Nat.one_lt_two)
  · rcases bs with _ | ⟨b, bs⟩
    · exact absurd rfl hbs
    · -- The first argument is the start of the whole and of the first call alike.
      simp only [List.cons_append, hfold]
      cases first.expectNumber with
      | error fault => rfl
      | ok start =>
          change total step start ((second :: rest) ++ b :: bs) = _
          rw [total_append]
          rfl

/-! ## Neutral starts -/

/-- An integer that is the exact result of a step is its result, since it
    fits. -/
theorem apply_int_eq (operation : Arithmetic) {start n : Int64}
    (h : operation.onIntegers start.toInt n.toInt = n.toInt) :
    operation.apply (.int start) (.int n) = .ok (.int n) := by
  rcases operation.apply_integers start n with ⟨c, happly, hc⟩ | ⟨_, hfits⟩
  · rw [happly, Int64.toInt_inj.mp (hc.trans h)]
  · rw [h] at hfits
    exact absurd (fits_toInt n) hfits

theorem toFloat_zero : (Number.int 0).toFloat = 0.0 := by decide

theorem multiplication_one (result : Number) :
    multiplication.apply (.int 1) result = .ok result := by
  cases result with
  | int n => exact multiplication.apply_int_eq (Int.one_mul n.toInt)
  | float x =>
      have hone : (Number.int 1).toFloat = 1.0 := by decide
      change Except.ok (Number.float ((Number.int 1).toFloat * x)) = _
      rw [hone, one_mul_eq]

/-- Zero gives back every number that is settled. -/
theorem addition_zero {result : Number} (h : Settled result) :
    addition.apply (.int 0) result = .ok result := by
  cases result with
  | int n => exact addition.apply_int_eq (Int.zero_add n.toInt)
  | float x =>
      change Except.ok (Number.float ((Number.int 0).toFloat + x)) = _
      rw [toFloat_zero, zero_add_eq h]

/-- An integer does not become the negative zero, so taking a total to floats
    leaves it settled. -/
theorem Settled.toFloat {total : Number} (h : Settled total) :
    unpacked total.toFloat ≠ .zero .negative := by
  cases total with
  | int n =>
      intro hform
      -- The negative zero equals zero, and the only integer that does is zero.
      have hequal : ((Number.int n).toFloat == 0.0) = true :=
        (beq_iff (hform ▸ Denotes.zero .negative) (unpacked_zero ▸ Denotes.zero .positive)).mpr rfl
      rw [(toFloat_beq_zero_iff n).mp hequal, toFloat_zero, unpacked_zero] at hform
      cases hform
  | float x => exact h

/-- A step leaves a settled total settled, whatever it takes in. A sum of floats
    is the negative zero only if both of its terms are. -/
theorem settled_apply {start number next : Number} (h : Settled start)
    (hstep : addition.apply start number = .ok next) : Settled next := by
  have hfloat : Settled (.float (start.toFloat + number.toFloat)) :=
    fun hsum => h.toFloat (add_eq_negativeZero hsum).1
  cases start with
  | int a =>
      cases number with
      | int b =>
          -- An integer is settled, and an overflow is no total.
          rcases addition.apply_integers a b with ⟨c, happly, _⟩ | ⟨happly, _⟩
          · cases happly.symm.trans hstep
            trivial
          · cases happly.symm.trans hstep
      | float y =>
          cases hstep
          exact hfloat
  | float x =>
      cases hstep
      exact hfloat

/-- A run leaves a settled total settled, by induction on its arguments from the
    step above. -/
theorem settled_total {start result : Number} {arguments : List Value} (h : Settled start)
    (htotal : total addition.apply start arguments = .ok result) : Settled result := by
  induction arguments generalizing start with
  | nil =>
      cases htotal
      exact h
  | cons argument rest ih =>
      cases argument with
      | number number =>
          rw [total_number_cons] at htotal
          cases hstep : addition.apply start number with
          | error fault =>
              rw [hstep] at htotal
              cases htotal
          | ok next =>
              rw [hstep] at htotal
              exact ih (settled_apply h hstep) htotal
      | _ => cases htotal

end Arithmetic

namespace Builtin

open Arithmetic

/-- The calls whose first arguments can be replaced by their result. The
    functions that start at their first argument need a second one in the first
    call, and something left for the other call. -/
def Regroups (operation : Builtin) (as bs : List Value) : Prop :=
  operation ∈ [add, multiply, str, and, or] ∨
    operation ∈ [subtract, divide] ∧ 2 ≤ as.length ∧ bs ≠ []

/-- A sum is settled, so zero gives it back. -/
theorem sum_regroup (as bs : List Value) :
    sum (as ++ bs) = (sum as).bind fun result => sum (.number result :: bs) := by
  have hzero : Settled (.int 0) := trivial
  exact total_regroup (fun _ hresult => addition_zero (settled_total hzero hresult)) bs

theorem product_regroup (as bs : List Value) :
    product (as ++ bs) = (product as).bind fun result => product (.number result :: bs) :=
  total_regroup (fun result _ => multiplication_one result) bs

/-- What holds of totals holds of the calls that give them as values: a number
    is taken in as the number it is. -/
theorem map_regroup {fold : List Value → Except EvalFault Number} {as bs : List Value}
    (h : fold (as ++ bs) = (fold as).bind fun result => fold (.number result :: bs)) :
    (fold (as ++ bs)).map Value.number =
      ((fold as).map Value.number).bind fun result => (fold (result :: bs)).map Value.number := by
  rw [h]
  cases fold as with
  | error fault => rfl
  | ok result => rfl

/-- A call is the call on the result of its first arguments. There is one case
    for each function; those on texts and truth values are about lists only. -/
theorem apply_append {operation : Builtin} {as bs : List Value} (h : operation.Regroups as bs) :
    operation.apply (as ++ bs) =
      (operation.apply as).bind fun result => operation.apply (result :: bs) := by
  rcases h with hvariadic | ⟨hfirst, has, hbs⟩
  · simp only [List.mem_cons, List.not_mem_nil, or_false] at hvariadic
    -- Sums, products, joined texts, conjunctions and disjunctions, in this order.
    rcases hvariadic with rfl | rfl | rfl | rfl | rfl
    · exact map_regroup (sum_regroup as bs)
    · exact map_regroup (product_regroup as bs)
    · change Except.ok (Value.str (String.join ((as ++ bs).map Value.display))) =
        .ok (.str (String.join ((Value.str (String.join (as.map Value.display)) :: bs).map
          Value.display)))
      rw [List.map_append, String.join_append, List.map_cons, String.join_cons]
      rfl
    · change Except.ok (Value.bool ((as ++ bs).all Value.isTruthy)) =
        .ok (.bool ((Value.bool (as.all Value.isTruthy) :: bs).all Value.isTruthy))
      rw [List.all_append, List.all_cons]
      rfl
    · change Except.ok (Value.bool ((as ++ bs).any Value.isTruthy)) =
        .ok (.bool ((Value.bool (as.any Value.isTruthy) :: bs).any Value.isTruthy))
      rw [List.any_append, List.any_cons]
      rfl
  · -- Differences and quotients start from their first argument instead of a neutral one.
    simp only [List.mem_cons, List.not_mem_nil, or_false] at hfirst
    rcases hfirst with rfl | rfl
    · exact map_regroup (fold_regroup (fun _ _ _ => rfl) has hbs)
    · exact map_regroup (fold_regroup (fun _ _ _ => rfl) has hbs)

/-- A call is the call on the result of its first arguments, if they have one,
    and otherwise it fails as they do. So arguments may be taken together from
    the left, as often as one likes, and what stands behind a failure is never
    looked at, not even for its type. -/
theorem apply_regroup {operation : Builtin} {as bs : List Value} (h : operation.Regroups as bs) :
    (∀ result, operation.apply as = .ok result →
      operation.apply (as ++ bs) = operation.apply (result :: bs)) ∧
    (∀ fault, operation.apply as = .error fault →
      operation.apply (as ++ bs) = .error fault) := by
  rw [apply_append h]
  constructor
  · intro result happly
    rw [happly]
    rfl
  · intro fault happly
    rw [happly]
    rfl

/-- A difference that has left the integers, and a quotient that has failed. -/
theorem apply_regroup_mixed :
    subtract.Regroups [.int 5, .float 0.5] [.int 2, .str "a"] ∧
    subtract.apply [.int 5, .float 0.5] = .ok (.float 4.5) ∧
    subtract.apply [.int 5, .float 0.5, .int 2, .str "a"] =
      subtract.apply [.float 4.5, .int 2, .str "a"] ∧
    divide.Regroups [.int 5, .int 0] [.nil] ∧
    divide.apply [.int 5, .int 0] = .error .divisionByZero ∧
    divide.apply [.int 5, .int 0, .nil] = .error .divisionByZero := by
  have hsubtract : subtract.Regroups [.int 5, .float 0.5] [.int 2, .str "a"] :=
    Or.inr ⟨by decide, Nat.le_refl 2, List.cons_ne_nil _ _⟩
  have hdifference : subtract.apply [.int 5, .float 0.5] = .ok (.float 4.5) := by
    have hfloat : (Number.int 5).toFloat - 0.5 = 4.5 := by decide
    rw [← hfloat]
    rfl
  have hdivide : divide.Regroups [.int 5, .int 0] [.nil] :=
    Or.inr ⟨by decide, Nat.le_refl 2, List.cons_ne_nil _ _⟩
  have hquotient : divide.apply [.int 5, .int 0] = .error .divisionByZero := by
    have hstep : Arithmetic.divide (.int 5) (.int 0) = .error .divisionByZero :=
      if_pos ((toFloat_beq_zero_iff 0).mpr rfl)
    change (total Arithmetic.divide (.int 5) [.number (.int 0)]).map Value.number = _
    rw [total_number_cons, hstep]
    rfl
  exact ⟨hsubtract, hdifference, (apply_regroup hsubtract).1 _ hdifference, hdivide, hquotient,
    (apply_regroup hdivide).2 _ hquotient⟩

end Builtin

end AttrExpr
