import AttrExpr.Builtin.Apply
import Mathlib

/-!
# Running Totals

What a sum, a difference or a product of any arguments comes to.

The arguments are taken in from left to right, and three things may end the
integers: a result that does not fit, a float, and something that is no number
at all. Whichever comes first decides. An overflow depends on the integers in
front of everything else, since a total in floats never leaves the floats, so
the argument that is no number is the error of every call that has not
overflowed before it, with or without a float in between.

The intermediate results have to fit, and not only the last one. That is why
an overflow is stated of the arguments a call begins with, whichever follow.

## Main definitions

* `Number.Fits`: Integers that a 64-bit integer can hold.
* `Overflows`: Whether the integers that arguments begin with lead out of that
  range.
* `Ending`: How a call on numbers ends.
* `Reckoning`, `Builtin.reckoning?`: What a function computes exactly.
* `Reckoning.Governs`: That the exact results decide how a call ends.

## Theorems

* `overflows_before_float`: From a float on nothing overflows.
* `Arithmetic.total_ending`: The end of a running total.
* `Arithmetic.total_integers`: A running total of integers is exact.
* `Builtin.apply_reckoned`: The sum, the difference and the product.
-/

namespace AttrExpr

/-! ## Integers that fit -/

namespace Number

/-- Integers that a 64-bit integer can hold. Results are computed as integers
    without a bound first, and then it is asked whether they fit. -/
def Fits (n : Int) : Prop := Int64.minValue.toInt ≤ n ∧ n ≤ Int64.maxValue.toInt

instance (n : Int) : Decidable (Fits n) :=
  inferInstanceAs (Decidable (Int64.minValue.toInt ≤ n ∧ n ≤ Int64.maxValue.toInt))

theorem fits_toInt (i : Int64) : Fits i.toInt := ⟨i.minValue_le_toInt, i.toInt_le⟩

theorem integer?_of_fits {n : Int} (h : Fits n) : ∃ i, integer? n = some i ∧ i.toInt = n := by
  have hsome : integer? n = some (Int64.ofInt n) := if_pos h
  exact ⟨_, hsome, toInt_of_integer? hsome⟩

theorem integer?_of_not_fits {n : Int} (h : ¬Fits n) : integer? n = none := if_neg h

end Number

open Number

theorem Value.float_ne_int (x : Float) (n : Int64) : Value.float x ≠ .int n := by
  intro h
  cases h

/-! ## Overflow -/

section

variable {exact : List Int64 → Int} {rest : List Value}

/-- Whether some integers that the arguments begin with have an exact result
    that does not fit. No integers are a beginning too, so the result of none
    has to fit. -/
def Overflows (exact : List Int64 → Int) (arguments : List Value) : Prop :=
  ∃ seen : List Int64, seen.map Value.int <+: arguments ∧ ¬Fits (exact seen)

theorem overflows_nil : Overflows exact [] ↔ ¬Fits (exact []) := by
  constructor
  · rintro ⟨seen, hseen, hfits⟩
    rw [List.map_eq_nil_iff.mp (List.prefix_nil.mp hseen)] at hfits
    exact hfits
  · exact fun hfits => ⟨[], List.prefix_rfl, hfits⟩

/-- An integer at the front is taken in: a beginning is empty, or it is the
    integer and a beginning of the rest. -/
theorem overflows_int_cons {n : Int64} : Overflows exact (.int n :: rest) ↔
    ¬Fits (exact []) ∨ Overflows (fun seen => exact (n :: seen)) rest := by
  constructor
  · rintro ⟨_ | ⟨m, seen⟩, hseen, hfits⟩
    · exact Or.inl hfits
    · rw [List.map_cons, List.cons_prefix_cons] at hseen
      rcases hseen with ⟨hm, hseen⟩
      cases hm
      exact Or.inr ⟨seen, hseen, hfits⟩
  · rintro (hfits | ⟨seen, hseen, hfits⟩)
    · exact ⟨[], List.nil_prefix, hfits⟩
    · exact ⟨n :: seen, List.cons_prefix_cons.mpr ⟨rfl, hseen⟩, hfits⟩

/-- Arguments that begin with no integer have only the result of none to
    overflow. -/
theorem overflows_other_cons {value : Value} (h : ∀ n, value ≠ .int n) :
    Overflows exact (value :: rest) ↔ ¬Fits (exact []) := by
  constructor
  · rintro ⟨_ | ⟨n, seen⟩, hseen, hfits⟩
    · exact hfits
    · rw [List.map_cons, List.cons_prefix_cons] at hseen
      exact absurd hseen.1.symm (h n)
  · exact fun hfits => ⟨[], List.nil_prefix, hfits⟩

/-- From a float on nothing overflows: whether a call does is settled before
    it. The induction is on what comes before, with the exact results
    generalised, since each integer changes them. -/
theorem overflows_before_float {before after : List Value} {x : Float} :
    Overflows exact (before ++ .float x :: after) ↔ Overflows exact before := by
  induction before generalizing exact with
  | nil => rw [List.nil_append, overflows_other_cons (Value.float_ne_int x), overflows_nil]
  | cons value before ih =>
      rw [List.cons_append]
      by_cases hvalue : ∃ n, value = .int n
      · rcases hvalue with ⟨n, rfl⟩
        rw [overflows_int_cons, overflows_int_cons, ih]
      · have hother := not_exists.mp hvalue
        rw [overflows_other_cons hother, overflows_other_cons hother]

end

/-! ## The end of a call -/

/-- How a call ends that comes to `exact` of integers and calls an overflow
    `name`. The four cases exclude each other, which is what makes the end of a
    call decide its arguments and the other way around. -/
inductive Ending (name : String) (exact : List Int64 → Int) (arguments : List Value) :
    Except EvalFault Number → Prop where
  | overflow (h : Overflows exact arguments) :
      Ending name exact arguments (.error (.integerOverflow name))
  | mismatch {value : Value} (h : ¬Overflows exact arguments)
      (hfirst : arguments.find? (·.number?.isNone) = some value) :
      Ending name exact arguments (.error (.typeMismatch "number" value.typeName))
  | integer {total : Int64} (ns : List Int64) (h : ¬Overflows exact arguments)
      (harguments : arguments = ns.map Value.int) (htotal : total.toInt = exact ns) :
      Ending name exact arguments (.ok (.int total))
  | float {total x : Float} (h : ¬Overflows exact arguments)
      (hnumbers : ∀ value ∈ arguments, value.number?.isSome) (hfloat : .float x ∈ arguments) :
      Ending name exact arguments (.ok (.float total))

namespace Ending

variable {name : String} {exact : List Int64 → Int} {result : Except EvalFault Number}
variable {rest : List Value}

/-- A call that has taken in an integer ends as the rest of it does. This is the
    step of the run: the exact results move on by the integer. -/
theorem int_cons {n : Int64} (h : Fits (exact []))
    (hrest : Ending name (fun seen => exact (n :: seen)) rest result) :
    Ending name exact (.int n :: rest) result := by
  -- The start fits, so an overflow is one behind the integer.
  have hoverflows : Overflows exact (.int n :: rest) ↔
      Overflows (fun seen => exact (n :: seen)) rest := by
    rw [overflows_int_cons, or_iff_right (not_not_intro h)]
  cases hrest with
  | overflow hrest => exact overflow (hoverflows.mpr hrest)
  | mismatch hrest hfirst => exact mismatch (hoverflows.not.mpr hrest) hfirst
  | integer ns hrest harguments htotal =>
      have harguments' : .int n :: rest = (n :: ns).map Value.int := by
        rw [harguments, List.map_cons]
      exact integer (n :: ns) (hoverflows.not.mpr hrest) harguments' htotal
  | @float _ x hrest hnumbers hfloat =>
      have hnumbers' : ∀ value ∈ .int n :: rest, value.number?.isSome :=
        List.forall_mem_cons.mpr ⟨rfl, hnumbers⟩
      exact float (hoverflows.not.mpr hrest) hnumbers' (List.mem_cons_of_mem _ hfloat)

/-- What is no number is the error as soon as it is met. -/
theorem nonnumber_cons {value : Value} (h : Fits (exact [])) (hvalue : value.number? = none) :
    Ending name exact (value :: rest) (.error (.typeMismatch "number" value.typeName)) := by
  have hother : ∀ n, value ≠ .int n := by
    rintro n rfl
    cases hvalue
  have hfits : ¬Overflows exact (value :: rest) := by
    rw [overflows_other_cons hother]
    exact not_not_intro h
  have hfirst : (value :: rest).find? (·.number?.isNone) = some value :=
    List.find?_cons_of_pos (Option.isNone_iff_eq_none.mpr hvalue)
  exact mismatch hfits hfirst

end Ending

namespace Arithmetic

/-! ## Steps -/

section

variable (step : Number → Number → Except EvalFault Number) (start : Number) (rest : List Value)

/-- A number is taken in, and the total goes on from the result. -/
theorem total_number_cons (number : Number) : total step start (.number number :: rest) =
    (step start number).bind fun next => total step next rest := by
  rw [total, Value.expectNumber, Value.number?]
  cases h : step start number with
  | error fault =>
      simp only [h]
      rfl
  | ok next =>
      simp only [h]
      rfl

theorem expectNumber_of_nonnumber {value : Value} (h : value.number? = none) :
    value.expectNumber = .error (.typeMismatch "number" value.typeName) := by
  rw [Value.expectNumber, h]

theorem total_nonnumber_cons {value : Value} (h : value.number? = none) :
    total step start (value :: rest) = .error (.typeMismatch "number" value.typeName) := by
  rw [total, expectNumber_of_nonnumber h]

end

variable (operation : Arithmetic)

/-- The exact result of taking integers into an integer, one after the other and
    without a bound. -/
def exact (start : Int) (ns : List Int64) : Int :=
  ns.foldl (fun total n => operation.onIntegers total n.toInt) start

/-- A step of integers is exact or an overflow, and it is an overflow only if
    the exact result does not fit. -/
theorem apply_integers (a b : Int64) :
    (∃ c : Int64, operation.apply (.int a) (.int b) = .ok (.int c) ∧
      c.toInt = operation.onIntegers a.toInt b.toInt) ∨
    operation.apply (.int a) (.int b) = .error (.integerOverflow operation.name) ∧
      ¬Fits (operation.onIntegers a.toInt b.toInt) := by
  by_cases h : Fits (operation.onIntegers a.toInt b.toInt)
  · rcases integer?_of_fits h with ⟨c, hsome, hc⟩
    exact Or.inl ⟨c, by simp only [apply, hsome], hc⟩
  · exact Or.inr ⟨by simp only [apply, integer?_of_not_fits h], h⟩

/-- A step from a float stays with floats, whatever number is taken in. -/
theorem apply_float (x : Float) (number : Number) :
    operation.apply (.float x) number = .ok (.float (operation.onFloats x number.toFloat)) := rfl

/-! ## Runs -/

/-- A total in floats can only meet what is no number. It stays with floats, and
    these do not overflow. -/
theorem total_float (x : Float) (arguments : List Value) :
    (∀ value ∈ arguments, value.number?.isSome) ∧
        (∃ y, total operation.apply (.float x) arguments = .ok (.float y)) ∨
      ∃ value, arguments.find? (·.number?.isNone) = some value ∧
        total operation.apply (.float x) arguments =
          .error (.typeMismatch "number" value.typeName) := by
  induction arguments generalizing x with
  | nil => exact Or.inl ⟨fun value hvalue => absurd hvalue List.not_mem_nil, x, rfl⟩
  | cons value rest ih =>
      cases hvalue : value.number? with
      | none =>
          have hfirst : (value :: rest).find? (·.number?.isNone) = some value :=
            List.find?_cons_of_pos (Option.isNone_iff_eq_none.mpr hvalue)
          exact Or.inr ⟨value, hfirst, total_nonnumber_cons _ _ _ hvalue⟩
      | some number =>
          cases value with
          | number head =>
              -- Whatever number comes next, the total goes on as a float.
              have hstep : total operation.apply (.float x) (.number head :: rest) =
                  total operation.apply (.float (operation.onFloats x head.toFloat)) rest := by
                rw [total_number_cons, apply_float]
                rfl
              rw [hstep]
              rcases ih (operation.onFloats x head.toFloat) with ⟨hnumbers, hy⟩ | hfirst
              · exact Or.inl ⟨List.forall_mem_cons.mpr ⟨rfl, hnumbers⟩, hy⟩
              · exact Or.inr hfirst
          | _ => cases hvalue

/-- Where the total becomes a float, it ends as one or at what is no number. The
    integers before are gone by then, and their results have fit. -/
theorem float_ending {name : String} {exact : List Int64 → Int} (h : Fits (exact []))
    (x y : Float) (rest : List Value) :
    Ending name exact (.float x :: rest) (total operation.apply (.float y) rest) := by
  have hoverflows : ¬Overflows exact (.float x :: rest) := by
    rw [overflows_other_cons (Value.float_ne_int x)]
    exact not_not_intro h
  rcases operation.total_float y rest with ⟨hnumbers, z, htotal⟩ | ⟨value, hfirst, htotal⟩
  · rw [htotal]
    exact .float hoverflows (List.forall_mem_cons.mpr ⟨rfl, hnumbers⟩) List.mem_cons_self
  · rw [htotal]
    exact .mismatch hoverflows hfirst

/-- A running total ends as its exact results say. The induction is on the
    arguments for any start, since each integer gives the rest a new one. -/
theorem total_ending (start : Int64) (arguments : List Value) :
    Ending operation.name (operation.exact start.toInt) arguments
      (total operation.apply (.int start) arguments) := by
  -- Taking in an integer moves the start, and the exact results move with it.
  induction arguments generalizing start with
  | nil =>
      exact .integer [] (overflows_nil.not.mpr (not_not_intro (fits_toInt start))) rfl rfl
  | cons value rest ih =>
      have hstart : Fits (operation.exact start.toInt []) := fits_toInt start
      cases value with
      | number number =>
          rw [total_number_cons]
          cases number with
          | int n =>
              rcases operation.apply_integers start n with ⟨c, happly, hc⟩ | ⟨happly, hfits⟩
              · have hrest := ih c
                rw [hc] at hrest
                rw [happly]
                exact Ending.int_cons hstart hrest
              · -- The integer itself is the beginning that overflows.
                rw [happly]
                exact .overflow ⟨[n], List.cons_prefix_cons.mpr ⟨rfl, List.nil_prefix⟩, hfits⟩
          | float x => exact operation.float_ending hstart x _ rest
      | _ =>
          rw [total_nonnumber_cons _ _ _ rfl]
          exact .nonnumber_cons hstart rfl

/-- As long as only integers have been taken in and all results fit, the total
    is exact. It is stated with the rest still to be taken in, so that a call
    can be followed up to any of its arguments. -/
theorem total_integers (start : Int64) (seen : List Int64) (rest : List Value)
    (hfits : ∀ ns, ns <+: seen → Fits (operation.exact start.toInt ns)) :
    ∃ c : Int64, c.toInt = operation.exact start.toInt seen ∧
      total operation.apply (.int start) (seen.map Value.int ++ rest) =
        total operation.apply (.int c) rest := by
  induction seen generalizing start with
  | nil => exact ⟨start, rfl, rfl⟩
  | cons n seen ih =>
      have hfits' : ∀ ns, ns <+: seen → Fits (operation.exact start.toInt (n :: ns)) :=
        fun ns hns => hfits (n :: ns) (List.cons_prefix_cons.mpr ⟨rfl, hns⟩)
      rcases operation.apply_integers start n with ⟨c, happly, hc⟩ | ⟨_, hoverflow⟩
      · have hexact : ∀ ns, operation.exact start.toInt (n :: ns) = operation.exact c.toInt ns :=
          by
            intro ns
            rw [hc]
            rfl
        simp only [hexact] at hfits' ⊢
        rcases ih c hfits' with ⟨d, hd, htotal⟩
        refine ⟨d, hd, ?_⟩
        rw [← htotal, List.map_cons, List.cons_append, Value.int, total_number_cons, happly]
        rfl
      · -- The first result fits, so the first step does not overflow.
        exact absurd (hfits' [] List.nil_prefix) hoverflow

/-! ## Exact results -/

theorem exact_addition (start : Int) (ns : List Int64) :
    addition.exact start ns = start + (ns.map Int64.toInt).sum := by
  induction ns generalizing start with
  | nil => exact (Int.add_zero start).symm
  | cons n ns ih =>
      rw [List.map_cons, List.sum_cons, ← Int.add_assoc]
      exact ih (start + n.toInt)

theorem exact_multiplication (start : Int) (ns : List Int64) :
    multiplication.exact start ns = start * (ns.map Int64.toInt).prod := by
  induction ns generalizing start with
  | nil => exact (Int.mul_one start).symm
  | cons n ns ih =>
      rw [List.map_cons, List.prod_cons, ← Int.mul_assoc]
      exact ih (start * n.toInt)

theorem exact_subtraction (start : Int) (ns : List Int64) :
    subtraction.exact start ns = start - (ns.map Int64.toInt).sum := by
  induction ns generalizing start with
  | nil => exact (Int.sub_zero start).symm
  | cons n ns ih =>
      rw [List.map_cons, List.sum_cons, ← Int.sub_sub]
      exact ih (start - n.toInt)

end Arithmetic

/-! ## The functions -/

/-- What a function computes of integers, how it takes in one more argument,
    and what an overflow of it is called. -/
structure Reckoning where
  name : String
  step : Number → Number → Except EvalFault Number
  exact : List Int64 → Int

/-- The first integer less the others. Of none there is no difference, and zero
    only stands for a result that fits. -/
def Reckoning.difference : List Int64 → Int
  | [] => 0
  | first :: rest => first.toInt - (rest.map Int64.toInt).sum

/-- What a function computes of a number of arguments, if it is a sum, a
    difference or a product. A single argument is subtracted from zero, and no
    argument is nothing to subtract from. -/
def Builtin.reckoning? : Builtin → Nat → Option Reckoning
  | add, _ => some ⟨"addition", Arithmetic.addition.apply, fun ns => (ns.map Int64.toInt).sum⟩
  | multiply, _ =>
      some ⟨"multiplication", Arithmetic.multiplication.apply, fun ns => (ns.map Int64.toInt).prod⟩
  | subtract, 0 => none
  | subtract, 1 =>
      some ⟨"negation", Arithmetic.negation.apply, fun ns => 0 - (ns.map Int64.toInt).sum⟩
  | subtract, _ + 2 => some ⟨"subtraction", Arithmetic.subtraction.apply, Reckoning.difference⟩
  | _, _ => none

namespace Reckoning

/-- That the exact results decide how a call ends. -/
structure Governs (reckoning : Reckoning) (arguments : List Value)
    (result : Except EvalFault Value) : Prop where
  /-- The call overflows exactly if integers that it begins with do. -/
  overflow_iff : ∀ name, result = .error (.integerOverflow name) ↔
    name = reckoning.name ∧ Overflows reckoning.exact arguments
  /-- Otherwise the first argument that is no number is the error. -/
  mismatch_iff : ∀ expected found, result = .error (.typeMismatch expected found) ↔
    ¬Overflows reckoning.exact arguments ∧ expected = "number" ∧
      ∃ value, arguments.find? (·.number?.isNone) = some value ∧ value.typeName = found
  /-- Otherwise the call returns an integer if it was given nothing else. -/
  integer_iff : (∃ total, result = .ok (.int total)) ↔
    ¬Overflows reckoning.exact arguments ∧ ∃ ns : List Int64, arguments = ns.map Value.int
  /-- That integer is exact. -/
  integer_exact : ∀ (total : Int64) (ns : List Int64), result = .ok (.int total) →
    arguments = ns.map Value.int → total.toInt = reckoning.exact ns
  /-- Otherwise the call returns a float if it was given one. -/
  float_iff : (∃ total, result = .ok (.float total)) ↔
    ¬Overflows reckoning.exact arguments ∧ (∀ value ∈ arguments, value.number?.isSome) ∧
      ∃ x, .float x ∈ arguments
  /-- The total is exact as long as only integers have been taken in. -/
  running : ∀ (seen : List Int64) (rest : List Value), seen ≠ [] →
    arguments = seen.map Value.int ++ rest → (∀ ns, ns <+: seen → Fits (reckoning.exact ns)) →
      ∃ c : Int64, c.toInt = reckoning.exact seen ∧
        result = (Arithmetic.total reckoning.step (.int c) rest).map .number
  /-- No argument after a float makes the call overflow. -/
  after_float : ∀ (before after : List Value) (x : Float), arguments = before ++ .float x :: after →
    ((∃ name, result = .error (.integerOverflow name)) ↔ Overflows reckoning.exact before)

end Reckoning

/-! ## Which end it is -/

section

variable {arguments : List Value} {ns : List Int64}

theorem not_numbers_of_find? {value : Value}
    (hfirst : arguments.find? (·.number?.isNone) = some value) :
    ¬∀ value ∈ arguments, value.number?.isSome := by
  intro hnumbers
  have hsome := hnumbers value (List.mem_of_find?_eq_some hfirst)
  have hnone := List.find?_some hfirst
  rw [Option.isNone_iff_eq_none] at hnone
  rw [hnone] at hsome
  cases hsome

theorem numbers_of_integers (harguments : arguments = ns.map Value.int) :
    ∀ value ∈ arguments, value.number?.isSome := by
  intro value hvalue
  rw [harguments] at hvalue
  rcases List.mem_map.mp hvalue with ⟨n, _, rfl⟩
  rfl

theorem float_not_mem_of_integers (harguments : arguments = ns.map Value.int) (x : Float) :
    .float x ∉ arguments := by
  intro hfloat
  rw [harguments] at hfloat
  rcases List.mem_map.mp hfloat with ⟨n, _, hn⟩
  exact Value.float_ne_int x n hn.symm

end

namespace Ending

variable {name : String} {exact : List Int64 → Int} {arguments : List Value}
variable {result : Except EvalFault Number}

theorem overflow_iff (h : Ending name exact arguments result) (called : String) :
    result.map Value.number = .error (.integerOverflow called) ↔
      called = name ∧ Overflows exact arguments := by
  cases h with
  | overflow hover =>
      constructor
      · intro hresult
        cases hresult
        exact ⟨rfl, hover⟩
      · rintro ⟨rfl, _⟩
        rfl
  | mismatch hover => exact iff_of_false nofun fun hcalled => hover hcalled.2
  | integer _ hover => exact iff_of_false nofun fun hcalled => hover hcalled.2
  | float hover => exact iff_of_false nofun fun hcalled => hover hcalled.2

/-- A call refuses an argument exactly if it does not overflow and there is one
    to refuse, and it refuses the first. -/
theorem mismatch_iff (h : Ending name exact arguments result) (expected found : String) :
    result.map Value.number = .error (.typeMismatch expected found) ↔
      ¬Overflows exact arguments ∧ expected = "number" ∧
        ∃ value, arguments.find? (·.number?.isNone) = some value ∧ value.typeName = found := by
  cases h with
  | overflow hover => exact iff_of_false nofun fun hfound => hfound.1 hover
  | mismatch hover hfirst =>
      constructor
      · intro hresult
        cases hresult
        exact ⟨hover, rfl, _, hfirst, rfl⟩
      · rintro ⟨_, rfl, value, hvalue, rfl⟩
        rw [hfirst] at hvalue
        cases hvalue
        rfl
  -- In the other two cases all arguments are numbers, so there is none to refuse.
  | integer ns _ harguments =>
      apply iff_of_false nofun
      rintro ⟨_, _, value, hvalue, _⟩
      exact not_numbers_of_find? hvalue (numbers_of_integers harguments)
  | float _ hnumbers =>
      apply iff_of_false nofun
      rintro ⟨_, _, value, hvalue, _⟩
      exact not_numbers_of_find? hvalue hnumbers

/-- A call gives an integer exactly if it does not overflow and takes integers
    only. -/
theorem integer_iff (h : Ending name exact arguments result) :
    (∃ total, result.map Value.number = .ok (.int total)) ↔
      ¬Overflows exact arguments ∧ ∃ ns : List Int64, arguments = ns.map Value.int := by
  cases h with
  | overflow hover => exact iff_of_false nofun fun hintegers => hintegers.1 hover
  | mismatch _ hfirst =>
      refine iff_of_false nofun ?_
      rintro ⟨_, ns, harguments⟩
      exact not_numbers_of_find? hfirst (numbers_of_integers harguments)
  | integer ns hover harguments => exact iff_of_true ⟨_, rfl⟩ ⟨hover, ns, harguments⟩
  | float _ _ hfloat =>
      refine iff_of_false nofun ?_
      rintro ⟨_, ns, harguments⟩
      exact float_not_mem_of_integers harguments _ hfloat

theorem integer_exact (h : Ending name exact arguments result) {total : Int64}
    {ns : List Int64} (hresult : result.map Value.number = .ok (.int total))
    (harguments : arguments = ns.map Value.int) : total.toInt = exact ns := by
  cases h with
  | integer ms _ hms htotal =>
      cases hresult
      -- Arguments are those of one list of integers only, so it is the one reckoned with.
      have hmap : ms.map Value.int = ns.map Value.int := by rw [← hms, harguments]
      have hinjective : Function.Injective Value.int := by
        intro a b hab
        cases hab
        rfl
      rw [htotal, List.map_injective_iff.mpr hinjective hmap]
  | _ => cases hresult

/-- A call gives a float exactly if it does not overflow, takes numbers only and
    one of them is a float. -/
theorem float_iff (h : Ending name exact arguments result) :
    (∃ total, result.map Value.number = .ok (.float total)) ↔
      ¬Overflows exact arguments ∧ (∀ value ∈ arguments, value.number?.isSome) ∧
        ∃ x, .float x ∈ arguments := by
  cases h with
  | overflow hover => exact iff_of_false nofun fun hfloats => hfloats.1 hover
  | mismatch _ hfirst =>
      exact iff_of_false nofun fun hfloats => not_numbers_of_find? hfirst hfloats.2.1
  | integer ns _ harguments =>
      refine iff_of_false nofun ?_
      rintro ⟨_, _, x, hfloat⟩
      exact float_not_mem_of_integers harguments x hfloat
  | float hover hnumbers hfloat => exact iff_of_true ⟨_, rfl⟩ ⟨hover, hnumbers, _, hfloat⟩

end Ending

namespace Builtin

variable {operation : Builtin} {arguments : List Value} {reckoning : Reckoning}

/-- A function that computes exactly is a running total, either of all arguments
    or from the first of them on. The facts about the functions come from this
    one and from those about totals, with no function looked at again. -/
theorem total_of_reckoning? (h : operation.reckoning? arguments.length = some reckoning) :
    ∃ steps : Arithmetic, reckoning.name = steps.name ∧ reckoning.step = steps.apply ∧
      ((∃ start : Int64, reckoning.exact = steps.exact start.toInt ∧
          operation.apply arguments =
            (Arithmetic.total steps.apply (.int start) arguments).map .number) ∨
        ∃ first rest, arguments = first :: rest ∧ Fits (reckoning.exact []) ∧
          (∀ n : Int64, (fun seen => reckoning.exact (n :: seen)) = steps.exact n.toInt) ∧
          operation.apply arguments = (first.expectNumber.bind fun start =>
            Arithmetic.total steps.apply start rest).map .number) := by
  -- All but the difference of several start from an integer of their own.
  cases operation with
  | add =>
      cases h
      refine ⟨.addition, rfl, rfl, Or.inl ⟨0, ?_, rfl⟩⟩
      funext ns
      exact ((Arithmetic.exact_addition 0 ns).trans (Int.zero_add _)).symm
  | multiply =>
      cases h
      refine ⟨.multiplication, rfl, rfl, Or.inl ⟨1, ?_, rfl⟩⟩
      funext ns
      exact ((Arithmetic.exact_multiplication 1 ns).trans (Int.one_mul _)).symm
  | subtract =>
      rcases arguments with _ | ⟨first, _ | ⟨second, rest⟩⟩
      · cases h
      · cases h
        refine ⟨.negation, rfl, rfl, Or.inl ⟨0, ?_, rfl⟩⟩
        funext ns
        exact (Arithmetic.exact_subtraction 0 ns).symm
      · cases h
        refine ⟨.subtraction, rfl, rfl, Or.inr ⟨first, second :: rest, rfl, by decide, ?_, rfl⟩⟩
        intro n
        funext ns
        exact (Arithmetic.exact_subtraction n.toInt ns).symm
  | _ => cases h

/-- A function that computes exactly ends as its exact results say. -/
theorem ending_of_reckoning? (h : operation.reckoning? arguments.length = some reckoning) :
    ∃ result, operation.apply arguments = result.map .number ∧
      Ending reckoning.name reckoning.exact arguments result := by
  rcases total_of_reckoning? h with ⟨steps, hname, -, ⟨start, hexact, happly⟩ |
    ⟨first, rest, rfl, hnone, hexact, happly⟩⟩
  · refine ⟨_, happly, ?_⟩
    rw [hname, hexact]
    exact steps.total_ending start arguments
  · refine ⟨_, happly, ?_⟩
    rw [hname]
    -- The first argument is the start, and the total runs through the others.
    cases first with
    | number number =>
        cases number with
        | int n =>
            refine Ending.int_cons hnone ?_
            rw [hexact n]
            exact steps.total_ending n rest
        | float x => exact steps.float_ending hnone x x rest
    | _ => exact .nonnumber_cons hnone rfl

/-- A function that computes exactly is exact as long as only integers have been
    taken in and all results fit. -/
theorem running_of_reckoning? (h : operation.reckoning? arguments.length = some reckoning)
    {seen : List Int64} {rest : List Value} (hseen : seen ≠ [])
    (harguments : arguments = seen.map Value.int ++ rest)
    (hfits : ∀ ns, ns <+: seen → Fits (reckoning.exact ns)) :
    ∃ c : Int64, c.toInt = reckoning.exact seen ∧
      operation.apply arguments =
        (Arithmetic.total reckoning.step (.int c) rest).map .number := by
  rcases total_of_reckoning? h with ⟨steps, -, hstep, ⟨start, hexact, happly⟩ |
    ⟨first, tail, htail, -, hexact, happly⟩⟩
  · rw [hexact] at hfits
    rcases steps.total_integers start seen rest hfits with ⟨c, hc, htotal⟩
    refine ⟨c, ?_, ?_⟩
    · rw [hc, hexact]
    · rw [happly, harguments, htotal, hstep]
  · rcases seen with _ | ⟨n, seen⟩
    · exact absurd rfl hseen
    · -- The first integer is the start, and the others are taken in.
      rw [htail, List.map_cons, List.cons_append, List.cons.injEq] at harguments
      rcases harguments with ⟨rfl, rfl⟩
      have hfits' : ∀ ns, ns <+: seen → Fits (steps.exact n.toInt ns) := by
        intro ns hns
        rw [← hexact n]
        exact hfits (n :: ns) (List.cons_prefix_cons.mpr ⟨rfl, hns⟩)
      rcases steps.total_integers n seen rest hfits' with ⟨c, hc, htotal⟩
      rw [← hexact n] at hc
      refine ⟨c, hc, ?_⟩
      rw [happly, hstep, ← htotal]
      rfl

/-- How a sum, a product or a difference ends is decided by the exact results
    of the integers that its arguments begin with. As long as those fit, the
    running total is exact; the first that does not is an overflow, even if a
    later argument would have brought the total back, and a float in front of
    it turns everything after into floats. A difference of no arguments is left
    out, since there is nothing to begin with. -/
theorem apply_reckoned (h : operation.reckoning? arguments.length = some reckoning) :
    reckoning.Governs arguments (operation.apply arguments) := by
  rcases ending_of_reckoning? h with ⟨result, happly, hending⟩
  -- Each field but the first two is a question that the ending of the call answers.
  constructor
  case running =>
    intro seen rest hseen harguments hfits
    exact running_of_reckoning? h hseen harguments hfits
  case after_float =>
    intro before after x harguments
    have hover : Overflows reckoning.exact arguments ↔ Overflows reckoning.exact before := by
      rw [harguments, overflows_before_float]
    simp only [happly, hending.overflow_iff, exists_eq_left, hover]
  all_goals rw [happly]
  case overflow_iff => exact hending.overflow_iff
  case mismatch_iff => exact hending.mismatch_iff
  case integer_iff => exact hending.integer_iff
  case integer_exact => exact fun _ _ hresult => hending.integer_exact hresult
  case float_iff => exact hending.float_iff

/-- There is no integer below the least one, and that comes before the text. -/
theorem apply_reckoned_least :
    subtract.reckoning? [Value.int Int64.minValue, .int 1, .str "one"].length =
        some ⟨"subtraction", Arithmetic.subtraction.apply, Reckoning.difference⟩ ∧
      subtract.apply [.int Int64.minValue, .int 1, .str "one"] =
        .error (.integerOverflow "subtraction") := by
  refine ⟨rfl, ?_⟩
  have hreckoning : subtract.reckoning? [Value.int Int64.minValue, .int 1, .str "one"].length =
    some _ := rfl
  refine ((apply_reckoned hreckoning).overflow_iff "subtraction").mpr ⟨rfl, ?_⟩
  exact ⟨[Int64.minValue, 1], ⟨[.str "one"], rfl⟩, by decide⟩

end Builtin

end AttrExpr
