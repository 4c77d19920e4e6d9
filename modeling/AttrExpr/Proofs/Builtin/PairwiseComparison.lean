import AttrExpr.Proofs.Builtin.IntegerComparison
import AttrExpr.Proofs.Value.Equality

/-!
# Comparing Every Two Arguments

What the standard comparisons say of arguments that are not neighbours.

Only neighbours are compared, yet a chain reads as a statement about all of its
members: `(< a b c)` is meant to say that `a` is below `c` too. That rests on
the relations being transitive, and they are, although they are odd in other
ways. `NaN` is not equal to itself, numbers are taken for floats on the outside
of a value and kept apart inside it, and a list may hold anything. A comparison
of one `NaN` alone still holds, since there are no two arguments to compare.

The orderings refuse what is no number before they compare anything, and name
the leftmost one. Read from right to left that is the rightmost, so an ordering
and its converse on the reversed arguments can differ in what they refuse,
although never in what they answer.

## Main definitions

* `Builtin.ordering?`, `Builtin.converse`: What an ordering asks of two floats,
  and the ordering that asks it from right to left.
* `Builtin.stray?`: The leftmost argument that is no number.
* `Comparison.InOrder`: That two values are numbers and related as floats.

## Theorems

* `looselyEqual_symm`, `looselyEqual_trans`: The laws of loose equality.
* `expectFloats_cases`: Arguments are all numbers, or the leftmost stray is
  refused.
* `apply_pairwise`: A comparison compares every two arguments.
-/

namespace AttrExpr

open Binary64

namespace Comparison

/-- That two values are numbers, and related as floats. It is a relation of
    values, so that it can be asked of arguments before it is known that they
    are numbers. -/
def InOrder (relation : Float → Float → Prop) (a b : Value) : Prop :=
  ∃ x y, a = .number x ∧ b = .number y ∧ relation x.toFloat y.toFloat

end Comparison

namespace Builtin

/-- What an ordering asks of two floats. Equality is not among the orderings: it
    takes any values and refuses none. -/
def ordering? : Builtin → Option (Float → Float → Prop)
  | less => some (· < ·)
  | greater => some (· > ·)
  | lessEqual => some (· ≤ ·)
  | greaterEqual => some (· ≥ ·)
  | _ => none

/-- The ordering that asks the same from right to left. -/
def converse : Builtin → Builtin
  | less => greater
  | greater => less
  | lessEqual => greaterEqual
  | greaterEqual => lessEqual
  | other => other

/-- The leftmost argument that is no number, which is the one an ordering
    names when it refuses its arguments. -/
def stray? (arguments : List Value) : Option Value :=
  arguments.find? fun value => value.number?.isNone

end Builtin

namespace Comparison

open Builtin

theorem inOrder_number {relation : Float → Float → Prop} {x y : Number} :
    InOrder relation (.number x) (.number y) ↔ relation x.toFloat y.toFloat := by
  constructor
  · rintro ⟨_, _, hx, hy, h⟩
    cases hx
    cases hy
    exact h
  · exact fun h => ⟨x, y, rfl, rfl, h⟩

theorem inOrder_flip {relation : Float → Float → Prop} {a b : Value} :
    InOrder (fun x y => relation y x) b a ↔ InOrder relation a b := by
  constructor
  · rintro ⟨x, y, hb, ha, h⟩
    exact ⟨y, x, ha, hb, h⟩
  · rintro ⟨x, y, ha, hb, h⟩
    exact ⟨y, x, hb, ha, h⟩

/-! ## Loose equality -/

section

variable {a b c : Value}

/-- Numbers are equal as floats, and all else as values. A number never equals
    what is none. So the laws of loose equality come from those of the two
    equalities it is made of. -/
theorem looselyEqual_iff : looselyEqual a b = true ↔
    InOrder (fun x y => (x == y) = true) a b ∨
      a.number? = none ∧ b.number? = none ∧ a.same b = true := by
  cases a with
  | number x =>
      cases b with
      | number y =>
          constructor
          · exact fun h => Or.inl (inOrder_number.mpr h)
          · rintro (h | ⟨ha, _⟩)
            · exact inOrder_number.mp h
            · cases ha
      | _ =>
          -- Neither side holds of a number and something else.
          constructor
          · nofun
          · rintro (⟨_, _, _, hb, _⟩ | ⟨ha, _⟩)
            · cases hb
            · cases ha
  | _ =>
      constructor
      · -- Values of different kinds are not the same, so the other is no number either.
        intro h
        refine Or.inr ⟨rfl, ?_, h⟩
        cases b with
        | number y => cases h
        | _ => rfl
      · rintro (⟨_, _, ha, _⟩ | ⟨_, _, h⟩)
        · cases ha
        · exact h

theorem looselyEqual_symm (h : looselyEqual a b = true) : looselyEqual b a = true := by
  rw [looselyEqual_iff] at h ⊢
  rcases h with ⟨x, y, ha, hb, h⟩ | ⟨ha, hb, h⟩
  · exact Or.inl ⟨y, x, hb, ha, beq_symmetric h⟩
  · exact Or.inr ⟨hb, ha, Value.same_symm a b h⟩

/-- Loose equality is transitive. The value in the middle is a number or it is
    none, so both equalities are of the same sort. -/
theorem looselyEqual_trans (hab : looselyEqual a b = true) (hbc : looselyEqual b c = true) :
    looselyEqual a c = true := by
  rw [looselyEqual_iff] at hab hbc ⊢
  rcases hab with ⟨x, y, ha, hb, hab⟩ | ⟨ha, hb, hab⟩
  · rcases hbc with ⟨y', z, hb', hc, hbc⟩ | ⟨hb', _, _⟩
    · cases hb.symm.trans hb'
      exact Or.inl ⟨x, z, ha, hc, beq_transitive hab hbc⟩
    · rw [hb] at hb'
      cases hb'
  · rcases hbc with ⟨y', z, hb', hc, hbc⟩ | ⟨_, hc, hbc⟩
    · rw [hb'] at hb
      cases hb
    · exact Or.inr ⟨ha, hc, Value.same_trans a b c hab hbc⟩

end

/-! ## Chains -/

/-- Asking neighbours is asking every two, where the relation is transitive. It
    need not be reflexive, and for floats it is not. -/
theorem adjacent_iff_pairwise {α : Type} (related : α → α → Bool)
    (htrans : ∀ {a b c}, related a b = true → related b c = true → related a c = true)
    (items : List α) :
    adjacent related items = true ↔ items.Pairwise fun a b => related a b = true := by
  have : Trans (fun a b => related a b = true) (fun a b => related a b = true)
      (fun a b => related a b = true) := ⟨htrans⟩
  rw [adjacent_iff_isChain, List.isChain_iff_pairwise]

theorem adjacent_looselyEqual_iff (arguments : List Value) :
    adjacent looselyEqual arguments = true ↔
      arguments.Pairwise fun a b => looselyEqual a b = true :=
  adjacent_iff_pairwise looselyEqual looselyEqual_trans arguments

/-- Which of two arguments is the earlier one does not matter to equality. -/
theorem pairwise_looselyEqual_iff (arguments : List Value) :
    (arguments.Pairwise fun a b => looselyEqual a b = true) ↔
      ∀ i j (hi : i < arguments.length) (hj : j < arguments.length), i ≠ j →
        looselyEqual arguments[i] arguments[j] = true := by
  rw [List.pairwise_iff_getElem]
  constructor
  · intro h i j hi hj hne
    rcases Nat.lt_or_gt_of_ne hne with hlt | hgt
    · exact h i j hi hj hlt
    · exact looselyEqual_symm (h j i hj hi hgt)
  · intro h i j hi hj hlt
    exact h i j hi hj (Nat.ne_of_lt hlt)

/-! ## Orderings -/

/-- Arguments are all numbers, or the leftmost that is none is refused. What
    stands behind it does not matter, although the arguments are gone through
    from the right by the recursion. -/
theorem expectFloats_cases (arguments : List Value) :
    (∃ stray, stray? arguments = some stray ∧
      expectFloats arguments = .error (.typeMismatch "number" stray.typeName)) ∨
    (stray? arguments = none ∧ ∃ numbers : List Number, arguments = numbers.map Value.number ∧
      expectFloats arguments = .ok (numbers.map Number.toFloat)) := by
  induction arguments with
  | nil => exact Or.inr ⟨rfl, [], rfl, rfl⟩
  | cons a rest ih =>
      cases a with
      | number x =>
          rcases ih with ⟨stray, hstray, h⟩ | ⟨hstray, numbers, rfl, h⟩
          · left
            rw [expectFloats, h]
            exact ⟨stray, hstray, rfl⟩
          · right
            rw [expectFloats, h]
            exact ⟨hstray, x :: numbers, rfl, rfl⟩
      -- The first argument is the stray itself.
      | _ => exact Or.inl ⟨_, rfl, rfl⟩

end Comparison

namespace Builtin

open Comparison

variable {operation : Builtin} {relation : Float → Float → Prop}

theorem ordering?_trans (h : operation.ordering? = some relation) {x y z : Float}
    (hxy : relation x y) (hyz : relation y z) : relation x z := by
  cases operation with
  | less =>
      cases h
      exact lt_transitive hxy hyz
  | greater =>
      cases h
      exact lt_transitive hyz hxy
  | lessEqual =>
      cases h
      exact le_transitive hxy hyz
  | greaterEqual =>
      cases h
      exact le_transitive hyz hxy
  | _ => cases h

theorem ordering?_converse (h : operation.ordering? = some relation) :
    operation.converse.ordering? = some fun x y => relation y x := by
  cases operation with
  | less =>
      cases h
      rfl
  | greater =>
      cases h
      rfl
  | lessEqual =>
      cases h
      rfl
  | greaterEqual =>
      cases h
      rfl
  | _ => cases h

/-- Every ordering is the one function `ordering`, with a test that decides what
    it asks. -/
theorem exists_related (h : operation.ordering? = some relation) :
    ∃ related : Float → Float → Bool, (∀ x y, related x y = true ↔ relation x y) ∧
      ∀ arguments, operation.apply arguments = (ordering related arguments).map .bool := by
  cases operation with
  | less =>
      cases h
      exact ⟨_, fun _ _ => decide_eq_true_iff, fun _ => rfl⟩
  | greater =>
      cases h
      exact ⟨_, fun _ _ => decide_eq_true_iff, fun _ => rfl⟩
  | lessEqual =>
      cases h
      exact ⟨_, fun _ _ => decide_eq_true_iff, fun _ => rfl⟩
  | greaterEqual =>
      cases h
      exact ⟨_, fun _ _ => decide_eq_true_iff, fun _ => rfl⟩
  | _ => cases h

/-- An ordering refuses the leftmost stray, and of numbers it asks whether
    every two are in order. -/
theorem ordering_cases (h : operation.ordering? = some relation) (arguments : List Value) :
    (∃ stray, stray? arguments = some stray ∧
      operation.apply arguments = .error (.typeMismatch "number" stray.typeName)) ∨
    (stray? arguments = none ∧ ∃ result, operation.apply arguments = .ok (.bool result) ∧
      (result = true ↔ arguments.Pairwise (InOrder relation))) := by
  rcases exists_related h with ⟨related, hrelated, happly⟩
  rw [happly, ordering]
  rcases expectFloats_cases arguments with ⟨stray, hstray, hfloats⟩ |
    ⟨hstray, numbers, rfl, hfloats⟩
  · rw [hfloats]
    exact Or.inl ⟨stray, hstray, rfl⟩
  · -- Neighbours are enough, because what is asked of them is transitive.
    have htrans : ∀ {x y z}, related x y = true → related y z = true → related x z = true := by
      simp only [hrelated]
      exact ordering?_trans h
    rw [hfloats]
    refine Or.inr ⟨hstray, adjacent related (numbers.map Number.toFloat), rfl, ?_⟩
    rw [adjacent_iff_pairwise related htrans, List.pairwise_map, List.pairwise_map]
    simp only [hrelated, inOrder_number]

theorem stray?_reverse_eq_none_iff (arguments : List Value) :
    stray? arguments.reverse = none ↔ stray? arguments = none := by
  simp only [stray?, List.find?_eq_none, List.mem_reverse]

/-- From right to left the converse answers the same, but it refuses the
    rightmost stray and not the leftmost. What the two come to is compared in
    each case, and strays of one type are refused with one message. -/
theorem apply_converse_iff (h : operation.ordering? = some relation) (arguments : List Value) :
    operation.apply arguments = operation.converse.apply arguments.reverse ↔
      (stray? arguments).map Value.typeName = (stray? arguments.reverse).map Value.typeName := by
  -- In one order there is a stray if there is one in the other, but maybe not the same.
  have hnone := stray?_reverse_eq_none_iff arguments
  rcases ordering_cases h arguments with ⟨stray, hstray, happly⟩ |
    ⟨hstray, result, happly, hresult⟩
  · rcases ordering_cases (ordering?_converse h) arguments.reverse with
      ⟨other, hother, hconverse⟩ | ⟨hother, _⟩
    · rw [happly, hconverse, hstray, hother]
      simp only [Except.error.injEq, EvalFault.typeMismatch.injEq, true_and, Option.map_some,
        Option.some.injEq]
    · rw [hnone.mp hother] at hstray
      cases hstray
  · rcases ordering_cases (ordering?_converse h) arguments.reverse with
      ⟨other, hother, _⟩ | ⟨hother, reversed, hconverse, hreversed⟩
    · rw [hnone.mpr hstray] at hother
      cases hother
    · rw [List.pairwise_reverse] at hreversed
      simp only [inOrder_flip, ← hresult] at hreversed
      rw [happly, hconverse, hstray, hother, Bool.eq_iff_iff.mpr hreversed]
      exact iff_of_true rfl rfl

/-! ## Every two arguments -/

/-- Equality does not depend on the order of the arguments. -/
theorem apply_equal_perm {arguments other : List Value} (h : arguments.Perm other) :
    equal.apply other = equal.apply arguments := by
  have hresult : adjacent looselyEqual other = adjacent looselyEqual arguments := by
    rw [Bool.eq_iff_iff, adjacent_looselyEqual_iff, adjacent_looselyEqual_iff]
    exact (h.pairwise_iff looselyEqual_symm).symm
  rw [apply, apply, hresult]

/-- A comparison compares every two arguments. Equality never fails and does
    not depend on their order. An ordering refuses the leftmost argument that
    is no number, whatever the others are, and so it is the same as its converse
    from right to left exactly if the two name the same type or refuse
    nothing. -/
theorem apply_pairwise (arguments : List Value) :
    (∃ result, equal.apply arguments = .ok (.bool result) ∧
      (result = true ↔ ∀ i j (hi : i < arguments.length) (hj : j < arguments.length), i ≠ j →
        looselyEqual arguments[i] arguments[j] = true)) ∧
    (∀ other, arguments.Perm other → equal.apply other = equal.apply arguments) ∧
    ∀ operation relation, ordering? operation = some relation →
      (∀ stray, stray? arguments = some stray →
        operation.apply arguments = .error (.typeMismatch "number" stray.typeName)) ∧
      (stray? arguments = none → ∃ result, operation.apply arguments = .ok (.bool result) ∧
        (result = true ↔ arguments.Pairwise (InOrder relation))) ∧
      (operation.apply arguments = operation.converse.apply arguments.reverse ↔
        (stray? arguments).map Value.typeName =
          (stray? arguments.reverse).map Value.typeName) := by
  have hequal : adjacent looselyEqual arguments = true ↔
      ∀ i j (hi : i < arguments.length) (hj : j < arguments.length), i ≠ j →
        looselyEqual arguments[i] arguments[j] = true := by
    rw [adjacent_looselyEqual_iff, pairwise_looselyEqual_iff]
  refine ⟨⟨_, rfl, hequal⟩, fun other => apply_equal_perm, ?_⟩
  intro operation relation h
  have hconverse := apply_converse_iff h arguments
  -- There is a stray or there is none, and what is said of the other case is void.
  rcases ordering_cases h arguments with ⟨stray, hstray, happly⟩ | ⟨hstray, hresult⟩
  · have hrefused : ∀ other, stray? arguments = some other →
        operation.apply arguments = .error (.typeMismatch "number" other.typeName) := by
      intro other hother
      cases hstray.symm.trans hother
      exact happly
    have hsome : stray? arguments ≠ none := by
      rw [hstray]
      exact Option.some_ne_none stray
    exact ⟨hrefused, fun hnone => absurd hnone hsome, hconverse⟩
  · have hnone : ∀ other, stray? arguments ≠ some other := by
      rw [hstray]
      exact fun other => (Option.some_ne_none other).symm
    exact ⟨fun other hother => absurd hother (hnone other), fun _ => hresult, hconverse⟩

/-- The list is refused, since the text comes after it. -/
theorem apply_pairwise_mixed :
    [Value.int 1, .list [.int 2], .str "a"].Perm [.list [.int 2], .int 1, .str "a"] ∧
    equal.apply [.list [.int 2], .int 1, .str "a"] =
      equal.apply [.int 1, .list [.int 2], .str "a"] ∧
    less.ordering? = some (· < ·) ∧
    stray? [.int 1, .list [.int 2], .str "a"] = some (.list [.int 2]) ∧
    less.apply [.int 1, .list [.int 2], .str "a"] =
      .error (.typeMismatch "number" "list") ∧
    stray? [.int 3, .int 1, .int 2] = none ∧
    (∃ result, less.apply [.int 3, .int 1, .int 2] = .ok (.bool result) ∧
      (result = true ↔ [Value.int 3, .int 1, .int 2].Pairwise (InOrder (· < ·)))) := by
  have hperm : [Value.int 1, .list [.int 2], .str "a"].Perm
      [.list [.int 2], .int 1, .str "a"] := List.Perm.swap _ _ _
  have hmixed := apply_pairwise [.int 1, .list [.int 2], .str "a"]
  have hnumbers := apply_pairwise [.int 3, .int 1, .int 2]
  exact ⟨hperm, hmixed.2.1 _ hperm, rfl, rfl, (hmixed.2.2 less _ rfl).1 _ rfl, rfl,
    (hnumbers.2.2 less _ rfl).2.1 rfl⟩

/-- From right to left another argument is the leftmost stray. -/
theorem converse_of_strays :
    greater.apply [.list [], .str "a"] = .error (.typeMismatch "number" "list") ∧
    less.apply [Value.list [], .str "a"].reverse = .error (.typeMismatch "number" "str") ∧
    less.apply [Value.list [], .str "a"].reverse ≠ greater.apply [.list [], .str "a"] := by
  have hdiffer : less.apply [Value.list [], .str "a"].reverse ≠
      greater.apply [.list [], .str "a"] := by
    intro h
    injection h with hfault
    injection hfault with _ hname
    exact absurd hname (by decide)
  exact ⟨rfl, rfl, hdiffer⟩

end Builtin

end AttrExpr
