import AttrExpr.Builtin.Apply
import AttrExpr.Proofs.Float.Nearest

/-!
# Comparing Integers

What the standard comparisons say of integers.

They compare floats, so integers are rounded first, and two that become the
same float are taken for each other. Rounding is monotone, though. It may make
different integers equal, but it never turns them around, so a comparison
fails to be exact only where it is asked of such a pair, and of any two
integers one comes first or both are the same.

Inside lists nothing is rounded. There the same two integers are different, and
that is where the two kinds of equality part.

## Main definitions

* `ToldApart`: Whether two integers are told apart if they differ.
* `Builtin.relation?`: What a comparison asks of two integers.

## Theorems

* `adjacent_iff_isChain`: Asking neighbours is asking for a chain.
* `apply_integers`: A comparison is a chain of the rounded integers.
* `relation_nearest_iff`: Rounding does not matter to what is told apart.
* `apply_comparison`: What is told apart is compared exactly, and nothing
  else is.
-/

namespace AttrExpr

open Binary64 Comparison

/-- Integers that a comparison does not take for each other: they are the same,
    or they differ as floats too. It is the exact condition, as the results
    below show, and it can be decided. -/
def ToldApart (a b : Int) : Prop := a = b ∨ nearest a ≠ nearest b

instance (a b : Int) : Decidable (ToldApart a b) :=
  inferInstanceAs (Decidable (a = b ∨ nearest a ≠ nearest b))

/-- What a comparison asks of two integers next to each other. The other
    functions ask nothing. It lets the five comparisons be talked about at
    once. -/
def Builtin.relation? : Builtin → Option (Int → Int → Prop)
  | equal => some (· = ·)
  | less => some (· < ·)
  | greater => some (· > ·)
  | lessEqual => some (· ≤ ·)
  | greaterEqual => some (· ≥ ·)
  | _ => none

/-! ## Neighbours -/

namespace Comparison

/-- Asking neighbours is asking for a chain, which the library knows about. -/
theorem adjacent_iff_isChain {α : Type} (related : α → α → Bool) (items : List α) :
    adjacent related items = true ↔ items.IsChain fun a b => related a b = true := by
  induction items with
  | nil => exact ⟨fun _ => .nil, fun _ => rfl⟩
  | cons a rest ih =>
      cases rest with
      | nil => exact ⟨fun _ => .singleton a, fun _ => rfl⟩
      | cons b rest =>
          rw [adjacent_cons_cons, Bool.and_eq_true, ih, List.isChain_cons_cons]

theorem expectFloats_integers (values : List Int64) :
    expectFloats (values.map Value.int) = .ok (values.map fun a => Float.ofInt a.toInt) := by
  induction values with
  | nil => rfl
  | cons a values ih =>
      rw [List.map_cons, expectFloats, ih]
      rfl

end Comparison

/-! ## Rounding -/

section

variable (a b : Int64)

/-- A 64-bit integer is well within what a float can hold, so its rounding is
    neither infinite nor anything but the nearest integer that is a float. -/
theorem denotes_integer : Denotes (unpacked (Float.ofInt a.toInt)) (nearest a.toInt) := by
  refine denotes_ofInt ?_
  have hle : a.toInt.natAbs ≤ 2 ^ 63 := by
    have hlower := Int64.le_toInt a
    have hupper := Int64.toInt_lt a
    omega
  calc a.toInt.natAbs.log2 ≤ (2 ^ 63 : Nat).log2 := log2_mono hle
    _ < 1023 := by
      rw [Nat.log2_two_pow]
      decide

theorem float_lt_iff :
    Float.ofInt a.toInt < Float.ofInt b.toInt ↔ nearest a.toInt < nearest b.toInt := by
  rw [lt_iff_lt (denotes_integer a) (denotes_integer b), Int.cast_lt]

theorem float_le_iff :
    Float.ofInt a.toInt ≤ Float.ofInt b.toInt ↔ nearest a.toInt ≤ nearest b.toInt := by
  rw [le_iff_le (denotes_integer a) (denotes_integer b), Int.cast_le]

theorem float_beq_iff :
    (Float.ofInt a.toInt == Float.ofInt b.toInt) = true ↔ nearest a.toInt = nearest b.toInt := by
  rw [beq_iff (denotes_integer a) (denotes_integer b), Int.cast_inj]

end

/-- An ordering of floats that agrees with a relation on rounded integers asks
    whether these are a chain in it. The four orderings differ only in what
    they agree with. -/
theorem Comparison.ordering_integers {related : Float → Float → Bool} {relation : Int → Int → Prop}
    (h : ∀ a b : Int64, related (Float.ofInt a.toInt) (Float.ofInt b.toInt) = true ↔
      relation (nearest a.toInt) (nearest b.toInt)) (values : List Int64) :
    ∃ result, (ordering related (values.map Value.int)).map Value.bool = .ok (.bool result) ∧
      (result = true ↔ values.IsChain fun a b =>
        relation (nearest a.toInt) (nearest b.toInt)) := by
  have hresult : (ordering related (values.map Value.int)).map Value.bool =
      .ok (.bool (adjacent related (values.map fun a => Float.ofInt a.toInt))) := by
    rw [ordering, expectFloats_integers]
    rfl
  refine ⟨_, hresult, ?_⟩
  rw [adjacent_iff_isChain, List.isChain_map]
  simp only [h]

namespace Builtin

variable {operation : Builtin} {relation : Int → Int → Prop}

/-- The comparisons compare integers as they are rounded to floats. Equality
    does not go through the floats of all arguments first, so it is a case of
    its own. -/
theorem apply_integers (h : operation.relation? = some relation) (values : List Int64) :
    ∃ result, operation.apply (values.map Value.int) = .ok (.bool result) ∧
      (result = true ↔ values.IsChain fun a b =>
        relation (nearest a.toInt) (nearest b.toInt)) := by
  cases operation with
  | equal =>
      -- Loose equality of two integers is equality of their floats.
      cases h
      refine ⟨_, rfl, ?_⟩
      rw [adjacent_iff_isChain, List.isChain_map]
      simp only [← float_beq_iff]
      rfl
  | less =>
      cases h
      exact ordering_integers (fun a b => by rw [decide_eq_true_iff, float_lt_iff]) values
  | greater =>
      cases h
      exact ordering_integers (fun a b => by rw [decide_eq_true_iff, float_lt_iff]) values
  | lessEqual =>
      cases h
      exact ordering_integers (fun a b => by rw [decide_eq_true_iff, float_le_iff]) values
  | greaterEqual =>
      cases h
      exact ordering_integers (fun a b => by rw [decide_eq_true_iff, float_le_iff]) values
  | _ => cases h

/-- Rounding does not turn integers around, so it does not matter unless it
    makes them equal. Both equality and the strict order are kept, and the
    other relations are made of these. -/
theorem relation_nearest_iff (h : operation.relation? = some relation) {a b : Int}
    (hapart : ToldApart a b) : relation (nearest a) (nearest b) ↔ relation a b := by
  have horder : (nearest a = nearest b ↔ a = b) ∧ (nearest a < nearest b ↔ a < b) := by
    rcases hapart with rfl | hne
    · omega
    · -- Told apart after rounding, they are in the order they were in.
      rcases Int.lt_trichotomy a b with hlt | rfl | hgt
      · have hmono := nearest_mono hlt.le
        omega
      · exact absurd rfl hne
      · have hmono := nearest_mono hgt.le
        omega
  cases operation with
  | equal =>
      cases h
      exact horder.1
  | less =>
      cases h
      exact horder.2
  | greater =>
      cases h
      change nearest b < nearest a ↔ b < a
      omega
  | lessEqual =>
      cases h
      change nearest a ≤ nearest b ↔ a ≤ b
      omega
  | greaterEqual =>
      cases h
      change nearest b ≤ nearest a ↔ b ≤ a
      omega
  | _ => cases h

/-- A chain of what is told apart is the chain of the rounded integers. -/
theorem isChain_nearest_iff (h : operation.relation? = some relation) {values : List Int64}
    (hapart : values.IsChain fun a b => ToldApart a.toInt b.toInt) :
    (values.IsChain fun a b => relation (nearest a.toInt) (nearest b.toInt)) ↔
      values.IsChain fun a b => relation a.toInt b.toInt := by
  induction hapart with
  | nil => exact ⟨fun _ => .nil, fun _ => .nil⟩
  | singleton a => exact ⟨fun _ => .singleton a, fun _ => .singleton a⟩
  | cons_cons hpair _ ih =>
      rw [List.isChain_cons_cons, List.isChain_cons_cons, relation_nearest_iff h hpair, ih]

theorem apply_pair (h : operation.relation? = some relation) (a b : Int64) :
    operation.apply [.int a, .int b] = .ok (.bool true) ↔
      relation (nearest a.toInt) (nearest b.toInt) := by
  rcases apply_integers h [a, b] with ⟨result, happly, hresult⟩
  rw [List.isChain_pair] at hresult
  rw [← hresult, show operation.apply [.int a, .int b] = .ok (.bool result) from happly,
    Except.ok.injEq, Value.bool.injEq]

/-- In lists integers are equal only if they are the same: items are compared as
    values, which rounds nothing. -/
theorem apply_equal_lists (a b : Int64) :
    equal.apply [.list [.int a], .list [.int b]] = .ok (.bool (decide (a = b))) := by
  have hsame : looselyEqual (.list [.int a]) (.list [.int b]) = decide (a = b) := by
    change ((a == b) && true) = _
    rw [Bool.and_true]
    rfl
  simp only [apply, adjacent, hsame, Bool.and_true]

/-- Told apart means that equality is exact. -/
theorem toldApart_iff {a b : Int} : ToldApart a b ↔ (nearest a = nearest b ↔ a = b) := by
  constructor
  · rintro (rfl | hne)
    · exact ⟨fun _ => rfl, fun _ => rfl⟩
    · exact ⟨fun h => absurd h hne, fun h => by rw [h]⟩
  · intro h
    by_cases hnearest : nearest a = nearest b
    · exact Or.inl (h.mp hnearest)
    · exact Or.inr hnearest

/-- Integers are told apart exactly if they are as equal in lists as they are by
    themselves. -/
theorem toldApart_iff_lists (a b : Int64) : ToldApart a.toInt b.toInt ↔
    equal.apply [.int a, .int b] = equal.apply [.list [.int a], .list [.int b]] := by
  have hrelation : equal.relation? = some (· = ·) := rfl
  rcases apply_integers hrelation [a, b] with ⟨result, happly, hresult⟩
  rw [List.isChain_pair] at hresult
  rw [show equal.apply [.int a, .int b] = .ok (.bool result) from happly, apply_equal_lists,
    Except.ok.injEq, Value.bool.injEq, Bool.eq_iff_iff, hresult, decide_eq_true_iff,
    ← Int64.toInt_inj, toldApart_iff]

/-- Integers are told apart exactly if all comparisons of them are exact. For
    the converse equality is enough, since it is exact only then. -/
theorem toldApart_iff_exact (a b : Int64) : ToldApart a.toInt b.toInt ↔
    ∀ operation relation, relation? operation = some relation →
      (operation.apply [.int a, .int b] = .ok (.bool true) ↔ relation a.toInt b.toInt) := by
  constructor
  · intro hapart operation relation h
    rw [apply_pair h, relation_nearest_iff h hapart]
  · intro h
    have hrelation : equal.relation? = some (· = ·) := rfl
    rw [toldApart_iff, ← h equal _ hrelation, apply_pair hrelation]

/-- One of two integers comes first, or they are taken for the same, and never
    both. It holds of all integers, since it holds of what they are rounded
    to. -/
theorem existsUnique_apply (a b : Int64) : ∃! operation, operation ∈ [less, equal, greater] ∧
    operation.apply [.int a, .int b] = .ok (.bool true) := by
  have hless := apply_pair (show less.relation? = some (· < ·) from rfl) a b
  have hequal := apply_pair (show equal.relation? = some (· = ·) from rfl) a b
  have hgreater := apply_pair (show greater.relation? = some (· > ·) from rfl) a b
  -- Each of the three is true if what the integers are rounded to is so related.
  have hunique : ∀ operation, operation ∈ [less, equal, greater] ∧
      operation.apply [.int a, .int b] = .ok (.bool true) ↔
        operation = less ∧ nearest a.toInt < nearest b.toInt ∨
          operation = equal ∧ nearest a.toInt = nearest b.toInt ∨
            operation = greater ∧ nearest b.toInt < nearest a.toInt := by
    intro operation
    simp only [List.mem_cons, List.not_mem_nil, or_false]
    constructor
    · rintro ⟨rfl | rfl | rfl, happly⟩
      · exact Or.inl ⟨rfl, hless.mp happly⟩
      · exact Or.inr (Or.inl ⟨rfl, hequal.mp happly⟩)
      · exact Or.inr (Or.inr ⟨rfl, hgreater.mp happly⟩)
    · rintro (⟨rfl, h⟩ | ⟨rfl, h⟩ | ⟨rfl, h⟩)
      · exact ⟨Or.inl rfl, hless.mpr h⟩
      · exact ⟨Or.inr (Or.inl rfl), hequal.mpr h⟩
      · exact ⟨Or.inr (Or.inr rfl), hgreater.mpr h⟩
  simp only [hunique]
  rcases Int.lt_trichotomy (nearest a.toInt) (nearest b.toInt) with hlt | heq | hgt
  · refine ⟨less, Or.inl ⟨rfl, hlt⟩, ?_⟩
    rintro operation (⟨h, _⟩ | ⟨_, h⟩ | ⟨_, h⟩)
    · exact h
    · omega
    · omega
  · refine ⟨equal, Or.inr (Or.inl ⟨rfl, heq⟩), ?_⟩
    rintro operation (⟨_, h⟩ | ⟨h, _⟩ | ⟨_, h⟩)
    · omega
    · exact h
    · omega
  · refine ⟨greater, Or.inr (Or.inr ⟨rfl, hgt⟩), ?_⟩
    rintro operation (⟨_, h⟩ | ⟨_, h⟩ | ⟨h, _⟩)
    · omega
    · omega
    · exact h

/-- A comparison of integers holds exactly if all neighbours are related, as
    long as all neighbours are told apart. Of two integers that are not, some
    comparison is not exact, and their equality is not that of lists. One
    always comes first or they are equal. Up to `2 ^ 53` all are told apart. -/
theorem apply_comparison (values : List Int64) (a b : Int64) :
    ((values.IsChain fun a b => ToldApart a.toInt b.toInt) →
      ∀ operation relation, relation? operation = some relation →
        ∃ result, operation.apply (values.map Value.int) = .ok (.bool result) ∧
          (result = true ↔ values.IsChain fun a b => relation a.toInt b.toInt)) ∧
    (ToldApart a.toInt b.toInt ↔ ∀ operation relation, relation? operation = some relation →
      (operation.apply [.int a, .int b] = .ok (.bool true) ↔ relation a.toInt b.toInt)) ∧
    (ToldApart a.toInt b.toInt ↔
      equal.apply [.int a, .int b] = equal.apply [.list [.int a], .list [.int b]]) ∧
    (∃! operation, operation ∈ [less, equal, greater] ∧
      operation.apply [.int a, .int b] = .ok (.bool true)) ∧
    (a.toInt.natAbs ≤ 2 ^ 53 → b.toInt.natAbs ≤ 2 ^ 53 → ToldApart a.toInt b.toInt) := by
  refine ⟨?_, toldApart_iff_exact a b, toldApart_iff_lists a b, existsUnique_apply a b, ?_⟩
  · intro hapart operation relation h
    rcases apply_integers h values with ⟨result, happly, hresult⟩
    exact ⟨result, happly, hresult.trans (isChain_nearest_iff h hapart)⟩
  · -- Up to that size nothing is rounded.
    intro ha hb
    rw [toldApart_iff, nearest_of_le ha, nearest_of_le hb]

/-- Up to `2 ^ 53` all integers are told apart, and beyond that every other
    one. -/
theorem apply_comparison_even : less.relation? = some (· < ·) ∧
    (List.IsChain (fun a b => ToldApart a.toInt b.toInt)
      [(-1 : Int64), 9007199254740992, 9007199254740994]) ∧
    (∃ result, less.apply [.int (-1), .int 9007199254740992, .int 9007199254740994] =
        .ok (.bool result) ∧
      (result = true ↔ List.IsChain (fun a b => a.toInt < b.toInt)
        [(-1 : Int64), 9007199254740992, 9007199254740994])) ∧
    ToldApart (-1 : Int64).toInt (9007199254740992 : Int64).toInt := by
  have hapart : List.IsChain (fun a b => ToldApart a.toInt b.toInt)
      [(-1 : Int64), 9007199254740992, 9007199254740994] := by decide
  have h := apply_comparison [-1, 9007199254740992, 9007199254740994] (-1) 9007199254740992
  exact ⟨rfl, hapart, h.1 hapart less _ rfl, h.2.2.2.2 (by decide) (by decide)⟩

/-- The integer after `2 ^ 53` is taken for it, but not in a list. -/
theorem equal_of_odd : (9007199254740993 : Int64) ≠ 9007199254740992 ∧
    equal.apply [.int 9007199254740993, .int 9007199254740992] = .ok (.bool true) ∧
    equal.apply [.list [.int 9007199254740993], .list [.int 9007199254740992]] =
      .ok (.bool false) := by
  refine ⟨by decide, ?_, ?_⟩
  · rw [apply_pair (show equal.relation? = some (· = ·) from rfl)]
    decide
  · rw [apply_equal_lists]
    rfl

end Builtin

end AttrExpr
