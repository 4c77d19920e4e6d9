import AttrExpr.Value.Basic

/-!
# Bindings

Names bound to values.

A table of bindings is a list of pairs in which no name occurs twice. Binding
a name again replaces its value in place, so the pairs stay in the order the
names were first bound, although nothing outside asks for that order: a table
is known by what it answers for each name.

## Main definitions

* `Bindings`: Names bound to values, each name once.
* `Bindings.get?`: What a name is bound to.
* `Bindings.insert`: The table with a name bound.
* `Bindings.extend`: The table with all bindings of another put over it.

## Theorems

* `get?_insert`: Binding a name changes the answer for that name only.
* `get?_insertAll`: Of several bindings of a name the last one stays.
-/

namespace AttrExpr

namespace Bindings

/-- The pairs with a name bound: its value replaced where it stands, or a new
    pair at the end. -/
def insertPair (name : String) (value : Value) : List (String × Value) → List (String × Value)
  | [] => [(name, value)]
  | pair :: rest =>
      if pair.1 = name then (name, value) :: rest else pair :: insertPair name value rest

theorem map_fst_insertPair (name : String) (value : Value) (pairs : List (String × Value)) :
    (insertPair name value pairs).map Prod.fst =
      if name ∈ pairs.map Prod.fst then pairs.map Prod.fst
      else pairs.map Prod.fst ++ [name] := by
  induction pairs with
  | nil => simp only [insertPair, List.map_cons, List.map_nil, List.not_mem_nil, if_false,
      List.nil_append]
  | cons pair rest ih =>
      simp only [insertPair]
      split
      · rename_i h
        simp only [List.map_cons, h, List.mem_cons, true_or, if_true]
      · -- The pair in front stays, so the name is among the others or it is new.
        rename_i h
        have hne : name ≠ pair.1 := fun e => h e.symm
        simp only [List.map_cons, ih, List.mem_cons, hne, false_or, List.cons_append]
        split
        · rfl
        · rfl

theorem nodup_insertPair (name : String) (value : Value) (pairs : List (String × Value))
    (h : (pairs.map Prod.fst).Nodup) : ((insertPair name value pairs).map Prod.fst).Nodup := by
  rw [map_fst_insertPair]
  split
  · exact h
  · rename_i hmem
    -- The new name is at the end, and it was not bound before.
    have hnew : [name].Nodup := List.pairwise_singleton _ name
    have hdisjoint : ∀ a ∈ pairs.map Prod.fst, ∀ b ∈ [name], a ≠ b := by
      intro a ha b hb hab
      rw [List.mem_singleton] at hb
      rw [hab, hb] at ha
      exact hmem ha
    exact List.nodup_append.mpr ⟨h, hnew, hdisjoint⟩

end Bindings

/-- Names bound to values, each name once. The order of the pairs is that in which
    the names were first bound. -/
structure Bindings where
  pairs : List (String × Value)
  nodup : (pairs.map Prod.fst).Nodup

namespace Bindings

/-- The table without a binding. -/
def empty : Bindings := ⟨[], List.nodup_nil⟩

instance : Inhabited Bindings := ⟨empty⟩

/-- What the name is bound to. -/
def get? (bindings : Bindings) (name : String) : Option Value :=
  bindings.pairs.lookup name

/-- Whether the name is bound. -/
def contains (bindings : Bindings) (name : String) : Bool :=
  (bindings.get? name).isSome

/-- How many names are bound. -/
def size (bindings : Bindings) : Nat := bindings.pairs.length

/-- The bound names, each once and in the order they were first bound. -/
def names (bindings : Bindings) : List String := bindings.pairs.map Prod.fst

/-- The table with the name bound to the value, whatever it was bound to
    before. -/
def insert (bindings : Bindings) (name : String) (value : Value) : Bindings :=
  ⟨insertPair name value bindings.pairs, nodup_insertPair name value _ bindings.nodup⟩

/-- The table with pairs bound one after the other; the last value of a name
    stays. -/
def insertAll (bindings : Bindings) (pairs : List (String × Value)) : Bindings :=
  pairs.foldl (fun table pair => table.insert pair.1 pair.2) bindings

/-- The table with every binding of another; where both bind a name the other
    one wins. -/
def extend (bindings other : Bindings) : Bindings := bindings.insertAll other.pairs

/-- The table of the pairs, bound one after the other. The pairs may bind a name
    twice, which a table may not, so this is where they come to agree. -/
def ofList (pairs : List (String × Value)) : Bindings := empty.insertAll pairs

theorem get?_empty (name : String) : empty.get? name = none := rfl

theorem lookup_insertPair (name other : String) (value : Value)
    (pairs : List (String × Value)) :
    (insertPair name value pairs).lookup other =
      if other = name then some value else pairs.lookup other := by
  induction pairs with
  | nil =>
      by_cases h : other = name
      · simp only [insertPair, List.lookup_cons, h, beq_self_eq_true, if_true]
      · simp only [insertPair, List.lookup_cons, beq_eq_false_iff_ne.mpr h, List.lookup_nil,
          if_neg h]
  | cons pair rest ih =>
      obtain ⟨key, held⟩ := pair
      simp only [insertPair]
      by_cases hp : key = name
      · by_cases h : other = name
        · simp only [hp, h, if_true, List.lookup_cons, beq_self_eq_true]
        · simp only [hp, if_true, List.lookup_cons, beq_eq_false_iff_ne.mpr h, if_neg h]
      · rw [if_neg hp, List.lookup_cons, List.lookup_cons, ih]
        by_cases h : other = name
        · -- The pair in front is not the one that was bound.
          have hne : (name == key) = false := beq_eq_false_iff_ne.mpr fun e => hp e.symm
          simp only [h, hne, if_true]
        · simp only [if_neg h]

/-- Binding a name changes the answer for that name only. -/
theorem get?_insert (bindings : Bindings) (name other : String) (value : Value) :
    (bindings.insert name value).get? other =
      if other = name then some value else bindings.get? other :=
  lookup_insertPair name other value bindings.pairs

/-- Of several bindings of a name the last one stays, and names that are not among
    them answer as before. -/
theorem get?_insertAll (bindings : Bindings) (pairs : List (String × Value)) (name : String) :
    (bindings.insertAll pairs).get? name =
      (pairs.reverse.lookup name).or (bindings.get? name) := by
  -- The table is what the pairs in front have made of it, so it is generalised.
  induction pairs generalizing bindings with
  | nil => simp only [insertAll, List.foldl_nil, List.reverse_nil, List.lookup_nil, Option.none_or]
  | cons pair rest ih =>
      obtain ⟨key, value⟩ := pair
      have hstep : bindings.insertAll ((key, value) :: rest) =
          (bindings.insert key value).insertAll rest := rfl
      rw [hstep, ih, get?_insert, List.reverse_cons, List.lookup_append]
      cases rest.reverse.lookup name with
      | some v => simp only [Option.some_or]
      | none =>
          by_cases h : name = key
          · simp only [h, if_true, Option.none_or, List.lookup_cons, beq_self_eq_true,
              Option.some_or]
          · simp only [if_neg h, Option.none_or, List.lookup_cons, beq_eq_false_iff_ne.mpr h,
              List.lookup_nil]

end Bindings

end AttrExpr
