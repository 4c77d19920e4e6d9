import AttrExpr.Attribute.Frame

/-!
# Recording a Let

What a frame holds after a `let`.

The entries of a `let` value are checked before the first of them is bound.
That matters to a frame that is written to, because an entry that is no pair
may stand behind any number of pairs, and these must not be bound either. So
recording is stated here of a frame as state: `record` looks at the entries,
then writes one pair after the other, and gives up before the first write or
not at all. `run_record` says that this comes to what `bindPairs` computes from
the frame at once.

The frame is written to by key, and a key may stand in several entries. The
last of them is what stays; whatever else the frame holds, and all that the
frames around hold, is as before.

## Main definitions

* `IsPair`: The entries that bind a key.
* `Misfit`: What keeps a value from being recorded.
* `Recorded`: What a frame holds after entries have been recorded.
* `record`: Recording in a frame that is written to.

## Theorems

* `bindingPairs_cases`: Either all entries are pairs, or there is a first that
  is none.
* `get?_insertAll_last`: Of several pairs with a key the last one is kept.
* `run_bindEach`: Binding pair by pair is binding all of them.
* `run_record`: Recording is computed from the frame at once.
* `record_or_misfit`: A `let` is recorded as a whole or not at all.
-/

namespace AttrExpr

namespace Frame

/-- The entries of a `let` value that bind a key: lists of two items, the first
    of them a text. The second may be any value, also one that is false. -/
def IsPair (entry : Value) : Prop := ∃ key value, entry = .list [.str key, value]

/-- What keeps a `let` value from being recorded: the value itself if it is no
    list, and otherwise the first of its entries that is no pair. -/
inductive Misfit : Value → Value → Prop
  | noList {value : Value} (h : ∀ entries, value ≠ .list entries) : Misfit value value
  | entry {before after : List Value} {entry : Value} (hbefore : ∀ pair ∈ before, IsPair pair)
      (hentry : ¬IsPair entry) : Misfit (.list (before ++ entry :: after)) entry

/-- What a frame holds after entries have been recorded in it. Together the
    fields say what every lookup in the new frame gives, as each key is bound
    by some last entry or by none. -/
structure Recorded (frame : Frame) (entries : List Value) (next : Frame) : Prop where
  /-- Of the entries with a key the last one binds it. -/
  last : ∀ before key value after, entries = before ++ .list [.str key, value] :: after →
    (∀ other, .list [.str key, other] ∉ after) → next.get? key = some value
  /-- What no entry binds is bound as before. -/
  kept : ∀ key, (∀ value, .list [.str key, value] ∉ entries) → next.get? key = frame.get? key
  /-- The frames around are as before. -/
  outer : next.outer = frame.outer

/-! ## Entries -/

/-- The entry that binds a key to a value. All that is recorded is stated of
    pairs, and entries are pairs under this function. -/
def entryOf (pair : String × Value) : Value := .list [.str pair.1, pair.2]

theorem isPair_entryOf (pair : String × Value) : IsPair (entryOf pair) := ⟨pair.1, pair.2, rfl⟩

theorem bindingPair?_of_not_isPair {entry : Value} (h : ¬IsPair entry) :
    bindingPair? entry = none := by
  unfold bindingPair?
  split
  · rename_i key value
    exact absurd ⟨key, value, rfl⟩ h
  · rfl

theorem bindingPairs_map (pairs : List (String × Value)) :
    bindingPairs (pairs.map entryOf) = .ok pairs := by
  induction pairs with
  | nil => rfl
  | cons pair rest ih =>
      rw [List.map_cons, bindingPairs, ih]
      rfl

/-- The entries in front of the first that is no pair do not change what is
    wrong, and those behind it are not looked at. -/
theorem bindingPairs_misfit (pairs : List (String × Value)) {entry : Value} (h : ¬IsPair entry)
    (after : List Value) : bindingPairs (pairs.map entryOf ++ entry :: after) =
      .error (.malformedValue .bindings entry.display) := by
  induction pairs with
  | nil =>
      simp only [List.map_nil, List.nil_append, bindingPairs, bindingPair?_of_not_isPair h]
  | cons pair rest ih =>
      rw [List.map_cons, List.cons_append, bindingPairs, ih]
      rfl

/-- Entries are pairs, all of them or up to the first that is none. The case
    split of all that follows is this one. -/
theorem bindingPairs_cases (entries : List Value) :
    (∃ pairs : List (String × Value), entries = pairs.map entryOf) ∨
      ∃ (pairs : List (String × Value)) (entry : Value) (after : List Value),
        entries = pairs.map entryOf ++ entry :: after ∧ ¬IsPair entry := by
  induction entries with
  | nil => exact Or.inl ⟨[], rfl⟩
  | cons entry rest ih =>
      by_cases h : IsPair entry
      · rcases h with ⟨key, value, rfl⟩
        rcases ih with ⟨pairs, rfl⟩ | ⟨pairs, misfit, after, rfl, hmisfit⟩
        · exact Or.inl ⟨(key, value) :: pairs, rfl⟩
        · exact Or.inr ⟨(key, value) :: pairs, misfit, after, rfl, hmisfit⟩
      · exact Or.inr ⟨[], entry, rest, rfl, h⟩

theorem forall_isPair_map (pairs : List (String × Value)) :
    ∀ entry ∈ pairs.map entryOf, IsPair entry := by
  intro entry hentry
  rcases List.mem_map.mp hentry with ⟨pair, _, rfl⟩
  exact isPair_entryOf pair

/-- An entry with a key is one of the pairs. -/
theorem mem_map_entryOf {pairs : List (String × Value)} {key : String} {value : Value} :
    .list [.str key, value] ∈ pairs.map entryOf ↔ (key, value) ∈ pairs := by
  have hinjective : ∀ pair, entryOf pair = .list [.str key, value] → pair = (key, value) := by
    rintro ⟨other, held⟩ h
    cases h
    rfl
  constructor
  · intro hmem
    rcases List.mem_map.mp hmem with ⟨pair, hpair, hentry⟩
    rwa [hinjective pair hentry] at hpair
  · exact fun hmem => List.mem_map.mpr ⟨(key, value), hmem, rfl⟩

/-! ## Tables -/

/-- Pairs in which no key is the given one answer nothing for it. -/
theorem lookup_eq_none_of_forall_not_mem {pairs : List (String × Value)} {key : String}
    (h : ∀ value, (key, value) ∉ pairs) : pairs.lookup key = none := by
  rw [List.lookup_eq_none_iff]
  intro pair hpair
  refine bne_iff_ne.mpr ?_
  rintro rfl
  exact h pair.2 hpair

/-- Of several pairs with a key the last one is kept. Lookup searches the newest
    first, so the pairs are reversed and what is behind is passed. -/
theorem get?_insertAll_last (table : Bindings) (before : List (String × Value)) (key : String)
    (value : Value) {after : List (String × Value)} (h : ∀ other, (key, other) ∉ after) :
    (table.insertAll (before ++ (key, value) :: after)).get? key = some value := by
  have hafter : after.reverse.lookup key = none :=
    lookup_eq_none_of_forall_not_mem fun other hmem => h other (List.mem_reverse.mp hmem)
  rw [Bindings.get?_insertAll, List.reverse_append, List.reverse_cons, List.lookup_append,
    List.lookup_append, hafter, List.lookup_cons, beq_self_eq_true]
  rfl

theorem get?_insertAll_kept_of_not_mem (table : Bindings) {pairs : List (String × Value)}
    {key : String} (h : ∀ value, (key, value) ∉ pairs) :
    (table.insertAll pairs).get? key = table.get? key := by
  rw [Bindings.get?_insertAll,
    lookup_eq_none_of_forall_not_mem fun value hmem => h value (List.mem_reverse.mp hmem)]
  rfl

/-- Pairs that have been bound are recorded: what is said of entries is said of
    the pairs they come from. -/
theorem recorded_insertAll (frame : Frame) (pairs : List (String × Value)) :
    Recorded frame (pairs.map entryOf) { frame with own := frame.own.insertAll pairs } where
  last := by
    intro before key value after hentries hlast
    rcases List.map_eq_append_iff.mp hentries with ⟨front, tail, rfl, rfl, htail⟩
    rcases List.map_eq_cons_iff.mp htail with ⟨pair, back, rfl, hpair, rfl⟩
    -- The entry is that of the pair, so the pair is the key and the value.
    have hpair : pair = (key, value) := by
      rcases pair with ⟨other, held⟩
      cases hpair
      rfl
    subst hpair
    exact get?_insertAll_last frame.own front key value fun other hmem =>
      hlast other (mem_map_entryOf.mpr hmem)
  kept := by
    intro key hkey
    exact get?_insertAll_kept_of_not_mem frame.own fun value hmem =>
      hkey value (mem_map_entryOf.mpr hmem)
  outer := rfl

/-! ## Writing -/

/-- Binds pairs in a frame that is written to, one after the other. Each write
    is visible at once, so giving up among them would leave a part behind. -/
def bindEach (pairs : List (String × Value)) : ExceptT AttributeError (StateM Frame) Unit :=
  pairs.forM fun pair => modify fun frame => frame.bind pair.1 pair.2

/-- Records a `let` value in a frame that is written to, and says how many pairs
    there were. All entries are looked at before one of them is bound. -/
def record (value : Value) : ExceptT AttributeError (StateM Frame) Nat := do
  match value.list? with
  | none => throw (.malformedValue .bindings value.display)
  | some entries =>
      let pairs ← ExceptT.mk (pure (bindingPairs entries))
      bindEach pairs
      return pairs.length

/-- Binding pair by pair is binding all of them, and does not fail. -/
theorem run_bindEach (pairs : List (String × Value)) (frame : Frame) :
    (bindEach pairs).run.run frame =
      (.ok (), { frame with own := frame.own.insertAll pairs }) := by
  induction pairs generalizing frame with
  | nil => rfl
  | cons pair rest ih => exact ih (frame.bind pair.1 pair.2)

/-- Recording gives up with the frame as it was, or has written all that
    `bindPairs` puts into the frame. -/
theorem run_record (value : Value) (frame : Frame) : (record value).run.run frame =
    match frame.bindPairs value with
    | .error fault => (.error fault, frame)
    | .ok (count, next) => (.ok count, next) := by
  unfold record bindPairs
  cases value.list? with
  | none => rfl
  | some entries =>
      cases h : bindingPairs entries with
      | error fault =>
          -- The entries are looked at before anything is written.
          simp only [h]
          rfl
      | ok pairs =>
          have hwrite : (bindEach pairs >>= fun _ => pure pairs.length).run.run frame =
              (.ok pairs.length, { frame with own := frame.own.insertAll pairs }) := by
            rw [ExceptT.run_bind, StateT.run_bind, run_bindEach]
            rfl
          simp only [h]
          exact hwrite

/-! ## All or nothing -/

theorem bindPairs_list (frame : Frame) (entries : List Value) :
    frame.bindPairs (.list entries) = (bindingPairs entries).map fun pairs =>
      (pairs.length, { frame with own := frame.own.insertAll pairs }) := rfl

/-- A `let` finds pairs only, or what keeps it from being recorded. In either
    case it is known what `bindPairs` comes to. -/
theorem bindPairs_cases (frame : Frame) (value : Value) :
    (∃ pairs : List (String × Value), value = .list (pairs.map entryOf) ∧
      frame.bindPairs value =
        .ok (pairs.length, { frame with own := frame.own.insertAll pairs })) ∨
    ∃ misfit, Misfit value misfit ∧
      frame.bindPairs value = .error (.malformedValue .bindings misfit.display) := by
  cases value with
  | list entries =>
      rw [bindPairs_list]
      rcases bindingPairs_cases entries with ⟨pairs, rfl⟩ | ⟨pairs, entry, after, rfl, hentry⟩
      · left
        rw [bindingPairs_map]
        exact ⟨pairs, rfl, rfl⟩
      · right
        rw [bindingPairs_misfit pairs hentry]
        exact ⟨entry, .entry (forall_isPair_map pairs) hentry, rfl⟩
  -- Every other kind of value is its own misfit.
  | _ => exact Or.inr ⟨_, .noList nofun, rfl⟩

/-- What has a misfit is no list of pairs. -/
theorem Misfit.not_pairs {value misfit : Value} (h : Misfit value misfit) {entries : List Value}
    (hvalue : value = .list entries) : ¬∀ entry ∈ entries, IsPair entry := by
  intro hpairs
  cases h with
  | noList hlist => exact hlist entries hvalue
  | entry _ hentry =>
      cases hvalue
      exact hentry (hpairs _ (List.mem_append_right _ List.mem_cons_self))

/-- A `let` is recorded exactly if it is a list of pairs, and then all of it is:
    it says how many entries there were, and of those with one key the last one
    stays. Otherwise it names the value that is no list, or the first entry that
    is no pair, and nothing is written. -/
theorem record_or_misfit (frame : Frame) (value : Value) :
    ((∃ count next, frame.bindPairs value = .ok (count, next)) ↔
      ∃ entries, value = .list entries ∧ ∀ entry ∈ entries, IsPair entry) ∧
    (∀ count next, frame.bindPairs value = .ok (count, next) →
      (∃ entries, value = .list entries ∧ count = entries.length ∧
        Recorded frame entries next) ∧
      (record value).run.run frame = (.ok count, next)) ∧
    (∀ fault, frame.bindPairs value = .error fault →
      (∃ misfit, Misfit value misfit ∧ fault = .malformedValue .bindings misfit.display ∧
        fault.text = "malformed `let` value; expected [[key value] ...] with string keys, got `" ++
          misfit.display ++ "`") ∧
      (record value).run.run frame = (.error fault, frame)) := by
  have hrun := run_record value frame
  rcases bindPairs_cases frame value with ⟨pairs, rfl, hbind⟩ | ⟨misfit, hmisfit, hbind⟩
  · -- All entries are pairs, and all of them are bound.
    rw [hbind] at hrun ⊢
    refine ⟨iff_of_true ⟨_, _, rfl⟩ ⟨_, rfl, forall_isPair_map pairs⟩, ?_, nofun⟩
    intro count next hresult
    cases hresult
    exact ⟨⟨_, rfl, (List.length_map _).symm, recorded_insertAll frame pairs⟩, hrun⟩
  · -- There is a misfit, which is named, and the frame stays as it is.
    rw [hbind] at hrun ⊢
    have hnone : ¬ ∃ entries, value = .list entries ∧ ∀ entry ∈ entries, IsPair entry := by
      rintro ⟨entries, hvalue, hpairs⟩
      exact hmisfit.not_pairs hvalue hpairs
    refine ⟨iff_of_false nofun hnone, nofun, ?_⟩
    intro fault hresult
    cases hresult
    exact ⟨⟨misfit, hmisfit, rfl, rfl⟩, hrun⟩

/-- A key that stands in two entries counts twice, and the second one binds
    it. -/
theorem record_or_misfit_twice :
    let frame := (root.bind "x" (.bool true)).bind "z" .nil
    let entries := [.list [.str "x", .str "a"], .list [.str "y", .nil], .list [.str "x", .str "b"]]
    ∃ next, frame.bindPairs (.list entries) = .ok (3, next) ∧ next.get? "x" = some (.str "b") ∧
      next.get? "z" = some .nil ∧ (record (.list entries)).run.run frame = (.ok 3, next) := by
  intro frame entries
  have hpairs : ∀ entry ∈ entries, IsPair entry :=
    forall_isPair_map [("x", .str "a"), ("y", .nil), ("x", .str "b")]
  have h := record_or_misfit frame (.list entries)
  rcases h.1.mpr ⟨entries, rfl, hpairs⟩ with ⟨count, next, hbind⟩
  rcases h.2.1 count next hbind with ⟨⟨_, hvalue, hcount, hrecorded⟩, hrun⟩
  cases hvalue
  subst hcount
  -- Nothing stands behind the second entry, so it is the last one of its key.
  have hlast : next.get? "x" = some (.str "b") :=
    hrecorded.last [.list [.str "x", .str "a"], .list [.str "y", .nil]] "x" (.str "b") [] rfl
      fun other => List.not_mem_nil
  have hother : ∀ value, Value.list [.str "z", value] ∉ entries := by
    intro value hmem
    simp only [entries, List.mem_cons, List.not_mem_nil, Value.list.injEq, List.cons.injEq,
      Value.str.injEq, String.reduceEq, false_and, or_self] at hmem
  exact ⟨next, hbind, hlast, (hrecorded.kept "z" hother).trans rfl, hrun⟩

end Frame

end AttrExpr
