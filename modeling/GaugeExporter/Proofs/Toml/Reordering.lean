import GaugeExporter.Proofs.Toml.Marks

/-!
# Values up to the order of keys

Two values are the same up to the order of keys if entries of tables, at any depth,
can be put into another order to get one from the other (`Value.Reordered`).
Such values have the same keys with such values under them, no marks more, and they
are equal once their keys are in order (`Reordered.sorted_eq`).
-/

namespace GaugeExporter.Toml

/-- The entries of tables in the value may stand in another order. -/
inductive Value.Reordered : Value → Value → Prop
  | same (v : Value) : Reordered v v
  | permuted {entries others : Table} (perm : entries.Perm others) :
      Reordered (.table entries) (.table others)
  | inTable {v w : Value} (front back : Table) (key : String) (inside : Reordered v w) :
      Reordered (.table (front ++ (key, v) :: back)) (.table (front ++ (key, w) :: back))
  | inArray {v w : Value} (front back : List Value) (inside : Reordered v w) :
      Reordered (.array (front ++ v :: back)) (.array (front ++ w :: back))
  | trans {u v w : Value} (first : Reordered u v) (second : Reordered v w) : Reordered u w

namespace Value.Reordered

/-! ## Shapes -/

theorem symm {v w : Value} (reordered : v.Reordered w) : w.Reordered v := by
  induction reordered with
  | same v => exact .same v
  | permuted perm => exact .permuted perm.symm
  | inTable front back key _ ih => exact .inTable front back key ih
  | inArray front back _ ih => exact .inArray front back ih
  | trans _ _ ih₁ ih₂ => exact ih₂.trans ih₁

theorem eq_of_string {s : String} {w : Value} (reordered : (Value.string s).Reordered w) :
    w = .string s := by
  generalize origin : Value.string s = v at reordered
  induction reordered with
  | same => rfl
  | permuted => cases origin
  | inTable => cases origin
  | inArray => cases origin
  | trans _ _ ih₁ ih₂ =>
    have first := ih₁ origin
    exact (ih₂ (origin.trans first.symm)).trans first

theorem forall₂_same (items : List Value) : List.Forall₂ Reordered items items :=
  List.forall₂_same.mpr fun v _ => .same v

theorem forall₂_trans {as bs cs : List Value} (first : List.Forall₂ Reordered as bs)
    (second : List.Forall₂ Reordered bs cs) : List.Forall₂ Reordered as cs := by
  induction first generalizing cs with
  | nil => exact second
  | cons now _ ih =>
    cases second with
    | cons next later => exact .cons (now.trans next) (ih later)

/-- The items of an array stay where they are. -/
theorem array_inv {items : List Value} {w : Value} (reordered : (Value.array items).Reordered w) :
    ∃ others, w = .array others ∧ List.Forall₂ Reordered items others := by
  generalize origin : Value.array items = v at reordered
  induction reordered generalizing items with
  | same => exact ⟨items, origin.symm, forall₂_same items⟩
  | permuted => cases origin
  | inTable => cases origin
  | inArray front back inside ih =>
    cases origin
    exact ⟨_, rfl, List.rel_append (forall₂_same front) (.cons inside (forall₂_same back))⟩
  | trans _ _ ih₁ ih₂ =>
    obtain ⟨middle, same, first⟩ := ih₁ origin
    obtain ⟨others, same, second⟩ := ih₂ same.symm
    exact ⟨others, same, forall₂_trans first second⟩

/-- A table stays a table, with the same keys. -/
theorem table_inv {entries : Table} {w : Value} (reordered : (Value.table entries).Reordered w) :
    ∃ others : Table, w = .table others ∧ (entries.map Prod.fst).Perm (others.map Prod.fst) := by
  generalize origin : Value.table entries = v at reordered
  induction reordered generalizing entries with
  | same => exact ⟨entries, origin.symm, .refl _⟩
  | permuted perm =>
    cases origin
    exact ⟨_, rfl, perm.map _⟩
  | inTable front back key =>
    cases origin
    exact ⟨_, rfl, by simp⟩
  | inArray => cases origin
  | trans _ _ ih₁ ih₂ =>
    obtain ⟨middle, same, first⟩ := ih₁ origin
    obtain ⟨others, same, second⟩ := ih₂ same.symm
    exact ⟨others, same, first.trans second⟩

/-! ## Parts of tables -/

theorem lookup_perm {α : Type} {entries others : List (String × α)} (perm : entries.Perm others)
    (distinct : (entries.map Prod.fst).Nodup) (key : String) :
    entries.lookup key = others.lookup key := by
  induction perm with
  | nil => rfl
  | cons entry _ ih =>
    obtain ⟨k, a⟩ := entry
    rw [List.lookup_cons, List.lookup_cons, ih (List.nodup_cons.mp distinct).2]
  | swap first second rest =>
    simp only [List.map_cons, List.nodup_cons, List.mem_cons, not_or] at distinct
    obtain ⟨k, a⟩ := first
    obtain ⟨l, b⟩ := second
    simp only [List.lookup_cons]
    grind
  | trans perm _ ih₁ ih₂ =>
    exact (ih₁ distinct).trans (ih₂ ((perm.map Prod.fst).nodup_iff.mp distinct))

/-- Every key has the same value up to the order of keys. -/
theorem lookup {entries others : Table}
    (reordered : (Value.table entries).Reordered (.table others))
    (distinct : (entries.map Prod.fst).Nodup) (key : String) :
    Option.Rel Reordered (entries.lookup key) (others.lookup key) := by
  have refl (v? : Option Value) : Option.Rel Reordered v? v? := by
    cases v? with
    | none => exact .none
    | some v => exact .some (.same v)
  generalize origin : Value.table entries = v, result : Value.table others = w at reordered
  induction reordered generalizing entries others with
  | same =>
    cases origin.trans result.symm
    exact refl _
  | permuted perm =>
    cases origin
    cases result
    rw [lookup_perm perm distinct]
    exact refl _
  | inTable front back k inside =>
    cases origin
    cases result
    rw [List.lookup_append, List.lookup_append, List.lookup_cons, List.lookup_cons]
    cases front.lookup key with
    | some v => exact refl _
    | none =>
      cases key == k with
      | true => exact .some inside
      | false => exact refl _
  | inArray => cases origin
  | trans first _ ih₁ ih₂ =>
    cases origin
    obtain ⟨middle, rfl, keys⟩ := first.table_inv
    have now := ih₁ distinct rfl rfl
    have later := ih₂ (keys.nodup_iff.mp distinct) rfl result
    revert now later
    cases entries.lookup key <;> cases middle.lookup key <;> cases others.lookup key <;>
      rintro ⟨⟩ ⟨⟩
    · exact .none
    · exact .some (.trans ‹_› ‹_›)

/-- What is left of a table without some of its keys. -/
theorem filter {entries others : Table}
    (reordered : (Value.table entries).Reordered (.table others)) (keep : String → Bool) :
    (Value.table (entries.filter fun entry => keep entry.1)).Reordered
      (.table (others.filter fun entry => keep entry.1)) := by
  generalize origin : Value.table entries = v, result : Value.table others = w at reordered
  induction reordered generalizing entries others with
  | same =>
    cases origin.trans result.symm
    exact .same _
  | permuted perm =>
    cases origin
    cases result
    exact .permuted (perm.filter _)
  | inTable front back key inside =>
    cases origin
    cases result
    rw [List.filter_append, List.filter_append, List.filter_cons, List.filter_cons]
    split
    · exact .inTable _ _ key inside
    · exact .same _
  | inArray => cases origin
  | trans first _ ih₁ ih₂ =>
    cases origin
    obtain ⟨middle, rfl, -⟩ := first.table_inv
    exact (ih₁ rfl rfl).trans (ih₂ rfl result)

/-- No marks come in. -/
theorem unmarked {v w : Value} (reordered : v.Reordered w) (unmarked : v.unmarked = true) :
    w.unmarked = true := by
  induction reordered with
  | same => exact unmarked
  | permuted perm =>
    obtain ⟨noMark, each⟩ := unmarked_table.mp unmarked
    exact unmarked_table.mpr ⟨fun mark => noMark ((perm.map Prod.fst).mem_iff.mpr mark),
      fun entry member => each entry (perm.mem_iff.mpr member)⟩
  | inTable front back key inside ih =>
    simp only [unmarked_table, List.map_append, List.map_cons, List.forall_mem_append,
      List.forall_mem_cons] at unmarked ⊢
    exact unmarked.imp_right (.imp_right (.imp_left ih))
  | inArray front back inside ih =>
    simp only [unmarked_array, List.forall_mem_append, List.forall_mem_cons] at unmarked ⊢
    exact unmarked.imp_right (.imp_left ih)
  | trans _ _ ih₁ ih₂ => exact ih₂ (ih₁ unmarked)

/-! ## Keys in order -/

theorem keyed {v w : Value} (reordered : v.Reordered w) (keyed : v.Keyed) : w.Keyed := by
  induction reordered with
  | same => exact keyed
  | permuted perm =>
    have distinct := Table.Keyed.distinct keyed
    exact .table ((perm.map Prod.fst).nodup_iff.mp distinct) fun entry member =>
      Table.Keyed.value keyed (perm.mem_iff.mpr member)
  | @inTable v w front back key inside ih =>
    have distinct := Table.Keyed.distinct keyed
    have each (entry : String × Value) := @Table.Keyed.value _ keyed entry
    refine .table (by simpa using distinct) fun entry member => ?_
    simp only [List.mem_append, List.mem_cons] at member each
    rcases member with before | rfl | behind
    · exact each _ (.inl before)
    · exact ih (each _ (.inr (.inl rfl)))
    · exact each _ (.inr (.inr behind))
  | @inArray v w front back inside ih =>
    cases keyed with
    | array each =>
      refine .array fun item member => ?_
      simp only [List.mem_append, List.mem_cons] at member each
      rcases member with before | rfl | behind
      · exact each _ (.inl before)
      · exact ih (each _ (.inr (.inl rfl)))
      · exact each _ (.inr (.inr behind))
  | trans _ _ ih₁ ih₂ => exact ih₂ (ih₁ keyed)

/-- Values that are the same up to the order of keys are equal with their keys in
order. -/
theorem sorted_eq {v w : Value} (reordered : v.Reordered w) (keyed : v.Keyed) :
    v.sorted = w.sorted := by
  induction reordered with
  | same => rfl
  | permuted perm =>
    have distinct := Table.Keyed.distinct keyed
    rw [Value.sorted_table, Value.sorted_table, Table.sorted, Table.sorted, sortedEntries_eq_map,
      sortedEntries_eq_map]
    refine congrArg Value.table (Value.sort_eq_of_perm (perm.map _) ?_)
    rwa [List.map_map]
  | @inTable v w front back key inside ih =>
    have same := ih (@Table.Keyed.value _ keyed (key, v) (by simp))
    simp only [Value.sorted_table, Table.sorted, sortedEntries_eq_map, List.map_append,
      List.map_cons, same]
  | @inArray v w front back inside ih =>
    cases keyed with
    | array each =>
      have same := ih (each v (by simp))
      simp only [Value.sorted, sortedItems_eq_map, List.map_append, List.map_cons, same]
  | trans first _ ih₁ ih₂ => exact (ih₁ keyed).trans (ih₂ (first.keyed keyed))

theorem array_map {f : Value → Value} {items : List Value} (each : ∀ v ∈ items, v.Reordered (f v))
    (front : List Value) :
    (Value.array (front ++ items)).Reordered (.array (front ++ items.map f)) := by
  induction items generalizing front with
  | nil => exact .same _
  | cons v rest ih =>
    have later := ih (fun w member => each w (List.mem_cons_of_mem _ member)) (front ++ [f v])
    rw [List.append_assoc, List.append_assoc] at later
    exact .trans (.inArray front rest (each v List.mem_cons_self)) later

theorem table_map {f : Value → Value} {entries : Table}
    (each : ∀ entry ∈ entries, entry.2.Reordered (f entry.2)) (front : Table) :
    (Value.table (front ++ entries)).Reordered
      (.table (front ++ entries.map fun entry => (entry.1, f entry.2))) := by
  induction entries generalizing front with
  | nil => exact .same _
  | cons entry rest ih =>
    have later := ih (fun other member => each other (List.mem_cons_of_mem _ member))
      (front ++ [(entry.1, f entry.2)])
    rw [List.append_assoc, List.append_assoc] at later
    exact .trans (.inTable front rest entry.1 (each entry List.mem_cons_self)) later

/-- Putting keys into order is a reordering. -/
theorem sorted {v : Value} (keyed : v.Keyed) : v.Reordered v.sorted := by
  induction keyed with
  | @array items all ih =>
    rw [Value.sorted, sortedItems_eq_map]
    exact array_map ih []
  | @table entries distinct all ih =>
    rw [Value.sorted_table, Table.sorted, sortedEntries_eq_map]
    exact .trans (table_map ih []) (.permuted (List.mergeSort_perm _ _).symm)
  | _ => exact .same _

end Value.Reordered

end GaugeExporter.Toml
