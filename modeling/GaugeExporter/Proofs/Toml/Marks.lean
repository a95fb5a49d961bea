import GaugeExporter.Proofs.Folds
import GaugeExporter.Proofs.Toml.Arrangement
import GaugeExporter.Toml.Marked

/-!
# Marked tables

Reading marks gives expressible values, because the date-times that it adds were
read (`expressible_of_unmark`).  In a value without marks it changes nothing
(`unmark_unmarked`), and what a document gives back of such a value has none
either.
-/

namespace GaugeExporter.Toml

/-! ## What marks stand for -/

theorem valid_of_markedDate {v : Value} {d : DateTime} (read : markedDate v = .ok d) :
    d.Valid := by
  unfold markedDate at read
  split at read
  · split at read
    next done =>
      cases read
      exact DateTime.read_valid done
    · cases read
  · cases read

theorem valid_of_marked? {room : String} {entries : Table} {d : DateTime}
    (read : marked? room entries = some (.ok d)) : d.Valid := by
  unfold marked? at read
  split at read
  · cases read
  · split at read
    · split at read
      · cases read
      next done =>
        split at read
        · cases read
          exact valid_of_markedDate done
        · cases read
    · cases read

theorem mem_unmarkItems {room : String} {items read : List Value}
    (unmarked : Value.unmarkItems room items = .ok read) :
    ∀ w ∈ read, ∃ v ∈ items, v.unmark room = .ok w := by
  induction items generalizing read with
  | nil =>
    cases unmarked
    nofun
  | cons v rest ih =>
    rw [Value.unmarkItems] at unmarked
    split at unmarked
    · cases unmarked
    · cases unmarked
    next first later =>
      cases unmarked
      intro w member
      cases List.mem_cons.mp member with
      | inl now => exact ⟨v, List.mem_cons_self, now ▸ first⟩
      | inr inside =>
        obtain ⟨u, behind, same⟩ := ih later w inside
        exact ⟨u, List.mem_cons_of_mem _ behind, same⟩

theorem mem_unmarkEntries {room : String} {entries read : Table}
    (unmarked : Value.unmarkEntries room entries = .ok read) :
    ∀ entry ∈ read, ∃ other ∈ entries, other.2.unmark room = .ok entry.2 := by
  induction entries generalizing read with
  | nil =>
    cases unmarked
    nofun
  | cons first rest ih =>
    rw [Value.unmarkEntries] at unmarked
    split at unmarked
    · cases unmarked
    · cases unmarked
    next now later =>
      cases unmarked
      intro entry member
      cases List.mem_cons.mp member with
      | inl same =>
        refine ⟨first, List.mem_cons_self, ?_⟩
        rw [same]
        exact of_mapError_ok now
      | inr inside =>
        obtain ⟨other, behind, same⟩ := ih later entry inside
        exact ⟨other, List.mem_cons_of_mem _ behind, same⟩

theorem expressible_of_unmark {room : String} {v w : Value} (expressible : v.Expressible)
    (unmarked : v.unmark room = .ok w) : w.Expressible := by
  induction expressible generalizing w with
  | @array items all ih =>
    rw [Value.unmark] at unmarked
    cases inside : Value.unmarkItems room items with
    | error e =>
      rw [inside] at unmarked
      cases unmarked
    | ok read =>
      rw [inside] at unmarked
      cases unmarked
      refine .array fun w member => ?_
      obtain ⟨v, origin, same⟩ := mem_unmarkItems inside w member
      exact ih v origin same
  | @table entries distinct all ih =>
    rw [Value.unmark] at unmarked
    split at unmarked
    next date marked =>
      cases date with
      | error e => cases unmarked
      | ok d =>
        cases unmarked
        exact .dateTime (valid_of_marked? marked)
    · cases inside : Value.unmarkEntries room entries with
      | error e =>
        rw [inside] at unmarked
        cases unmarked
      | ok read =>
        rw [inside] at unmarked
        cases unmarked
        refine .table (by rwa [Value.keys_unmarkEntries inside]) fun entry member => ?_
        obtain ⟨other, origin, same⟩ := mem_unmarkEntries inside entry member
        exact ih other origin same
  | string s =>
    cases unmarked
    exact .string s
  | integer fits =>
    cases unmarked
    exact .integer fits
  | float standard =>
    cases unmarked
    exact .float standard
  | boolean b =>
    cases unmarked
    exact .boolean b
  | dateTime valid =>
    cases unmarked
    exact .dateTime valid

/-! ## Values without marks -/

mutual

/-- No table in the value has the key of marks. -/
def Value.unmarked : Value → Bool
  | .array items => itemsUnmarked items
  | .table entries => !(entries.map Prod.fst).contains markKey && entriesUnmarked entries
  | _ => true

def itemsUnmarked : List Value → Bool
  | [] => true
  | v :: rest => v.unmarked && itemsUnmarked rest

def entriesUnmarked : List (String × Value) → Bool
  | [] => true
  | (_, v) :: rest => v.unmarked && entriesUnmarked rest

end

theorem itemsUnmarked_iff {items : List Value} :
    itemsUnmarked items = true ↔ ∀ v ∈ items, v.unmarked = true := by
  induction items with
  | nil => simp [itemsUnmarked]
  | cons v rest ih => rw [itemsUnmarked, Bool.and_eq_true, ih, List.forall_mem_cons]

theorem entriesUnmarked_iff {entries : Table} :
    entriesUnmarked entries = true ↔ ∀ entry ∈ entries, entry.2.unmarked = true := by
  induction entries with
  | nil => simp [entriesUnmarked]
  | cons entry rest ih => rw [entriesUnmarked, Bool.and_eq_true, ih, List.forall_mem_cons]

theorem unmarked_table {entries : Table} :
    (Value.table entries).unmarked = true ↔
      markKey ∉ entries.map Prod.fst ∧ ∀ entry ∈ entries, entry.2.unmarked = true := by
  rw [Value.unmarked, Bool.and_eq_true, entriesUnmarked_iff, Bool.not_eq_true',
    List.contains_eq_mem, decide_eq_false_iff_not]

theorem unmarked_array {items : List Value} :
    (Value.array items).unmarked = true ↔ ∀ v ∈ items, v.unmarked = true := by
  rw [Value.unmarked, itemsUnmarked_iff]

theorem unmarkItems_same {room : String} {items : List Value}
    (each : ∀ v ∈ items, v.unmark room = .ok v) : Value.unmarkItems room items = .ok items := by
  induction items with
  | nil => rfl
  | cons v rest ih =>
    have later := ih fun w member => each w (List.mem_cons_of_mem _ member)
    rw [Value.unmarkItems, each v List.mem_cons_self, later]

theorem unmarkEntries_same {room : String} {entries : Table}
    (each : ∀ entry ∈ entries, entry.2.unmark room = .ok entry.2) :
    Value.unmarkEntries room entries = .ok entries := by
  induction entries with
  | nil => rfl
  | cons entry rest ih =>
    have later := ih fun other member => each other (List.mem_cons_of_mem _ member)
    rw [Value.unmarkEntries, each entry List.mem_cons_self, later]
    rfl

theorem unmark_unmarked {v : Value} (keyed : v.Keyed) (unmarked : v.unmarked = true)
    (room : String) : v.unmark room = .ok v := by
  induction keyed with
  | @array items all ih =>
    have each := unmarked_array.mp unmarked
    rw [Value.unmark, unmarkItems_same fun v member => ih v member (each v member)]
    rfl
  | @table entries distinct all ih =>
    obtain ⟨noMark, each⟩ := unmarked_table.mp unmarked
    have plain : marked? room entries = none := by
      cases entries with
      | nil => rfl
      | cons entry rest =>
        rw [List.map_cons, List.mem_cons, not_or] at noMark
        exact if_neg fun same => noMark.1 same.symm
    rw [Value.unmark, plain,
      unmarkEntries_same fun entry member => ih entry member (each entry member)]
    rfl
  | _ => rfl

/-! ## Documents -/

theorem keyed_rebuilt {v : Value} (keyed : v.Keyed) : v.rebuilt.Keyed := by
  induction keyed with
  | @table entries distinct all ih =>
    rw [rebuilt_table]
    refine .table ((keys_rebuilt_perm entries).nodup_iff.mpr distinct) fun entry member => ?_
    obtain ⟨other, inside, rfl⟩ := List.mem_map.mp ((rebuilt_perm entries).mem_iff.mp member)
    exact ih other inside
  | @array items all ih =>
    cases header : (Value.array items).hasHeader with
    | false =>
      rw [rebuilt_plain header]
      exact .array all
    | true =>
      rw [rebuilt_array (isTable_of_hasHeader header)]
      refine .array fun v member => ?_
      obtain ⟨item, inside, rfl⟩ := List.mem_map.mp member
      exact ih item inside
  | string s => exact .string s
  | integer n => exact .integer n
  | float x => exact .float x
  | boolean b => exact .boolean b
  | dateTime d => exact .dateTime d

theorem unmarked_rebuilt {v : Value} (keyed : v.Keyed) (unmarked : v.unmarked = true) :
    v.rebuilt.unmarked = true := by
  induction keyed with
  | @table entries distinct all ih =>
    obtain ⟨noMark, each⟩ := unmarked_table.mp unmarked
    rw [rebuilt_table, unmarked_table]
    refine ⟨fun mark => noMark ((keys_rebuilt_perm entries).mem_iff.mp mark), ?_⟩
    intro entry member
    obtain ⟨other, inside, rfl⟩ := List.mem_map.mp ((rebuilt_perm entries).mem_iff.mp member)
    exact ih other inside (each other inside)
  | @array items all ih =>
    have each := unmarked_array.mp unmarked
    cases header : (Value.array items).hasHeader with
    | false => rwa [rebuilt_plain header]
    | true =>
      rw [rebuilt_array (isTable_of_hasHeader header), unmarked_array]
      intro v member
      obtain ⟨item, inside, rfl⟩ := List.mem_map.mp member
      exact ih item inside (each item inside)
  | _ => rfl

end GaugeExporter.Toml
