import GaugeExporter.Proofs.Toml.Tables
import GaugeExporter.Proofs.Toml.Values

/-!
# Values in the order of their keys

A document gives the parts of a table in an order of its own, and reading the
options of a producer puts them into the order of their keys.  What the
statements of a value build is the value up to that order (`sorted_rebuilt`).
-/

namespace GaugeExporter.Toml

namespace Value

/-! ## Order of keys -/

theorem keyLE_total (a b : String × Value) : (keyLE a b || keyLE b a) = true := by
  simp only [keyLE, Bool.or_eq_true, decide_eq_true_eq]
  exact String.le_total a.1 b.1

theorem keyLE_trans (a b c : String × Value) (ab : keyLE a b = true) (bc : keyLE b c = true) :
    keyLE a c = true := by
  simp only [keyLE, decide_eq_true_eq] at ab bc ⊢
  exact String.le_trans ab bc

theorem pairwise_sort (entries : Table) :
    (entries.mergeSort keyLE).Pairwise fun a b => keyLE a b = true :=
  List.pairwise_mergeSort keyLE_trans keyLE_total entries

theorem eq_of_key_eq {entries : Table} (distinct : (entries.map Prod.fst).Nodup)
    {a b : String × Value} (memberA : a ∈ entries) (memberB : b ∈ entries) (same : a.1 = b.1) :
    a = b := List.inj_on_of_nodup_map distinct memberA memberB same

/-- Without equal keys the order of the entries makes no difference. -/
theorem sort_eq_of_perm {entries others : Table} (perm : entries.Perm others)
    (distinct : (entries.map Prod.fst).Nodup) :
    entries.mergeSort keyLE = others.mergeSort keyLE := by
  have sortedPerm : (entries.mergeSort keyLE).Perm (others.mergeSort keyLE) :=
    (List.mergeSort_perm entries keyLE).trans (perm.trans (List.mergeSort_perm others keyLE).symm)
  refine sortedPerm.eq_of_pairwise ?_ (pairwise_sort entries) (pairwise_sort others)
  intro a b memberA memberB less greater
  rw [List.mem_mergeSort] at memberA memberB
  simp only [keyLE, decide_eq_true_eq] at less greater
  exact eq_of_key_eq distinct memberA (perm.mem_iff.mpr memberB) (String.le_antisymm less greater)

end Value

/-- The entries of a table in the order of their keys, and the tables among their
values too. -/
def Table.sorted (entries : Table) : Table :=
  (Value.sortedEntries entries).mergeSort Value.keyLE

theorem Value.sorted_table (entries : Table) :
    (Value.table entries).sorted = .table (Table.sorted entries) := by
  rw [Value.sorted, Table.sorted]

theorem sortedEntries_eq_map (entries : Table) :
    Value.sortedEntries entries = entries.map fun entry => (entry.1, entry.2.sorted) := by
  induction entries with
  | nil => rfl
  | cons entry rest ih => rw [Value.sortedEntries, ih]; rfl

theorem sortedItems_eq_map (items : List Value) :
    Value.sortedItems items = items.map Value.sorted := by
  induction items with
  | nil => rfl
  | cons v rest ih => rw [Value.sortedItems, ih]; rfl

theorem keys_sortedEntries (entries : Table) :
    (Value.sortedEntries entries).map Prod.fst = entries.map Prod.fst := by
  rw [sortedEntries_eq_map, List.map_map]
  rfl

theorem keys_sorted_perm (entries : Table) :
    ((Table.sorted entries).map Prod.fst).Perm (entries.map Prod.fst) := by
  rw [← keys_sortedEntries entries]
  exact (List.mergeSort_perm _ _).map _

theorem mem_sorted {entries : Table} {entry : String × Value} :
    entry ∈ Table.sorted entries ↔ ∃ other ∈ entries, (other.1, other.2.sorted) = entry := by
  rw [Table.sorted, List.mem_mergeSort, sortedEntries_eq_map, List.mem_map]

theorem table_sorted_sorted {entries : Table}
    (each : ∀ entry ∈ entries, entry.2.sorted.sorted = entry.2.sorted) :
    Table.sorted (Table.sorted entries) = Table.sorted entries := by
  have same : Value.sortedEntries (Table.sorted entries) = Table.sorted entries := by
    rw [sortedEntries_eq_map]
    refine (List.map_congr_left fun entry member => ?_).trans (List.map_id _)
    obtain ⟨other, inside, rfl⟩ := mem_sorted.mp member
    exact Prod.ext rfl (each other inside)
  rw [Table.sorted, same]
  exact List.mergeSort_of_pairwise (Value.pairwise_sort _)

/-- What is in order stays as it is. -/
theorem Value.Expressible.sorted_sorted {v : Value} (expressible : v.Expressible) :
    v.sorted.sorted = v.sorted := by
  induction expressible with
  | @array items all ih =>
    rw [Value.sorted, Value.sorted, sortedItems_eq_map, sortedItems_eq_map, List.map_map]
    exact congrArg Value.array (List.map_congr_left ih)
  | @table entries distinct all ih =>
    rw [Value.sorted_table, Value.sorted_table, table_sorted_sorted ih]
  | _ => rfl

theorem Value.Expressible.sorted {v : Value} (expressible : v.Expressible) :
    v.sorted.Expressible := by
  induction expressible with
  | string s => exact .string s
  | integer fits => exact .integer fits
  | float standard => exact .float standard
  | boolean b => exact .boolean b
  | dateTime valid => exact .dateTime valid
  | @array items all ih =>
    rw [Value.sorted, sortedItems_eq_map]
    refine .array fun v member => ?_
    obtain ⟨item, inside, rfl⟩ := List.mem_map.mp member
    exact ih item inside
  | @table entries distinct all ih =>
    rw [Value.sorted_table]
    refine .table ((keys_sorted_perm entries).nodup_iff.mpr distinct) fun entry member => ?_
    obtain ⟨other, inside, rfl⟩ := mem_sorted.mp member
    exact ih other inside

/-! ## What statements build -/

/-- The value that a document with this value gives back. -/
def Value.rebuilt (v : Value) : Value := if v.hasHeader then v.node.toValue else v

/-- The entries of the table that a document with these entries gives back. -/
def Table.rebuilt (entries : Table) : Table := finished (Table.nodes entries)

theorem rebuilt_table (entries : Table) :
    (Value.table entries).rebuilt = .table (Table.rebuilt entries) := rfl

theorem rebuilt_plain {v : Value} (plain : v.hasHeader = false) : v.rebuilt = v := by
  rw [Value.rebuilt, plain, if_neg Bool.false_ne_true]

theorem rebuilt_headed {v : Value} (header : v.hasHeader = true) : v.rebuilt = v.node.toValue :=
  if_pos header

theorem rebuilt_perm (entries : Table) :
    (Table.rebuilt entries).Perm (entries.map fun entry => (entry.1, entry.2.rebuilt)) := by
  induction entries with
  | nil => exact List.Perm.nil
  | cons entry entries ih =>
    obtain ⟨key, v⟩ := entry
    rw [Table.rebuilt, Table.nodes, finished_append] at ih ⊢
    rw [headedNodes_cons, plainNodes_cons, List.map_cons]
    cases header : v.hasHeader with
    | false =>
      rw [rebuilt_plain header, if_neg Bool.false_ne_true, if_neg Bool.false_ne_true]
      exact ih.cons (key, v)
    | true =>
      rw [rebuilt_headed header, if_pos rfl, if_pos rfl]
      exact List.perm_middle.trans (ih.cons (key, v.node.toValue))

theorem keys_rebuilt_perm (entries : Table) :
    ((Table.rebuilt entries).map Prod.fst).Perm (entries.map Prod.fst) := by
  have perm := (rebuilt_perm entries).map Prod.fst
  rwa [List.map_map] at perm

/-- The tables that the statements of an array build. -/
theorem finishedItems_elementNodes {items : List Value} (tables : items.all Value.isTable = true) :
    finishedItems (elementNodes items) = items.map Value.rebuilt := by
  induction items with
  | nil => rfl
  | cons v items ih =>
    rw [List.all_cons, Bool.and_eq_true] at tables
    cases v with
    | table entries => exact congrArg (_ :: ·) (ih tables.2)
    | _ => cases tables.1

theorem rebuilt_array {items : List Value} (tables : items.all Value.isTable = true) :
    (Value.array items).rebuilt = .array (items.map Value.rebuilt) := by
  cases items with
  | nil => rfl
  | cons v items =>
    have header : (Value.array (v :: items)).hasHeader = true := tables
    rw [rebuilt_headed header, Value.node, Node.toValue, finishedItems_elementNodes tables]

theorem isTable_of_hasHeader {items : List Value} (header : (Value.array items).hasHeader = true) :
    items.all Value.isTable = true := by
  cases items with
  | nil => cases header
  | cons v items => exact header

theorem table_sorted_rebuilt {entries : Table} (distinct : (entries.map Prod.fst).Nodup)
    (each : ∀ entry ∈ entries, entry.2.rebuilt.sorted = entry.2.sorted) :
    Table.sorted (Table.rebuilt entries) = Table.sorted entries := by
  have perm : (Value.sortedEntries (Table.rebuilt entries)).Perm (Value.sortedEntries entries) := by
    rw [sortedEntries_eq_map, sortedEntries_eq_map]
    refine ((rebuilt_perm entries).map _).trans (List.Perm.of_eq ?_)
    rw [List.map_map]
    exact List.map_congr_left fun entry member => Prod.ext rfl (each entry member)
  refine Value.sort_eq_of_perm perm ?_
  rw [keys_sortedEntries]
  exact (keys_rebuilt_perm entries).nodup_iff.mpr distinct

/-- A document gives the value back, up to the order of keys. -/
theorem sorted_rebuilt {v : Value} (keyed : v.Keyed) : v.rebuilt.sorted = v.sorted := by
  induction keyed with
  | @table entries distinct all ih =>
    rw [rebuilt_table, Value.sorted_table, table_sorted_rebuilt distinct ih, Value.sorted_table]
  | @array items all ih =>
    cases header : (Value.array items).hasHeader with
    | false => rw [rebuilt_plain header]
    | true =>
      rw [rebuilt_array (isTable_of_hasHeader header), Value.sorted, Value.sorted,
        sortedItems_eq_map, sortedItems_eq_map, List.map_map]
      exact congrArg Value.array (List.map_congr_left ih)
  | _ => rfl

end GaugeExporter.Toml
