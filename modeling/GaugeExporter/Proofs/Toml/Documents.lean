import GaugeExporter.Proofs.Toml.Statements
import GaugeExporter.Proofs.Toml.Tables

/-!
# Documents come back

What is read from the text of an expressible table are the nodes of the table
(`ofText?_text`), if none of its statements is nested deeper than the reader
goes.
-/

namespace GaugeExporter.Toml

theorem Value.Expressible.keyed {v : Value} (expressible : v.Expressible) : v.Keyed := by
  induction expressible with
  | string s => exact .string s
  | @integer n fits => exact .integer n
  | @float x standard => exact .float x
  | boolean b => exact .boolean b
  | @dateTime d valid => exact .dateTime d
  | array all ih => exact .array ih
  | table distinct all ih => exact .table distinct ih

/-! ## Statements -/

/-- What statements of a value at a path of the length can be, if the value is
nested so deep. -/
def Statement.Fits (length depth : Nat) : Statement → Prop
  | .pair key v => key.length = 1 ∧ v.Expressible ∧ v.depth < depth
  | .table path | .element path => path ≠ [] ∧ path.length < length + depth

namespace Statement

variable {statement : Statement} {length depth : Nat}

theorem Fits.sound (fits : statement.Fits length depth) : statement.Sound := by
  cases statement with
  | pair key v => exact ⟨List.ne_nil_of_length_eq_add_one fits.1, fits.2.1⟩
  | table path => exact fits.1
  | element path => exact fits.1

theorem Fits.shallow (fits : statement.Fits length depth) (low : length + depth ≤ depthLimit + 1) :
    statement.Shallow := by
  cases statement with
  | pair key v =>
    obtain ⟨single, -, inside⟩ := fits
    refine ⟨?_, by omega⟩
    rw [single]
    decide
  | table path => exact Nat.le_of_lt_succ (Nat.lt_of_lt_of_le fits.2 low)
  | element path => exact Nat.le_of_lt_succ (Nat.lt_of_lt_of_le fits.2 low)

theorem Fits.mono (fits : statement.Fits length depth) {length' depth' : Nat}
    (deep : depth ≤ depth') (more : length + depth ≤ length' + depth') :
    statement.Fits length' depth' := by
  cases statement with
  | pair key v => exact ⟨fits.1, fits.2.1, Nat.lt_of_lt_of_le fits.2.2 deep⟩
  | table path => exact ⟨fits.1, Nat.lt_of_lt_of_le fits.2 more⟩
  | element path => exact ⟨fits.1, Nat.lt_of_lt_of_le fits.2 more⟩

end Statement

theorem plainPairs_fit {entries : Table} (all : ∀ entry ∈ entries, entry.2.Expressible)
    (length : Nat) :
    ∀ statement ∈ plainPairs entries, statement.Fits length (entriesDepth entries + 1) := by
  intro statement member
  obtain ⟨entry, inside, pair⟩ := List.mem_filterMap.mp member
  simp only at pair
  split at pair
  · cases pair
  · cases pair
    exact ⟨rfl, all entry inside, Nat.lt_succ_of_le (depth_le_entries inside)⟩

theorem mem_nested {entries : Table} {path : List String} {statement : Statement}
    (member : statement ∈ nested path entries) :
    ∃ entry ∈ entries, statement ∈ entry.2.statements (path ++ [entry.1]) := by
  induction entries with
  | nil => cases member
  | cons entry entries ih =>
    rw [nested] at member
    cases List.mem_append.mp member with
    | inl now => exact ⟨entry, List.mem_cons_self, now⟩
    | inr later =>
      obtain ⟨other, inside, found⟩ := ih later
      exact ⟨other, List.mem_cons_of_mem _ inside, found⟩

theorem mem_elements {items : List Value} {path : List String} {statement : Statement}
    (member : statement ∈ elements path items) :
    statement = .element path ∨ ∃ entries, .table entries ∈ items ∧
      statement ∈ plainPairs entries ++ nested path entries := by
  induction items with
  | nil => cases member
  | cons v items ih =>
    have behind : statement ∈ elements path items → statement = .element path ∨
        ∃ entries, .table entries ∈ v :: items ∧
          statement ∈ plainPairs entries ++ nested path entries := fun later =>
      (ih later).imp_right fun ⟨entries, inside, found⟩ =>
        ⟨entries, List.mem_cons_of_mem _ inside, found⟩
    cases v with
    | table entries =>
      rw [elements, List.append_assoc, List.cons_append, List.mem_cons, ← List.append_assoc,
        List.mem_append] at member
      obtain header | now | later := member
      · exact .inl header
      · exact .inr ⟨entries, List.mem_cons_self, now⟩
      · exact behind later
    | _ => exact behind member

/-- Statements of an expressible value at a path, and those of the content of a
table, which may have no path: both, because an array takes its tables without
their headers. -/
theorem statements_fit {v : Value} (expressible : v.Expressible) :
    (∀ path, path ≠ [] → ∀ statement ∈ v.statements path, statement.Fits path.length v.depth) ∧
      ∀ entries, v = .table entries → ∀ path,
        ∀ statement ∈ plainPairs entries ++ nested path entries,
          statement.Fits path.length v.depth := by
  induction expressible with
  | @table entries distinct all ih =>
    have content : ∀ path, ∀ statement ∈ plainPairs entries ++ nested path entries,
        statement.Fits path.length (entriesDepth entries + 1) := by
      intro path statement member
      cases List.mem_append.mp member with
      | inl plain => exact plainPairs_fit all _ statement plain
      | inr part =>
        obtain ⟨entry, inside, found⟩ := mem_nested part
        have nonempty : path ++ [entry.1] ≠ [] :=
          List.append_ne_nil_of_right_ne_nil _ (List.cons_ne_nil _ _)
        have low := depth_le_entries inside
        refine ((ih entry inside).1 _ nonempty statement found).mono (by omega) ?_
        rw [List.length_append, List.length_singleton]
        omega
    refine ⟨fun path nonempty statement member => ?_, by rintro _ ⟨⟩; exact content⟩
    rw [Value.statements, List.append_assoc, List.mem_append] at member
    obtain header | inside := member
    · split at header
      · rw [List.mem_singleton.mp header, Value.depth]
        exact ⟨nonempty, by omega⟩
      · cases header
    · exact content path statement inside
  | @array items all ih =>
    refine ⟨fun path nonempty statement member => ?_, fun _ same => by cases same⟩
    rw [Value.statements] at member
    split at member
    · obtain rfl | ⟨entries, inside, found⟩ := mem_elements member
      · exact ⟨nonempty, by rw [Value.depth]; omega⟩
      · have low := depth_le_items inside
        refine ((ih _ inside).2 entries rfl path statement found).mono ?_ ?_ <;>
          rw [Value.depth.eq_1 items] <;> omega
    · cases member
  | _ => exact ⟨fun _ _ => List.forall_mem_nil _, fun _ same => by cases same⟩

theorem Table.Expressible.fit {entries : Table} (expressible : Table.Expressible entries) :
    ∀ statement ∈ Table.statements entries, statement.Fits 0 (entriesDepth entries + 1) :=
  (statements_fit expressible).2 entries rfl []

/-- No statement of a table is nested deeper than the table itself. -/
theorem shallow_of_depth {entries : Table} (expressible : Table.Expressible entries)
    (low : entriesDepth entries ≤ depthLimit) :
    ∀ statement ∈ Table.statements entries, statement.Shallow := fun statement member =>
  (expressible.fit statement member).shallow (by omega)

/-- The text of an expressible table is read as the nodes of the table. -/
theorem ofText?_text {entries : Table} (expressible : Table.Expressible entries)
    (shallow : ∀ statement ∈ Table.statements entries, statement.Shallow) :
    Entries.ofText? (Table.text entries) = some (Table.nodes entries) := by
  have sound : ∀ statement ∈ Table.statements entries, statement.Sound :=
    fun statement member => (expressible.fit statement member).sound
  rw [Table.text, Statement.ofText?_text sound shallow]
  exact ofStatements?_statements expressible.keyed

end GaugeExporter.Toml
