import GaugeExporter.Toml.Marked

/-!
# Tables without repeated keys

A table of a document has no key twice, and neither has a table in it.
-/

namespace GaugeExporter.Toml

/-- No table in the value has a key twice. -/
inductive Value.Keyed : Value → Prop
  | string (s : String) : Keyed (.string s)
  | integer (n : Int) : Keyed (.integer n)
  | float (x : Binary.Double) : Keyed (.float x)
  | boolean (b : Bool) : Keyed (.boolean b)
  | dateTime (d : DateTime) : Keyed (.dateTime d)
  | array {items : List Value} (all : ∀ v ∈ items, Keyed v) : Keyed (.array items)
  | table {entries : Table} (distinct : (entries.map Prod.fst).Nodup)
      (all : ∀ entry ∈ entries, Keyed entry.2) : Keyed (.table entries)

/-- No key twice, here and in the tables below. -/
def Table.Keyed (entries : Table) : Prop := (Value.table entries).Keyed

theorem Table.Keyed.distinct {entries : Table} (keyed : entries.Keyed) :
    (entries.map Prod.fst).Nodup := by
  cases keyed
  assumption

theorem Table.Keyed.value {entries : Table} (keyed : entries.Keyed) {entry : String × Value}
    (member : entry ∈ entries) : entry.2.Keyed := by
  cases keyed
  next all => exact all entry member

/-- Reading marks leaves the keys of the table as they are. -/
theorem Value.keys_unmarkEntries {room : String} {entries read : Table}
    (unmarked : Value.unmarkEntries room entries = .ok read) :
    read.map Prod.fst = entries.map Prod.fst := by
  induction entries generalizing read with
  | nil =>
    cases unmarked
    rfl
  | cons entry rest ih =>
    rw [Value.unmarkEntries] at unmarked
    split at unmarked
    · cases unmarked
    · cases unmarked
    next later =>
      cases unmarked
      rw [List.map_cons, List.map_cons, ih later]

end GaugeExporter.Toml
