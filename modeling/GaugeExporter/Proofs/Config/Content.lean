import GaugeExporter.Proofs.Config.Fields
import GaugeExporter.Proofs.Toml.Drafts
import GaugeExporter.Proofs.Toml.Reordering

/-!
# What configurations hold of their documents

A configuration holds what its document says and nothing else: each setting is the
string under its key or the default, and each producer is an element of the array of
producers with its kind taken out (`Config.Holds`).  Reading gives exactly the
configurations of which this is true (`Config.decode_iff`).
-/

namespace GaugeExporter

open Toml (Value Table Node Entries ShapeError finished)

/-! ## What a configuration holds -/

/-- What stands under a key of a table in the document. -/
def given? (doc : Table) (part key : String) : Option Value :=
  match doc.lookup part with
  | some (.table entries) => entries.lookup key
  | _ => none

/-- The string that is given, or the default if nothing is. -/
def Chosen (given? : Option Value) (default chosen : String) : Prop :=
  given? = some (.string chosen) ∨ given? = none ∧ chosen = default

/-- The producer is the table with its kind taken out.  The other entries are the
options, all of them once, in the order of their keys. -/
structure ProducerSettings.Holds (p : ProducerSettings) (entries : Table) : Prop where
  kind : entries.lookup "kind" = some (.string p.kind)
  options : (Value.table (entries.filter fun entry => entry.1 ≠ "kind")).Reordered
    (.table p.options)
  sorted : Table.sorted p.options = p.options
  once : (p.options.map Prod.fst).Nodup
  noKind : "kind" ∉ p.options.map Prod.fst

/-- The configuration has the settings and the producers of the document, and
defaults in the place of what it does not say. -/
structure Config.Holds (c : Config) (doc : Table) : Prop where
  output : Chosen (given? doc "exporter" "output") "-" c.exporter.output
  interval : Chosen (given? doc "exporter" "interval") "15s" c.exporter.interval
  filter : Chosen (given? doc "logging" "filter") "info" c.logging.filter
  format : Chosen (given? doc "logging" "format") "text" c.logging.format.name
  producers : ∃ items, (doc.lookup "producers" = some (.array items) ∨
      doc.lookup "producers" = none ∧ items = []) ∧
    List.Forall₂ (fun item p => ∃ entries, item = .table entries ∧ p.Holds entries)
      items c.producers

/-- Settings are written as tables and the log format as a string, and no producer
has marks. -/
structure Conventional (doc : Table) : Prop where
  exporter : ∀ v, doc.lookup "exporter" = some v → ∃ entries, v = .table entries
  logging : ∀ v, doc.lookup "logging" = some v → ∃ entries, v = .table entries
  format : ∀ v, given? doc "logging" "format" = some v → ∃ name, v = .string name
  unmarked : ∀ v, doc.lookup "producers" = some v → v.unmarked = true

/-! ## Settings -/

theorem decodeText_iff {v : Value} {s : String} : decodeText v = .ok s ↔ v = .string s := by
  unfold decodeText
  split
  · simp
  next other => exact ⟨nofun, fun same => absurd same (other s)⟩

theorem lookup_finished (entries : Entries) (key : String) :
    (finished entries).lookup key = (entries.lookup key).map Node.toValue := by
  induction entries with
  | nil => rfl
  | cons entry rest ih =>
    obtain ⟨k, node⟩ := entry
    rw [finished, List.lookup_cons, List.lookup_cons, ih]
    cases key == k <;> rfl

theorem keys_finished (entries : Entries) :
    (finished entries).map Prod.fst = entries.map Prod.fst := by
  rw [Toml.finished_eq_map, List.map_map]
  rfl

theorem reads_text {entries : Entries} {key default s : String} :
    Reads readText default entries key s ↔ Chosen ((finished entries).lookup key) default s := by
  rw [Reads, Chosen, lookup_finished]
  cases entries.lookup key with
  | none => simp
  | some node => simp [readText, decodeText_iff]

theorem ofName_iff {name : String} {format : LogFormat} :
    LogFormat.ofName name = .ok format ↔ name = format.name := by
  unfold LogFormat.ofName
  split
  · cases format <;> simp [LogFormat.name]
  · cases format <;> simp [LogFormat.name]
  next noText noJson => cases format <;> simp_all [LogFormat.name]

theorem decode_format {node : Node} {name : String} (string : node.toValue = .string name) :
    LogFormat.decode node = LogFormat.ofName name := by
  cases node with
  | value v =>
    cases string
    rfl
  | table => cases string
  | tables => cases string

theorem reads_format {entries : Entries}
    (string : ∀ v, (finished entries).lookup "format" = some v → ∃ name, v = .string name)
    {format : LogFormat} : Reads LogFormat.decode .text entries "format" format ↔
      Chosen ((finished entries).lookup "format") "text" format.name := by
  rw [lookup_finished] at string
  rw [Reads, Chosen, lookup_finished]
  cases found : entries.lookup "format" with
  | none => cases format <;> simp [LogFormat.name]
  | some node =>
    obtain ⟨name, same⟩ := string node.toValue (by rw [found]; rfl)
    simp [decode_format same, ofName_iff, same]

/-- A table gives its entries, however it is written. -/
theorem settingsEntries_table {node : Node} {entries : Table}
    (table : node.toValue = .table entries) (fields : List String) (expected : String) :
    ∃ nodes, settingsEntries fields expected node = .ok nodes ∧ finished nodes = entries := by
  cases node with
  | value v =>
    cases table
    exact ⟨_, rfl, Toml.finished_plain entries⟩
  | table origin nodes =>
    cases table
    exact ⟨nodes, rfl, rfl⟩
  | tables => cases table

theorem ExportSettings.decode_iff {node : Node} {entries : Table}
    (table : node.toValue = .table entries) (distinct : (entries.map Prod.fst).Nodup)
    {settings : ExportSettings} : ExportSettings.decode node = .ok settings ↔
      Chosen (entries.lookup "output") "-" settings.output ∧
      Chosen (entries.lookup "interval") "15s" settings.interval := by
  obtain ⟨nodes, given, rfl⟩ :=
    settingsEntries_table table ["output", "interval"] "struct ExporterConfig"
  rw [keys_finished] at distinct
  rw [← reads_text, ← reads_text, ← ExportSettings.foldlM_iff distinct, ExportSettings.decode,
    given]
  rfl

theorem LogSettings.decode_iff {node : Node} {entries : Table}
    (table : node.toValue = .table entries) (distinct : (entries.map Prod.fst).Nodup)
    (string : ∀ v, entries.lookup "format" = some v → ∃ name, v = .string name)
    {settings : LogSettings} : LogSettings.decode node = .ok settings ↔
      Chosen (entries.lookup "filter") "info" settings.filter ∧
      Chosen (entries.lookup "format") "text" settings.format.name := by
  obtain ⟨nodes, given, rfl⟩ :=
    settingsEntries_table table ["filter", "format"] "struct LoggingConfig"
  rw [keys_finished] at distinct
  rw [← reads_text, ← reads_format string, ← LogSettings.foldlM_iff distinct, LogSettings.decode,
    given]
  rfl

/-! ## Producers -/

/-- Without marks the options are the other entries, with their keys in order. -/
theorem decodeOptions_unmarked {entries : Table} (keyed : Table.Keyed entries)
    (unmarked : ∀ entry ∈ entries, entry.2.unmarked = true) :
    decodeOptions entries = .ok (Table.sorted entries) := by
  rw [decodeOptions, Toml.unmarkEntries_same fun entry member =>
    Toml.unmark_unmarked (keyed.value member) (unmarked entry member) _]
  rfl

theorem keyed_filter {entries : Table} (keyed : Table.Keyed entries)
    (keep : String × Value → Bool) : Table.Keyed (entries.filter keep) :=
  .table ((List.filter_sublist.map _).nodup keyed.distinct) fun _ member =>
    keyed.value (List.mem_filter.mp member).1

theorem sorted_sorted {entries : Table} (keyed : Table.Keyed entries) :
    Table.sorted (Table.sorted entries) = Table.sorted entries := by
  have same := (Value.Reordered.sorted keyed).sorted_eq keyed
  rw [Value.sorted_table, Value.sorted_table] at same
  exact (Value.table.inj same).symm

/-- The entries of a table without its kind. -/
def otherEntries (entries : Table) : Table := entries.filter (·.1 ≠ kindKey)

theorem ProducerSettings.holds_sorted {entries : Table} (keyed : Table.Keyed entries)
    {kind : String} (found : entries.lookup kindKey = some (.string kind)) :
    ProducerSettings.Holds ⟨kind, Table.sorted (otherEntries entries)⟩ entries := by
  have rest : Table.Keyed (otherEntries entries) := keyed_filter keyed _
  have keys := Toml.keys_sorted_perm (otherEntries entries)
  refine ⟨found, ?_, sorted_sorted rest, keys.nodup_iff.mpr rest.distinct, fun member => ?_⟩
  · have reordered := Value.Reordered.sorted rest
    rwa [Value.sorted_table] at reordered
  · obtain ⟨entry, inside, same⟩ := List.mem_map.mp (keys.mem_iff.mp member)
    simpa [kindKey, same] using (List.mem_filter.mp inside).2

theorem ProducerSettings.Holds.sorted_eq {p : ProducerSettings} {entries : Table}
    (holds : p.Holds entries) (keyed : Table.Keyed entries) :
    Table.sorted (otherEntries entries) = p.options := by
  have rest : Table.Keyed (otherEntries entries) := keyed_filter keyed _
  have sorted := holds.options.sorted_eq rest
  rw [Value.sorted_table, Value.sorted_table, holds.sorted] at sorted
  exact Value.table.inj sorted

/-- A producer is read from the tables whose content it holds. -/
theorem ProducerSettings.decode_iff {item : Value} (keyed : item.Keyed)
    (unmarked : item.unmarked = true) {p : ProducerSettings} :
    ProducerSettings.decode item = .ok p ↔ ∃ entries, item = .table entries ∧ p.Holds entries := by
  have options {entries : Table} (same : item = .table entries) :
      decodeOptions (otherEntries entries) = .ok (Table.sorted (otherEntries entries)) := by
    subst same
    exact decodeOptions_unmarked (keyed_filter keyed _) fun entry member =>
      (Toml.unmarked_table.mp unmarked).2 entry (List.mem_filter.mp member).1
  rw [ProducerSettings.decode]
  constructor
  · intro decoded
    obtain ⟨entries, found, decoded⟩ := of_bind_ok decoded
    split at decoded
    · cases decoded
    next v kind =>
      obtain ⟨name, string, decoded⟩ := of_bind_ok decoded
      rw [decodeText_iff] at string
      subst string
      have same : item = .table entries := by
        unfold producerEntries at found
        split at found <;> cases found
        · rfl
        · cases kind
      change (decodeOptions (otherEntries entries) >>= _) = _ at decoded
      rw [options same] at decoded
      cases decoded
      subst same
      exact ⟨entries, rfl, holds_sorted keyed kind⟩
  · rintro ⟨entries, rfl, holds⟩
    have kind : entries.lookup kindKey = some (.string p.kind) := holds.kind
    have rest := options rfl
    rw [holds.sorted_eq keyed, otherEntries] at rest
    rw [producerEntries]
    simp only [bind, Except.bind, kind, decodeText, rest]
    rfl

theorem mapM_iff {items : List Value} (keyed : ∀ item ∈ items, item.Keyed)
    (unmarked : ∀ item ∈ items, item.unmarked = true) {producers : List ProducerSettings} :
    items.mapM ProducerSettings.decode = .ok producers ↔
      List.Forall₂ (fun item p => ∃ entries, item = .table entries ∧ p.Holds entries)
        items producers := by
  induction items generalizing producers with
  | nil =>
    rw [List.forall₂_nil_left_iff]
    exact ⟨fun same => (Except.ok.inj same).symm, fun same => same ▸ rfl⟩
  | cons item rest ih =>
    have first {p : ProducerSettings} := @ProducerSettings.decode_iff item
      (keyed item List.mem_cons_self) (unmarked item List.mem_cons_self) p
    replace ih := @ih (fun other member => keyed other (List.mem_cons_of_mem _ member))
      fun other member => unmarked other (List.mem_cons_of_mem _ member)
    rw [List.mapM_cons]
    constructor
    · intro mapped
      obtain ⟨p, now, mapped⟩ := of_bind_ok mapped
      obtain ⟨others, later, mapped⟩ := of_bind_ok mapped
      cases mapped
      exact .cons (first.mp now) (ih.mp later)
    · rintro (_ | ⟨now, later⟩)
      rw [first.mpr now, ih.mpr later]
      rfl

/-! ## Configurations -/

section Decoding

variable {entries : Entries} (keyed : Table.Keyed (finished entries))
  (shaped : Conventional (finished entries))
include keyed shaped

theorem reads_exporter {settings : ExportSettings} :
    Reads ExportSettings.decode {} entries "exporter" settings ↔
      Chosen (given? (finished entries) "exporter" "output") "-" settings.output ∧
      Chosen (given? (finished entries) "exporter" "interval") "15s" settings.interval := by
  have isTable := shaped.exporter
  rw [Reads, given?, given?]
  rw [lookup_finished] at isTable ⊢
  cases found : entries.lookup "exporter" with
  | none => cases settings; simp [Chosen]
  | some node =>
    obtain ⟨inner, table⟩ := isTable node.toValue (by rw [found]; rfl)
    have inside := keyed.value (Toml.mem_of_lookup (by rw [lookup_finished, found]; rfl))
    rw [table] at inside
    simp only [Option.map_some, table]
    exact ExportSettings.decode_iff table (Table.Keyed.distinct inside)

theorem reads_logging {settings : LogSettings} :
    Reads LogSettings.decode {} entries "logging" settings ↔
      Chosen (given? (finished entries) "logging" "filter") "info" settings.filter ∧
      Chosen (given? (finished entries) "logging" "format") "text" settings.format.name := by
  have isTable := shaped.logging
  have string := shaped.format
  rw [Reads, given?, given?]
  rw [given?] at string
  rw [lookup_finished] at isTable string ⊢
  cases found : entries.lookup "logging" with
  | none =>
    obtain ⟨filter, format⟩ := settings
    cases format <;> simp [Chosen, LogFormat.name]
  | some node =>
    obtain ⟨inner, table⟩ := isTable node.toValue (by rw [found]; rfl)
    have inside := keyed.value (Toml.mem_of_lookup (by rw [lookup_finished, found]; rfl))
    rw [table] at inside
    simp only [found, Option.map_some, table] at string ⊢
    exact LogSettings.decode_iff table (Table.Keyed.distinct inside) string

theorem reads_producers {producers : List ProducerSettings} :
    Reads readProducers [] entries "producers" producers ↔
      ∃ items, ((finished entries).lookup "producers" = some (.array items) ∨
          (finished entries).lookup "producers" = none ∧ items = []) ∧
        List.Forall₂ (fun item p => ∃ entries, item = .table entries ∧ p.Holds entries)
          items producers := by
  have unmarked := shaped.unmarked
  rw [Reads]
  rw [lookup_finished] at unmarked ⊢
  cases found : entries.lookup "producers" with
  | none => simp
  | some node =>
    have inside := keyed.value (Toml.mem_of_lookup (by rw [lookup_finished, found]; rfl))
    have noMarks := unmarked node.toValue (by rw [found]; rfl)
    have each {items : List Value} (array : node.toValue = .array items) :=
      @mapM_iff items (fun item member => by
        rw [array] at inside
        cases inside
        next all => exact all item member) (by
        rw [array] at noMarks
        exact Toml.unmarked_array.mp noMarks) producers
    simp only [Option.map_some, Option.some.injEq, reduceCtorEq, false_and, or_false, readProducers]
    constructor
    · intro read
      obtain ⟨items, array, mapped⟩ := of_bind_ok read
      unfold decodeItems at array
      split at array <;> cases array
      next array => exact ⟨items, array, (each array).mp mapped⟩
    · rintro ⟨items, array, all⟩
      rw [array, decodeItems]
      exact (each array).mpr all

/-- The configurations that are read from entries are those that hold their content. -/
theorem Config.decode_iff {c : Config} :
    Config.decode entries = .ok c ↔ c.Holds (finished entries) := by
  rw [Config.foldlM_iff (by rw [← keys_finished]; exact keyed.distinct),
    reads_exporter keyed shaped, reads_logging keyed shaped, reads_producers keyed shaped]
  constructor
  · rintro ⟨⟨output, interval⟩, ⟨filter, format⟩, producers⟩
    exact ⟨output, interval, filter, format, producers⟩
  · rintro ⟨output, interval, filter, format, producers⟩
    exact ⟨⟨output, interval⟩, ⟨filter, format⟩, producers⟩

end Decoding

end GaugeExporter
