import GaugeExporter.Config.Emit
import GaugeExporter.Proofs.Config.Reading
import GaugeExporter.Proofs.Toml.Documents

/-!
# Configurations come back

A configuration that was read is read back from its text, in every setting and
option, and its text is the same again (`ofText_text`).  Two kinds of
configurations are beside this: those whose options have a table with the key of
marks, and those that are nested deeper than the reader goes.
-/

namespace GaugeExporter

open Toml (Value Table Node Entries)

/-! ## Expressible configurations -/

theorem ProducerSettings.Settled.entries_expressible {p : ProducerSettings} (settled : p.Settled) :
    Table.Expressible p.entries := by
  obtain ⟨distinct, all⟩ := Table.expressible_iff.mp settled.expressible
  refine Table.expressible_iff.mpr ⟨List.nodup_cons.mpr ⟨settled.noKind, distinct⟩, ?_⟩
  intro entry member
  cases List.mem_cons.mp member with
  | inl kind => exact kind ▸ .string _
  | inr option => exact all entry option

theorem Config.entries_expressible {c : Config} (settled : ∀ p ∈ c.producers, p.Settled) :
    Table.Expressible c.entries := by
  have exporter : (Value.table c.exporter.entries).Expressible :=
    Table.expressible_iff.mpr ⟨by simp [ExportSettings.entries], by
      simp only [ExportSettings.entries, List.forall_mem_cons]
      exact ⟨.string _, .string _, nofun⟩⟩
  have logging : (Value.table c.logging.entries).Expressible :=
    Table.expressible_iff.mpr ⟨by simp [LogSettings.entries], by
      simp only [LogSettings.entries, List.forall_mem_cons]
      exact ⟨.string _, .string _, nofun⟩⟩
  have producers : (Value.array (c.producers.map fun p => .table p.entries)).Expressible := by
    refine .array fun v member => ?_
    obtain ⟨p, inside, rfl⟩ := List.mem_map.mp member
    exact (settled p inside).entries_expressible
  refine Table.expressible_iff.mpr ⟨by simp [Config.entries], ?_⟩
  simp only [Config.entries, List.forall_mem_cons]
  exact ⟨exporter, logging, producers, nofun⟩

/-! ## Producers -/

section Producers

variable {p : ProducerSettings} (settled : p.Settled)
include settled

/-- The options come back in their order, whatever order the document has. -/
theorem decodeOptions_rebuilt (unmarked : Toml.entriesUnmarked p.options = true) :
    decodeOptions (Table.rebuilt p.options) = .ok p.options := by
  have keyed : Table.Keyed p.options := settled.expressible.keyed
  have noMarks := Toml.entriesUnmarked_iff.mp unmarked
  have unmark : Value.unmarkEntries "1 element in map" (Table.rebuilt p.options)
      = .ok (Table.rebuilt p.options) := by
    refine Toml.unmarkEntries_same fun entry member => ?_
    obtain ⟨option, inside, rfl⟩ :=
      List.mem_map.mp ((Toml.rebuilt_perm p.options).mem_iff.mp member)
    have keyedOption := keyed.value inside
    exact Toml.unmark_unmarked (Toml.keyed_rebuilt keyedOption)
      (Toml.unmarked_rebuilt keyedOption (noMarks option inside)) _
  have sorted := Toml.table_sorted_rebuilt keyed.distinct fun option inside =>
    Toml.sorted_rebuilt (keyed.value inside)
  rw [decodeOptions, unmark]
  exact congrArg Except.ok (sorted.trans settled.sorted)

theorem filter_rebuilt :
    (Table.rebuilt p.entries).filter (·.1 ≠ kindKey) = Table.rebuilt p.options := by
  have shape : Table.rebuilt p.entries = (kindKey, .string p.kind) :: Table.rebuilt p.options := rfl
  rw [shape, List.filter_cons_of_neg (by simp)]
  refine List.filter_eq_self.mpr fun entry member => ?_
  rw [decide_eq_true_eq]
  intro kind
  have option := (Toml.keys_rebuilt_perm p.options).mem_iff.mp (List.mem_map_of_mem member)
  exact settled.noKind (kind ▸ option)

theorem decode_rebuilt (unmarked : Toml.entriesUnmarked p.options = true) :
    ProducerSettings.decode (.table (Table.rebuilt p.entries)) = .ok p := by
  have kind : (Table.rebuilt p.entries).lookup kindKey = some (.string p.kind) := rfl
  rw [ProducerSettings.decode, producerEntries]
  simp only [bind, Except.bind, kind, decodeText, filter_rebuilt settled,
    decodeOptions_rebuilt settled unmarked]
  rfl

end Producers

theorem mapM_rebuilt {producers : List ProducerSettings}
    (settled : ∀ p ∈ producers, p.Settled)
    (unmarked : ∀ p ∈ producers, Toml.entriesUnmarked p.options = true) :
    (producers.map fun p => Value.table (Table.rebuilt p.entries)).mapM ProducerSettings.decode
      = .ok producers := by
  induction producers with
  | nil => rfl
  | cons p rest ih =>
    have first := decode_rebuilt (settled p List.mem_cons_self) (unmarked p List.mem_cons_self)
    have later := ih (fun q member => settled q (List.mem_cons_of_mem _ member))
      fun q member => unmarked q (List.mem_cons_of_mem _ member)
    rw [List.map_cons, List.mapM_cons, first, later]
    rfl

/-! ## Settings -/

theorem exporter_decode (settings : ExportSettings) :
    ExportSettings.decode (Value.table settings.entries).node = .ok settings := rfl

theorem logging_decode (settings : LogSettings) :
    LogSettings.decode (Value.table settings.entries).node = .ok settings := by
  obtain ⟨filter, format⟩ := settings
  cases format <;> rfl

/-! ## Configurations -/

theorem take_exporter (c : Config) (settings : ExportSettings) :
    c.take ("exporter", (Value.table settings.entries).node)
      = .ok { c with exporter := settings } := by
  rw [Config.take, exporter_decode]
  rfl

theorem take_logging (c : Config) (settings : LogSettings) :
    c.take ("logging", (Value.table settings.entries).node)
      = .ok { c with logging := settings } := by
  rw [Config.take, logging_decode]
  rfl

theorem producers_tables (producers : List ProducerSettings) :
    (producers.map fun p => Value.table p.entries).all Value.isTable = true := by
  rw [List.all_map]
  exact List.all_eq_true.mpr fun _ _ => rfl

theorem take_producers (c : Config) {producers : List ProducerSettings}
    (settled : ∀ p ∈ producers, p.Settled)
    (unmarked : ∀ p ∈ producers, Toml.entriesUnmarked p.options = true) {node : Node}
    (parts : node.toValue = (Value.array (producers.map fun p => .table p.entries)).rebuilt) :
    c.take ("producers", node) = .ok { c with producers } := by
  have decoded : (producers.map (Value.rebuilt ∘ fun p => .table p.entries)).mapM
      ProducerSettings.decode = .ok producers := mapM_rebuilt settled unmarked
  rw [Toml.rebuilt_array (producers_tables producers), List.map_map] at parts
  rw [Config.take, parts]
  simp only [decodeItems, bind, Except.bind, decoded]
  rfl

theorem decode_nodes {c : Config} (settled : ∀ p ∈ c.producers, p.Settled)
    (unmarked : ∀ p ∈ c.producers, Toml.entriesUnmarked p.options = true) :
    Config.decode (Table.nodes c.entries) = .ok c := by
  obtain ⟨exporter, logging, producers⟩ := c
  -- Without producers their empty array is a plain value, which comes first.
  cases producers with
  | nil =>
    have nodes : Table.nodes (Config.entries ⟨exporter, logging, []⟩)
        = [("producers", .value (.array [])), ("exporter", (Value.table exporter.entries).node),
          ("logging", (Value.table logging.entries).node)] := rfl
    rw [nodes, Config.decode, List.foldlM_cons, take_producers {} settled unmarked (by rfl)]
    simp only [bind, Except.bind, List.foldlM_cons, take_exporter, take_logging]
    rfl
  | cons p rest =>
    have header : (Value.array ((p :: rest).map fun p => .table p.entries)).hasHeader = true :=
      producers_tables (p :: rest)
    have nodes : Table.nodes (Config.entries ⟨exporter, logging, p :: rest⟩)
        = [("exporter", (Value.table exporter.entries).node),
          ("logging", (Value.table logging.entries).node),
          ("producers", (Value.array ((p :: rest).map fun p => .table p.entries)).node)] := by
      simp only [Table.nodes, Config.entries, Toml.plainNodes_cons, Toml.headedNodes_cons, header,
        if_true]
      rfl
    rw [nodes, Config.decode]
    simp only [bind, Except.bind, List.foldlM_cons, take_exporter, take_logging]
    rw [take_producers _ settled unmarked (Toml.rebuilt_headed header).symm]
    rfl

/-- No table in an option of a producer has the key of marks. -/
def Config.Unmarked (c : Config) : Prop :=
  ∀ p ∈ c.producers, Toml.entriesUnmarked p.options = true

/-- No statement of the text is nested deeper than the reader goes. -/
def Config.WithinLimit (c : Config) : Prop :=
  ∀ statement ∈ Table.statements c.entries, statement.Shallow

/-- It is enough that the configuration as a whole is not nested so deep. -/
theorem Config.withinLimit_of_depth {c : Config} (settled : ∀ p ∈ c.producers, p.Settled)
    (low : Toml.entriesDepth c.entries ≤ Toml.depthLimit) : c.WithinLimit :=
  Toml.shallow_of_depth (Config.entries_expressible settled) low

/-- The text of a configuration that was read is read as the configuration, and
is its text once more. -/
theorem Config.ofText_text {text : String} {c : Config} (read : Config.ofText text = .ok c)
    (unmarked : c.Unmarked) (within : c.WithinLimit) :
    ∃ c', Config.ofText c.text = .ok c' ∧ c' = c ∧ c'.text = c.text := by
  obtain ⟨settled, valid⟩ := settled_of_ofText read
  refine ⟨c, ?_, rfl, rfl⟩
  rw [Config.ofText, Config.text, Toml.ofText?_text (Config.entries_expressible settled) within]
  simp only
  rw [decode_nodes settled unmarked]
  simp only [valid]

/-- A producer with an array of tables inside a table without a header, and in it
a mixed array with a NaN, a date-time and a string of quotes. -/
def nestedText : String :=
  "[exporter]\ninterval = '2m'\n[[producers]]\nkind = 'static'\n[[producers.z.y]]\nw = [{x = 1},"
    ++ " [nan, -0.0], 1979-05-27 07:32:00.50z, '''\n\"\"\"'\\''', 1e-7]\n[[producers.z.y]]\n"

theorem Config.nestedText_comes_back : ∃ c, Config.ofText nestedText = .ok c ∧ c.Unmarked ∧
    c.WithinLimit ∧ ∃ c', Config.ofText c.text = .ok c' ∧ c' = c ∧ c'.text = c.text := by
  have checked : (Config.ofText nestedText).toOption.any (fun c =>
      c.producers.all (fun p => Toml.entriesUnmarked p.options) &&
        decide (Toml.entriesDepth c.entries ≤ Toml.depthLimit)) = true := by decide +kernel
  cases read : Config.ofText nestedText with
  | error e =>
    rw [read] at checked
    cases checked
  | ok c =>
    rw [read, Except.toOption, Option.any_some, Bool.and_eq_true, List.all_eq_true,
      decide_eq_true_eq] at checked
    obtain ⟨unmarked, low⟩ := checked
    have within := Config.withinLimit_of_depth (settled_of_ofText read).1 low
    exact ⟨c, rfl, unmarked, within, Config.ofText_text read unmarked within⟩

end GaugeExporter
