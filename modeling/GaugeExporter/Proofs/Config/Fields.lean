import GaugeExporter.Config.Decode
import GaugeExporter.Proofs.Fields

/-!
# Settings as fields

Settings are read by a fold over the entries of a table, and each of them is a `Field`
of the result: it is read under a key of its own and changed nowhere else.  So the
result of the fold is what is read under each of the keys, or the default there
(`ExportSettings.foldlM_iff`, `LogSettings.foldlM_iff`, `Config.foldlM_iff`).
-/

namespace GaugeExporter

open Toml (Node Entries ShapeError)

/-! ## Export and log settings -/

/-- The text under the key of a table. -/
def readText (node : Node) : Except ShapeError String := decodeText node.toValue

theorem ExportSettings.output_field : Field ExportSettings.take readText "output"
    ExportSettings.output fun s output => { s with output } where
  own _ _ := rfl
  stored _ _ := rfl
  others s entry s' other taken := by
    unfold ExportSettings.take at taken
    split at taken
    · exact absurd rfl other
    · obtain ⟨interval, -, rfl⟩ := of_map_ok taken
      rfl
    · exact congrArg _ (Except.ok.inj taken).symm

theorem ExportSettings.interval_field : Field ExportSettings.take readText "interval"
    ExportSettings.interval fun s interval => { s with interval } where
  own _ _ := rfl
  stored _ _ := rfl
  others s entry s' other taken := by
    unfold ExportSettings.take at taken
    split at taken
    · obtain ⟨output, -, rfl⟩ := of_map_ok taken
      rfl
    · exact absurd rfl other
    · exact congrArg _ (Except.ok.inj taken).symm

theorem LogSettings.filter_field : Field LogSettings.take readText "filter"
    LogSettings.filter fun s filter => { s with filter } where
  own _ _ := rfl
  stored _ _ := rfl
  others s entry s' other taken := by
    unfold LogSettings.take at taken
    split at taken
    · exact absurd rfl other
    · obtain ⟨format, -, rfl⟩ := of_map_ok taken
      rfl
    · exact congrArg _ (Except.ok.inj taken).symm

theorem LogSettings.format_field : Field LogSettings.take LogFormat.decode "format"
    LogSettings.format fun s format => { s with format } where
  own _ _ := rfl
  stored _ _ := rfl
  others s entry s' other taken := by
    unfold LogSettings.take at taken
    split at taken
    · obtain ⟨filter, -, rfl⟩ := of_map_ok taken
      rfl
    · exact absurd rfl other
    · exact congrArg _ (Except.ok.inj taken).symm

theorem ExportSettings.take_unknown {entry : String × Node} (noOutput : entry.1 ≠ "output")
    (noInterval : entry.1 ≠ "interval") (s : ExportSettings) : s.take entry = .ok s := by
  unfold ExportSettings.take
  split
  · exact absurd rfl noOutput
  · exact absurd rfl noInterval
  · rfl

theorem LogSettings.take_unknown {entry : String × Node} (noFilter : entry.1 ≠ "filter")
    (noFormat : entry.1 ≠ "format") (s : LogSettings) : s.take entry = .ok s := by
  unfold LogSettings.take
  split
  · exact absurd rfl noFilter
  · exact absurd rfl noFormat
  · rfl

theorem ExportSettings.foldlM_iff {entries : Entries} (distinct : (entries.map Prod.fst).Nodup)
    {settings : ExportSettings} : entries.foldlM ExportSettings.take {} = .ok settings ↔
      Reads readText "-" entries "output" settings.output ∧
      Reads readText "15s" entries "interval" settings.interval := by
  constructor
  · intro folded
    exact ⟨output_field.reads distinct folded, interval_field.reads distinct folded⟩
  · rintro ⟨output, interval⟩
    have each : ∀ entry ∈ entries, ∀ s, ∃ s', ExportSettings.take s entry = .ok s' := by
      rintro ⟨key, node⟩ member s
      by_cases atOutput : key = "output"
      · subst atOutput
        exact output_field.succeeds distinct output member s
      by_cases atInterval : key = "interval"
      · subst atInterval
        exact interval_field.succeeds distinct interval member s
      exact ⟨s, take_unknown atOutput atInterval s⟩
    obtain ⟨⟨o, i⟩, folded⟩ := foldlM_succeeds each {}
    cases settings
    cases (output_field.reads distinct folded).eq output
    cases (interval_field.reads distinct folded).eq interval
    exact folded

theorem LogSettings.foldlM_iff {entries : Entries} (distinct : (entries.map Prod.fst).Nodup)
    {settings : LogSettings} : entries.foldlM LogSettings.take {} = .ok settings ↔
      Reads readText "info" entries "filter" settings.filter ∧
      Reads LogFormat.decode .text entries "format" settings.format := by
  constructor
  · intro folded
    exact ⟨filter_field.reads distinct folded, format_field.reads distinct folded⟩
  · rintro ⟨filter, format⟩
    have each : ∀ entry ∈ entries, ∀ s, ∃ s', LogSettings.take s entry = .ok s' := by
      rintro ⟨key, node⟩ member s
      by_cases atFilter : key = "filter"
      · subst atFilter
        exact filter_field.succeeds distinct filter member s
      by_cases atFormat : key = "format"
      · subst atFormat
        exact format_field.succeeds distinct format member s
      exact ⟨s, take_unknown atFilter atFormat s⟩
    obtain ⟨⟨f, g⟩, folded⟩ := foldlM_succeeds each {}
    cases settings
    cases (filter_field.reads distinct folded).eq filter
    cases (format_field.reads distinct folded).eq format
    exact folded

/-! ## Configurations -/

def readProducers (node : Node) : Except ShapeError (List ProducerSettings) := do
  (← decodeItems node.toValue).mapM ProducerSettings.decode

theorem Config.exporter_field : Field Config.take ExportSettings.decode "exporter" Config.exporter
    fun c exporter => { c with exporter } where
  own _ _ := rfl
  stored _ _ := rfl
  others c entry c' other taken := by
    unfold Config.take at taken
    split at taken
    · exact absurd rfl other
    · obtain ⟨logging, -, rfl⟩ := of_map_ok taken
      rfl
    · obtain ⟨items, -, taken⟩ := of_bind_ok taken
      obtain ⟨producers, -, taken⟩ := of_bind_ok taken
      cases taken
      rfl
    · exact congrArg _ (Except.ok.inj taken).symm

theorem Config.logging_field : Field Config.take LogSettings.decode "logging" Config.logging
    fun c logging => { c with logging } where
  own _ _ := rfl
  stored _ _ := rfl
  others c entry c' other taken := by
    unfold Config.take at taken
    split at taken
    · obtain ⟨exporter, -, rfl⟩ := of_map_ok taken
      rfl
    · exact absurd rfl other
    · obtain ⟨items, -, taken⟩ := of_bind_ok taken
      obtain ⟨producers, -, taken⟩ := of_bind_ok taken
      cases taken
      rfl
    · exact congrArg _ (Except.ok.inj taken).symm

theorem Config.producers_field : Field Config.take readProducers "producers" Config.producers
    fun c producers => { c with producers } where
  own c node := by
    simp only [Config.take, readProducers, bind, Except.bind]
    cases decodeItems node.toValue with
    | error e => rfl
    | ok items =>
      simp only
      cases items.mapM ProducerSettings.decode <;> rfl
  stored _ _ := rfl
  others c entry c' other taken := by
    unfold Config.take at taken
    split at taken
    · obtain ⟨exporter, -, rfl⟩ := of_map_ok taken
      rfl
    · obtain ⟨logging, -, rfl⟩ := of_map_ok taken
      rfl
    · exact absurd rfl other
    · exact congrArg _ (Except.ok.inj taken).symm

theorem Config.take_unknown {entry : String × Node} (noExporter : entry.1 ≠ "exporter")
    (noLogging : entry.1 ≠ "logging") (noProducers : entry.1 ≠ "producers") (c : Config) :
    c.take entry = .ok c := by
  unfold Config.take
  split
  · exact absurd rfl noExporter
  · exact absurd rfl noLogging
  · exact absurd rfl noProducers
  · rfl

theorem Config.foldlM_iff {entries : Entries} (distinct : (entries.map Prod.fst).Nodup)
    {c : Config} : Config.decode entries = .ok c ↔
      Reads ExportSettings.decode {} entries "exporter" c.exporter ∧
      Reads LogSettings.decode {} entries "logging" c.logging ∧
      Reads readProducers [] entries "producers" c.producers := by
  rw [Config.decode]
  constructor
  · intro folded
    exact ⟨exporter_field.reads distinct folded, logging_field.reads distinct folded,
      producers_field.reads distinct folded⟩
  · rintro ⟨exporter, logging, producers⟩
    have each : ∀ entry ∈ entries, ∀ c, ∃ c', Config.take c entry = .ok c' := by
      rintro ⟨key, node⟩ member c
      by_cases atExporter : key = "exporter"
      · subst atExporter
        exact exporter_field.succeeds distinct exporter member c
      by_cases atLogging : key = "logging"
      · subst atLogging
        exact logging_field.succeeds distinct logging member c
      by_cases atProducers : key = "producers"
      · subst atProducers
        exact producers_field.succeeds distinct producers member c
      exact ⟨c, take_unknown atExporter atLogging atProducers c⟩
    obtain ⟨⟨e, l, p⟩, folded⟩ := foldlM_succeeds each {}
    cases c
    cases (exporter_field.reads distinct folded).eq exporter
    cases (logging_field.reads distinct folded).eq logging
    cases (producers_field.reads distinct folded).eq producers
    exact folded

end GaugeExporter
