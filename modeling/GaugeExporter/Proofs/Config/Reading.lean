import GaugeExporter.Config.Decode
import GaugeExporter.Proofs.Toml.Marks
import GaugeExporter.Proofs.Toml.Reading

/-!
# What configurations hold

The options of a producer that was read are `Settled`: a document can say them,
they stand in the order of their keys, and the kind is not among them
(`settled_of_ofText`).  Marks only add date-times that were read.
-/

namespace GaugeExporter

open Toml (Value Table Node Entries Misfit ShapeError)

/-! ## Producers -/

/-- The options of a producer as reading leaves them. -/
structure ProducerSettings.Settled (p : ProducerSettings) : Prop where
  expressible : Table.Expressible p.options
  sorted : Table.sorted p.options = p.options
  noKind : kindKey ∉ p.options.map Prod.fst

theorem settled_of_decodeOptions {entries options : Table} (expressible : Table.Expressible entries)
    (decoded : decodeOptions entries = .ok options) :
    Table.Expressible options ∧ Table.sorted options = options ∧
      (options.map Prod.fst).Perm (entries.map Prod.fst) := by
  rw [decodeOptions] at decoded
  split at decoded
  · cases decoded
  next read unmarked =>
    cases decoded
    obtain ⟨distinct, all⟩ := Table.expressible_iff.mp expressible
    have each : ∀ entry ∈ read, entry.2.Expressible := by
      intro entry member
      obtain ⟨other, origin, same⟩ := Toml.mem_unmarkEntries unmarked entry member
      exact Toml.expressible_of_unmark (all other origin) same
    have keys := Value.keys_unmarkEntries unmarked
    have whole : Table.Expressible read := Table.expressible_iff.mpr ⟨by rwa [keys], each⟩
    refine ⟨?_, Toml.table_sorted_sorted fun entry member => (each entry member).sorted_sorted, ?_⟩
    · have sorted := whole.sorted
      rwa [Value.sorted_table] at sorted
    · rw [← keys]
      exact Toml.keys_sorted_perm read

theorem settled_of_decode {v : Value} {p : ProducerSettings} (expressible : v.Expressible)
    (decoded : ProducerSettings.decode v = .ok p) : p.Settled := by
  rw [ProducerSettings.decode] at decoded
  obtain ⟨entries, read, decoded⟩ := of_bind_ok decoded
  have whole : Table.Expressible entries := by
    unfold producerEntries at read
    split at read
    · cases read
      exact expressible
    · cases read
      exact .table List.nodup_nil nofun
    · cases read
  obtain ⟨distinct, all⟩ := Table.expressible_iff.mp whole
  have rest : Table.Expressible (entries.filter (·.1 ≠ kindKey)) :=
    Table.expressible_iff.mpr ⟨(List.filter_sublist.map _).nodup distinct,
      fun entry member => all entry (List.mem_filter.mp member).1⟩
  split at decoded
  · cases decoded
  · obtain ⟨kind, -, decoded⟩ := of_bind_ok decoded
    obtain ⟨options, read, decoded⟩ := of_bind_ok decoded
    cases decoded
    obtain ⟨said, sorted, keys⟩ := settled_of_decodeOptions rest read
    refine ⟨said, sorted, fun member => ?_⟩
    obtain ⟨entry, inside, same⟩ := List.mem_map.mp (keys.mem_iff.mp member)
    simpa [same] using (List.mem_filter.mp inside).2

/-! ## Configurations -/

theorem settled_of_decodeItems {v : Value} (expressible : v.Expressible) {items : List Value}
    (read : decodeItems v = .ok items) {producers : List ProducerSettings}
    (decoded : items.mapM ProducerSettings.decode = .ok producers) :
    ∀ p ∈ producers, p.Settled := by
  intro p member
  obtain ⟨item, inside, origin⟩ := mem_of_mapM decoded p member
  unfold decodeItems at read
  split at read
  · cases read
    cases expressible
    next all => exact settled_of_decode (all item inside) origin
  · cases read

theorem take_settled {c c' : Config} {entry : String × Node} (sound : entry.2.Sound)
    (settled : ∀ p ∈ c.producers, p.Settled) (taken : c.take entry = .ok c') :
    ∀ p ∈ c'.producers, p.Settled := by
  unfold Config.take at taken
  split at taken
  next node =>
    cases read : ExportSettings.decode node with
    | error e => rw [read] at taken; cases taken
    | ok settings => rw [read] at taken; cases taken; exact settled
  next node =>
    cases read : LogSettings.decode node with
    | error e => rw [read] at taken; cases taken
    | ok settings => rw [read] at taken; cases taken; exact settled
  next node =>
    obtain ⟨items, read, taken⟩ := of_bind_ok taken
    obtain ⟨producers, decoded, taken⟩ := of_bind_ok taken
    cases taken
    exact settled_of_decodeItems sound read decoded
  · cases taken
    exact settled

/-- What a text is read as is settled and valid. -/
theorem settled_of_ofText {text : String} {c : Config} (read : Config.ofText text = .ok c) :
    (∀ p ∈ c.producers, p.Settled) ∧ c.validate = .ok () := by
  rw [Config.ofText] at read
  split at read
  · cases read
  next entries parsed =>
    split at read
    · split at read <;> cases read
    next c' decoded =>
      split at read
      · cases read
      next valid =>
        cases read
        refine ⟨?_, valid⟩
        have sound := (Toml.Entries.sound_iff.mp (Toml.sound_of_ofText? parsed)).2
        exact @foldlM_keeps _ _ _ _ (fun c : Config => ∀ p ∈ c.producers, p.Settled) _
          (fun _ entry _ member settled taken => take_settled (sound entry member) settled taken)
          {} c nofun decoded

end GaugeExporter
