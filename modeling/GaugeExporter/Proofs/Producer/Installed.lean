import GaugeExporter.Producer.Install
import GaugeExporter.Proofs.Exposition.Grammar
import GaugeExporter.Proofs.Folds
import GaugeExporter.Proofs.Producer.Refreshed
import GaugeExporter.Proofs.Toml.Keyed

/-!
# What producers install

A registry is `Tidy` if its names are valid, no series has a tag key twice and
all of its callbacks belong to producers.  Whatever a configuration says, the
producers that it installs leave a tidy registry (`installAll_tidy`), also when
one of them cannot be installed: every name is looked at before it gets there.
-/

namespace GaugeExporter

open Binary (Double)
open Exposition (isValidName)

namespace Registry

/-! ## Tidy registries -/

structure Tidy (r : Registry) : Prop where
  names : r.NamesValid
  distinct : r.KeysDistinct
  syncCallbacks : ∀ callback ∈ r.syncCallbacks, callback.Sets fun _ => True
  asyncCallbacks : ∀ callback ∈ r.asyncCallbacks, callback.Sets fun _ => True

theorem mem_of_mem_modify {α : Type} {items : Array α} {i : Nat} {change : α → α} {item : α}
    (member : item ∈ items.modify i change) :
    ∃ other ∈ items, item = other ∨ item = change other := by
  obtain ⟨j, inside, rfl⟩ := Array.mem_iff_getElem.mp member
  have present : j < items.size := by simpa using inside
  refine ⟨items[j], Array.getElem_mem present, ?_⟩
  rw [Array.getElem_modify]
  split
  · exact .inr rfl
  · exact .inl rfl

theorem NamesValid.set {r : Registry} (names : r.NamesValid) (s : SeriesId) (value : Double) :
    (r.set s value).NamesValid where
  metrics := names.metrics
  keys series member := by
    simp only [Registry.set] at member
    obtain ⟨other, before, rfl | rfl⟩ := mem_of_mem_modify member
    · exact names.keys series before
    · exact names.keys other before

theorem KeysDistinct.set {r : Registry} (distinct : r.KeysDistinct) (s : SeriesId)
    (value : Double) : (r.set s value).KeysDistinct := by
  intro series member
  simp only [Registry.set] at member
  obtain ⟨other, before, rfl | rfl⟩ := mem_of_mem_modify member
  · exact distinct series before
  · exact distinct other before

namespace Tidy

variable {r : Registry}

theorem empty : Tidy {} := ⟨⟨by simp, by simp⟩, by simp [KeysDistinct], by simp, by simp⟩

theorem addMetric (tidy : r.Tidy) {name : String} (valid : isValidName name = true)
    (sortField : Option String) : (r.addMetric name sortField).1.Tidy where
  names.metrics metric member := by
    cases Array.mem_push.mp member with
    | inl before => exact tidy.names.metrics metric before
    | inr same => exact same ▸ valid
  names.keys := tidy.names.keys
  distinct := tidy.distinct
  syncCallbacks := tidy.syncCallbacks
  asyncCallbacks := tidy.asyncCallbacks

theorem create (tidy : r.Tidy) (m : MetricId) {tags : List Tag}
    (valid : ∀ t ∈ tags, isValidName t.key = true) (distinct : (tags.map Tag.key).Nodup) :
    (r.create m tags).1.Tidy where
  names.metrics metric member := by
    simp only [Registry.create] at member
    obtain ⟨other, before, rfl | rfl⟩ := mem_of_mem_modify member
    · exact tidy.names.metrics metric before
    · exact tidy.names.metrics other before
  names.keys series member := by
    cases Array.mem_push.mp member with
    | inl before => exact tidy.names.keys series before
    | inr same => exact same ▸ valid
  distinct series member := by
    cases Array.mem_push.mp member with
    | inl before => exact tidy.distinct series before
    | inr same => exact same ▸ distinct
  syncCallbacks := tidy.syncCallbacks
  asyncCallbacks := tidy.asyncCallbacks

theorem set (tidy : r.Tidy) (s : SeriesId) (value : Double) : (r.set s value).Tidy where
  names := tidy.names.set s value
  distinct := tidy.distinct.set s value
  syncCallbacks := tidy.syncCallbacks
  asyncCallbacks := tidy.asyncCallbacks

theorem onSync (tidy : r.Tidy) {callback : SyncCallback} (sets : callback.Sets fun _ => True) :
    (r.onSync callback).Tidy where
  names.metrics := tidy.names.metrics
  names.keys := tidy.names.keys
  distinct := tidy.distinct
  syncCallbacks other member := by
    cases List.mem_append.mp member with
    | inl before => exact tidy.syncCallbacks other before
    | inr last => exact List.mem_singleton.mp last ▸ sets
  asyncCallbacks := tidy.asyncCallbacks

theorem onAsync (tidy : r.Tidy) {callback : AsyncCallback} (sets : callback.Sets fun _ => True) :
    (r.onAsync callback).Tidy where
  names.metrics := tidy.names.metrics
  names.keys := tidy.names.keys
  distinct := tidy.distinct
  syncCallbacks := tidy.syncCallbacks
  asyncCallbacks other member := by
    cases List.mem_append.mp member with
    | inl before => exact tidy.asyncCallbacks other before
    | inr last => exact List.mem_singleton.mp last ▸ sets

end Tidy

end Registry

namespace Producer

open Toml (Table Value Misfit)
open Registry (Tidy)

variable {r r' : Registry}

/-! ## Registration -/

theorem addGauge_tidy (tidy : r.Tidy) {name : String} (valid : isValidName name = true)
    {tags : List Tag} (keys : ∀ t ∈ tags, isValidName t.key = true)
    (distinct : (tags.map Tag.key).Nodup) (value : Double) :
    (addGauge r name tags value).1.Tidy :=
  ((tidy.addMetric valid none).create _ keys distinct).set _ value

theorem addProcess_tidy (tidy : r.Tidy) (now : Nat) : (addProcess now r).Tidy := by
  have noTags : ∀ t ∈ ([] : List Tag), isValidName t.key = true := nofun
  have started : isValidName startTimeName = true := by decide
  have uptime : isValidName uptimeName = true := by decide
  exact (addGauge_tidy (addGauge_tidy tidy started noTags List.nodup_nil _) uptime noTags
    List.nodup_nil _).onSync trivial

theorem addLoadAverage_tidy (tidy : r.Tidy) (path : String) : (addLoadAverage path r).Tidy := by
  have name : isValidName LoadAverage.metricName = true := by decide
  have key : isValidName LoadAverage.windowKey = true := by decide
  have windows (m : MetricId) (windows : List String) (made : Registry × List SeriesId)
      (tidy : made.1.Tidy) : (windows.foldl (fun made window =>
        let created := made.1.create m [⟨LoadAverage.windowKey, window⟩]
        (created.1, made.2 ++ [created.2])) made).1.Tidy := by
    refine List.foldlRecOn (motive := fun (made : Registry × List SeriesId) => made.1.Tidy)
      windows _ tidy fun made tidy window _ => ?_
    refine tidy.create m (fun t member => ?_) (List.nodup_singleton _)
    rw [List.mem_singleton.mp member]
    exact key
  have named := tidy.addMetric name (some LoadAverage.windowKey)
  exact (windows r.metrics.size LoadAverage.windows (_, []) named).onAsync fun _ _ => trivial

/-! ## Static gauges -/

theorem keys_plainEntries (entries : Table) :
    (plainEntries entries).map Prod.fst = entries.map Prod.fst := by
  induction entries with
  | nil => rfl
  | cons entry rest ih => rw [plainEntries, List.map_cons, List.map_cons, ih]

theorem tagsOption_distinct {v : Value} {tags : Table} (keyed : v.Keyed)
    (read : tagsOption v = .ok tags) : (tags.map Prod.fst).Nodup := by
  unfold tagsOption at read
  split at read
  · cases read
  next entries isTable =>
    obtain rfl : v = .table entries := by
      cases v with
      | table others => cases isTable; rfl
      | _ => cases isTable
    cases unmarked : Value.unmarkEntries "fewer elements in map" (plainEntries entries) with
    | error cause =>
      rw [unmarked] at read
      cases read
    | ok plain =>
      rw [unmarked] at read
      cases read
      rw [Value.keys_unmarkEntries unmarked, keys_plainEntries]
      exact Table.Keyed.distinct keyed

theorem take_distinct {draft draft' : StaticDraft} {entry : String × Value}
    (keyed : entry.2.Keyed) (distinct : (draft.tags.map Prod.fst).Nodup)
    (taken : draft.take entry = .ok draft') : (draft'.tags.map Prod.fst).Nodup := by
  unfold StaticDraft.take at taken
  split at taken
  next v =>
    cases read : atKey "metric" (textOption "a string" v) with
    | error cause => rw [read] at taken; cases taken
    | ok metric => rw [read] at taken; cases taken; exact distinct
  next v =>
    cases read : atKey "value" (numberOption v) with
    | error cause => rw [read] at taken; cases taken
    | ok value => rw [read] at taken; cases taken; exact distinct
  next v =>
    cases read : tagsOption v with
    | error cause => rw [read] at taken; cases taken
    | ok tags => rw [read] at taken; cases taken; exact tagsOption_distinct keyed read
  · cases taken

theorem decode_distinct {entries : Table} {options : StaticOptions} (keyed : entries.Keyed)
    (decoded : StaticOptions.decode entries = .ok options) :
    (options.tags.map Prod.fst).Nodup := by
  unfold StaticOptions.decode at decoded
  cases folded : entries.foldlM StaticDraft.take {} with
  | error cause =>
    rw [folded] at decoded
    cases decoded
  | ok draft =>
    rw [folded] at decoded
    have distinct : (draft.tags.map Prod.fst).Nodup :=
      @foldlM_keeps _ _ _ _ (fun draft : StaticDraft => (draft.tags.map Prod.fst).Nodup) _
        (fun _ _ _ member distinct taken => take_distinct (keyed.value member) distinct taken)
        {} draft List.nodup_nil folded
    simp only [bind, Except.bind] at decoded
    split at decoded
    · cases decoded
    · cases decoded
    · cases decoded
      exact distinct

theorem of_checkName {what : Named} {name : String} {u : Unit}
    (checked : checkName what name = .ok u) : isValidName name = true := by
  unfold checkName at checked
  split at checked
  next valid => exact valid
  next => cases checked

theorem forM_ok {ε α : Type} {check : α → Except ε Unit} {items : List α} {u : Unit}
    (checked : items.forM check = .ok u) : ∀ item ∈ items, check item = .ok () := by
  induction items with
  | nil => exact nofun
  | cons first rest ih =>
    rw [List.forM] at checked
    cases now : check first with
    | error e =>
      rw [now] at checked
      cases checked
    | ok _ =>
      rw [now] at checked
      intro item member
      cases List.mem_cons.mp member with
      | inl same => exact same ▸ now
      | inr later => exact ih checked item later

theorem check_ok {options : Table} {settings : StaticOptions}
    (checked : StaticOptions.check options = .ok settings) :
    StaticOptions.decode options = .ok settings ∧ isValidName settings.metric = true ∧
      ∀ entry ∈ settings.tags, isValidName entry.1 = true := by
  unfold StaticOptions.check at checked
  obtain ⟨others, decodes, checked⟩ := of_bind_ok checked
  obtain ⟨_, metric, checked⟩ := of_bind_ok checked
  obtain ⟨_, tags, checked⟩ := of_bind_ok checked
  cases checked
  refine ⟨?_, of_checkName metric, fun entry member => of_checkName (forM_ok tags entry member)⟩
  cases read : StaticOptions.decode options with
  | error cause => rw [read] at decodes; cases decodes
  | ok _ => rw [read] at decodes; cases decodes; rfl

/-! ## Installation -/

/-- What an installation can do: it fails and changes nothing, or it registers
all that belongs to the producer. -/
inductive Installs (now : Nat) (r : Registry) (settings : ProducerSettings) :
    Registry → Except InstallError Unit → Prop
  | failed (e : InstallError) : Installs now r settings r (.error e)
  | static {options : StaticOptions} (kind : settings.kind = Kind.static.name)
      (decodes : StaticOptions.decode settings.options = .ok options)
      (metric : isValidName options.metric = true)
      (tags : ∀ entry ∈ options.tags, isValidName entry.1 = true) :
      Installs now r settings (addGauge r options.metric options.tagList options.value).1 (.ok ())
  | process (kind : settings.kind = Kind.process.name) :
      Installs now r settings (addProcess now r) (.ok ())
  | loadAverage {path : String} (kind : settings.kind = Kind.loadAverage.name)
      (decodes : loadPath settings.options = .ok path) :
      Installs now r settings (addLoadAverage path r) (.ok ())

theorem name_of_find? {name : String} {kind : Kind} (found : Kind.find? name = some kind) :
    name = kind.name := by
  have same := List.find?_some found
  exact (beq_iff_eq.mp same).symm

theorem installs (now : Nat) (r : Registry) (settings : ProducerSettings) :
    Installs now r settings ((install now settings).on r).1 ((install now settings).on r).2 := by
  unfold install
  cases found : Kind.find? settings.kind with
  | none => exact .failed _
  | some kind =>
    have named := name_of_find? found
    cases kind with
    | process => exact .process named
    | static =>
      simp only [build, buildStatic, Installation.on_bind, Installation.on_check]
      cases checks : StaticOptions.check settings.options with
      | error e => exact .failed e
      | ok options =>
        obtain ⟨decodes, metric, tags⟩ := check_ok checks
        exact .static named decodes metric tags
    | loadAverage =>
      simp only [build, buildLoadAverage, Installation.on_bind, Installation.on_check]
      cases decodes : loadPath settings.options with
      | error cause => exact .failed _
      | ok path => exact .loadAverage named decodes

theorem install_tidy (tidy : r.Tidy) (now : Nat) {settings : ProducerSettings}
    (keyed : Table.Keyed settings.options) : ((install now settings).on r).1.Tidy := by
  have installs := installs now r settings
  generalize (install now settings).on r = done at installs ⊢
  obtain ⟨r', result⟩ := done
  cases installs with
  | failed e => exact tidy
  | @static options kind decodes metric tags =>
    refine addGauge_tidy tidy metric ?_ ?_ options.value
    · intro t member
      obtain ⟨entry, inside, rfl⟩ := List.mem_map.mp member
      exact tags entry inside
    · have same : options.tagList.map Tag.key = options.tags.map Prod.fst := by
        rw [StaticOptions.tagList, List.map_map]
        rfl
      rw [same]
      exact decode_distinct keyed decodes
  | process kind => exact addProcess_tidy tidy now
  | @loadAverage path kind decodes => exact addLoadAverage_tidy tidy path

theorem installEach_tidy (tidy : r.Tidy) (now : Nat) {producers : List ProducerSettings}
    (keyed : ∀ settings ∈ producers, Table.Keyed settings.options) :
    (Installation.on r (producers.forM (install now))).1.Tidy := by
  induction producers generalizing r with
  | nil => exact tidy
  | cons settings rest ih =>
    rw [List.forM, Installation.on_bind]
    have first := install_tidy tidy now (keyed settings List.mem_cons_self)
    split
    next installed =>
      rw [installed] at first
      exact ih first fun other member => keyed other (List.mem_cons_of_mem _ member)
    next failed =>
      rw [failed] at first
      exact first

/-- Also when a producer cannot be installed. -/
theorem installAll_tidy (tidy : r.Tidy) (now : Nat) {producers : List ProducerSettings}
    (keyed : ∀ settings ∈ producers, Table.Keyed settings.options) :
    (installAll now r producers).1.Tidy := by
  have each := installEach_tidy tidy now keyed
  rw [installAll, Installation.on_bind]
  split
  next installed => rw [installed] at each; exact each
  next failed => rw [failed] at each; exact each

end Producer

end GaugeExporter
