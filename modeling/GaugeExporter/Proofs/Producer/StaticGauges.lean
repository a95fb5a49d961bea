import GaugeExporter.Proofs.Decimal.Integers
import GaugeExporter.Proofs.Exposition.Values
import GaugeExporter.Proofs.Producer.Estates
import GaugeExporter.Proofs.Producer.StaticOptions
import GaugeExporter.Proofs.Text.Order

/-!
# Static gauges

Options that describe a gauge make one, and no others do (`static_makes_gauge`).  Its only
series has the tags in the order of their keys, with texts that depend on the kinds of
their values (`TagText`).  The series is an estate without a file, so nothing ever changes
it, and the gauge is in every later document if its value is finite and in none otherwise.
-/

namespace GaugeExporter

open Binary (Double signed)
open Decimal (shortest)
open Exposition (Family FewestDigits IsPlain signedText)
open Toml (Value Table)

/-! ## Texts of tags -/

/-- The text of a float without an exponent: the fewest digits that round to it. -/
def Exposition.PlainText (x : Double) (text : List Char) : Prop :=
  match x.number with
  | .finite .. => ∃ d c, FewestDigits d x ∧ text = signedText x d.positional ∧
      IsPlain d.positional c ∧ c.value = d.value
  | .nan => text = "NaN".toList
  | .infinite negative => text = if negative then "-inf".toList else "inf".toList

theorem Exposition.plainText_plain (x : Double) : PlainText x x.plain := by
  have shape : x.number = Binary.double.classify x.bits.toNat := rfl
  unfold PlainText
  cases parts : x.number with
  | nan => rw [Double.plain, Decimal.Text.write, ← shape, parts]; rfl
  | infinite negative =>
    rw [Double.plain, Decimal.Text.write, ← shape, parts]
    cases negative <;> rfl
  | finite negative m e =>
    obtain ⟨c, isPlain, same⟩ := isPlain_positional (shortest Binary.double m e)
    refine ⟨_, c, fewestDigits_shortest parts, ?_, isPlain, same⟩
    rw [signedText, Decimal.isNegative_of_parts parts]
    exact Decimal.Text.write_finite Decimal.Text.plainStyle parts

namespace Producer

/-- The text that the value of a tag gets: that of a scalar by itself, and for arrays and
tables that of the value on one line with its date-times as strings. -/
inductive TagText : Value → String → Prop
  | string (s : String) : TagText (.string s) s
  | boolean (b : Bool) : TagText (.boolean b) (if b then "true" else "false")
  | integer (n : Int) : TagText (.integer n) (toString n)
  | float {x : Double} {text : List Char} (plain : Exposition.PlainText x text) :
      TagText (.float x) (String.ofList text)
  | dateTime (d : Toml.DateTime) : TagText (.dateTime d) (String.ofList d.text)
  | array (items : List Value) :
      TagText (.array items) (Value.array (items.map plainDates)).text
  | table (entries : Table) : TagText (.table entries)
      (Value.table (entries.map fun entry => (entry.1, plainDates entry.2))).text

theorem tagText_plainDates (v : Value) : TagText v (tagValue (plainDates v)).toText := by
  cases v with
  | string s => exact .string s
  | boolean b => exact .boolean b
  | integer n =>
    have written : (tagValue (plainDates (.integer n))).toText
        = String.ofList (Decimal.integer n) := rfl
    rw [written, Exposition.integer_eq_toString, String.ofList_toList]
    exact .integer n
  | float x => exact .float (Exposition.plainText_plain x)
  | dateTime d => exact .dateTime d
  | array items =>
    rw [plainDates, plainItems_eq_map]
    exact .array items
  | table entries =>
    rw [plainDates, plainEntries_eq_map]
    exact .table entries

/-- The tags are the entries of a table with their texts, in the order of the bytes of
their keys. -/
structure Tagging (tags : Table) (shown : List Tag) : Prop where
  entries : List.Forall₂ (fun entry t => t.key = entry.1 ∧ TagText entry.2 t.value) tags shown
  ascending : (shown.map fun t => Text.bytes t.key).Pairwise (· < ·)

variable {options tags : Table}

/-- The tags that a static gauge gets for a table. -/
def shownTags (tags : Table) : List Tag :=
  tags.map fun entry => .of entry.1 (tagValue (plainDates entry.2))

theorem tagging_shownTags (ascending : (tags.map Prod.fst).Pairwise (· < ·)) :
    Tagging tags (shownTags tags) where
  entries := by
    rw [shownTags, List.forall₂_map_right_iff]
    exact List.forall₂_same.mpr fun entry _ => ⟨rfl, tagText_plainDates entry.2⟩
  ascending := by
    rw [shownTags, List.map_map, List.pairwise_map]
    rw [List.pairwise_map] at ascending
    exact ascending.imp fun less => Text.utf8_lt_iff.mpr less

theorem Describes.ascending {name : String} {value : Double} (orderly : Orderly options)
    (describes : Describes options name value tags) : (tags.map Prod.fst).Pairwise (· < ·) := by
  obtain found | ⟨-, rfl⟩ := describes.tagged
  · exact orderly.ascending (Toml.mem_of_lookup found)
  · exact List.Pairwise.nil

/-! ## Building -/

theorem buildStatic_on (r : Registry) (options : Table) : (buildStatic options).on r =
    match StaticOptions.check options with
    | .ok settings => ((addGauge r settings.metric settings.tagList settings.value).1, .ok ())
    | .error e => (r, .error e) := by
  rw [buildStatic, Installation.on_bind, Installation.on_check]
  cases StaticOptions.check options <;> rfl

theorem tagList_plainEntries (name : String) (value : Double) (tags : Table) :
    (StaticOptions.mk name value (plainEntries tags)).tagList = shownTags tags := by
  rw [StaticOptions.tagList, plainEntries_eq_map, List.map_map]
  rfl

theorem Describes.check {name : String} {value : Double} (orderly : Orderly options)
    (describes : Describes options name value tags) :
    StaticOptions.check options = .ok ⟨name, value, plainEntries tags⟩ :=
  (check_iff_describes orderly).mpr ⟨tags, rfl, describes⟩

theorem buildStatic_ok_iff (orderly : Orderly options) (r : Registry) :
    ((buildStatic options).on r).2 = .ok () ↔
      ∃ name value tags, Describes options name value tags := by
  rw [buildStatic_on]
  constructor
  · intro succeeded
    cases checks : StaticOptions.check options with
    | error e => rw [checks] at succeeded; cases succeeded
    | ok settings =>
      obtain ⟨tags, -, describes⟩ := (check_iff_describes orderly).mp checks
      exact ⟨_, _, tags, describes⟩
  · rintro ⟨name, value, tags, describes⟩
    rw [describes.check orderly]

theorem Describes.buildStatic {name : String} {value : Double} (orderly : Orderly options)
    (describes : Describes options name value tags) (r : Registry) :
    ((buildStatic options).on r).1 = r.extend (.gauge r name (shownTags tags) value) := by
  rw [buildStatic_on, describes.check orderly]
  simp only [addGauge_eq, tagList_plainEntries]

/-! ## The gauge as an estate -/

def gaugeEstate (r : Registry) : Estate where
  metric := r.metrics.size
  series := [r.series.size]
  source := none
  distinct := List.nodup_singleton _
  windows named := absurd rfl named

variable {st : Station} {name : String} {shown : List Tag} {value : Double}

theorem gaugeEstate_start (proper : st.Proper) (name : String) (shown : List Tag)
    (value : Double) {seen : Files.Tree → Prop} (files : seen st.files) :
    (gaugeEstate st.registry).Kept seen
      (st.registry.extend (.gauge st.registry name shown value))
      { st with registry := st.registry.extend (.gauge st.registry name shown value) } := by
  refine .start proper rfl (fun (s : Nat) => ?_) rfl nofun (List.cons_ne_nil _ _) files
  have only : s ∈ (gaugeEstate st.registry).series ↔ s = st.registry.series.size :=
    List.mem_singleton
  have brought : st.registry.Brings (.gauge st.registry name shown value) s
      ↔ st.registry.series.size ≤ s ∧ s < st.registry.series.size + 1 := Iff.rfl
  rw [only, brought]
  omega

theorem shown_gauge (timestamp : Int) (name : String) (shown : List Tag) (value : Double) :
    Reading.shown timestamp ⟨name, [(shown, value)]⟩
      = if value.isFinite then some ⟨name, [⟨shown, value, timestamp⟩]⟩ else none := by
  unfold Reading.shown Reading.present Reading.family
  cases finite : value.isFinite <;> simp [finite]

/-- Its tags and its value stay what they were. -/
theorem shows_of_gauge_kept {r : Registry} {seen : Files.Tree → Prop}
    (kept : (gaugeEstate r).Kept seen (r.extend (.gauge r name shown value)) st)
    (timestamp : Int) :
    st.registry.ShowsAt r.metrics.size
      (if value.isFinite then some ⟨name, [⟨shown, value, timestamp⟩]⟩ else none)
      (st.registry.document timestamp) := by
  have series : (r.extend (.gauge r name shown value)).series[r.series.size]?
      = some ⟨r.metrics.size, shown, none, value⟩ := by
    simp [Registry.extend, Addition.gauge]
  have first : (r.extend (.gauge r name shown value)).value r.series.size = value := by
    rw [Registry.value, series]
    rfl
  have tags : (r.extend (.gauge r name shown value)).tags r.series.size = shown := by
    rw [Registry.tags, series]
    rfl
  have now : st.registry.value r.series.size = value := by
    obtain untouched | ⟨files, -, path, text, source, -⟩ := kept.values
    · exact (List.cons.inj untouched).1.trans first
    · cases source
  have registered : (r.extend (.gauge r name shown value)).metrics[r.metrics.size]?
      = some ⟨name, none, [r.series.size]⟩ := by
    simp [Registry.extend, Addition.gauge]
  have shows := kept.shows registered (fun s mine => mine) timestamp
  simp only [List.map_cons, List.map_nil, tags, now, shown_gauge] at shows
  exact shows

/-! ## Gauges from options -/

/-- Exactly the options that describe a gauge make one.  The registry gains it behind all
that it has, and whatever happens later a collection shows its line if its value is finite
and nothing of it otherwise. -/
theorem static_makes_gauge (orderly : Orderly options) (proper : st.Proper) (now : Nat) :
    let built := (build now options .static).on st.registry
    (built.2 = .ok () ↔ ∃ name value tags, Describes options name value tags) ∧
      ∀ name value tags, Describes options name value tags → ∃ shown, Tagging tags shown ∧
        (∀ n : Int, options.lookup "value" = some (.integer n) → n.natAbs < 2 ^ 64 →
          value.Nearest n) ∧
        built.1 = st.registry.extend
          { metrics := [⟨name, none, [st.registry.series.size]⟩]
            series := [⟨st.registry.metrics.size, shown, none, value⟩] } ∧
        ∀ episodes requests moves,
          let after (front : List Move) := (System.ofRequests
            ({ st with registry := built.1 }.passAll episodes) requests).play front
          ∀ task ∈ (after moves).tasks, task.phase = .ended (.ok ()) →
            ∃ front document, front <+: moves ∧ task.out = task.request.buffer ++ document ∧
              (after front).station.registry.ShowsAt st.registry.metrics.size
                (if value.isFinite then some ⟨name, [⟨shown, value, task.request.timestamp⟩]⟩
                  else none) document := by
  intro built
  refine ⟨buildStatic_ok_iff orderly st.registry, fun name value tags describes => ?_⟩
  have extended : built.1 = st.registry.extend (.gauge st.registry name (shownTags tags) value) :=
    describes.buildStatic orderly st.registry
  refine ⟨shownTags tags, tagging_shownTags (describes.ascending orderly), ?_, extended, ?_⟩
  · intro n found bound
    obtain float | ⟨m, integer, rfl⟩ := describes.number
    · cases found.symm.trans float
    · cases found.symm.trans integer
      exact Double.nearest_ofInt bound
  · intro episodes requests moves after task member succeeded
    let start := { st with registry := built.1 }
    have kept : (gaugeEstate st.registry).Kept (start.Sees (episodes ++ [.play requests moves]))
        (st.registry.extend (.gauge st.registry name (shownTags tags) value)) start := by
      simp only [start, extended]
      exact gaugeEstate_start proper name (shownTags tags) value (.inl rfl)
    obtain ⟨front, part, later, out⟩ := kept.document member succeeded
    exact ⟨front, _, part, out, shows_of_gauge_kept later task.request.timestamp⟩

/-- Options of a gauge with a date in an array among its tags. -/
def dated : Table :=
  [("metric", .string "m"), ("tags", .table [("t", .array [.dateTime (.date ⟨2020, 1, 1⟩)])]),
    ("value", .integer 1)]

theorem orderly_dated : Orderly dated where
  keyed := by
    refine .table (by decide) ?_
    simp only [dated, List.forall_mem_cons]
    refine ⟨.string _, .table (by decide) ?_, .integer 1, nofun⟩
    simp only [List.forall_mem_cons]
    refine ⟨.array ?_, nofun⟩
    simp only [List.forall_mem_cons]
    exact ⟨.dateTime _, nofun⟩
  ordered := by
    simp [dated, Table.sorted, Value.sortedEntries, Value.sortedItems, Value.sorted,
      List.mergeSort, Value.keyLE]
  unmarked := by decide +kernel

/-- The date stands as a string in the text of the array. -/
theorem dated_array_quoted :
    Orderly dated ∧ ((build 0 dated .static).on {}).2 = .ok () ∧
      ((build 0 dated .static).on {}).1.tags 0 = [⟨"t", "[\"2020-01-01\"]"⟩] ∧
      (Value.array [.dateTime (.date ⟨2020, 1, 1⟩)]).text = "[2020-01-01]" := by
  refine ⟨orderly_dated, ?_, ?_, ?_⟩
  · decide +kernel
  · decide +kernel
  · decide +kernel

/-- One gauge on a fresh station. -/
theorem dated_makes_gauge : Orderly dated ∧ Station.Proper {} ∧
    ((build 0 dated .static).on {}).2 = .ok () := by
  refine ⟨orderly_dated, .empty, ?_⟩
  have made := (static_makes_gauge orderly_dated .empty 0).1
  refine made.mpr ⟨"m", .ofInt 1, [("t", .array [.dateTime (.date ⟨2020, 1, 1⟩)])], ?_⟩
  refine ⟨?_, rfl, .inr ⟨1, rfl, rfl⟩, .inl rfl, ?_, ?_⟩
  · decide
  · decide +kernel
  · decide +kernel

end Producer

end GaugeExporter
