import GaugeExporter.Proofs.Fields
import GaugeExporter.Proofs.Producer.Installed
import GaugeExporter.Proofs.Toml.Drafts
import GaugeExporter.Proofs.Toml.Marks

/-!
# Which options make a static gauge

The options of a static gauge are read field by field (`StaticOptions.decode_iff`), and a
gauge is described by them if they have its name, its number and its tags and nothing else
(`Describes`).  Exactly these tables pass all checks (`check_iff`).  A date-time is no
exception: its text is never a name, since it begins with a digit.
-/

namespace GaugeExporter

open Binary (Double)
open Exposition (isValidName)
open Toml (Value Table Misfit)

namespace Producer

/-! ## Options tables -/

/-- Options as a producer gets them: no key twice and keys in order, here and in the tables
below, and no key that marks date-times. -/
structure Orderly (options : Table) : Prop where
  keyed : Table.Keyed options
  ordered : Table.sorted options = options
  unmarked : (Value.table options).unmarked = true

variable {options tags : Table} {v : Value}

theorem Orderly.value (orderly : Orderly options) {entry : String × Value}
    (member : entry ∈ options) : entry.2.Keyed ∧ entry.2.unmarked = true :=
  ⟨orderly.keyed.value member, (Toml.unmarked_table.mp orderly.unmarked).2 entry member⟩

/-- Keys of a table among the options ascend. -/
theorem Orderly.ascending (orderly : Orderly options) {key : String}
    (member : (key, .table tags) ∈ options) : (tags.map Prod.fst).Pairwise (· < ·) := by
  have distinct := Table.Keyed.distinct (orderly.value member).1
  have sorted : tags.Pairwise fun a b => Value.keyLE a b = true := by
    rw [← orderly.ordered, Toml.mem_sorted] at member
    obtain ⟨⟨other, w⟩, -, same⟩ := member
    cases w with
    | table entries =>
      rw [Prod.mk.injEq, Value.sorted_table, Value.table.injEq] at same
      exact same.2 ▸ Value.pairwise_sort _
    | _ => cases same
  rw [List.Nodup, List.pairwise_map] at distinct
  rw [List.pairwise_map]
  refine (sorted.and distinct).imp fun ⟨atMost, differs⟩ => ?_
  rw [Value.keyLE, decide_eq_true_eq] at atMost
  exact String.not_le.mp fun atLeast => differs (String.le_antisymm atMost atLeast)

/-! ## Date-times in options -/

theorem plainItems_eq_map (items : List Value) : plainItems items = items.map plainDates := by
  induction items with
  | nil => rfl
  | cons v rest ih => rw [plainItems, ih, List.map_cons]

theorem plainEntries_eq_map (entries : Table) :
    plainEntries entries = entries.map fun entry => (entry.1, plainDates entry.2) := by
  induction entries with
  | nil => rfl
  | cons entry rest ih => rw [plainEntries, ih, List.map_cons]

theorem keyed_plainDates (keyed : v.Keyed) : (plainDates v).Keyed := by
  induction keyed with
  | @array items all ih =>
    rw [plainDates, plainItems_eq_map]
    refine .array fun w member => ?_
    obtain ⟨item, inside, rfl⟩ := List.mem_map.mp member
    exact ih item inside
  | @table entries distinct all ih =>
    rw [plainDates]
    refine .table (by rwa [keys_plainEntries]) fun entry member => ?_
    rw [plainEntries_eq_map] at member
    obtain ⟨other, inside, rfl⟩ := List.mem_map.mp member
    exact ih other inside
  | dateTime d => exact .string _
  | string s => exact .string s
  | integer n => exact .integer n
  | float x => exact .float x
  | boolean b => exact .boolean b

theorem unmarked_plainDates (keyed : v.Keyed) (unmarked : v.unmarked = true) :
    (plainDates v).unmarked = true := by
  induction keyed with
  | @array items all ih =>
    have each := Toml.unmarked_array.mp unmarked
    rw [plainDates, plainItems_eq_map, Toml.unmarked_array]
    intro w member
    obtain ⟨item, inside, rfl⟩ := List.mem_map.mp member
    exact ih item inside (each item inside)
  | @table entries distinct all ih =>
    obtain ⟨noMark, each⟩ := Toml.unmarked_table.mp unmarked
    rw [plainDates, Toml.unmarked_table, keys_plainEntries]
    refine ⟨noMark, fun entry member => ?_⟩
    rw [plainEntries_eq_map] at member
    obtain ⟨other, inside, rfl⟩ := List.mem_map.mp member
    exact ih other inside (each other inside)
  | _ => rfl

/-- The text of a date-time begins with a digit. -/
theorem head_dateText (d : Toml.DateTime) : ∃ c rest, d.text = c :: rest ∧ c.isDigit = true := by
  have padded (width n : Nat) (tail : List Char) :
      ∃ c rest, Toml.padded width n ++ tail = c :: rest ∧ c.isDigit = true := by
    obtain ⟨c, rest, split⟩ := List.exists_cons_of_ne_nil (Toml.padded_ne_nil width n)
    have digit := Toml.padded_allDigits width n c (split ▸ List.mem_cons_self)
    exact ⟨c, rest ++ tail, by rw [split]; rfl, digit⟩
  cases d with
  | date d =>
    simp only [Toml.DateTime.text, Toml.Date.text, List.append_assoc]
    exact padded 4 d.year _
  | time t =>
    have front := padded 2 t.hour
    simp only [Toml.DateTime.text, Toml.Time.text, List.append_assoc, List.cons_append]
    exact front _
  | civil d t =>
    simp only [Toml.DateTime.text, Toml.Date.text, List.append_assoc, List.cons_append]
    exact padded 4 d.year _
  | offset d t o =>
    simp only [Toml.DateTime.text, Toml.Date.text, List.append_assoc, List.cons_append]
    exact padded 4 d.year _

theorem not_isValidName_dateText (d : Toml.DateTime) :
    isValidName (String.ofList d.text) = false := by
  obtain ⟨c, rest, text, digit⟩ := head_dateText d
  have noStart : Exposition.isNameStart c = false := by
    have noAlpha : c.isAlpha = false := by
      refine Bool.eq_false_iff.mpr fun alpha => ?_
      have high : c ≤ '9' := (Exposition.isDigit_of_isDigit digit).2
      obtain ⟨small, -⟩ | ⟨capital, -⟩ := Exposition.isLetter_of_isAlpha alpha
      · exact absurd (Char.le_trans small high) (by decide)
      · exact absurd (Char.le_trans capital high) (by decide)
    have noUnderscore : c ≠ '_' := by
      rintro rfl
      exact absurd digit (by decide)
    simp [Exposition.isNameStart, noAlpha, noUnderscore]
  rw [isValidName, String.toList_ofList, text]
  simp [noStart]

/-! ## Fields -/

def readName (v : Value) : Except Misfit (Option String) :=
  (atKey "metric" (textOption "a string" v)).map some

def readNumber (v : Value) : Except Misfit (Option Double) :=
  (atKey "value" (numberOption v)).map some

theorem readName_eq {name : String} : readName v = .ok (some name) ↔
    v = .string name ∨ ∃ d, v = .dateTime d ∧ String.ofList d.text = name := by
  cases v <;> simp [readName, textOption, unfitOption, atKey, Except.map]

theorem readNumber_eq {x : Double} : readNumber v = .ok (some x) ↔
    v = .float x ∨ ∃ n, v = .integer n ∧ .ofInt n = x := by
  cases v <;> simp [readNumber, numberOption, unfitOption, atKey, Except.map]

theorem tagsOption_eq (keyed : v.Keyed) (unmarked : v.unmarked = true) :
    tagsOption v = .ok tags ↔ ∃ entries, v = .table entries ∧ plainEntries entries = tags := by
  cases v with
  | table entries =>
    have plainKeyed := keyed_plainDates keyed
    have plainUnmarked := unmarked_plainDates keyed unmarked
    rw [plainDates] at plainKeyed plainUnmarked
    have same (room : String) : Value.unmarkEntries room (plainEntries entries)
        = .ok (plainEntries entries) := by
      refine Toml.unmarkEntries_same fun entry member => ?_
      exact Toml.unmark_unmarked (Table.Keyed.value plainKeyed member)
        ((Toml.unmarked_table.mp plainUnmarked).2 entry member) room
    simp [tagsOption, tableOption, atKey, same, Except.mapError]
  | _ => simp [tagsOption, tableOption, unfitOption, atKey]

namespace StaticDraft

theorem metric_field :
    Field take readName "metric" metric fun draft metric => { draft with metric } where
  own draft v := by
    simp only [take, readName]
    cases atKey "metric" (textOption "a string" v) <;> rfl
  stored _ _ := rfl
  others draft entry draft' other taken := by
    unfold take at taken
    split at taken
    · exact absurd rfl other
    · obtain ⟨value, -, rfl⟩ := of_map_ok taken
      rfl
    · obtain ⟨tags, -, rfl⟩ := of_map_ok taken
      rfl
    · cases taken

theorem value_field :
    Field take readNumber "value" value fun draft value => { draft with value } where
  own draft v := by
    simp only [take, readNumber]
    cases atKey "value" (numberOption v) <;> rfl
  stored _ _ := rfl
  others draft entry draft' other taken := by
    unfold take at taken
    split at taken
    · obtain ⟨metric, -, rfl⟩ := of_map_ok taken
      rfl
    · exact absurd rfl other
    · obtain ⟨tags, -, rfl⟩ := of_map_ok taken
      rfl
    · cases taken

theorem tags_field :
    Field take tagsOption "tags" StaticDraft.tags fun draft tags => { draft with tags } where
  own _ _ := rfl
  stored _ _ := rfl
  others draft entry draft' other taken := by
    unfold take at taken
    split at taken
    · obtain ⟨metric, -, rfl⟩ := of_map_ok taken
      rfl
    · obtain ⟨value, -, rfl⟩ := of_map_ok taken
      rfl
    · exact absurd rfl other
    · cases taken

/-- The key is one of those that a static gauge knows. -/
def Known (key : String) : Prop := key = "metric" ∨ key = "value" ∨ key = "tags"

theorem known_of_taken {draft draft' : StaticDraft} {entry : String × Value}
    (taken : draft.take entry = .ok draft') : Known entry.1 := by
  unfold take at taken
  split at taken
  · exact .inl rfl
  · exact .inr (.inl rfl)
  · exact .inr (.inr rfl)
  · cases taken

theorem foldlM_iff (distinct : (options.map Prod.fst).Nodup) {draft : StaticDraft} :
    options.foldlM take {} = .ok draft ↔ (∀ entry ∈ options, Known entry.1) ∧
      Reads readName none options "metric" draft.metric ∧
      Reads readNumber none options "value" draft.value ∧
      Reads tagsOption [] options "tags" draft.tags := by
  constructor
  · intro folded
    refine ⟨fun entry member => ?_, metric_field.reads distinct folded,
      value_field.reads distinct folded, tags_field.reads distinct folded⟩
    obtain ⟨before, after, taken⟩ := taken_of_folded folded member
    exact known_of_taken taken
  · rintro ⟨known, metric, value, tags⟩
    have each : ∀ entry ∈ options, ∀ draft, ∃ draft', take draft entry = .ok draft' := by
      rintro ⟨key, v⟩ member draft
      obtain rfl | rfl | rfl := known _ member
      · exact metric_field.succeeds distinct metric member draft
      · exact value_field.succeeds distinct value member draft
      · exact tags_field.succeeds distinct tags member draft
    obtain ⟨⟨m, x, t⟩, folded⟩ := foldlM_succeeds each {}
    cases draft
    cases (metric_field.reads distinct folded).eq metric
    cases (value_field.reads distinct folded).eq value
    cases (tags_field.reads distinct folded).eq tags
    exact folded

end StaticDraft

/-! ## Accepted options -/

theorem reads_some {α ε : Type} {read : Value → Except ε (Option α)} {key : String} {a : α} :
    Reads read none options key (some a) ↔
      ∃ v, options.lookup key = some v ∧ read v = .ok (some a) := by
  unfold Reads
  cases options.lookup key <;> simp

theorem StaticOptions.decode_iff {settings : StaticOptions} :
    StaticOptions.decode options = .ok settings ↔ options.foldlM StaticDraft.take {}
      = .ok ⟨some settings.metric, some settings.value, settings.tags⟩ := by
  unfold decode
  cases options.foldlM StaticDraft.take {} with
  | error e => exact ⟨nofun, nofun⟩
  | ok draft =>
    obtain ⟨_ | metric, _ | value, tags⟩ := draft <;> obtain ⟨m, x, t⟩ := settings <;>
      simp [bind, Except.bind]

theorem checkName_iff {what : Named} {name : String} {u : Unit} :
    checkName what name = .ok u ↔ isValidName name = true := by
  refine ⟨of_checkName, fun valid => ?_⟩
  rw [checkName, if_pos valid]

theorem forM_iff {ε α : Type} {check : α → Except ε Unit} {items : List α} {u : Unit} :
    items.forM check = .ok u ↔ ∀ item ∈ items, check item = .ok () := by
  refine ⟨forM_ok, fun each => ?_⟩
  induction items with
  | nil => rfl
  | cons first rest ih =>
    rw [List.forM, each first List.mem_cons_self]
    exact ih fun item member => each item (List.mem_cons_of_mem _ member)

theorem StaticOptions.check_iff {settings : StaticOptions} :
    StaticOptions.check options = .ok settings ↔ StaticOptions.decode options = .ok settings ∧
      isValidName settings.metric = true ∧ ∀ entry ∈ settings.tags, isValidName entry.1 = true := by
  refine ⟨check_ok, ?_⟩
  rintro ⟨decodes, metric, tags⟩
  have named : checkName .metric settings.metric = .ok () := checkName_iff.mpr metric
  have tagged : settings.tags.forM (fun entry => checkName .tag entry.1) = .ok () :=
    forM_iff.mpr fun entry member => checkName_iff.mpr (tags entry member)
  simp only [check, decoded, decodes, named, bind, Except.bind]
  exact congrArg (Except.bind · fun _ => .ok settings) tagged

/-- The options are those of a gauge with this name, number and tags, and no others. -/
structure Describes (options : Table) (name : String) (value : Double) (tags : Table) : Prop where
  known : ∀ entry ∈ options, entry.1 = "metric" ∨ entry.1 = "value" ∨ entry.1 = "tags"
  metric : options.lookup "metric" = some (.string name)
  number : options.lookup "value" = some (.float value) ∨
    ∃ n, options.lookup "value" = some (.integer n) ∧ value = .ofInt n
  tagged : options.lookup "tags" = some (.table tags) ∨
    options.lookup "tags" = none ∧ tags = []
  validName : isValidName name = true
  validKeys : ∀ entry ∈ tags, isValidName entry.1 = true

theorem reads_name {name : String} (valid : isValidName name = true) :
    Reads readName none options "metric" (some name) ↔
      options.lookup "metric" = some (.string name) := by
  rw [reads_some]
  constructor
  · rintro ⟨v, found, read⟩
    obtain rfl | ⟨d, rfl, rfl⟩ := readName_eq.mp read
    · exact found
    · rw [not_isValidName_dateText] at valid
      cases valid
  · exact fun found => ⟨_, found, readName_eq.mpr (.inl rfl)⟩

theorem reads_number {x : Double} : Reads readNumber none options "value" (some x) ↔
    options.lookup "value" = some (.float x) ∨
      ∃ n, options.lookup "value" = some (.integer n) ∧ x = .ofInt n := by
  rw [reads_some]
  constructor
  · rintro ⟨v, found, read⟩
    obtain rfl | ⟨n, rfl, rfl⟩ := readNumber_eq.mp read
    · exact .inl found
    · exact .inr ⟨n, found, rfl⟩
  · rintro (found | ⟨n, found, rfl⟩)
    · exact ⟨_, found, readNumber_eq.mpr (.inl rfl)⟩
    · exact ⟨_, found, readNumber_eq.mpr (.inr ⟨n, rfl, rfl⟩)⟩

/-- The tags are read with the text of every date-time in its place. -/
theorem reads_tags (orderly : Orderly options) {read : Table} :
    Reads tagsOption [] options "tags" read ↔ ∃ tags, plainEntries tags = read ∧
      (options.lookup "tags" = some (.table tags) ∨ options.lookup "tags" = none ∧ tags = []) := by
  unfold Reads
  split
  next v found =>
    obtain ⟨keyed, unmarked⟩ := orderly.value (Toml.mem_of_lookup found)
    rw [tagsOption_eq keyed unmarked, found]
    constructor
    · rintro ⟨entries, rfl, plain⟩
      exact ⟨entries, plain, .inl rfl⟩
    · rintro ⟨tags, plain, same | ⟨none, -⟩⟩
      · exact ⟨tags, Option.some.inj same, plain⟩
      · cases none
  next missing =>
    rw [missing]
    constructor
    · rintro rfl
      exact ⟨[], rfl, .inr ⟨rfl, rfl⟩⟩
    · rintro ⟨tags, rfl, none | ⟨-, rfl⟩⟩
      · cases none
      · rfl

theorem validKeys_iff : (∀ entry ∈ plainEntries tags, isValidName entry.1 = true) ↔
    ∀ entry ∈ tags, isValidName entry.1 = true := by
  rw [plainEntries_eq_map]
  exact List.forall_mem_map

/-- Exactly the options that describe a gauge pass all checks. -/
theorem check_iff_describes (orderly : Orderly options) {settings : StaticOptions} :
    StaticOptions.check options = .ok settings ↔ ∃ tags, plainEntries tags = settings.tags ∧
      Describes options settings.metric settings.value tags := by
  obtain ⟨metric, value, read⟩ := settings
  rw [StaticOptions.check_iff, StaticOptions.decode_iff,
    StaticDraft.foldlM_iff (Table.Keyed.distinct orderly.keyed), reads_tags orderly, reads_number]
  constructor
  · rintro ⟨⟨known, name, number, tags, rfl, given⟩, valid, keys⟩
    exact ⟨tags, rfl, known, (reads_name valid).mp name, number, given, valid,
      validKeys_iff.mp keys⟩
  · rintro ⟨tags, rfl, known, name, number, given, valid, keys⟩
    exact ⟨⟨known, (reads_name valid).mpr name, number, tags, rfl, given⟩, valid,
      validKeys_iff.mpr keys⟩

end Producer

end GaugeExporter
