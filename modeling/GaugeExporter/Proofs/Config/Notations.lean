import GaugeExporter.Proofs.Config.Content
import GaugeExporter.Proofs.Config.Reading
import GaugeExporter.Proofs.Toml.Documents

/-!
# Documents with the same content

A document can write a table under a header, with dotted keys or in braces, it can
give its keys in any order, and it can have entries that mean nothing to a
configuration.  Its content does not show the way it is written
(`Table.Written.finished`), and documents with the same content are read as the same
configuration; both are put together in `Config.ofText_content`.
-/

namespace GaugeExporter

open Toml (Value Table Node Entries finished)

/-! ## Ways to write a table -/

namespace Toml

/-- The statements of a table under its key, behind a header with this path: a header
with pairs behind it, or in front of all headers pairs with dotted keys or one pair with
braces. -/
inductive Table.Written (key : String) (entries : Table) : List String → List Statement → Prop
  | header (path : List String) :
      Written key entries path (.table [key] :: entries.map fun entry => .pair [entry.1] entry.2)
  | dotted (some : entries ≠ []) :
      Written key entries [] (entries.map fun entry => .pair [key, entry.1] entry.2)
  | inline : Written key entries [] [.pair [key] (.table entries)]

section Written

variable {front : Entries} {path : List String} {key : String} {entries : Table}

/-- Pairs that are assigned in the last table of the document become its entries. -/
theorem foldlM_pairs {origin : Origin} {path : List String} {pair : String × Value → Statement}
    (take : ∀ inner entry, Draft.take ⟨front ++ [(key, .table origin inner)], path⟩ (pair entry)
      = (assign entry.2 [entry.1] true inner).map fun inner =>
          ⟨front ++ [(key, .table origin inner)], path⟩)
    {inner : Entries} (distinct : (inner.map Prod.fst ++ entries.map Prod.fst).Nodup) :
    (entries.map pair).foldlM Draft.take ⟨front ++ [(key, .table origin inner)], path⟩
      = some ⟨front ++ [(key, .table origin (inner ++ Table.plain entries))], path⟩ := by
  induction entries generalizing inner with
  | nil =>
    have none : Table.plain [] = [] := rfl
    rw [none, List.append_nil]
    rfl
  | cons entry rest ih =>
    have later := @ih (inner ++ [(entry.1, .value entry.2)])
      (by rwa [List.map_append, List.append_assoc])
    rw [List.append_assoc] at later
    rw [List.map_cons, List.foldlM_cons, take, assign_fresh (fresh_of_nodup distinct)]
    exact later

/-- However a table is written, the document has it under its key. -/
theorem Table.Written.finished {statements : List Statement}
    (written : Table.Written key entries path statements) (fresh : key ∉ front.map Prod.fst)
    (distinct : (entries.map Prod.fst).Nodup) :
    ∃ draft : Draft, statements.foldlM Draft.take ⟨front, path⟩ = some draft ∧
      Toml.finished draft.entries = Toml.finished front ++ [(key, .table entries)] := by
  have ends {node : Node} (value : node.toValue = .table entries) :
      Toml.finished (front ++ [(key, node)]) = Toml.finished front ++ [(key, .table entries)] := by
    rw [finished_append, Toml.finished, value, Toml.finished]
  have plain (origin : Origin) :
      (Node.table origin (Table.plain entries)).toValue = .table entries := by
    rw [Node.toValue, finished_plain]
  cases written with
  | header path =>
    refine ⟨⟨_, [key]⟩, ?_, ends (plain .header)⟩
    have opened : Draft.take ⟨front, path⟩ (.table [key])
        = some ⟨front ++ [(key, .table .header [])], [key]⟩ := by
      rw [Draft.take, openTable, lookup_fresh fresh]
      rfl
    rw [List.foldlM_cons, opened]
    refine foldlM_pairs (fun inner entry => ?_) distinct
    rw [Draft.take, within, alter_last fresh, passing, within, Option.map_map, Option.map_map]
    rfl
  | dotted some =>
    obtain ⟨first, rest, rfl⟩ := List.exists_cons_of_ne_nil some
    refine ⟨⟨_, []⟩, ?_, ends (plain .dotted)⟩
    have opened : Draft.take ⟨front, []⟩ (.pair [key, first.1] first.2)
        = Option.some ⟨front ++ [(key, .table .dotted [(first.1, .value first.2)])], []⟩ := by
      rw [Draft.take, within, assign.eq_3 _ _ _ _ _ (List.cons_ne_nil _ _), alter_fresh fresh]
      rfl
    rw [List.map_cons, List.foldlM_cons, opened]
    refine foldlM_pairs (fun inner entry => ?_) distinct
    rw [Draft.take, within, assign.eq_3 _ _ _ _ _ (List.cons_ne_nil _ _), alter_last fresh,
      Option.map_map, Option.map_map]
    rfl
  | inline =>
    refine ⟨⟨front ++ [(key, .value (.table entries))], []⟩, ?_, ends rfl⟩
    rw [List.foldlM_cons, Draft.take, within, assign_fresh fresh]
    rfl

end Written

/-- The text is read as these statements. -/
def Spells (text : String) (statements : List Statement) : Prop :=
  statements? ((skipMark text.toList).length + 1) (skipMark text.toList) = some statements

/-- The text ends with a table that its other statements do not mention; what stands in
front gives this draft. -/
structure EndsWith (text : String) (before : Draft) (key : String) (entries : Table) : Prop where
  spells : ∃ front statements, Spells text (front ++ statements) ∧
    front.foldlM Draft.take {} = some before ∧ Table.Written key entries before.path statements
  fresh : key ∉ before.entries.map Prod.fst
  distinct : (entries.map Prod.fst).Nodup

theorem EndsWith.finished {text : String} {before : Draft} {key : String} {entries : Table}
    (ends : EndsWith text before key entries) :
    ∃ doc, Entries.ofText? text = some doc ∧
      Toml.finished doc = Toml.finished before.entries ++ [(key, .table entries)] := by
  obtain ⟨front, statements, spells, first, written⟩ := ends.spells
  obtain ⟨draft, last, same⟩ := written.finished ends.fresh ends.distinct
  have both : (front ++ statements).foldlM Draft.take {} = some draft := by
    rw [List.foldlM_append, first]
    exact last
  refine ⟨draft.entries, ?_, same⟩
  rw [Spells] at spells
  rw [Entries.ofText?, spells, Option.bind_some, Entries.ofStatements?, both]
  rfl

end Toml

/-! ## The order of keys -/

theorem given?_reordered {doc other : Table}
    (reordered : (Value.table doc).Reordered (.table other)) (keyed : Table.Keyed doc)
    (part key : String) :
    Option.Rel Value.Reordered (given? doc part key) (given? other part key) := by
  have parts := reordered.lookup keyed.distinct part
  unfold given?
  cases here : doc.lookup part with
  | none =>
    rw [here] at parts
    revert parts
    cases other.lookup part with
    | none => exact fun _ => .none
    | some w => nofun
  | some v =>
    rw [here] at parts
    revert parts
    cases other.lookup part with
    | none => nofun
    | some w =>
      rintro ⟨⟩
      next inside =>
        cases v with
        | table entries =>
          obtain ⟨others, rfl, -⟩ := inside.table_inv
          exact inside.lookup (Table.Keyed.distinct (keyed.value (Toml.mem_of_lookup here))) key
        | _ =>
          cases w with
          | table others =>
            obtain ⟨_, table, -⟩ := inside.symm.table_inv
            cases table
          | _ => exact .none

theorem Chosen.reordered {given? other? : Option Value} {default s : String}
    (chosen : Chosen given? default s) (same : Option.Rel Value.Reordered given? other?) :
    Chosen other? default s := by
  rcases chosen with rfl | ⟨rfl, rfl⟩
  · cases same with
    | some reordered => exact .inl (congrArg _ reordered.eq_of_string)
  · cases same
    exact .inr ⟨rfl, rfl⟩

theorem ProducerSettings.Holds.reordered {p : ProducerSettings} {entries others : Table}
    (holds : p.Holds entries) (reordered : (Value.table entries).Reordered (.table others))
    (keyed : Table.Keyed entries) : p.Holds others where
  kind := by
    have kinds := reordered.lookup keyed.distinct "kind"
    rw [holds.kind] at kinds
    revert kinds
    cases others.lookup "kind" with
    | none => nofun
    | some v =>
      rintro ⟨⟩
      next reordered => exact congrArg _ reordered.eq_of_string
  options := (reordered.filter fun key => key ≠ "kind").symm.trans holds.options
  sorted := holds.sorted
  once := holds.once
  noKind := holds.noKind

theorem holds_reordered {items others : List Value} {producers : List ProducerSettings}
    (reordered : List.Forall₂ Value.Reordered items others) (keyed : ∀ v ∈ items, v.Keyed)
    (all : List.Forall₂ (fun item p => ∃ entries, item = .table entries ∧ p.Holds entries)
      items producers) :
    List.Forall₂ (fun item p => ∃ entries, item = .table entries ∧ p.Holds entries)
      others producers := by
  induction reordered generalizing producers with
  | nil => exact all
  | cons first _ ih =>
    obtain ⟨here, below⟩ := List.forall_mem_cons.mp keyed
    rcases all with _ | ⟨⟨entries, rfl, holds⟩, later⟩
    obtain ⟨others, rfl, -⟩ := first.table_inv
    exact .cons ⟨others, rfl, holds.reordered first here⟩ (ih below later)

section Reordered

variable {doc other : Table} (reordered : (Value.table doc).Reordered (.table other))
  (keyed : Table.Keyed doc)
include reordered keyed

theorem Config.Holds.of_reordered {c : Config} (holds : c.Holds doc) : c.Holds other := by
  have settings := given?_reordered reordered keyed
  refine ⟨holds.output.reordered (settings _ _), holds.interval.reordered (settings _ _),
    holds.filter.reordered (settings _ _), holds.format.reordered (settings _ _), ?_⟩
  have producers := reordered.lookup keyed.distinct "producers"
  obtain ⟨items, given | ⟨none, rfl⟩, all⟩ := holds.producers
  · rw [given] at producers
    revert producers
    cases other.lookup "producers" with
    | none => nofun
    | some w =>
      rintro ⟨⟩
      next inside =>
        obtain ⟨others, rfl, each⟩ := inside.array_inv
        cases keyed.value (Toml.mem_of_lookup given) with
        | array keyed => exact ⟨others, .inl rfl, holds_reordered each keyed all⟩
  · rw [none] at producers
    revert producers
    cases other.lookup "producers" with
    | none => exact fun _ => ⟨[], .inr ⟨rfl, rfl⟩, all⟩
    | some w => nofun

/-- What stands under a key of the other document stands there in this one, in an order
of its own. -/
theorem lookup_of_reordered {key : String} {w : Value} (there : other.lookup key = some w) :
    ∃ v, doc.lookup key = some v ∧ v.Reordered w := by
  have parts := reordered.lookup keyed.distinct key
  rw [there] at parts
  revert parts
  cases doc.lookup key with
  | none => nofun
  | some v =>
    rintro ⟨⟩
    exact ⟨v, rfl, by assumption⟩

theorem Conventional.of_reordered (shaped : Conventional doc) : Conventional other where
  exporter w there := by
    obtain ⟨v, here, inside⟩ := lookup_of_reordered reordered keyed there
    obtain ⟨entries, rfl⟩ := shaped.exporter v here
    obtain ⟨others, table, -⟩ := inside.table_inv
    exact ⟨others, table⟩
  logging w there := by
    obtain ⟨v, here, inside⟩ := lookup_of_reordered reordered keyed there
    obtain ⟨entries, rfl⟩ := shaped.logging v here
    obtain ⟨others, table, -⟩ := inside.table_inv
    exact ⟨others, table⟩
  format w there := by
    have formats := given?_reordered reordered keyed "logging" "format"
    rw [there] at formats
    revert formats
    cases here : given? doc "logging" "format" with
    | none => nofun
    | some v =>
      obtain ⟨name, rfl⟩ := shaped.format v here
      rintro ⟨⟩
      next inside => exact ⟨name, inside.eq_of_string⟩
  unmarked w there := by
    obtain ⟨v, here, inside⟩ := lookup_of_reordered reordered keyed there
    exact inside.unmarked (shaped.unmarked v here)

end Reordered

/-! ## Entries that mean nothing -/

def only (keys : List String) (entries : Table) : Table :=
  entries.filter fun entry => keys.contains entry.1

/-- The settings that a table of the document may have, if it is one with settings. -/
def partKeys (part : String) : Option (List String) :=
  if part = "exporter" then some ["output", "interval"]
  else if part = "logging" then some ["filter", "format"]
  else none

/-- A part of the document without the entries that are no settings; without any
setting it means nothing itself. -/
def knownPart (part : String) (v : Value) : Option Value :=
  match partKeys part, v with
  | some keys, .table entries =>
    if (only keys entries).isEmpty then none else some (.table (only keys entries))
  | _, v => some v

def knownEntry (entry : String × Value) : Option (String × Value) :=
  (knownPart entry.1 entry.2).map (entry.1, ·)

/-- The document without the entries that mean nothing to a configuration. -/
def known (doc : Table) : Table :=
  (only ["exporter", "logging", "producers"] doc).filterMap knownEntry

theorem lookup_only {keys : List String} {key : String} (member : key ∈ keys) (entries : Table) :
    (only keys entries).lookup key = entries.lookup key := by
  induction entries with
  | nil => rfl
  | cons entry rest ih =>
    obtain ⟨k, v⟩ := entry
    rw [only] at ih ⊢
    rw [List.filter_cons]
    by_cases same : key = k
    · subst same
      rw [if_pos (List.contains_iff_mem.mpr member), List.lookup_cons_self, List.lookup_cons_self]
    · rw [List.lookup_cons, beq_false_of_ne same, ← ih]
      split
      · rw [List.lookup_cons, beq_false_of_ne same]
      · rfl

theorem of_knownPart {part : String} {v w : Value} (found : knownPart part v = some w) :
    w = v ∨ ∃ keys entries, v = .table entries ∧ w = .table (only keys entries) := by
  unfold knownPart at found
  split at found
  next keys entries _ =>
    split at found <;> cases found
    exact .inr ⟨keys, entries, rfl, rfl⟩
  · exact .inl (Option.some.inj found).symm

theorem mem_known {doc : Table} {entry : String × Value} (member : entry ∈ known doc) :
    ∃ v, (entry.1, v) ∈ doc ∧ knownPart entry.1 v = some entry.2 := by
  obtain ⟨⟨key, v⟩, inside, found⟩ := List.mem_filterMap.mp member
  obtain ⟨w, part, rfl⟩ := Option.map_eq_some_iff.mp found
  exact ⟨v, (List.mem_filter.mp inside).1, part⟩

theorem keys_filterMap (entries : Table) :
    ((entries.filterMap knownEntry).map Prod.fst).Sublist (entries.map Prod.fst) := by
  induction entries with
  | nil => exact .slnil
  | cons entry rest ih =>
    rw [List.filterMap_cons, knownEntry]
    cases knownPart entry.1 entry.2 with
    | none => exact ih.cons _
    | some w => exact ih.cons_cons _

theorem lookup_filterMap {entries : Table} (distinct : (entries.map Prod.fst).Nodup)
    (part : String) :
    (entries.filterMap knownEntry).lookup part = (entries.lookup part).bind (knownPart part) := by
  induction entries with
  | nil => rfl
  | cons entry rest ih =>
    obtain ⟨key, v⟩ := entry
    obtain ⟨fresh, distinct⟩ := List.nodup_cons.mp distinct
    rw [List.filterMap_cons, knownEntry]
    by_cases same : part = key
    · subst same
      rw [List.lookup_cons_self, Option.bind_some]
      cases found : knownPart part v with
      | none => exact Toml.lookup_fresh fun member => fresh ((keys_filterMap rest).mem member)
      | some w => exact List.lookup_cons_self
    · rw [List.lookup_cons, beq_false_of_ne same, ← ih distinct]
      cases knownPart key v with
      | none => rfl
      | some w => exact (List.lookup_cons ..).trans (by rw [beq_false_of_ne same])

section Known

variable {doc : Table} (keyed : Table.Keyed doc)
include keyed

theorem keyed_known : Table.Keyed (known doc) := by
  refine .table (((keys_filterMap _).trans (List.filter_sublist.map _)).nodup keyed.distinct) ?_
  intro entry member
  obtain ⟨v, inside, part⟩ := mem_known member
  have keyedPart : v.Keyed := keyed.value inside
  obtain same | ⟨keys, entries, rfl, same⟩ := of_knownPart part <;> rw [same]
  · exact keyedPart
  · exact keyed_filter keyedPart _

theorem lookup_known {part : String} (member : part ∈ ["exporter", "logging", "producers"]) :
    (known doc).lookup part = (doc.lookup part).bind (knownPart part) := by
  rw [known, lookup_filterMap, lookup_only member]
  exact (List.filter_sublist.map _).nodup keyed.distinct

theorem given?_known {part key : String} (member : part ∈ ["exporter", "logging", "producers"])
    {keys : List String} (settings : partKeys part = some keys) (setting : key ∈ keys) :
    given? (known doc) part key = given? doc part key := by
  rw [given?, given?, lookup_known keyed member]
  cases doc.lookup part with
  | none => rfl
  | some v =>
    rw [Option.bind_some]
    cases v with
    | table entries =>
      simp only [knownPart, settings]
      rw [← lookup_only setting entries]
      cases only keys entries <;> rfl
    | _ => simp [knownPart, settings]

theorem known_producers : (known doc).lookup "producers" = doc.lookup "producers" := by
  have every : knownPart "producers" = some := rfl
  rw [lookup_known keyed (by simp), every, Option.bind_fun_some]

/-- A part that is a table among the known entries is one in the document. -/
theorem known_isTable {part : String} (member : part ∈ ["exporter", "logging", "producers"]) :
    (∀ v, (known doc).lookup part = some v → ∃ entries, v = .table entries) ↔
      ∀ v, doc.lookup part = some v → ∃ entries, v = .table entries := by
  rw [lookup_known keyed member]
  constructor
  · intro isTable v found
    cases part? : knownPart part v with
    | none =>
      unfold knownPart at part?
      split at part?
      next keys entries _ => exact ⟨entries, rfl⟩
      · cases part?
    | some w =>
      obtain ⟨others, rfl⟩ := isTable w (by rw [found, Option.bind_some, part?])
      obtain same | ⟨_, entries, rfl, -⟩ := of_knownPart part?
      · exact ⟨others, same.symm⟩
      · exact ⟨entries, rfl⟩
  · intro isTable w found
    obtain ⟨v, inside, part?⟩ := Option.bind_eq_some_iff.mp found
    obtain ⟨entries, rfl⟩ := isTable v inside
    obtain same | ⟨keys, others, -, same⟩ := of_knownPart part?
    · exact ⟨entries, same⟩
    · exact ⟨_, same⟩

theorem Config.holds_known {c : Config} : c.Holds (known doc) ↔ c.Holds doc := by
  have exporter {key : String} := @given?_known doc keyed "exporter" key (by simp) _ rfl
  have logging {key : String} := @given?_known doc keyed "logging" key (by simp) _ rfl
  constructor
  · rintro ⟨output, interval, filter, format, producers⟩
    rw [exporter (by simp)] at output interval
    rw [logging (by simp)] at filter format
    rw [known_producers keyed] at producers
    exact ⟨output, interval, filter, format, producers⟩
  · rintro ⟨output, interval, filter, format, producers⟩
    rw [← exporter (by simp)] at output interval
    rw [← logging (by simp)] at filter format
    rw [← known_producers keyed] at producers
    exact ⟨output, interval, filter, format, producers⟩

theorem conventional_known : Conventional (known doc) ↔ Conventional doc := by
  have exporter := known_isTable keyed (show "exporter" ∈ _ by simp)
  have logging := known_isTable keyed (show "logging" ∈ _ by simp)
  have format := @given?_known doc keyed "logging" "format" (by simp) _ rfl (by simp)
  constructor
  · intro shaped
    exact ⟨exporter.mp shaped.exporter, logging.mp shaped.logging, format ▸ shaped.format,
      known_producers keyed ▸ shaped.unmarked⟩
  · intro shaped
    exact ⟨exporter.mpr shaped.exporter, logging.mpr shaped.logging, format ▸ shaped.format,
      known_producers keyed ▸ shaped.unmarked⟩

end Known

/-- The documents differ in the order of keys only, and in entries that mean nothing. -/
def SameContent (doc other : Table) : Prop :=
  (Value.table (known doc)).Reordered (.table (known other))

namespace Toml

/-! ## Values that agree -/

section Agreement

variable {v : Value} {others items : List Value} {doc entries : Table}

theorem agrees_string {s : String} : v.agrees (.string s) = true ↔ v = .string s := by
  cases v <;> simp [Value.agrees]

theorem agrees_integer {n : Int} : v.agrees (.integer n) = true ↔ v = .integer n := by
  cases v <;> simp [Value.agrees]

theorem agrees_array : v.agrees (.array items) = true ↔
    ∃ others, v = .array others ∧ Value.itemsAgree others items = true := by
  cases v <;> simp [Value.agrees]

theorem agrees_table : v.agrees (.table entries) = true ↔
    ∃ doc, v = .table doc ∧ Value.entriesAgree doc entries = true := by
  cases v <;> simp [Value.agrees]

theorem itemsAgree_nil : Value.itemsAgree others [] = true ↔ others = [] := by
  cases others <;> simp [Value.itemsAgree]

theorem itemsAgree_cons {w : Value} : Value.itemsAgree others (w :: items) = true ↔
    ∃ v rest, others = v :: rest ∧ v.agrees w = true ∧ Value.itemsAgree rest items = true := by
  cases others <;> simp [Value.itemsAgree]

theorem entriesAgree_nil : Value.entriesAgree doc [] = true ↔ doc = [] := by
  cases doc <;> simp [Value.entriesAgree]

theorem entriesAgree_cons {key : String} {w : Value} :
    Value.entriesAgree doc ((key, w) :: entries) = true ↔ ∃ v rest, doc = (key, v) :: rest ∧
      v.agrees w = true ∧ Value.entriesAgree rest entries = true := by
  rcases doc with _ | ⟨⟨other, v⟩, rest⟩ <;> simp [Value.entriesAgree, and_assoc]

end Agreement

end Toml

/-! ## Reading -/

theorem keyed_of_ofText? {text : String} {entries : Entries}
    (parsed : Entries.ofText? text = some entries) : Table.Keyed (finished entries) :=
  (Toml.sound_of_ofText? parsed).keyed

theorem ofText_iff {text : String} {entries : Entries}
    (parsed : Entries.ofText? text = some entries) {c : Config} :
    Config.ofText text = .ok c ↔ Config.decode entries = .ok c ∧ c.validate = .ok () := by
  rw [Config.ofText, parsed]
  simp only
  cases Config.decode entries with
  | error e =>
    refine iff_of_false (fun read => ?_) fun both => by cases both.1
    simp only at read
    split at read <;> cases read
  | ok c' =>
    simp only [Except.ok.injEq]
    constructor
    · intro read
      split at read <;> cases read
      next valid => exact ⟨rfl, valid⟩
    · rintro ⟨rfl, valid⟩
      rw [valid]

section Reading

variable {text : String} {entries : Entries} {c : Config}
  (parsed : Entries.ofText? text = some entries) (shaped : Conventional (finished entries))
  (read : Config.ofText text = .ok c)
include parsed shaped read

theorem Config.holds_of_ofText : c.Holds (finished entries) :=
  (Config.decode_iff (keyed_of_ofText? parsed) shaped).mp ((ofText_iff parsed).mp read).1

theorem Config.ofText_of_sameContent {other : String} {others : Entries}
    (parsed' : Entries.ofText? other = some others)
    (same : SameContent (finished entries) (finished others)) : Config.ofText other = .ok c := by
  have keyed := keyed_of_ofText? parsed
  have keyed' := keyed_of_ofText? parsed'
  have shaped' := ((conventional_known keyed).mpr shaped).of_reordered same (keyed_known keyed)
  have holds' := ((Config.holds_known keyed).mpr
    (Config.holds_of_ofText parsed shaped read)).of_reordered same (keyed_known keyed)
  have decoded := (Config.decode_iff keyed' ((conventional_known keyed').mp shaped')).mpr
    ((Config.holds_known keyed').mp holds')
  exact (ofText_iff parsed').mpr ⟨decoded, ((ofText_iff parsed).mp read).2⟩

end Reading

/-- Settings and a producer under headers. -/
def headedText : String :=
  "[exporter]\ninterval = '2m'\n[[producers]]\nkind = 'static'\nx = \x7bb = 1, a = 2\x7d\n"

/-- The same in dotted keys and braces, in another order, and unknown keys beside it. -/
def dottedText : String :=
  "site = 'lab'\nproducers = [\x7bx.a = 2, kind = 'static', x.b = 1\x7d]\n"
    ++ "exporter.retries = 3\nexporter.interval = '2m'\n"

def headedContent : Table :=
  [("exporter", .table [("interval", .string "2m")]),
    ("producers", .array [.table [("kind", .string "static"),
      ("x", .table [("b", .integer 1), ("a", .integer 2)])]])]

def dottedContent : Table :=
  [("site", .string "lab"),
    ("producers", .array [.table [("x", .table [("a", .integer 2), ("b", .integer 1)]),
      ("kind", .string "static")]]),
    ("exporter", .table [("retries", .integer 3), ("interval", .string "2m")])]

theorem headedText_content : ∃ entries, Entries.ofText? headedText = some entries ∧
    finished entries = headedContent := by
  have checked : (Entries.ofText? headedText).any
      (fun entries => Value.entriesAgree (finished entries) headedContent) = true := by
    decide +kernel
  obtain ⟨entries, parsed, agree⟩ := (Option.any_eq_true ..).mp checked
  refine ⟨entries, parsed, ?_⟩
  simpa [headedContent, Toml.agrees_string, Toml.agrees_integer, Toml.agrees_array,
    Toml.agrees_table, Toml.itemsAgree_nil, Toml.itemsAgree_cons, Toml.entriesAgree_nil,
    Toml.entriesAgree_cons] using agree

theorem dottedText_content : ∃ entries, Entries.ofText? dottedText = some entries ∧
    finished entries = dottedContent := by
  have checked : (Entries.ofText? dottedText).any
      (fun entries => Value.entriesAgree (finished entries) dottedContent) = true := by
    decide +kernel
  obtain ⟨entries, parsed, agree⟩ := (Option.any_eq_true ..).mp checked
  refine ⟨entries, parsed, ?_⟩
  simpa [dottedContent, Toml.agrees_string, Toml.agrees_integer, Toml.agrees_array,
    Toml.agrees_table, Toml.itemsAgree_nil, Toml.itemsAgree_cons, Toml.entriesAgree_nil,
    Toml.entriesAgree_cons] using agree

theorem headedContent_conventional : Conventional headedContent where
  exporter := by
    rintro v ⟨⟩
    exact ⟨_, rfl⟩
  logging := nofun
  format := nofun
  unmarked := by
    rintro v ⟨⟩
    rfl

theorem headed_dotted_same : SameContent headedContent dottedContent := by
  have options : (Value.table [("b", .integer 1), ("a", .integer 2)]).Reordered
      (.table [("a", .integer 2), ("b", .integer 1)]) := .permuted (.swap ..)
  have item := (Value.Reordered.inTable [("kind", .string "static")] [] "x" options).trans
    (.permuted (.swap ..))
  exact (Value.Reordered.inTable [_] [] "producers" (.inArray [] [] item)).trans
    (.permuted (.swap ..))

end GaugeExporter
