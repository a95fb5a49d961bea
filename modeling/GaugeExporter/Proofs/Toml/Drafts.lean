import GaugeExporter.Proofs.Folds
import GaugeExporter.Proofs.Toml.Values

/-!
# Documents under construction stay expressible

Whatever keys and headers say, an operation that is allowed gives no key twice:
a new key goes to the end, and any other entry stays at its key.  With expressible
values a document under construction is expressible therefore (`take_sound`).
-/

namespace GaugeExporter.Toml

/-! ## Sound parts -/

def Entries.Sound (entries : Entries) : Prop := Table.Expressible (finished entries)

def Node.Sound (node : Node) : Prop := node.toValue.Expressible

theorem Entries.sound_iff {entries : Entries} : Entries.Sound entries ↔
    (entries.map Prod.fst).Nodup ∧ ∀ entry ∈ entries, entry.2.Sound := by
  rw [Entries.Sound, Table.expressible_iff, finished_eq_map, List.map_map, List.forall_mem_map]
  rfl

theorem Node.sound_tables {items : List Entries} :
    (Node.tables items).Sound ↔ ∀ item ∈ items, Entries.Sound item := by
  have finishes : finishedItems items = items.map fun item => .table (finished item) := by
    induction items with
    | nil => rfl
    | cons item rest ih => exact congrArg (_ :: ·) ih
  rw [Node.Sound, Node.toValue, finishes]
  constructor
  · rintro ⟨⟩
    rename_i all
    exact fun item member => all _ (List.mem_map_of_mem member)
  · intro each
    refine .array fun v member => ?_
    obtain ⟨item, inside, rfl⟩ := List.mem_map.mp member
    exact each item inside

theorem Entries.sound_nil : Entries.Sound [] :=
  Entries.sound_iff.mpr ⟨List.nodup_nil, List.forall_mem_nil _⟩

theorem nodup_concat {α : Type} {as : List α} {a : α} (distinct : as.Nodup) (fresh : a ∉ as) :
    (as ++ [a]).Nodup :=
  (List.perm_append_singleton a as).nodup_iff.mpr (List.nodup_cons.mpr ⟨fresh, distinct⟩)

theorem Entries.sound_concat {entries : Entries} {key : String} {node : Node}
    (sound : Entries.Sound entries) (fresh : key ∉ entries.map Prod.fst) (last : node.Sound) :
    Entries.Sound (entries ++ [(key, node)]) := by
  obtain ⟨distinct, all⟩ := Entries.sound_iff.mp sound
  refine Entries.sound_iff.mpr ⟨?_, List.forall_mem_append.mpr
    ⟨all, List.forall_mem_singleton.mpr last⟩⟩
  rw [List.map_append, List.map_singleton]
  exact nodup_concat distinct fresh

/-! ## Changes -/

/-- The change makes sound entries of sound ones. -/
def Keeps (change : Entries → Option Entries) : Prop :=
  ∀ {entries entries' : Entries}, Entries.Sound entries → change entries = some entries' →
    Entries.Sound entries'

/-- The change makes a sound node of a sound one or of none. -/
def KeepsNode (change : Option Node → Option Node) : Prop :=
  ∀ {before : Option Node} {after : Node}, (∀ node, before = some node → node.Sound) →
    change before = some after → after.Sound

theorem keys_alter {key : String} {change : Option Node → Option Node} {entries entries' : Entries}
    (altered : alter key change entries = some entries') :
    entries'.map Prod.fst = entries.map Prod.fst ∨
      key ∉ entries.map Prod.fst ∧ entries'.map Prod.fst = entries.map Prod.fst ++ [key] := by
  induction entries generalizing entries' with
  | nil =>
    obtain ⟨node, -, rfl⟩ := Option.map_eq_some_iff.mp altered
    exact .inr ⟨List.not_mem_nil, rfl⟩
  | cons entry entries ih =>
    obtain ⟨k, node⟩ := entry
    rw [alter] at altered
    split at altered
    · obtain ⟨node, -, rfl⟩ := Option.map_eq_some_iff.mp altered
      exact .inl rfl
    next other =>
      obtain ⟨rest, later, rfl⟩ := Option.map_eq_some_iff.mp altered
      obtain same | ⟨fresh, more⟩ := ih later
      · exact .inl (congrArg (k :: ·) same)
      · refine .inr ⟨?_, congrArg (k :: ·) more⟩
        rw [List.map_cons, List.mem_cons, not_or]
        exact ⟨fun same => other same.symm, fresh⟩

theorem mem_alter {key : String} {change : Option Node → Option Node} (keeps : KeepsNode change)
    {entries entries' : Entries} (all : ∀ entry ∈ entries, entry.2.Sound)
    (altered : alter key change entries = some entries') : ∀ entry ∈ entries', entry.2.Sound := by
  induction entries generalizing entries' with
  | nil =>
    obtain ⟨node, made, rfl⟩ := Option.map_eq_some_iff.mp altered
    exact List.forall_mem_singleton.mpr (keeps (by rintro _ ⟨⟩) made)
  | cons entry entries ih =>
    obtain ⟨k, node⟩ := entry
    obtain ⟨first, others⟩ := List.forall_mem_cons.mp all
    rw [alter] at altered
    split at altered
    · obtain ⟨changed, made, rfl⟩ := Option.map_eq_some_iff.mp altered
      exact List.forall_mem_cons.mpr ⟨keeps (by rintro _ ⟨⟩; exact first) made, others⟩
    · obtain ⟨rest, later, rfl⟩ := Option.map_eq_some_iff.mp altered
      exact List.forall_mem_cons.mpr ⟨first, ih others later⟩

theorem alter_keeps {key : String} {change : Option Node → Option Node}
    (keeps : KeepsNode change) : Keeps (alter key change) := by
  intro entries entries' sound altered
  obtain ⟨distinct, all⟩ := Entries.sound_iff.mp sound
  refine Entries.sound_iff.mpr ⟨?_, mem_alter keeps all altered⟩
  obtain same | ⟨fresh, more⟩ := keys_alter altered
  · rwa [same]
  · rw [more]
    exact nodup_concat distinct fresh

theorem alterLast_keeps {change : Entries → Option Entries} (keeps : Keeps change)
    {items items' : List Entries} (all : ∀ item ∈ items, Entries.Sound item)
    (altered : alterLast change items = some items') : ∀ item ∈ items', Entries.Sound item := by
  induction items generalizing items' with
  | nil => cases altered
  | cons item items ih =>
    obtain ⟨first, others⟩ := List.forall_mem_cons.mp all
    cases items with
    | nil =>
      obtain ⟨changed, made, rfl⟩ := Option.map_eq_some_iff.mp altered
      exact List.forall_mem_singleton.mpr (keeps first made)
    | cons second items =>
      obtain ⟨rest, later, rfl⟩ := Option.map_eq_some_iff.mp altered
      exact List.forall_mem_cons.mpr ⟨first, ih others later⟩

theorem passing_keeps {change : Entries → Option Entries} (keeps : Keeps change) :
    KeepsNode (passing change) := by
  intro before after sound passed
  unfold passing at passed
  split at passed
  · obtain ⟨entries, made, rfl⟩ := Option.map_eq_some_iff.mp passed
    exact keeps Entries.sound_nil made
  · cases passed
  · obtain ⟨entries, made, rfl⟩ := Option.map_eq_some_iff.mp passed
    exact keeps (sound _ rfl) made
  · obtain ⟨items, made, rfl⟩ := Option.map_eq_some_iff.mp passed
    exact Node.sound_tables.mpr (alterLast_keeps keeps (Node.sound_tables.mp (sound _ rfl)) made)

theorem within_keeps {path : List String} {change : Entries → Option Entries}
    (keeps : Keeps change) : Keeps (within path change) := by
  induction path with
  | nil => exact keeps
  | cons key path ih => exact alter_keeps (passing_keeps ih)

/-! ## Keys and headers -/

theorem assign_keeps {v : Value} (expressible : v.Expressible) {key : List String} {plain : Bool} :
    Keeps (assign v key plain) := by
  induction key generalizing plain with
  | nil => nofun
  | cons part key ih =>
    cases key with
    | nil =>
      intro entries entries' sound assigned
      rw [assign] at assigned
      split at assigned
      · refine alter_keeps ?_ sound assigned
        intro before after _ made
        cases before with
        | none =>
          cases made
          exact expressible
        | some node => cases made
      · cases assigned
    | cons second key =>
      refine alter_keeps ?_
      intro before after soundBefore made
      simp only at made
      split at made
      · obtain ⟨entries, inside, rfl⟩ := Option.map_eq_some_iff.mp made
        exact ih Entries.sound_nil inside
      · cases made
      · cases made
      · obtain ⟨entries, inside, rfl⟩ := Option.map_eq_some_iff.mp made
        exact ih (soundBefore _ rfl) inside
      · obtain ⟨entries, inside, rfl⟩ := Option.map_eq_some_iff.mp made
        exact ih (soundBefore _ rfl) inside
      · obtain ⟨items, inside, rfl⟩ := Option.map_eq_some_iff.mp made
        exact Node.sound_tables.mpr
          (alterLast_keeps ih (Node.sound_tables.mp (soundBefore _ rfl)) inside)

theorem mem_of_lookup {α : Type} {key : String} {a : α} {entries : List (String × α)}
    (found : entries.lookup key = some a) : (key, a) ∈ entries := by
  obtain ⟨front, back, rfl, -⟩ := List.lookup_eq_some_iff.mp found
  exact List.mem_append_right _ List.mem_cons_self

theorem openTable_keeps (path : List String) : Keeps (openTable path) := by
  induction path with
  | nil => nofun
  | cons key path ih =>
    cases path with
    | nil =>
      intro entries entries' sound opened
      rw [openTable] at opened
      split at opened
      next absent =>
        cases opened
        refine Entries.sound_concat sound ?_ Entries.sound_nil
        intro member
        obtain ⟨entry, inside, rfl⟩ := List.mem_map.mp member
        have other := List.lookup_eq_none_iff.mp absent entry inside
        simp at other
      next inner present =>
        cases opened
        obtain ⟨distinct, all⟩ := Entries.sound_iff.mp sound
        have last : (Node.table .implied inner).Sound :=
          all _ (mem_of_lookup present)
        have others : Entries.Sound (entries.filter (·.1 ≠ key)) :=
          Entries.sound_iff.mpr ⟨(List.filter_sublist.map _).nodup distinct,
            fun entry member => all entry (List.mem_filter.mp member).1⟩
        refine Entries.sound_concat others ?_ last
        intro member
        obtain ⟨entry, inside, rfl⟩ := List.mem_map.mp member
        simpa using (List.mem_filter.mp inside).2
      · cases opened
    | cons second path => exact alter_keeps (passing_keeps ih)

theorem openElement_keeps (path : List String) : Keeps (openElement path) := by
  induction path with
  | nil => nofun
  | cons key path ih =>
    cases path with
    | nil =>
      refine alter_keeps ?_
      intro before after soundBefore made
      simp only at made
      split at made
      · cases made
        exact Node.sound_tables.mpr (List.forall_mem_singleton.mpr Entries.sound_nil)
      next items =>
        cases made
        have before := Node.sound_tables.mp (soundBefore _ rfl)
        exact Node.sound_tables.mpr (List.forall_mem_append.mpr
          ⟨before, List.forall_mem_singleton.mpr Entries.sound_nil⟩)
      · cases made
    | cons second path => exact alter_keeps (passing_keeps ih)

/-! ## Documents -/

/-- The value of the statement can be said. -/
def Statement.ValueExpressible : Statement → Prop
  | .pair _ v => v.Expressible
  | _ => True

theorem take_sound {draft draft' : Draft} {statement : Statement}
    (expressible : statement.ValueExpressible) (sound : Entries.Sound draft.entries)
    (taken : draft.take statement = some draft') : Entries.Sound draft'.entries := by
  cases statement with
  | pair key v =>
    obtain ⟨entries, made, rfl⟩ := Option.map_eq_some_iff.mp taken
    exact within_keeps (assign_keeps expressible) sound made
  | table path =>
    obtain ⟨entries, made, rfl⟩ := Option.map_eq_some_iff.mp taken
    exact openTable_keeps path sound made
  | element path =>
    obtain ⟨entries, made, rfl⟩ := Option.map_eq_some_iff.mp taken
    exact openElement_keeps path sound made

/-- Statements with expressible values build expressible entries. -/
theorem ofStatements?_sound {statements : List Statement}
    (expressible : ∀ statement ∈ statements, statement.ValueExpressible) {entries : Entries}
    (built : Entries.ofStatements? statements = some entries) : Entries.Sound entries := by
  obtain ⟨draft, run, rfl⟩ := Option.map_eq_some_iff.mp built
  exact @foldlM?_keeps _ _ _ (fun draft : Draft => Entries.Sound draft.entries) _
    (fun _ statement _ member sound taken => take_sound (expressible statement member) sound taken)
    {} draft Entries.sound_nil run

theorem assignAll_sound {pairs : List (List String × Value)}
    (expressible : ∀ pair ∈ pairs, pair.2.Expressible) {entries : Entries}
    (assigned : assignAll pairs = some entries) : Entries.Sound entries :=
  @foldlM?_keeps _ _ _ Entries.Sound _
    (fun _ pair _ member sound taken => assign_keeps (expressible pair member) sound taken)
    [] entries Entries.sound_nil assigned

end GaugeExporter.Toml
