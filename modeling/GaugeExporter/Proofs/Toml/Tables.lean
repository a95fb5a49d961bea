import GaugeExporter.Proofs.Toml.Keyed
import GaugeExporter.Proofs.Toml.Nodes
import GaugeExporter.Toml.Printer

/-!
# Tables come back

The statements of a table build the table again (`ofStatements?_statements`): its
plain values first, then the parts with headers, each of them rearranged in the
same way.  A `Spot` is a place in a document under construction where a table is
or would be made; what a header does is what it does at its spot, and the rest of
the document stays around it.  Spots of tables that are not there yet are needed
because the header of a table is left out where the headers inside it imply it.
-/

namespace GaugeExporter.Toml

/-! ## What statements build -/

def plainNodes (entries : Table) : Entries :=
  entries.filterMap fun (key, v) => if v.hasHeader then none else some (key, .value v)

/-- A table has a header of its own, or the headers inside it imply it. -/
def originOf (entries : Table) : Origin :=
  if entries.isEmpty || !(plainPairs entries).isEmpty then .header else .implied

mutual

/-- What the statements of a value build. -/
def Value.node : Value → Node
  | .table entries => .table (originOf entries) (plainNodes entries ++ headedNodes entries)
  | .array items => .tables (elementNodes items)
  | v => .value v

def elementNodes : List Value → List Entries
  | [] => []
  | .table entries :: rest => (plainNodes entries ++ headedNodes entries) :: elementNodes rest
  | _ :: rest => elementNodes rest

def headedNodes : List (String × Value) → Entries
  | [] => []
  | (key, v) :: rest => if v.hasHeader then (key, v.node) :: headedNodes rest else headedNodes rest

end

/-- What the statements of a document build. -/
def Table.nodes (entries : Table) : Entries := plainNodes entries ++ headedNodes entries

theorem plainNodes_cons (key : String) (v : Value) (entries : Table) :
    plainNodes ((key, v) :: entries)
      = if v.hasHeader then plainNodes entries else (key, .value v) :: plainNodes entries := by
  cases header : v.hasHeader <;>
    simp only [plainNodes, List.filterMap_cons, header, Bool.false_eq_true, if_false, if_true]

theorem plainPairs_cons (key : String) (v : Value) (entries : Table) :
    plainPairs ((key, v) :: entries)
      = if v.hasHeader then plainPairs entries else .pair [key] v :: plainPairs entries := by
  cases header : v.hasHeader <;>
    simp only [plainPairs, List.filterMap_cons, header, Bool.false_eq_true, if_false, if_true]

theorem headedNodes_cons (key : String) (v : Value) (entries : Table) :
    headedNodes ((key, v) :: entries)
      = if v.hasHeader then (key, v.node) :: headedNodes entries else headedNodes entries := by
  rw [headedNodes]

/-! ## Spots -/

theorem within_append (path further : List String) (change : Entries → Option Entries) :
    within (path ++ further) change = within path (within further change) := by
  induction path with
  | nil => rfl
  | cons key path ih =>
    funext entries
    rw [List.cons_append, within, ih, within]

theorem openTable_append (path : List String) (key : String) :
    openTable (path ++ [key]) = within path (openTable [key]) := by
  induction path with
  | nil => rfl
  | cons first path ih =>
    funext entries
    rw [List.cons_append, openTable.eq_3, ih, within]
    intro none
    exact List.cons_ne_nil _ _ (List.append_eq_nil_iff.mp none).2

theorem openElement_append (path : List String) (key : String) :
    openElement (path ++ [key]) = within path (openElement [key]) := by
  induction path with
  | nil => rfl
  | cons first path ih =>
    funext entries
    rw [List.cons_append, openElement.eq_3, ih, within]
    intro none
    exact List.cons_ne_nil _ _ (List.append_eq_nil_iff.mp none).2

/-- At a path of the document there is a table with these entries, or it would be
made without any; `plug` puts other entries there. -/
structure Spot (path : List String) (doc inner : Entries) (plug : Entries → Entries) : Prop where
  here : ∀ change, within path change doc = (change inner).map plug
  later : ∀ change other, within path change (plug other) = (change other).map plug

namespace Spot

variable {path : List String} {doc inner : Entries} {plug : Entries → Entries} {key : String}

theorem top (entries : Entries) : Spot [] entries entries id where
  here change := by rw [within, Option.map_id]; rfl
  later change other := by rw [within, Option.map_id]; rfl

/-- The table is there. -/
theorem present (spot : Spot path doc inner plug) (other : Entries) :
    Spot path (plug other) other plug where
  here change := spot.later change other
  later := spot.later

theorem within_singleton (key : String) (change : Entries → Option Entries) :
    within [key] change = alter key (passing change) := rfl

theorem inside_last (spot : Spot path doc inner plug) (fresh : key ∉ inner.map Prod.fst)
    {wrap : Entries → Node}
    (passes : ∀ change entries, passing change (some (wrap entries)) = (change entries).map wrap)
    (change : Entries → Option Entries) (entries : Entries) :
    within (path ++ [key]) change (plug (inner ++ [(key, wrap entries)]))
      = (change entries).map fun entries => plug (inner ++ [(key, wrap entries)]) := by
  rw [within_append, spot.later, within_singleton, alter_last fresh, passes, Option.map_map,
    Option.map_map]
  rfl

/-- The spot of a table that is the last entry of the table around it, or the
last table of an array there. -/
theorem last (spot : Spot path doc inner plug) (fresh : key ∉ inner.map Prod.fst)
    {wrap : Entries → Node}
    (passes : ∀ change entries, passing change (some (wrap entries)) = (change entries).map wrap)
    (entries : Entries) :
    Spot (path ++ [key]) (plug (inner ++ [(key, wrap entries)])) entries
      (fun entries => plug (inner ++ [(key, wrap entries)])) :=
  ⟨fun change => spot.inside_last fresh passes change entries, spot.inside_last fresh passes⟩

/-- The spot of a table that a longer header would make. -/
theorem implied (spot : Spot path doc inner plug) (fresh : key ∉ inner.map Prod.fst) :
    Spot (path ++ [key]) doc []
      (fun entries => plug (inner ++ [(key, .table .implied entries)])) where
  here change := by
    rw [within_append, spot.here, within_singleton, alter_fresh fresh, passing, Option.map_map,
      Option.map_map]
    rfl
  later := spot.inside_last fresh fun _ _ => rfl

end Spot

theorem alterLast_last {α : Type} (change : α → Option α) (front : List α) (a : α) :
    alterLast change (front ++ [a]) = (change a).map fun a => front ++ [a] := by
  induction front with
  | nil => rfl
  | cons first front ih =>
    rw [List.cons_append, alterLast.eq_3, ih, Option.map_map]
    · rfl
    · exact fun none => List.cons_ne_nil _ _ (List.append_eq_nil_iff.mp none).2

theorem passing_last (done : List Entries) (change : Entries → Option Entries)
    (entries : Entries) : passing change (some (.tables (done ++ [entries])))
      = (change entries).map fun entries => .tables (done ++ [entries]) := by
  rw [passing, alterLast_last, Option.map_map]
  rfl

/-! ## Plain values -/

/-- From the document under a header the statements lead to the other one. -/
def Leads (statements : List Statement) (doc : Entries) (path : List String) (doc' : Entries) :
    Prop :=
  ∃ path', statements.foldlM Draft.take ⟨doc, path⟩ = some ⟨doc', path'⟩

variable {path : List String} {doc inner : Entries} {plug : Entries → Entries} {key : String}

theorem Leads.append {first second : List Statement} {doc doc' doc'' : Entries}
    (before : Leads first doc path doc') (behind : ∀ path', Leads second doc' path' doc'') :
    Leads (first ++ second) doc path doc'' := by
  obtain ⟨path', run⟩ := before
  obtain ⟨path'', rest⟩ := behind path'
  refine ⟨path'', ?_⟩
  rw [List.foldlM_append, run]
  exact rest

theorem nodup_push {β : Type} {front : List (String × β)} {rest : List String} {key : String}
    {b : β} (distinct : (front.map Prod.fst ++ key :: rest).Nodup) :
    ((front ++ [(key, b)]).map Prod.fst ++ rest).Nodup := by
  rwa [List.map_append, List.append_assoc]

theorem plainPairs_run {entries : Table} (spot : Spot path doc inner plug)
    (distinct : (inner.map Prod.fst ++ (plainNodes entries).map Prod.fst).Nodup) :
    (plainPairs entries).foldlM Draft.take ⟨plug inner, path⟩
      = some ⟨plug (inner ++ plainNodes entries), path⟩ := by
  induction entries generalizing inner doc with
  | nil => rw [plainNodes, List.filterMap_nil, List.append_nil]; rfl
  | cons entry entries ih =>
    obtain ⟨key, v⟩ := entry
    rw [plainNodes_cons] at distinct
    rw [plainPairs_cons, plainNodes_cons]
    cases header : v.hasHeader with
    | true =>
      rw [header, if_pos rfl] at distinct
      exact ih spot distinct
    | false =>
      rw [header, if_neg Bool.false_ne_true] at distinct
      rw [if_neg Bool.false_ne_true, if_neg Bool.false_ne_true, List.foldlM_cons]
      have assigned : Draft.take ⟨plug inner, path⟩ (.pair [key] v)
          = some ⟨plug (inner ++ [(key, .value v)]), path⟩ := by
        rw [Draft.take, spot.later, assign_fresh (fresh_of_nodup distinct)]
        rfl
      have rest := ih (spot.present (inner ++ [(key, .value v)])) (nodup_push distinct)
      rw [List.append_assoc] at rest
      rw [assigned]
      exact rest

/-! ## Parts with headers -/

/-- At a new key the statements of a value build its node. -/
def Value.Builds (v : Value) : Prop :=
  ∀ {path doc inner plug key}, Spot path doc inner plug → key ∉ inner.map Prod.fst →
    v.hasHeader = true → ∀ path', Leads (v.statements (path ++ [key])) doc path'
      (plug (inner ++ [(key, v.node)]))

/-- In a table without entries the statements of a table fill in its nodes. -/
def Table.Fills (entries : Table) : Prop :=
  ∀ {path doc plug}, Spot path doc [] plug →
    Leads (plainPairs entries ++ nested path entries) (plug []) path (plug (Table.nodes entries))

theorem statements_plain {v : Value} (plain : v.hasHeader = false) (path : List String) :
    v.statements path = [] := by
  cases v with
  | table entries => cases plain
  | array items => rw [Value.statements, plain, if_neg Bool.false_ne_true]
  | _ => rfl

/-- The table is there already, or there is a part that makes it. -/
theorem nested_leads {entries : Table} (builds : ∀ entry ∈ entries, entry.2.Builds)
    (spot : Spot path doc inner plug)
    (distinct : (inner.map Prod.fst ++ (headedNodes entries).map Prod.fst).Nodup)
    (there : doc = plug inner ∨ headedNodes entries ≠ []) (path' : List String) :
    Leads (nested path entries) doc path' (plug (inner ++ headedNodes entries)) := by
  induction entries generalizing inner doc path' with
  | nil =>
    obtain rfl := there.resolve_right fun some => some rfl
    refine ⟨path', ?_⟩
    rw [headedNodes, List.append_nil]
    rfl
  | cons entry entries ih =>
    obtain ⟨key, v⟩ := entry
    have others : ∀ entry ∈ entries, entry.2.Builds := fun entry member =>
      builds entry (List.mem_cons_of_mem _ member)
    rw [headedNodes_cons] at distinct there ⊢
    rw [nested]
    cases header : v.hasHeader with
    | false =>
      rw [header, if_neg Bool.false_ne_true] at distinct there
      rw [statements_plain header, List.nil_append, if_neg Bool.false_ne_true]
      exact ih others spot distinct there path'
    | true =>
      rw [header, if_pos rfl] at distinct
      rw [if_pos rfl]
      have first := builds (key, v) List.mem_cons_self spot (fresh_of_nodup distinct) header path'
      refine first.append fun path'' => ?_
      have behind := ih others (spot.present (inner ++ [(key, v.node)])) (nodup_push distinct)
        (.inl rfl) path''
      rwa [List.append_assoc] at behind

theorem keys_nodes_perm (entries : Table) :
    ((Table.nodes entries).map Prod.fst).Perm (entries.map Prod.fst) := by
  induction entries with
  | nil => exact List.Perm.nil
  | cons entry entries ih =>
    obtain ⟨key, v⟩ := entry
    rw [Table.nodes, List.map_append] at ih ⊢
    rw [headedNodes_cons, plainNodes_cons]
    cases header : v.hasHeader with
    | false => exact ih.cons key
    | true => exact List.perm_middle.trans (ih.cons key)

theorem nodup_nodes {entries : Table} (distinct : (entries.map Prod.fst).Nodup) :
    ((plainNodes entries).map Prod.fst ++ (headedNodes entries).map Prod.fst).Nodup := by
  rw [← List.map_append]
  exact (keys_nodes_perm entries).nodup_iff.mpr distinct

theorem fills_of_builds {entries : Table} (builds : ∀ entry ∈ entries, entry.2.Builds)
    (distinct : (entries.map Prod.fst).Nodup) : Table.Fills entries := by
  intro path doc plug spot
  have nodup := nodup_nodes distinct
  have plain := plainPairs_run spot (List.nodup_append.mp nodup).1
  refine Leads.append ⟨path, plain⟩ fun path' => ?_
  exact nested_leads builds (spot.present _) nodup (.inl rfl) path'

/-- The header of one more table of an array, with what stands behind it. -/
theorem element_leads {entries : Table} (fills : Table.Fills entries)
    (spot : Spot path doc inner plug) (fresh : key ∉ inner.map Prod.fst) {start : Entries}
    {done : List Entries}
    (opens : openElement (path ++ [key]) start
      = some (plug (inner ++ [(key, .tables (done ++ [[]]))]))) (path' : List String) :
    Leads (.element (path ++ [key]) :: (plainPairs entries ++ nested (path ++ [key]) entries)) start
      path' (plug (inner ++ [(key, .tables (done ++ [Table.nodes entries]))])) := by
  obtain ⟨path'', run⟩ := fills (spot.last fresh (passing_last done) [])
  refine ⟨path'', ?_⟩
  rw [List.foldlM_cons, Draft.take, opens]
  exact run

theorem elements_lead {items : List Value}
    (fills : ∀ entries, .table entries ∈ items → Table.Fills entries)
    (tables : items.all Value.isTable = true) (spot : Spot path doc inner plug)
    (fresh : key ∉ inner.map Prod.fst) (done : List Entries) (path' : List String) :
    Leads (elements (path ++ [key]) items) (plug (inner ++ [(key, .tables done)])) path'
      (plug (inner ++ [(key, .tables (done ++ elementNodes items))])) := by
  induction items generalizing done path' with
  | nil =>
    refine ⟨path', ?_⟩
    rw [elementNodes, List.append_nil]
    rfl
  | cons v items ih =>
    rw [List.all_cons, Bool.and_eq_true] at tables
    obtain ⟨isTable, tables⟩ := tables
    cases v with
    | table entries =>
      have opens : openElement (path ++ [key]) (plug (inner ++ [(key, .tables done)]))
          = some (plug (inner ++ [(key, .tables (done ++ [[]]))])) := by
        rw [openElement_append, spot.later, openElement, alter_last fresh]
        rfl
      have first := element_leads (fills entries List.mem_cons_self) spot fresh opens path'
      have later := ih (fun entries member => fills entries (List.mem_cons_of_mem _ member)) tables
        (done ++ [Table.nodes entries])
      rw [List.append_assoc] at later
      rw [elements]
      exact first.append later
    | _ => cases isTable

/-- Without plain values every entry is a part with a header. -/
theorem no_plain {entries : Table} (noPairs : plainPairs entries = []) :
    plainNodes entries = [] ∧ (entries ≠ [] → headedNodes entries ≠ []) := by
  induction entries with
  | nil => exact ⟨rfl, fun some => absurd rfl some⟩
  | cons entry entries ih =>
    obtain ⟨key, v⟩ := entry
    rw [plainPairs_cons] at noPairs
    rw [plainNodes_cons, headedNodes_cons]
    split at noPairs
    next header =>
      rw [if_pos header, if_pos header]
      exact ⟨(ih noPairs).1, fun _ => List.cons_ne_nil _ _⟩
    · cases noPairs

theorem lookup_fresh {α : Type} {entries : List (String × α)} (fresh : key ∉ entries.map Prod.fst) :
    entries.lookup key = none := by
  rw [List.lookup_eq_none_iff]
  intro entry member
  rw [bne_iff_ne]
  rintro rfl
  exact fresh (List.mem_map_of_mem member)

theorem table_builds {entries : Table} (builds : ∀ entry ∈ entries, entry.2.Builds)
    (distinct : (entries.map Prod.fst).Nodup) : (Value.table entries).Builds := by
  intro path doc inner plug key spot fresh _ path'
  rw [Value.statements, Value.node, originOf]
  split
  next header =>
    have opens : openTable (path ++ [key]) doc
        = some (plug (inner ++ [(key, .table .header [])])) := by
      rw [openTable_append, spot.here, openTable, lookup_fresh fresh]
      rfl
    obtain ⟨path'', run⟩ := fills_of_builds builds distinct
      (@Spot.last _ _ _ _ key spot fresh (.table .header) (fun _ _ => rfl) [])
    refine ⟨path'', ?_⟩
    rw [List.append_assoc, List.singleton_append, List.foldlM_cons, Draft.take, opens]
    exact run
  next noHeader =>
    simp only [Bool.or_eq_true, List.isEmpty_iff, Bool.not_eq_true', not_or,
      Bool.not_eq_false] at noHeader
    obtain ⟨some, noPairs⟩ := noHeader
    obtain ⟨noPlain, parts⟩ := no_plain noPairs
    have distinctParts := (List.nodup_append.mp (nodup_nodes distinct)).2.1
    have nested := nested_leads builds (spot.implied fresh) (by rwa [List.map_nil, List.nil_append])
      (.inr (parts some)) path'
    rw [noPairs, noPlain]
    exact nested

theorem array_builds {items : List Value}
    (fills : ∀ entries, .table entries ∈ items → Table.Fills entries) :
    (Value.array items).Builds := by
  intro path doc inner plug key spot fresh header path'
  rw [Value.statements, if_pos header, Value.node]
  cases items with
  | nil => cases header
  | cons v items =>
    rw [Value.hasHeader, List.all_cons, Bool.and_eq_true] at header
    · obtain ⟨isTable, tables⟩ := header
      cases v with
      | table entries =>
        have opens : openElement (path ++ [key]) doc
            = some (plug (inner ++ [(key, .tables ([] ++ [[]]))])) := by
          rw [openElement_append, spot.here, openElement, alter_fresh fresh]
          rfl
        have first := element_leads (fills entries List.mem_cons_self) spot fresh opens path'
        have later := elements_lead
          (fun entries member => fills entries (List.mem_cons_of_mem _ member)) tables spot fresh
          ([] ++ [Table.nodes entries])
        rw [elements]
        exact first.append later
      | _ => cases isTable
    · nofun

/-- The induction is on the value.  A table has to be taken at a key and, as an
element of an array, without one, so both are shown at once. -/
theorem builds_of_keyed {v : Value} (keyed : v.Keyed) :
    v.Builds ∧ ∀ entries, v = .table entries → Table.Fills entries := by
  induction keyed with
  | @table entries distinct all ih =>
    have builds : ∀ entry ∈ entries, entry.2.Builds := fun entry member => (ih entry member).1
    refine ⟨table_builds builds distinct, ?_⟩
    rintro _ ⟨⟩
    exact fills_of_builds builds distinct
  | array all ih =>
    exact ⟨array_builds fun entries member => (ih _ member).2 entries rfl, nofun⟩
  | _ => exact ⟨fun _ _ header => (nomatch header), nofun⟩

/-- The statements of a table build its nodes: the plain values, then the parts
with headers. -/
theorem ofStatements?_statements {entries : Table} (keyed : Table.Keyed entries) :
    Entries.ofStatements? (Table.statements entries) = some (Table.nodes entries) := by
  obtain ⟨path, run⟩ := (builds_of_keyed keyed).2 entries rfl (Spot.top [])
  rw [Entries.ofStatements?, Table.statements]
  exact congrArg (Option.map Draft.entries) run

end GaugeExporter.Toml
