import GaugeExporter.Proofs.Collection.Lone
import GaugeExporter.Proofs.Exposition.Buffer
import GaugeExporter.Proofs.Registry.Arrangement
import GaugeExporter.Proofs.Text.Order

/-!
# The document of a history

A history of operations determines what a registry shows: `History.document` reads
it off the history alone, with one stable sort of the surviving series.  The
registry instead keeps a list for each metric, sorts it after every creation and
erases from it.  `Mirrors` ties the two together; every operation keeps it
(`mirrors_register` to `mirrors_remove`), and so does a collection.  The
non-trivial ingredient is that sorting after every creation and never after a
removal gives the one arrangement of the survivors (`Arranged.unique`).
-/

namespace GaugeExporter

open Binary (Double)

/-! ## Histories -/

/-- A collection with a token of its own.  The token may be cancelled at once or
when the journal reads in a certain way. -/
def Station.collectFresh (st : Station) (order : Order) (outside : Array Event → Bool) :
    Station × Result :=
  let (st, request) := st.accept 0 order
  st.collect { request with outside }

/-- What has been done to a registry without callbacks.  The numbers of metrics
and of series are part of the type: an operation can only name what there is. -/
inductive History : Nat → Nat → Type
  | fresh : History 0 0
  | register {m s : Nat} (past : History m s) (name : String) (sortField : Option String) :
      History (m + 1) s
  | create {m s : Nat} (past : History m s) (metric : Fin m) (tags : List Tag) : History m (s + 1)
  -- Creates a series in the metric of a series, which may have been removed.
  | createBeside {m s : Nat} (past : History m s) (series : Fin s) (tags : List Tag) :
      History m (s + 1)
  | set {m s : Nat} (past : History m s) (series : Fin s) (value : Double) : History m s
  | remove {m s : Nat} (past : History m s) (series : Fin s) : History m s
  | collect {m s : Nat} (past : History m s) (order : Order) (outside : Array Event → Bool) :
      History m s

/-- The metric of a series. -/
def Registry.ownerOf (r : Registry) (s : SeriesId) : MetricId := (r.series[s]?.map (·.owner)).getD 0

namespace History

variable {m s : Nat}

/-- The station that the operations lead to. -/
def station : {m s : Nat} → History m s → Station
  | _, _, .fresh => {}
  | _, _, .register past name sortField =>
    { past.station with registry := (past.station.registry.addMetric name sortField).1 }
  | _, _, .create past metric tags =>
    { past.station with registry := (past.station.registry.create metric tags).1 }
  | _, _, .createBeside past series tags =>
    { past.station with
      registry :=
        (past.station.registry.create (past.station.registry.ownerOf series) tags).1 }
  | _, _, .set past series value =>
    { past.station with registry := past.station.registry.set series value }
  | _, _, .remove past series =>
    { past.station with registry := past.station.registry.remove series }
  | _, _, .collect past order outside => (past.station.collectFresh order outside).1

/-! ## What a history says -/

/-- The metrics in registration order: names and sort fields. -/
def metrics : {m s : Nat} → History m s → List (String × Option String)
  | _, _, .fresh => []
  | _, _, .register past name sortField => past.metrics ++ [(name, sortField)]
  | _, _, .create past _ _ | _, _, .createBeside past _ _ | _, _, .set past _ _
  | _, _, .remove past _ | _, _, .collect past _ _ => past.metrics

/-- The series in creation order: their metrics and tags. -/
def creations : {m s : Nat} → History m s → List (MetricId × List Tag)
  | _, _, .fresh => []
  | _, _, .create past metric tags => past.creations ++ [(metric.val, tags)]
  | _, _, .createBeside past series tags =>
    past.creations ++ [((past.creations[series.val]?.map (·.1)).getD 0, tags)]
  | _, _, .register past _ _ | _, _, .set past _ _ | _, _, .remove past _
  | _, _, .collect past _ _ => past.creations

/-- The value that was last set in a series, NaN if there is none. -/
def value : {m s : Nat} → History m s → SeriesId → Double
  | _, _, .fresh, _ => .nan
  | _, _, .set past series value, id => if id = series.val then value else past.value id
  | _, _, .register past _ _, id | _, _, .create past _ _, id | _, _, .createBeside past _ _, id
  | _, _, .remove past _, id | _, _, .collect past _ _, id => past.value id

/-- The series has been removed. -/
def removed : {m s : Nat} → History m s → SeriesId → Bool
  | _, _, .fresh, _ => false
  | _, _, .remove past series, id => id == series.val || past.removed id
  | _, _, .register past _ _, id | _, _, .create past _ _, id | _, _, .createBeside past _ _, id
  | _, _, .set past _ _, id | _, _, .collect past _ _, id => past.removed id

variable (h : History m s)

/-- The metric in which a series was created. -/
def owner (id : SeriesId) : MetricId := (h.creations[id]?.map (·.1)).getD 0

/-- The tags with which a series was created. -/
def tags (id : SeriesId) : List Tag := (h.creations[id]?.map (·.2)).getD []

/-- The series that were created in a metric and never removed, in creation
order. -/
def survivors (metric : MetricId) : List SeriesId :=
  (List.range s).filter fun id => h.owner id == metric && !h.removed id

/-- A missing value comes first, then values in the order of their bytes. -/
def valueLE : Option String → Option String → Bool
  | none, _ => true
  | some _, none => false
  | some a, some b => Text.bytewiseLE (Text.bytes a) (Text.bytes b)

/-- The value of the first tag with a key. -/
def firstValue (key : String) (tags : List Tag) : Option String :=
  (tags.find? (·.key == key)).map (·.value)

/-- The live series of a metric in the order in which they are shown. -/
def listed (metric : MetricId) : Option String → List SeriesId
  | none => h.survivors metric
  | some key => (h.survivors metric).mergeSort fun a b =>
      valueLE (firstValue key (h.tags a)) (firstValue key (h.tags b))

/-- The block of a metric: nothing without a finite value, otherwise the header
and a line for every finite one. -/
def block (timestamp : Int) (metric : MetricId) : Bytes :=
  match h.metrics[metric]? with
  | none => []
  | some (name, sortField) =>
    let shown := (h.listed metric sortField).filter fun id => (h.value id).isFinite
    if shown.isEmpty then []
    else Exposition.typeHeader name
      ++ shown.flatMap fun id => Exposition.sampleLine timestamp name (h.value id) (h.tags id)

/-- The document of a history. -/
def document (timestamp : Int) : Bytes :=
  (List.range m).flatMap (h.block timestamp) ++ Exposition.documentEnd

/-! ## Bounds -/

theorem length_metrics (h : History m s) : h.metrics.length = m := by
  induction h with
  | fresh => rfl
  | register past name sortField ih => rw [metrics, List.length_append, ih]; rfl
  | _ => assumption

theorem length_creations (h : History m s) : h.creations.length = s := by
  induction h with
  | fresh => rfl
  | create past metric tags ih => rw [creations, List.length_append, ih]; rfl
  | createBeside past series tags ih => rw [creations, List.length_append, ih]; rfl
  | _ => assumption

theorem getElem?_grown {α : Type} {list : List α} {entry : α} (id : Nat) :
    (list ++ [entry])[id]? = if id = list.length then some entry else list[id]? := by
  by_cases newest : id = list.length
  · subst newest
    simp
  · rw [if_neg newest, List.getElem?_append]
    split
    · rfl
    · rw [List.getElem?_eq_none (by simp; omega), List.getElem?_eq_none (by omega)]

variable {m' : Nat} {past : History m s} {later : History m' (s + 1)} {o : MetricId}
  {tags : List Tag}

theorem owner_grown (grown : later.creations = past.creations ++ [(o, tags)]) (id : Nat) :
    later.owner id = if id = s then o else past.owner id := by
  rw [owner, owner, grown, getElem?_grown, past.length_creations]
  split <;> rfl

theorem tags_grown (grown : later.creations = past.creations ++ [(o, tags)]) (id : Nat) :
    later.tags id = if id = s then tags else past.tags id := by
  rw [History.tags, History.tags, grown, getElem?_grown, past.length_creations]
  split <;> rfl

/-- Every series was created in a metric that there is. -/
theorem owner_lt (h : History m s) {id : Nat} (below : id < s) : h.owner id < m := by
  induction h generalizing id with
  | fresh => exact absurd below (Nat.not_lt_zero _)
  | register past name sortField ih => exact Nat.lt_succ_of_lt (ih below)
  | @create m s past metric tags ih =>
    have grown : (past.create metric tags).creations
        = past.creations ++ [(metric.val, tags)] := rfl
    rw [owner_grown grown]
    split
    · exact metric.isLt
    · exact ih (by omega)
  | @createBeside m s past series tags ih =>
    have grown : (past.createBeside series tags).creations
        = past.creations ++ [(past.owner series, tags)] := rfl
    rw [owner_grown grown]
    split
    · exact ih series.isLt
    · exact ih (by omega)
  | set past series value ih => exact ih below
  | remove past series ih => exact ih below
  | collect past order outside ih => exact ih below

theorem removed_of_le (h : History m s) {id : Nat} (bound : s ≤ id) : h.removed id = false := by
  induction h with
  | fresh => rfl
  | remove past series ih =>
    rw [removed, ih bound, Bool.or_false, beq_eq_false_iff_ne]
    exact Nat.ne_of_gt (Nat.lt_of_lt_of_le series.isLt bound)
  | register past name sortField ih => exact ih bound
  | create past metric tags ih => exact ih (Nat.le_of_succ_le bound)
  | createBeside past series tags ih => exact ih (Nat.le_of_succ_le bound)
  | set past series value ih => exact ih bound
  | collect past order outside ih => exact ih bound

theorem value_of_le (h : History m s) {id : Nat} (bound : s ≤ id) : h.value id = .nan := by
  induction h with
  | fresh => rfl
  | set past series value ih =>
    rw [History.value, if_neg]
    · exact ih bound
    · exact Nat.ne_of_gt (Nat.lt_of_lt_of_le series.isLt bound)
  | register past name sortField ih => exact ih bound
  | create past metric tags ih => exact ih (Nat.le_of_succ_le bound)
  | createBeside past series tags ih => exact ih (Nat.le_of_succ_le bound)
  | remove past series ih => exact ih bound
  | collect past order outside ih => exact ih bound

theorem mem_survivors {h : History m s} {metric : MetricId} {id : Nat} :
    id ∈ h.survivors metric ↔ id < s ∧ h.owner id = metric ∧ h.removed id = false := by
  simp [survivors]

theorem survivors_ascending (h : History m s) (metric : MetricId) :
    (h.survivors metric).Pairwise (· < ·) :=
  List.pairwise_lt_range.sublist List.filter_sublist

theorem survivors_grown (grown : later.creations = past.creations ++ [(o, tags)])
    (same : later.removed = past.removed) (metric : MetricId) :
    later.survivors metric
      = if metric = o then past.survivors metric ++ [s] else past.survivors metric := by
  have earlier : (List.range s).filter (fun id => later.owner id == metric && !later.removed id)
      = past.survivors metric := by
    refine List.filter_congr fun id member => ?_
    have below := List.mem_range.mp member
    rw [owner_grown grown, if_neg (Nat.ne_of_lt below), same]
  rw [survivors, List.range_succ, List.filter_append, earlier]
  by_cases mine : metric = o
  · rw [if_pos mine, List.filter_cons_of_pos]
    · rfl
    · rw [owner_grown grown, if_pos rfl, same, past.removed_of_le (Nat.le_refl s), mine]
      simp
  · rw [if_neg mine, List.filter_cons_of_neg]
    · simp
    · rw [owner_grown grown, if_pos rfl]
      simp [Ne.symm mine]

theorem survivors_remove (past : History m s) (series : Fin s) (metric : MetricId) :
    (past.remove series).survivors metric = (past.survivors metric).erase series.val := by
  have nodup : (past.survivors metric).Nodup :=
    (past.survivors_ascending metric).imp Nat.ne_of_lt
  rw [nodup.erase_eq_filter, survivors, survivors, List.filter_filter]
  refine List.filter_congr fun id _ => ?_
  have sameOwner : (past.remove series).owner id = past.owner id := rfl
  rw [sameOwner, removed]
  cases past.owner id == metric <;> cases past.removed id <;> simp [bne]

/-! ## The simulation -/

/-- The list that a metric keeps, against the survivors. -/
def Lists (r : Registry) (live survivors : List SeriesId) : Option String → Prop
  | none => live = survivors
  | some _ => Arranged r.sortKey live ∧ live.Perm survivors

/-- The sort field of a metric. -/
def field (h : History m s) (metric : MetricId) : Option String := h.metrics[metric]?.bind (·.2)

/-- A registry shows what its history says. -/
structure Mirrors (h : History m s) (r : Registry) : Prop where
  sizes : r.metrics.size = m ∧ r.series.size = s
  metric : ∀ id : Nat, (r.metrics[id]?).map (fun x => (x.name, x.sortField)) = h.metrics[id]?
  owner : ∀ id < s, r.ownerOf id = h.owner id
  tags : ∀ id, r.tags id = h.tags id
  sortKey : ∀ id < s, r.sortKey id = sortKeyOf (h.field (h.owner id)) (h.tags id)
  value : ∀ id, r.value id = h.value id
  live : ∀ (id : Nat) (metric : Metric), r.metrics[id]? = some metric →
    Lists r metric.live (h.survivors id) metric.sortField

theorem mirrors_fresh : Mirrors .fresh {} where
  sizes := ⟨rfl, rfl⟩
  metric _ := rfl
  owner _ below := absurd below (Nat.not_lt_zero _)
  tags _ := rfl
  sortKey _ below := absurd below (Nat.not_lt_zero _)
  value _ := rfl
  live _ _ found := by simp at found

variable {r : Registry}

theorem mirrors_register (mirrors : Mirrors past r) (name : String) (sortField : Option String) :
    Mirrors (past.register name sortField) (r.addMetric name sortField).1 where
  sizes := by
    rw [Registry.addMetric, Array.size_push, mirrors.sizes.1]
    exact ⟨rfl, mirrors.sizes.2⟩
  metric id := by
    rw [Registry.addMetric, Array.getElem?_push, metrics, getElem?_grown, past.length_metrics,
      mirrors.sizes.1, ← mirrors.metric]
    split <;> rfl
  owner := mirrors.owner
  tags := mirrors.tags
  sortKey id below := by
    have inside : past.owner id < past.metrics.length :=
      past.length_metrics.symm ▸ past.owner_lt below
    have sameField : (past.register name sortField).field (past.owner id)
        = past.field (past.owner id) := by
      rw [field, field, metrics, List.getElem?_append_left inside]
    have key := mirrors.sortKey id below
    rw [← sameField] at key
    exact key
  value := mirrors.value
  live id metric found := by
    rw [Registry.addMetric, Array.getElem?_push] at found
    split at found
    next newest =>
      cases found
      have none : past.survivors id = [] := by
        rw [List.eq_nil_iff_forall_not_mem]
        intro t member
        obtain ⟨below, mine, _⟩ := mem_survivors.mp member
        have inside := past.owner_lt below
        rw [mine, newest, mirrors.sizes.1] at inside
        exact Nat.lt_irrefl _ inside
      have sameSurvivors : (past.register name sortField).survivors id = [] := none
      rw [sameSurvivors]
      cases sortField with
      | none => rfl
      | some key => exact ⟨.nil, .nil⟩
    next => exact mirrors.live id metric found

/-- A field of a series after one more has been created. -/
theorem getD_push {α : Type} (r : Registry) (x : Series) (f : Series → α) (default : α) (id : Nat) :
    (((r.series.push x)[id]?).map f).getD default
      = if id = r.series.size then f x else ((r.series[id]?).map f).getD default := by
  rw [Array.getElem?_push]
  split <;> rfl

/-- The list of a metric before and after it gets one more series, with a key that
only the new series changes. -/
theorem Lists.append {r r' : Registry} {live survivors : List SeriesId} {sortField : Option String}
    {newest : Nat} (lists : Lists r live survivors sortField) (below : ∀ t ∈ survivors, t < newest)
    (same : ∀ t < newest, r'.sortKey t = r.sortKey t) :
    Lists r' (r'.arranged sortField (live ++ [newest])) (survivors ++ [newest]) sortField := by
  cases sortField with
  | none => exact congrArg (· ++ [newest]) lists
  | some key =>
    obtain ⟨arranged, perm⟩ := lists
    have inside : ∀ t ∈ live, t < newest := fun t member => below t (perm.mem_iff.mp member)
    have arranged' : Arranged r'.sortKey live :=
      arranged.congr fun t member => same t (inside t member)
    exact ⟨arranged'.append inside, (List.mergeSort_perm _ _).trans (perm.append_right _)⟩

theorem Lists.congr {r r' : Registry} {live survivors : List SeriesId} {sortField : Option String}
    (lists : Lists r live survivors sortField)
    (same : ∀ t ∈ survivors, r'.sortKey t = r.sortKey t) :
    Lists r' live survivors sortField := by
  cases sortField with
  | none => exact lists
  | some key =>
    exact ⟨lists.1.congr fun t member => same t (lists.2.mem_iff.mp member), lists.2⟩

theorem Lists.erase {live survivors : List SeriesId} {sortField : Option String}
    (lists : Lists r live survivors sortField) (id : SeriesId) :
    Lists r (live.erase id) (survivors.erase id) sortField := by
  cases sortField with
  | none => exact congrArg (·.erase id) lists
  | some key => exact ⟨lists.1.erase id, lists.2.erase id⟩

/-- A new series goes to the end of its metric's list and, with a sort field, to
its place from there. -/
theorem mirrors_grown {later : History m (s + 1)} (mirrors : Mirrors past r)
    (grown : later.creations = past.creations ++ [(o, tags)])
    (metrics : later.metrics = past.metrics) (value : later.value = past.value)
    (removed : later.removed = past.removed) : Mirrors later (r.create o tags).1 := by
  have newest := mirrors.sizes.2
  subst newest
  have oldKey : ∀ id < r.series.size, (r.create o tags).1.sortKey id = r.sortKey id := by
    intro id old
    rw [Registry.sortKey, Registry.create, Array.getElem?_push, if_neg (by omega)]
    rfl
  have fieldOf : r.metrics[o]?.bind (·.sortField) = past.field o := by
    rw [field, ← mirrors.metric]
    cases r.metrics[o]? <;> rfl
  refine ⟨⟨?_, ?_⟩, fun id => ?_, fun id inside => ?_, fun id => ?_, fun id inside => ?_,
    fun id => ?_, fun id metric found => ?_⟩
  · rw [Registry.size_metrics_create, mirrors.sizes.1]
  · rw [Registry.create, Array.size_push]
  · rw [Registry.create, Array.getElem?_modify, metrics, ← mirrors.metric]
    split
    · cases r.metrics[id]? <;> rfl
    · rfl
  · rw [owner_grown grown, Registry.ownerOf, Registry.create, getD_push]
    split
    · rfl
    · exact mirrors.owner id (by omega)
  · rw [tags_grown grown, Registry.tags, Registry.create, getD_push]
    split
    · rfl
    · exact mirrors.tags id
  · have sameField : later.field (later.owner id) = past.field (later.owner id) := by
      rw [field, field, metrics]
    rw [sameField, owner_grown grown, tags_grown grown]
    by_cases new : id = r.series.size
    · subst new
      rw [if_pos rfl, if_pos rfl, ← fieldOf, Registry.sortKey, Registry.create,
        Array.getElem?_push, if_pos rfl]
      rfl
    · rw [if_neg new, if_neg new, oldKey id (by omega)]
      exact mirrors.sortKey id (by omega)
  · rw [value, Registry.value, Registry.create, getD_push]
    split
    next new => exact (past.value_of_le (Nat.le_of_eq new.symm)).symm
    next => exact mirrors.value id
  · rw [Registry.create, Array.getElem?_modify] at found
    rw [survivors_grown grown removed]
    split at found
    next mine =>
      subst mine
      rw [if_pos rfl]
      obtain ⟨before, old, rfl⟩ := Option.map_eq_some_iff.mp found
      exact (mirrors.live o before old).append (fun t member => (mem_survivors.mp member).1) oldKey
    next other =>
      rw [if_neg (Ne.symm other)]
      exact (mirrors.live id metric found).congr fun t member =>
        oldKey t (mem_survivors.mp member).1

/-- A field of a series after a value was set. -/
theorem map_set {α : Type} (r : Registry) (id : SeriesId) (v : Double) (f : Series → α)
    (blind : ∀ x : Series, f { x with value := v } = f x) (other : Nat) :
    ((r.set id v).series[other]?).map f = (r.series[other]?).map f := by
  rw [Registry.set, Array.getElem?_modify]
  split
  · cases r.series[other]? with
    | none => rfl
    | some x => exact congrArg some (blind x)
  · rfl

theorem mirrors_set (mirrors : Mirrors past r) (series : Fin s) (v : Double) :
    Mirrors (past.set series v) (r.set series v) := by
  have sameKey : ∀ id : Nat, (r.set series v).sortKey id = r.sortKey id := by
    intro id
    have same := map_set r series v (·.sortKey) (fun _ => rfl) id
    rw [Registry.sortKey, Registry.sortKey]
    cases before : r.series[id]? <;> cases after : (r.set series v).series[id]? <;>
      simp_all
  refine ⟨⟨mirrors.sizes.1, ?_⟩, mirrors.metric, fun id inside => ?_, fun id => ?_,
    fun id inside => ?_, fun id => ?_, fun id metric found => ?_⟩
  · rw [Registry.size_series_set, mirrors.sizes.2]
  · have owner := mirrors.owner id inside
    rw [Registry.ownerOf] at owner
    rwa [Registry.ownerOf, map_set r series v _ fun _ => rfl]
  · have tags := mirrors.tags id
    rw [Registry.tags] at tags
    rwa [Registry.tags, map_set r series v _ fun _ => rfl]
  · rw [sameKey]
    exact mirrors.sortKey id inside
  · rw [History.value]
    by_cases mine : id = series.val
    · rw [if_pos mine, mine, Registry.value_set_same]
      rw [mirrors.sizes.2]
      exact series.isLt
    · rw [if_neg mine, Registry.value_set_of_ne _ (Ne.symm mine)]
      exact mirrors.value id
  · exact (mirrors.live id metric found).congr fun t _ => sameKey t

theorem mirrors_remove (mirrors : Mirrors past r) (series : Fin s) :
    Mirrors (past.remove series) (r.remove series) := by
  obtain ⟨x, found⟩ : ∃ x, r.series[series.val]? = some x :=
    ⟨_, Array.getElem?_eq_getElem (mirrors.sizes.2.symm ▸ series.isLt)⟩
  have owner : x.owner = past.owner series := by
    rw [← mirrors.owner series series.isLt, Registry.ownerOf, found]
    rfl
  have metrics : (r.remove series).metrics
      = r.metrics.modify x.owner fun metric =>
          { metric with live := metric.live.erase series } := by
    rw [Registry.remove, found]
  have sameSeries := Registry.series_remove r series
  refine ⟨⟨?_, ?_⟩, fun id => ?_, fun id inside => ?_, fun id => ?_, fun id inside => ?_,
    fun id => ?_, fun id metric listed => ?_⟩
  · rw [Registry.size_metrics_remove, mirrors.sizes.1]
  · rw [sameSeries, mirrors.sizes.2]
  · rw [metrics, Array.getElem?_modify, ← show _ = (past.remove series).metrics[id]? from
      mirrors.metric id]
    split
    · cases r.metrics[id]? <;> rfl
    · rfl
  · rw [Registry.ownerOf, sameSeries]
    exact mirrors.owner id inside
  · rw [Registry.tags, sameSeries]
    exact mirrors.tags id
  · rw [Registry.sortKey, sameSeries]
    exact mirrors.sortKey id inside
  · rw [Registry.value, sameSeries]
    exact mirrors.value id
  · have sameKey : ∀ t : Nat, (r.remove series).sortKey t = r.sortKey t := fun t => by
      rw [Registry.sortKey, Registry.sortKey, sameSeries]
    rw [survivors_remove]
    rw [metrics, Array.getElem?_modify] at listed
    split at listed
    next mine =>
      obtain ⟨before, old, rfl⟩ := Option.map_eq_some_iff.mp listed
      exact ((mirrors.live id before old).erase series).congr fun t _ => sameKey t
    next other =>
      have absent : series.val ∉ past.survivors id := fun member =>
        other (owner.trans (mem_survivors.mp member).2.1)
      rw [List.erase_of_not_mem absent]
      exact (mirrors.live id metric listed).congr fun t _ => sameKey t

/-! ## The station of a history -/

/-- A collection with a fresh token leaves the registry as it is. -/
theorem collectFresh_quiet {st : Station} (sync : st.registry.syncCallbacks = [])
    (async : st.registry.asyncCallbacks = []) (order : Order) (outside : Array Event → Bool) :
    (st.collectFresh order outside).1.registry = st.registry ∧
      (st.collectFresh order outside).1.issued = st.issued + 1 ∧
      ∀ token, (st.collectFresh order outside).1.isCancelled token = true →
        st.isCancelled token = true ∨ token = st.issued := by
  have accepted : ∃ mid request, st.accept 0 order = (mid, request) ∧ mid.registry = st.registry ∧
      mid.issued = st.issued + 1 ∧ request.token = st.issued ∧
      ∀ token, mid.isCancelled token = true → st.isCancelled token = true ∨ token = st.issued := by
    rw [Station.accept, Station.issue]
    cases order.cancelled with
    | false => exact ⟨_, _, rfl, rfl, rfl, rfl, fun _ => .inl⟩
    | true =>
      obtain ⟨registry, issued, cancelled⟩ :=
        Station.cancel_only { st with issued := st.issued + 1 } st.issued
      exact ⟨_, _, rfl, registry, issued, rfl, cancelled⟩
  obtain ⟨mid, request, accept, registry, issued, own, cancelled⟩ := accepted
  have quiet : Request.Quiet { request with outside } mid
      (mid.collect { request with outside }).1 :=
    Station.collect_quiet (registry ▸ sync) (registry ▸ async)
  rw [Station.collectFresh, accept]
  refine ⟨quiet.registry.trans registry, quiet.issued.trans issued, fun token now => ?_⟩
  cases quiet.cancelled token now with
  | inl before => exact cancelled token before
  | inr mine => exact .inr (mine.1.trans own)

theorem station_mirrors (h : History m s) :
    Mirrors h h.station.registry ∧ h.station.registry.syncCallbacks = [] ∧
      h.station.registry.asyncCallbacks = [] ∧
      ∀ token, h.station.isCancelled token = true → token < h.station.issued := by
  induction h with
  | fresh => exact ⟨mirrors_fresh, rfl, rfl, fun _ cancelled => by cases cancelled⟩
  | register past name sortField ih =>
    obtain ⟨mirrors, sync, async, tokens⟩ := ih
    exact ⟨mirrors_register mirrors name sortField, sync, async, tokens⟩
  | create past metric tags ih =>
    obtain ⟨mirrors, sync, async, tokens⟩ := ih
    exact ⟨mirrors_grown mirrors rfl rfl rfl rfl, sync, async, tokens⟩
  | createBeside past series tags ih =>
    obtain ⟨mirrors, sync, async, tokens⟩ := ih
    have owner := mirrors.owner series series.isLt
    rw [station, owner]
    exact ⟨mirrors_grown mirrors rfl rfl rfl rfl, sync, async, tokens⟩
  | set past series value ih =>
    obtain ⟨mirrors, sync, async, tokens⟩ := ih
    exact ⟨mirrors_set mirrors series value, sync, async, tokens⟩
  | remove past series ih =>
    obtain ⟨mirrors, sync, async, tokens⟩ := ih
    refine ⟨mirrors_remove mirrors series, ?_, ?_, tokens⟩
    · rw [station, (Station.SameLists.remove _ _).syncCallbacks, sync]
    · rw [station, (Station.SameLists.remove _ _).asyncCallbacks, async]
  | collect past order outside ih =>
    obtain ⟨mirrors, sync, async, tokens⟩ := ih
    obtain ⟨registry, issued, cancelled⟩ := collectFresh_quiet sync async order outside
    rw [station, registry, issued]
    have mirrors' : Mirrors (past.collect order outside) past.station.registry :=
      ⟨mirrors.sizes, mirrors.metric, mirrors.owner, mirrors.tags, mirrors.sortKey, mirrors.value,
        mirrors.live⟩
    refine ⟨mirrors', sync, async, fun token now => ?_⟩
    cases cancelled token now with
    | inl before => exact Nat.lt_succ_of_lt (tokens token before)
    | inr own => exact Nat.lt_succ_of_le (Nat.le_of_eq own)

/-! ## The document -/

/-- The order of values is the one by which the registry sorts. -/
theorem valueLE_eq : valueLE = sortKeyLE := by
  funext a b
  cases a with
  | none => rfl
  | some a =>
    cases b with
    | none => rfl
    | some b => exact Text.bytewiseLE_bytes a b

theorem Mirrors.listed {h : History m s} (mirrors : Mirrors h r) {id : Nat} {metric : Metric}
    (found : r.metrics[id]? = some metric) : metric.live = h.listed id metric.sortField := by
  have lists := mirrors.live id metric found
  cases sorted : metric.sortField with
  | none =>
    rw [sorted] at lists
    exact lists
  | some key =>
    rw [sorted] at lists
    obtain ⟨arranged, perm⟩ := lists
    have keys : ∀ t ∈ metric.live, firstValue key (h.tags t) = r.sortKey t := by
      intro t member
      obtain ⟨below, mine, _⟩ := mem_survivors.mp (perm.mem_iff.mp member)
      have fieldOf : h.field id = some key := by
        rw [field, ← mirrors.metric, found, ← sorted]
        rfl
      rw [mirrors.sortKey t below, mine, fieldOf]
      rfl
    have sort : h.listed id (some key)
        = arrange (fun t => firstValue key (h.tags t)) (h.survivors id) := by
      rw [History.listed, valueLE_eq, arrange]
    rw [sort]
    refine (arranged.congr keys).unique ?_ (perm.trans (List.mergeSort_perm _ _).symm)
    exact arranged_arrange (tiesAscend_of_ascending (h.survivors_ascending id))

theorem Mirrors.block {h : History m s} (mirrors : Mirrors h r) (timestamp : Int) {id : Nat}
    (below : id < m) : r.blockAt timestamp id = h.block timestamp id := by
  have inside : id < r.metrics.size := mirrors.sizes.1.symm ▸ below
  have found := Array.getElem?_eq_getElem inside
  have named := mirrors.metric id
  have values : r.value = h.value := funext mirrors.value
  have tagged : r.tags = h.tags := funext mirrors.tags
  rw [Registry.blockAt, History.block, ← named, found]
  simp only [Option.getD_some, Option.map_some]
  rw [Registry.plainBlock, Registry.finiteSeries, mirrors.listed found, values, tagged]
  split
  next none => rw [none]; rfl
  next some => rw [if_neg (by simpa using some)]

theorem Mirrors.document {h : History m s} (mirrors : Mirrors h r) (timestamp : Int) :
    r.document timestamp = h.document timestamp := by
  rw [Registry.document, History.document, Registry.blocks, Registry.metricCount, mirrors.sizes.1]
  congr 1
  exact List.flatMap_congr fun id member => mirrors.block timestamp (List.mem_range.mp member)

/-- Whatever was done to a registry without callbacks: a collection whose token
nobody cancels appends the document of the history. -/
theorem collect_gives_document (h : History m s) (timestamp : Int) (buffer : Bytes) :
    (h.station.collectFresh { timestamp, buffer } fun _ => false).2
      = ⟨buffer ++ h.document timestamp, some (.ok ())⟩ := by
  obtain ⟨mirrors, sync, async, tokens⟩ := h.station_mirrors
  have fresh : h.station.isCancelled h.station.issued = false := by
    cases cancelled : h.station.isCancelled h.station.issued with
    | false => rfl
    | true => exact absurd (tokens _ cancelled) (Nat.lt_irrefl _)
  rw [← mirrors.document timestamp]
  exact @Station.collect_document _ h.station.issue.1 sync async fresh fun _ => rfl

end History

end GaugeExporter
