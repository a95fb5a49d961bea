import GaugeExporter.Registry.Basic

/-!
# Stable arrangements

A metric sorts its list again after every creation and never after a removal.
`Arranged` says what such a list always looks like: by sort key, and by number
where keys are equal.  Two arrangements of the same series are one
(`Arranged.unique`), which is what makes one stable sort of the survivors equal
to all the sorts on the way.
-/

namespace GaugeExporter

/-! ## Sort keys -/

theorem sortKeyLE_total : ∀ a b : Option String, (sortKeyLE a b || sortKeyLE b a) = true
  | none, _ => rfl
  | some _, none => rfl
  | some a, some b => by
    simp only [sortKeyLE, Bool.or_eq_true, decide_eq_true_eq]
    exact String.le_total a b

theorem sortKeyLE_trans :
    ∀ a b c : Option String, sortKeyLE a b = true → sortKeyLE b c = true → sortKeyLE a c = true
  | none, _, _, _, _ => rfl
  | some _, none, _, ab, _ => by cases ab
  | some _, some _, none, _, bc => by cases bc
  | some a, some b, some c, ab, bc => by
    simp only [sortKeyLE, decide_eq_true_eq] at ab bc ⊢
    exact String.le_trans ab bc

/-! ## Arrangements -/

/-- Series by their keys, and by their numbers where the keys are equal. -/
def Arranged (key : SeriesId → Option String) (list : List SeriesId) : Prop :=
  list.Pairwise fun s t => sortKeyLE (key s) (key t) = true ∧
    (sortKeyLE (key t) (key s) = true → s ≤ t)

/-- Series of which those with equal keys stand in the order of their numbers. -/
def TiesAscend (key : SeriesId → Option String) (list : List SeriesId) : Prop :=
  list.Pairwise fun s t => sortKeyLE (key s) (key t) = true →
    sortKeyLE (key t) (key s) = true → s ≤ t

/-- The stable sort by a key. -/
def arrange (key : SeriesId → Option String) (list : List SeriesId) : List SeriesId :=
  list.mergeSort fun s t => sortKeyLE (key s) (key t)

variable {key : SeriesId → Option String} {list other : List SeriesId}

theorem Arranged.tiesAscend (arranged : Arranged key list) : TiesAscend key list :=
  arranged.imp fun related _ => related.2

theorem tiesAscend_of_ascending (ascending : list.Pairwise (· < ·)) : TiesAscend key list :=
  ascending.imp fun less _ _ => Nat.le_of_lt less

/-- Sorting keeps ties in order, because the positions break them. -/
theorem arranged_arrange (ties : TiesAscend key list) : Arranged key (arrange key list) := by
  have total : ∀ s t : SeriesId, (sortKeyLE (key s) (key t) || sortKeyLE (key t) (key s)) = true :=
    fun s t => sortKeyLE_total _ _
  have trans : ∀ s t u : SeriesId, sortKeyLE (key s) (key t) = true →
      sortKeyLE (key t) (key u) = true → sortKeyLE (key s) (key u) = true :=
    fun s t u => sortKeyLE_trans _ _ _
  have sorted := List.pairwise_mergeSort (List.zipIdxLE_trans trans) (List.zipIdxLE_total total)
    list.zipIdx
  rw [arrange, ← List.mergeSort_zipIdx, Arranged, List.pairwise_map]
  refine sorted.imp_of_mem ?_
  rintro ⟨s, i⟩ ⟨t, j⟩ memberS memberT related
  rw [List.mem_mergeSort] at memberS memberT
  obtain ⟨boundS, foundS⟩ := List.mem_zipIdx' memberS
  obtain ⟨boundT, foundT⟩ := List.mem_zipIdx' memberT
  simp only [List.zipIdxLE] at related
  split at related
  next less =>
    refine ⟨less, fun greater => ?_⟩
    rw [if_pos greater, decide_eq_true_eq] at related
    rcases Nat.lt_or_eq_of_le related with before | rfl
    · have tie := List.pairwise_iff_getElem.mp ties i j boundS boundT before
      rw [← foundS, ← foundT] at tie
      exact tie less greater
    · exact Nat.le_of_eq (foundS.trans foundT.symm)
  next => cases related

theorem Arranged.unique (left : Arranged key list) (right : Arranged key other)
    (same : list.Perm other) : list = other := by
  refine List.Perm.eq_of_pairwise ?_ left right same
  intro s t _ _ st ts
  exact Nat.le_antisymm (st.2 ts.1) (ts.2 st.1)

/-- A series with a higher number than all others can be put at the end before
sorting again. -/
theorem Arranged.append {s : SeriesId} (arranged : Arranged key list)
    (newest : ∀ t ∈ list, t < s) : Arranged key (arrange key (list ++ [s])) := by
  refine arranged_arrange (List.pairwise_append.mpr ⟨arranged.tiesAscend, ?_, ?_⟩)
  · exact List.pairwise_singleton _ _
  · intro t member u single _ _
    rw [List.mem_singleton.mp single]
    exact Nat.le_of_lt (newest t member)

theorem Arranged.erase (arranged : Arranged key list) (s : SeriesId) :
    Arranged key (list.erase s) :=
  arranged.sublist List.erase_sublist

/-- Only the keys of the series in the list matter. -/
theorem Arranged.congr {key' : SeriesId → Option String} (arranged : Arranged key list)
    (same : ∀ s ∈ list, key' s = key s) : Arranged key' list :=
  arranged.imp_of_mem fun memberS memberT related => by
    rw [same _ memberS, same _ memberT]
    exact related

end GaugeExporter
