import GaugeExporter.Proofs.Folds
import GaugeExporter.Proofs.Toml.Tables

/-!
# Fields of a result

What is read by a fold over the entries of a table falls into fields: each of them is a
part of the result, is read under a key of its own and is changed nowhere else (`Field`).
So each part of the result is what is read under its key, or the default if nothing stands
there (`Field.reads`), and the fold succeeds if every entry can be read
(`foldlM_succeeds`).
-/

namespace GaugeExporter

variable {ε σ α ν : Type} {step : σ → String × ν → Except ε σ} {read : ν → Except ε α}
  {key : String} {get : σ → α} {entries : List (String × ν)}

/-- What is read under the key, or the default if nothing stands there. -/
def Reads (read : ν → Except ε α) (default : α) (entries : List (String × ν)) (key : String)
    (a : α) : Prop :=
  match entries.lookup key with
  | some value => read value = .ok a
  | none => a = default

theorem Reads.eq {default a b : α} (one : Reads read default entries key a)
    (other : Reads read default entries key b) : a = b := by
  unfold Reads at one other
  split at one
  next found =>
    rw [found] at other
    exact Except.ok.inj (one.symm.trans other)
  next found =>
    rw [found] at other
    exact one.trans other.symm

theorem lookup_of_mem {β : Type} {entries : List (String × β)} {b : β}
    (distinct : (entries.map Prod.fst).Nodup) (member : (key, b) ∈ entries) :
    entries.lookup key = some b := by
  induction entries with
  | nil => cases member
  | cons entry rest ih =>
    obtain ⟨k, c⟩ := entry
    obtain ⟨fresh, distinct⟩ := List.nodup_cons.mp distinct
    cases List.mem_cons.mp member with
    | inl same =>
      cases same
      exact List.lookup_cons_self
    | inr inside =>
      have other : (key == k) = false :=
        beq_false_of_ne fun same => fresh (List.mem_map.mpr ⟨_, inside, same⟩)
      rw [List.lookup_cons, other]
      exact ih distinct inside

theorem Reads.of_mem {default a : α} {value : ν} (reads : Reads read default entries key a)
    (distinct : (entries.map Prod.fst).Nodup) (member : (key, value) ∈ entries) :
    read value = .ok a := by
  rwa [Reads, lookup_of_mem distinct member] at reads

/-- The step reads a part of the state under a key of its own, and changes that part
nowhere else. -/
structure Field (step : σ → String × ν → Except ε σ) (read : ν → Except ε α) (key : String)
    (get : σ → α) (put : σ → α → σ) : Prop where
  own : ∀ s value, step s (key, value) = (read value).map (put s)
  stored : ∀ s a, get (put s a) = a
  others : ∀ s entry s', entry.1 ≠ key → step s entry = .ok s' → get s' = get s

theorem of_map_ok {β : Type} {x : Except ε α} {f : α → β} {b : β} (done : x.map f = .ok b) :
    ∃ a, x = .ok a ∧ f a = b := by
  cases x with
  | error e => cases done
  | ok a => exact ⟨a, rfl, Except.ok.inj done⟩

theorem Field.reads {put : σ → α → σ} (field : Field step read key get put)
    (distinct : (entries.map Prod.fst).Nodup) {s s' : σ} (folded : entries.foldlM step s = .ok s') :
    Reads read (get s) entries key (get s') := by
  induction entries generalizing s with
  | nil =>
    cases folded
    rfl
  | cons entry rest ih =>
    obtain ⟨k, value⟩ := entry
    obtain ⟨fresh, distinct⟩ := List.nodup_cons.mp distinct
    rw [List.foldlM_cons] at folded
    obtain ⟨mid, first, later⟩ := of_bind_ok folded
    have reads := ih distinct later
    rw [Reads] at reads ⊢
    by_cases same : k = key
    · subst same
      rw [field.own] at first
      obtain ⟨a, found, rfl⟩ := of_map_ok first
      rw [Toml.lookup_fresh fresh, field.stored] at reads
      rw [List.lookup_cons_self, reads]
      exact found
    · rw [List.lookup_cons, beq_false_of_ne fun eq => same eq.symm,
        ← field.others s (k, value) mid same first]
      exact reads

theorem Field.succeeds {put : σ → α → σ} (field : Field step read key get put)
    (distinct : (entries.map Prod.fst).Nodup) {default a : α}
    (reads : Reads read default entries key a) {value : ν} (member : (key, value) ∈ entries)
    (s : σ) : ∃ s', step s (key, value) = .ok s' :=
  ⟨put s a, by rw [field.own, reads.of_mem distinct member]; rfl⟩

/-- Every entry was taken in some state. -/
theorem taken_of_folded {s s' : σ} (folded : entries.foldlM step s = .ok s')
    {entry : String × ν} (member : entry ∈ entries) : ∃ mid mid', step mid entry = .ok mid' := by
  induction entries generalizing s with
  | nil => cases member
  | cons first rest ih =>
    rw [List.foldlM_cons] at folded
    obtain ⟨mid, taken, later⟩ := of_bind_ok folded
    cases List.mem_cons.mp member with
    | inl same => exact ⟨s, mid, same ▸ taken⟩
    | inr inside => exact ih later inside

theorem foldlM_succeeds (each : ∀ entry ∈ entries, ∀ s, ∃ s', step s entry = .ok s') (s : σ) :
    ∃ s', entries.foldlM step s = .ok s' := by
  induction entries generalizing s with
  | nil => exact ⟨s, rfl⟩
  | cons entry rest ih =>
    obtain ⟨mid, first⟩ := each entry List.mem_cons_self s
    obtain ⟨s', later⟩ := ih (fun other member => each other (List.mem_cons_of_mem _ member)) mid
    exact ⟨s', by rw [List.foldlM_cons, first]; exact later⟩

end GaugeExporter
