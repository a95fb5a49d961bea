import GaugeExporter.Toml.Node

/-!
# Keys of documents under construction

What `alter` does depends on where the key is: a new key goes to the end
(`alter_fresh`), and an entry at the end can be changed there (`alter_last`).
-/

namespace GaugeExporter.Toml

theorem alter_fresh {key : String} {entries : Entries} (fresh : key ∉ entries.map Prod.fst)
    (change : Option Node → Option Node) :
    alter key change entries = (change none).map fun node => entries ++ [(key, node)] := by
  induction entries with
  | nil => rfl
  | cons entry rest ih =>
    obtain ⟨k, node⟩ := entry
    rw [List.map_cons, List.mem_cons, not_or] at fresh
    rw [alter, if_neg fun same => fresh.1 same.symm, ih fresh.2, Option.map_map]
    rfl

theorem alter_last {key : String} {front : Entries} (fresh : key ∉ front.map Prod.fst)
    (change : Option Node → Option Node) (node : Node) :
    alter key change (front ++ [(key, node)])
      = (change (some node)).map fun node => front ++ [(key, node)] := by
  induction front with
  | nil => rw [List.nil_append, alter, if_pos rfl]; rfl
  | cons entry rest ih =>
    obtain ⟨k, other⟩ := entry
    rw [List.map_cons, List.mem_cons, not_or] at fresh
    rw [List.cons_append, alter, if_neg fun same => fresh.1 same.symm, ih fresh.2, Option.map_map]
    rfl

theorem assign_fresh {key : String} {entries : Entries} (fresh : key ∉ entries.map Prod.fst)
    (v : Value) : assign v [key] true entries = some (entries ++ [(key, .value v)]) := by
  rw [assign, if_pos rfl, alter_fresh fresh]
  rfl

/-! ## Finished documents -/

theorem finished_append (front back : Entries) :
    finished (front ++ back) = finished front ++ finished back := by
  induction front with
  | nil => rfl
  | cons entry front ih => exact congrArg (_ :: ·) ih

theorem finished_eq_map (entries : Entries) :
    finished entries = entries.map fun entry => (entry.1, entry.2.toValue) := by
  induction entries with
  | nil => rfl
  | cons entry rest ih => exact congrArg (_ :: ·) ih

/-! ## Plain values -/

/-- Values written behind their keys. -/
def Table.plain (entries : Table) : Entries := entries.map fun entry => (entry.1, .value entry.2)

theorem finished_plain (entries : Table) : finished (Table.plain entries) = entries := by
  induction entries with
  | nil => rfl
  | cons entry rest ih => exact congrArg (entry :: ·) ih

theorem fresh_of_nodup {α : Type} {front rest : List α} {a : α}
    (distinct : (front ++ a :: rest).Nodup) : a ∉ front := fun member =>
  (List.nodup_append.mp distinct).2.2 a member a List.mem_cons_self rfl

/-- Pairs with new keys become the entries of a table, in order. -/
theorem assign_plain {entries : Table} {front : Entries}
    (distinct : (front.map Prod.fst ++ entries.map Prod.fst).Nodup) :
    (entries.map fun entry => ([entry.1], entry.2)).foldlM
      (fun entries (key, value) => assign value key true entries) front
      = some (front ++ Table.plain entries) := by
  induction entries generalizing front with
  | nil => exact congrArg some (List.append_nil front).symm
  | cons entry rest ih =>
    have fresh := fresh_of_nodup distinct
    have later := @ih (front ++ [(entry.1, .value entry.2)])
      (by rwa [List.map_append, List.append_assoc])
    rw [List.map_cons, List.foldlM_cons]
    simp only [assign_fresh fresh]
    refine later.trans ?_
    rw [List.append_assoc]
    rfl

end GaugeExporter.Toml
