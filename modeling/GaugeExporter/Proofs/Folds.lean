/-!
# Steps that can fail

What every step keeps holds of the result of a fold that succeeds, whichever way
a step can fail.
-/

namespace GaugeExporter

theorem of_bind_ok {ε α β : Type} {x : Except ε α} {next : α → Except ε β} {b : β}
    (done : x >>= next = .ok b) : ∃ a, x = .ok a ∧ next a = .ok b := by
  cases x with
  | error e => cases done
  | ok a => exact ⟨a, rfl, done⟩

theorem of_mapError_ok {ε δ α : Type} {x : Except ε α} {change : ε → δ} {a : α}
    (done : x.mapError change = .ok a) : x = .ok a := by
  cases x with
  | error e => cases done
  | ok b =>
    cases done
    rfl

theorem foldlM_keeps {ε σ α : Type} {step : σ → α → Except ε σ} {holds : σ → Prop} {items : List α}
    (keeps : ∀ s item s', item ∈ items → holds s → step s item = .ok s' → holds s') {s s' : σ}
    (start : holds s) (folded : items.foldlM step s = .ok s') : holds s' := by
  induction items generalizing s with
  | nil =>
    cases folded
    exact start
  | cons item rest ih =>
    rw [List.foldlM_cons] at folded
    obtain ⟨mid, first, later⟩ := of_bind_ok folded
    exact ih (fun s other s' member => keeps s other s' (List.mem_cons_of_mem _ member))
      (keeps s item mid List.mem_cons_self start first) later

theorem foldlM?_keeps {σ α : Type} {step : σ → α → Option σ} {holds : σ → Prop} {items : List α}
    (keeps : ∀ s item s', item ∈ items → holds s → step s item = some s' → holds s') {s s' : σ}
    (start : holds s) (folded : items.foldlM step s = some s') : holds s' := by
  induction items generalizing s with
  | nil =>
    cases folded
    exact start
  | cons item rest ih =>
    rw [List.foldlM_cons] at folded
    obtain ⟨mid, first, later⟩ := Option.bind_eq_some_iff.mp folded
    exact ih (fun s other s' member => keeps s other s' (List.mem_cons_of_mem _ member))
      (keeps s item mid List.mem_cons_self start first) later

/-- Every result comes from one of the items. -/
theorem mem_of_mapM {ε α β : Type} {f : α → Except ε β} {items : List α} {results : List β}
    (mapped : items.mapM f = .ok results) : ∀ b ∈ results, ∃ a ∈ items, f a = .ok b := by
  induction items generalizing results with
  | nil =>
    cases mapped
    nofun
  | cons a rest ih =>
    rw [List.mapM_cons] at mapped
    obtain ⟨b, first, mapped⟩ := of_bind_ok mapped
    obtain ⟨others, later, mapped⟩ := of_bind_ok mapped
    cases mapped
    intro c member
    cases List.mem_cons.mp member with
    | inl now => exact ⟨a, List.mem_cons_self, now ▸ first⟩
    | inr inside =>
      obtain ⟨origin, behind, same⟩ := ih later c inside
      exact ⟨origin, List.mem_cons_of_mem _ behind, same⟩

end GaugeExporter
