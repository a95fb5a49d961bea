import GaugeExporter.Proofs.Producer.Installed

/-!
# Documents of producers

The callbacks of producers set values and nothing else, so a tidy registry stays
tidy whatever files they read (`Registry.tidiness`).  Every collection that
succeeds on it leaves a document in its output, of the form that `IsDocument`
describes: no configuration and no file can put a line, a tag or a header of its
own into it (`documents_well_formed`).
-/

namespace GaugeExporter

open Exposition (IsDocument)

namespace Registry

/-- What is written around the values of a registry. -/
def tidiness : Feature where
  holds r := r.NamesValid ∧ r.KeysDistinct
  spares _ := True
  set _ held value := ⟨held.1.set _ value, held.2.set _ value⟩

theorem Tidy.bears {r : Registry} (tidy : r.Tidy) : r.Bears tidiness :=
  ⟨⟨tidy.names, tidy.distinct⟩, tidy.syncCallbacks, tidy.asyncCallbacks⟩

end Registry

/-! ## Configurations -/

namespace Producer

/-- Whatever a configuration says and whatever its files hold: a collection that
succeeds on what was installed puts a document behind the content of its
output, however it is polled and whatever other collections there are. -/
theorem documents_well_formed (now : Nat) (producers : List ProducerSettings)
    (keyed : ∀ settings ∈ producers, Toml.Table.Keyed settings.options) (start : Station)
    (installed : start.registry = (installAll now {} producers).1) (requests : List Request)
    (moves : List Move) (quiet : ∀ move ∈ moves, move.Quiet) :
    ∀ task ∈ ((System.ofRequests start requests).play moves).tasks,
      task.phase = .ended (.ok ()) →
        ∃ document, task.out = task.request.buffer ++ Text.utf8 document ∧
          IsDocument task.request.timestamp document := by
  intro task member succeeded
  have tidy : start.registry.Tidy := by
    rw [installed]
    exact installAll_tidy .empty now keyed
  obtain ⟨r, ⟨names, distinct⟩, wrote⟩ := tidy.bears.document requests quiet member succeeded
  obtain ⟨document, encoded, isDocument⟩ :=
    Registry.document_isDocument names distinct task.request.timestamp
  exact ⟨document, by rw [wrote, encoded], isDocument⟩

/-- A gauge with a tag that looks like the end of its line and a block of
another metric. -/
def forger : ProducerSettings where
  kind := "static"
  options :=
    [ ("metric", .string "load")
    , ("tags", .table [("host", .string "a\"\x7d 1 2\n# TYPE forged gauge\nforged 1 2\n\\")])
    , ("value", .integer 1) ]

/-- One collection on what the forger, and an entry that cannot be installed
behind it, leave of a fresh registry. -/
def forgery : System :=
  (System.ofRequests { registry := (installAll 0 {} [forger, { kind := "none" }]).1 }
    [{ timestamp := 7, token := 0 }]).play [.poll 0]

theorem forgery_well_formed :
    forgery.tasks.map Task.outcome? = [some (.ok ())] ∧
      ∀ task ∈ forgery.tasks, task.phase = .ended (.ok ()) →
        ∃ document, task.out = task.request.buffer ++ Text.utf8 document ∧
          IsDocument task.request.timestamp document := by
  have tags : Toml.Value.Keyed (.table [("host", .string
      "a\"\x7d 1 2\n# TYPE forged gauge\nforged 1 2\n\\")]) :=
    .table (by decide) (by simp [Toml.Value.Keyed.string])
  have keyed : ∀ settings ∈ [forger, { kind := "none" }],
      Toml.Table.Keyed settings.options := by
    intro settings member
    rcases List.mem_pair.mp member with rfl | rfl
    · refine .table (by decide) fun entry member => ?_
      simp only [forger, List.mem_cons, List.not_mem_nil, or_false] at member
      obtain rfl | rfl | rfl := member
      · exact .string _
      · exact tags
      · exact .integer _
    · exact .table (by decide) nofun
  exact ⟨rfl, documents_well_formed 0 [forger, { kind := "none" }] keyed _ rfl
    [{ timestamp := 7, token := 0 }] [.poll 0] (by simp [Move.Quiet])⟩

end Producer

end GaugeExporter
