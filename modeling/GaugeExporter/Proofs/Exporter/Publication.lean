import GaugeExporter.Exporter.Publish
import GaugeExporter.Proofs.Files.Changes

/-!
# Publications

What publishing relies on (`Storage.Reliable`): a file that was written can be
read, a move replaces its target or does nothing, a file that was removed is
gone, and what is done to the temporary sibling does not show at the target.
Every operation may fail.  Then a publication that succeeds leaves the document
and no sibling, and one that fails leaves the target as it was
(`Publishes.published`).  That no sibling stays behind a failed move needs one
assumption more: its removal does not fail (`Storage.Removes`).  Trees of files
are reliable for every target and remove what they hold
(`Tree.storage_reliable`, `Tree.storage_removes`).
-/

namespace GaugeExporter

open Files (Fault Tree temporary)

/-- Operations on storage that a target can rely on. -/
structure Storage.Reliable {σ : Type} (storage : Storage (StateM σ))
    (read : σ → String → Except Fault Bytes) (target : String) : Prop where
  written {s s' : σ} {content : Bytes} :
    (storage.write (temporary target) content).run s = (.ok (), s') →
      read s' (temporary target) = .ok content
  writeAside (s : σ) (content : Bytes) :
    read ((storage.write (temporary target) content).run s).2 target = read s target
  moved {s s' : σ} {content : Bytes} : read s (temporary target) = .ok content →
    (storage.rename (temporary target) target).run s = (.ok (), s') →
      read s' target = .ok content ∧ read s' (temporary target) = .error .notFound
  unmoved {s s' : σ} {fault : Fault} :
    (storage.rename (temporary target) target).run s = (.error fault, s') →
      read s' target = read s target ∧ read s' (temporary target) = read s (temporary target)
  removed {s s' : σ} {content : Bytes} : read s (temporary target) = .ok content →
    (storage.remove (temporary target)).run s = (.ok (), s') →
      read s' (temporary target) = .error .notFound
  removeAside (s : σ) :
    read ((storage.remove (temporary target)).run s).2 target = read s target

/-- The removal of a temporary sibling that is there succeeds. -/
def Storage.Removes {σ : Type} (storage : Storage (StateM σ))
    (read : σ → String → Except Fault Bytes) (target : String) : Prop :=
  ∀ (s : σ) (content : Bytes), read s (temporary target) = .ok content →
    ((storage.remove (temporary target)).run s).1 = .ok ()

section Publication

variable {σ : Type} {storage : Storage (StateM σ)} {read : σ → String → Except Fault Bytes}
  {target : String} {document : Bytes} {s s' : σ}

/-- The three ways of a publication. -/
inductive Publishes (storage : Storage (StateM σ)) (target : String) (document : Bytes) (s : σ) :
    Except PublishError Unit → σ → Prop
  | unwritten {s' : σ} {fault : Fault}
      (write : (storage.write (temporary target) document).run s = (.error fault, s')) :
      Publishes storage target document s (.error (.write (temporary target) fault)) s'
  | moved {mid s' : σ} (write : (storage.write (temporary target) document).run s = (.ok (), mid))
      (rename : (storage.rename (temporary target) target).run mid = (.ok (), s')) :
      Publishes storage target document s (.ok ()) s'
  | unmoved {mid s' : σ} {fault : Fault}
      (write : (storage.write (temporary target) document).run s = (.ok (), mid))
      (rename : (storage.rename (temporary target) target).run mid = (.error fault, s')) :
      Publishes storage target document s (.error (.move target fault))
        ((storage.remove (temporary target)).run s').2

theorem run_bind_eq {α β : Type} (x : StateM σ α) (next : α → StateM σ β) (s : σ) :
    (x >>= next).run s = (next (x.run s).1).run (x.run s).2 := rfl

theorem publishes (storage : Storage (StateM σ)) (target : String) (document : Bytes) (s : σ) :
    Publishes storage target document s ((publish storage target document).run s).1
      ((publish storage target document).run s).2 := by
  simp only [publish, run_bind_eq]
  cases write : (storage.write (temporary target) document).run s with
  | mk result mid =>
    cases result with
    | error fault => exact .unwritten write
    | ok u =>
      simp only [run_bind_eq]
      cases rename : (storage.rename (temporary target) target).run mid with
      | mk result s' =>
        cases result with
        | error fault => exact .unmoved write rename
        | ok u => exact .moved write rename

/-- What a publication leaves at the target and at its temporary sibling. -/
structure Published (storage : Storage (StateM σ)) (read : σ → String → Except Fault Bytes)
    (target : String) (document : Bytes) (s s' : σ) (result : Except PublishError Unit) : Prop where
  done : result = .ok () → read s' target = .ok document ∧
    read s' (temporary target) = .error .notFound
  undone : ∀ cause, result = .error cause → read s' target = read s target
  unmoved : storage.Removes read target → ∀ path fault, result = .error (.move path fault) →
    read s' (temporary target) = .error .notFound

theorem Publishes.published {result : Except PublishError Unit}
    (publishes : Publishes storage target document s result s')
    (reliable : storage.Reliable read target) :
    Published storage read target document s s' result := by
  cases publishes with
  | @unwritten s' fault write =>
    have aside := reliable.writeAside s document
    rw [write] at aside
    exact ⟨nofun, fun _ _ => aside, fun _ _ _ => nofun⟩
  | moved write rename =>
    exact ⟨fun _ => reliable.moved (reliable.written write) rename, nofun, fun _ _ _ => nofun⟩
  | @unmoved mid s' fault write rename =>
    have aside := reliable.writeAside s document
    rw [write] at aside
    obtain ⟨same, draft⟩ := reliable.unmoved rename
    refine ⟨nofun, fun _ _ => (reliable.removeAside s').trans (same.trans aside), ?_⟩
    intro removes _ _ _
    have there := draft.trans (reliable.written write)
    exact reliable.removed there (Prod.ext (removes s' document there) rfl)

end Publication

/-! ## Trees -/

namespace Files.Tree

variable {tree tree' : Tree} (outlet : Except Fault Unit)

@[simp] theorem storage_write (path : String) (content : Bytes) :
    (Tree.storage outlet).write path content = attempt (·.write path content) := rfl

@[simp] theorem storage_rename (source target : String) :
    (Tree.storage outlet).rename source target = attempt (·.rename source target) := rfl

@[simp] theorem storage_remove (path : String) :
    (Tree.storage outlet).remove path = attempt (·.remove path) := rfl

variable (operation : Tree → Except Fault Tree)

theorem run_attempt_ok (done : operation tree = .ok tree') :
    (attempt operation).run tree = (.ok (), tree') := by
  simp only [attempt, StateT.run, done]

theorem run_attempt_error {fault : Fault} (failed : operation tree = .error fault) :
    (attempt operation).run tree = (.error fault, tree) := by
  simp only [attempt, StateT.run, failed]

theorem of_run_attempt_ok (ran : (attempt operation).run tree = (.ok (), tree')) :
    operation tree = .ok tree' := by
  cases done : operation tree with
  | ok changed =>
    rw [run_attempt_ok _ done] at ran
    cases ran
    rfl
  | error fault =>
    rw [run_attempt_error _ done] at ran
    cases ran

/-- An attempt succeeds as the operation does, or leaves the tree as it was. -/
theorem attempt_keeps {motive : Tree → Prop} (start : motive tree)
    (keeps : ∀ tree', operation tree = .ok tree' → motive tree') :
    motive ((attempt operation).run tree).2 := by
  cases done : operation tree with
  | ok changed =>
    rw [run_attempt_ok _ done]
    exact keeps changed done
  | error fault =>
    rw [run_attempt_error _ done]
    exact start

theorem read_written {path : String} {content : Bytes}
    (written : tree.write path content = .ok tree') : tree'.read path = .ok content := by
  obtain ⟨t, directory, name, opens, free, rfl⟩ := write_ok written
  have place : directory ++ [name] ≠ [] := by simp
  have differ : Differ (directory ++ [name]) tree
      (tree.put (directory ++ [name]) (.file content)) := differ_put place free nofun
  rw [(opens.differ differ).read, get?_put_same tree place]

theorem read_written_beside {path : String} {content : Bytes}
    (written : tree.write (temporary path) content = .ok tree') :
    tree'.read path = tree.read path := by
  obtain ⟨t, directory, name, opens, free, rfl⟩ := write_ok written
  exact opens.toLeads.read_beside (differ_put (by simp) free nofun)

theorem read_removed {path : String} {content : Bytes} (readable : tree.read path = .ok content)
    (removed : tree.remove path = .ok tree') : tree'.read path = .error .notFound := by
  obtain ⟨t, directory, name, opens, there⟩ := read_ok readable
  have place : directory ++ [name] ≠ [] := by simp
  cases (opens.remove there).symm.trans removed
  have dropped : Differ (directory ++ [name]) tree (tree.drop (directory ++ [name])) :=
    differ_drop place (by rw [there]; nofun)
  rw [(opens.differ dropped).read, get?_drop_same _ place]

theorem read_removed_beside {path : String} (removed : tree.remove (temporary path) = .ok tree') :
    tree'.read path = tree.read path := by
  obtain ⟨t, directory, name, leads, free, rfl⟩ := remove_ok removed
  exact leads.read_beside (differ_drop (by simp) free)

theorem read_renamed {path : String} {content : Bytes}
    (readable : tree.read (temporary path) = .ok content)
    (renamed : tree.rename (temporary path) path = .ok tree') :
    tree'.read path = .ok content ∧ tree'.read (temporary path) = .error .notFound := by
  obtain ⟨draft, origin, old, draftOpens, content'⟩ := read_ok readable
  obtain ⟨from_, origin', old', t, directory, name, entry, located, last, opens, there, plain, free,
    rfl⟩ := rename_ok renamed
  cases draftOpens.located.symm.trans located
  cases draftOpens.last.symm.trans last
  cases content'.symm.trans there
  obtain ⟨-, target, walked⟩ := locate_ok.mp opens.located
  have other := draftOpens.place_ne target opens.last walked
  have oldPlace : origin ++ [old] ≠ [] := by simp
  have place : directory ++ [name] ≠ [] := by simp
  have dropped : Differ (origin ++ [old]) tree (tree.drop (origin ++ [old])) :=
    differ_drop oldPlace (by rw [there]; nofun)
  have put : Differ (directory ++ [name]) (tree.drop (origin ++ [old]))
      ((tree.drop (origin ++ [old])).put (directory ++ [name]) (.file content)) :=
    differ_put place (by rwa [dropped.elsewhere _ other]) nofun
  constructor
  · rw [((opens.differ dropped).differ put).read, get?_put_same _ place]
  · rw [((draftOpens.differ dropped).differ put).read, get?_put_of_ne _ other.symm,
      get?_drop_same _ oldPlace]

/-- Trees of files are reliable for every target. -/
theorem storage_reliable (target : String) :
    (Tree.storage outlet).Reliable Tree.read target where
  written ran := by
    rw [storage_write] at ran
    exact read_written (of_run_attempt_ok _ ran)
  writeAside tree content := by
    rw [storage_write]
    exact attempt_keeps _ (motive := fun tree' => tree'.read target = tree.read target) rfl
      fun tree' written => read_written_beside written
  moved readable ran := by
    rw [storage_rename] at ran
    exact read_renamed readable (of_run_attempt_ok _ ran)
  unmoved {tree _ _} ran := by
    rw [storage_rename] at ran
    cases done : tree.rename (temporary target) target with
    | ok changed =>
      rw [run_attempt_ok (·.rename (temporary target) target) done] at ran
      cases ran
    | error fault =>
      rw [run_attempt_error (·.rename (temporary target) target) done] at ran
      cases ran
      exact ⟨rfl, rfl⟩
  removed readable ran := by
    rw [storage_remove] at ran
    exact read_removed readable (of_run_attempt_ok _ ran)
  removeAside tree := by
    rw [storage_remove]
    exact attempt_keeps _ (motive := fun tree' => tree'.read target = tree.read target) rfl
      fun tree' removed => read_removed_beside removed

/-- What is read in a tree can be removed. -/
theorem storage_removes (target : String) : (Tree.storage outlet).Removes Tree.read target := by
  intro tree content readable
  obtain ⟨t, directory, name, opens, there⟩ := read_ok readable
  rw [storage_remove, run_attempt_ok (·.remove (temporary target)) (opens.remove there)]

end Files.Tree

end GaugeExporter
