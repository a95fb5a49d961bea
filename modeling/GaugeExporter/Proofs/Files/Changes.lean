import GaugeExporter.Files.Tree
import GaugeExporter.Proofs.Files.Temporary
import GaugeExporter.Proofs.Folds

/-!
# What a change of a tree leaves alone

A change at a place without a directory, before and after, does not stop a walk
that succeeded (`Differ.walk`).  So what is done to the temporary sibling of a
path does not show at the path itself (`Differ.read`), and the sibling and the
path are different places (`Leads.ne`), whatever the path looks like.
-/

namespace GaugeExporter.Files

/-! ## The last part -/

theorem target?_parents {path : String} {t : Target} (target : target? path = some t) :
    t.parents = (parts path).dropLast := by
  unfold target? at target
  split at target
  · cases target
  · cases target
    rfl

theorem target?_name {path name : String} {t : Target} (target : target? path = some t) :
    t.last = .name name ↔ (parts path).getLast? = some name ∧ name ≠ "." ∧ name ≠ ".." := by
  unfold target? at target
  split at target
  · cases target
  · cases target
    simp only
    split
    next none => simp [none]
    next here => simp only [here, reduceCtorEq, Option.some.injEq, false_iff, not_and]; grind
    next parent => simp only [parent, reduceCtorEq, Option.some.injEq, false_iff, not_and]; grind
    next other here parent last =>
      simp only [last, Last.name.injEq, Option.some.injEq]
      constructor
      · rintro rfl
        exact ⟨rfl, fun same => here (same ▸ rfl), fun same => parent (same ▸ rfl)⟩
      · exact fun same => same.1

namespace Tree

variable {tree tree' : Tree}

/-! ## Walks -/

theorem walk_name (tree : Tree) (start : List String) {name : String} (rest : List String)
    (here : name ≠ ".") (parent : name ≠ "..") :
    tree.walk start (name :: rest)
      = if isTooLong name then .error .nameTooLong
        else
          match tree.get? (start ++ [name]) with
          | none => .error .notFound
          | some .directory => tree.walk (start ++ [name]) rest
          | some _ => .error .notDirectory := by
  rw [walk.eq_def]
  split
  next none => cases none
  next same => cases same; exact absurd rfl here
  next same => cases same; exact absurd rfl parent
  next same => cases same; rfl

theorem walk_append (tree : Tree) (start front back : List String) :
    tree.walk start (front ++ back)
      = (tree.walk start front).bind fun directory => tree.walk directory back := by
  induction front generalizing start with
  | nil => rfl
  | cons name rest ih =>
    by_cases here : name = "."
    · subst here
      exact ih start
    by_cases parent : name = ".."
    · subst parent
      exact ih start.dropLast
    rw [List.cons_append, walk_name _ _ _ here parent, walk_name _ _ _ here parent]
    split
    · rfl
    · split
      · rfl
      · exact ih _
      · rfl

/-- Dots do not matter on a walk. -/
theorem walk_moving (tree : Tree) (start names : List String) :
    tree.walk start (names.filter (· ≠ ".")) = tree.walk start names := by
  induction names generalizing start with
  | nil => rfl
  | cons name rest ih =>
    by_cases here : name = "."
    · subst here
      exact ih start
    rw [List.filter_cons_of_pos (by simpa using here)]
    by_cases parent : name = ".."
    · subst parent
      exact ih start.dropLast
    rw [walk_name _ _ _ here parent, walk_name _ _ _ here parent]
    simp only [ih]

theorem walk_dots (tree : Tree) (start : List String) {dots : List String}
    (all : ∀ part ∈ dots, part = ".") : tree.walk start dots = .ok start := by
  have none : dots.filter (· ≠ ".") = [] := by
    rw [List.filter_eq_nil_iff]
    intro part member
    simp [all part member]
  rw [← walk_moving, none]
  rfl

/-! ## Changes at a place -/

/-- Two trees differ at one place at most, and neither has a directory there. -/
structure Differ (place : List String) (tree tree' : Tree) : Prop where
  elsewhere : ∀ other, other ≠ place → tree'.get? other = tree.get? other
  before : tree.get? place ≠ some .directory
  after : tree'.get? place ≠ some .directory

theorem differ_put {place : List String} (nonempty : place ≠ [])
    (before : tree.get? place ≠ some .directory) {entry : Entry} (plain : entry ≠ .directory) :
    Differ place tree (tree.put place entry) where
  elsewhere _ other := get?_put_of_ne tree other entry
  before
  after := by
    rw [get?_put_same tree nonempty]
    exact fun same => plain (Option.some.inj same)

theorem get?_drop_same (tree : Tree) {place : List String} (nonempty : place ≠ []) :
    (tree.drop place).get? place = none := by
  rw [get?, if_neg nonempty, drop, List.lookup_eq_none_iff]
  intro entry member
  have other : entry.1 ≠ place := by simpa using (List.mem_filter.mp member).2
  simpa using other.symm

theorem differ_drop {place : List String} (nonempty : place ≠ [])
    (before : tree.get? place ≠ some .directory) : Differ place tree (tree.drop place) where
  elsewhere _ other := get?_drop_of_ne tree other
  before
  after := by
    rw [get?_drop_same tree nonempty]
    nofun

variable {place : List String}

theorem Differ.walk (differ : Differ place tree tree') {start names directory : List String}
    (walked : tree.walk start names = .ok directory) : tree'.walk start names = .ok directory := by
  induction names generalizing start with
  | nil => exact walked
  | cons name rest ih =>
    by_cases here : name = "."
    · subst here
      exact ih walked
    by_cases parent : name = ".."
    · subst parent
      exact ih walked
    rw [walk_name _ _ _ here parent] at walked ⊢
    split at walked
    · cases walked
    next short =>
      rw [if_neg short]
      split at walked
      · cases walked
      next found =>
        have other : start ++ [name] ≠ place := fun same => differ.before (same ▸ found)
        rw [differ.elsewhere _ other, found]
        exact ih walked
      · cases walked

/-! ## Paths that lead to a place -/

theorem locate_ok {path : String} {directory : List String} {t : Target} :
    tree.locate path = .ok (directory, t) ↔
      refusal? [path] = none ∧ target? path = some t ∧ tree.walk [] t.parents = .ok directory := by
  unfold locate
  constructor
  · intro located
    split at located
    · cases located
    · cases located
    next accepted target =>
      split at located
      next walked => cases located; exact ⟨accepted, target, walked⟩
      · cases located
  · rintro ⟨accepted, target, walked⟩
    rw [accepted, target]
    simp only [walked]

/-- A path leads to a name in a directory. -/
structure Leads (tree : Tree) (path : String) (t : Target) (directory : List String)
    (name : String) : Prop where
  located : tree.locate path = .ok (directory, t)
  last : t.last = .name name

/-- There may be a file with this name. -/
structure Opens (tree : Tree) (path : String) (t : Target) (directory : List String)
    (name : String) : Prop extends Leads tree path t directory name where
  noSlash : t.slash = false
  short : isTooLong name = false

section Leads

variable {path name : String} {t : Target} {directory : List String} {content : Bytes}

theorem write_ok (written : tree.write path content = .ok tree') :
    ∃ t directory name, Opens tree path t directory name ∧
      tree.get? (directory ++ [name]) ≠ some .directory ∧
      tree' = tree.put (directory ++ [name]) (.file content) := by
  unfold write at written
  split at written
  · cases written
  next directory t located =>
    split at written
    next name last =>
      split at written
      · cases written
      next noSlash =>
        split at written
        · cases written
        next short =>
          split at written
          · cases written
          next free =>
            cases written
            exact ⟨t, directory, name,
              ⟨⟨located, last⟩, eq_false_of_ne_true noSlash, eq_false_of_ne_true short⟩, free, rfl⟩
    · cases written

theorem Opens.read (opens : Opens tree path t directory name) :
    tree.read path = match tree.get? (directory ++ [name]) with
      | none => .error .notFound
      | some .directory => .error .isDirectory
      | some (.file content) => .ok content
      | some (.sealed fault) => .error fault := by
  simp only [Tree.read, opens.located, opens.last, opens.short, opens.noSlash]
  rfl

theorem read_ok (readable : tree.read path = .ok content) :
    ∃ t directory name, Opens tree path t directory name ∧
      tree.get? (directory ++ [name]) = some (.file content) := by
  unfold Tree.read at readable
  split at readable
  · cases readable
  next directory t located =>
    split at readable
    next name last =>
      split at readable
      · cases readable
      next short =>
        split at readable
        · cases readable
        · cases readable
        next found =>
          split at readable
          · cases readable
          next noSlash =>
            cases readable
            exact ⟨t, directory, name,
              ⟨⟨located, last⟩, eq_false_of_ne_true noSlash, eq_false_of_ne_true short⟩, found⟩
        · cases readable
    · cases readable

theorem Leads.differ {place : List String} (leads : Leads tree path t directory name)
    (differ : Differ place tree tree') : Leads tree' path t directory name := by
  obtain ⟨accepted, target, walked⟩ := locate_ok.mp leads.located
  exact ⟨locate_ok.mpr ⟨accepted, target, differ.walk walked⟩, leads.last⟩

theorem Opens.differ {place : List String} (opens : Opens tree path t directory name)
    (differ : Differ place tree tree') : Opens tree' path t directory name :=
  ⟨opens.toLeads.differ differ, opens.noSlash, opens.short⟩

theorem Opens.remove (opens : Opens tree path t directory name)
    (found : tree.get? (directory ++ [name]) = some (.file content)) :
    tree.remove path = .ok (tree.drop (directory ++ [name])) := by
  simp only [Tree.remove, opens.located, opens.last, found, opens.noSlash]
  rfl

theorem remove_ok (removed : tree.remove path = .ok tree') :
    ∃ t directory name, Leads tree path t directory name ∧
      tree.get? (directory ++ [name]) ≠ some .directory ∧
      tree' = tree.drop (directory ++ [name]) := by
  unfold Tree.remove at removed
  split at removed
  · cases removed
  next directory t located =>
    split at removed
    next name last =>
      split at removed
      · cases removed
      · cases removed
      next plain found =>
        split at removed
        · cases removed
        · cases removed
          refine ⟨t, directory, name, ⟨located, last⟩, fun same => ?_, rfl⟩
          exact plain (Option.some.inj (found.symm.trans same))
    · cases removed

theorem rename_ok {source : String} (renamed : tree.rename source path = .ok tree') :
    ∃ from_ origin old t directory name entry, tree.locate source = .ok (origin, from_) ∧
      from_.last = .name old ∧ Opens tree path t directory name ∧
      tree.get? (origin ++ [old]) = some entry ∧ entry ≠ .directory ∧
      tree.get? (directory ++ [name]) ≠ some .directory ∧
      tree' = (tree.drop (origin ++ [old])).put (directory ++ [name]) entry := by
  unfold rename at renamed
  split at renamed
  · cases renamed
  · cases renamed
  · cases renamed
  next origin from_ directory t accepted found located =>
    split at renamed
    next old name lastOld last =>
      split at renamed
      · cases renamed
      · cases renamed
      next entry plain there =>
        split at renamed
        · cases renamed
        next short =>
          split at renamed
          · cases renamed
          next slashes =>
            split at renamed
            · cases renamed
            next free =>
              cases renamed
              have noSlash : t.slash = false := by
                cases slash : t.slash with
                | false => rfl
                | true => exact absurd (by simp [slash]) slashes
              exact ⟨from_, origin, old, t, directory, name, entry, found, lastOld,
                ⟨⟨located, last⟩, noSlash, eq_false_of_ne_true short⟩, there, plain, free, rfl⟩
    · cases renamed

end Leads

/-! ## The temporary sibling of a path -/

section Sibling

variable {path draftName : String} {draft t : Target} {draftDirectory directory : List String}

theorem Leads.parents {name : String} (leads : Leads tree path t directory name) :
    tree.walk [] (parts path).dropLast = .ok directory ∧ (parts path).getLast? = some name := by
  obtain ⟨accepted, target, walked⟩ := locate_ok.mp leads.located
  exact ⟨target?_parents target ▸ walked, ((target?_name target).mp leads.last).1⟩

theorem sibling_ne (directory : List String) (name : String) :
    directory ++ [name] ≠ directory ++ [name ++ ".tmp"] := by
  intro same
  have names := (List.cons.inj (List.append_cancel_left same)).1
  have lengths := congrArg String.length names
  simp [String.length_append] at lengths

/-- How a walk to a path compares with the one to its temporary sibling. -/
theorem Leads.beside (leads : Leads tree (temporary path) draft draftDirectory draftName) :
    (∃ front name dots, parts path = front ++ name :: dots ∧ name ≠ "." ∧ name ≠ ".." ∧
        (∀ part ∈ dots, part = ".") ∧ tree.walk [] front = .ok draftDirectory ∧
        draftName = name ++ ".tmp") ∨
      NoName (parts path) ∧ tree.walk [] (parts path) = .ok draftDirectory := by
  obtain ⟨walked, last⟩ := leads.parents
  rcases temporary_parts path with ⟨front, back, name, dots, sibling⟩ | ⟨noName, below⟩
  · rw [sibling.draft, List.dropLast_concat] at walked
    rw [sibling.draft, List.getLast?_concat] at last
    have before : tree.walk [] front = .ok draftDirectory := by
      rw [← walk_moving, ← sibling.same, walk_moving, walked]
    exact .inl ⟨front, name, dots, sibling.path, sibling.here, sibling.parent, sibling.dots, before,
      (Option.some.inj last).symm⟩
  · rw [below, List.dropLast_concat] at walked
    exact .inr ⟨noName, walked⟩

/-- What happens to the temporary sibling does not change the walk to a path. -/
theorem Leads.walk_beside (leads : Leads tree (temporary path) draft draftDirectory draftName)
    (differ : Differ (draftDirectory ++ [draftName]) tree tree') :
    tree'.walk [] (parts path).dropLast = tree.walk [] (parts path).dropLast := by
  rcases leads.beside with ⟨front, name, dots, shape, here, parent, all, walked, rfl⟩ | ⟨-, walked⟩
  · rw [shape]
    cases dots with
    | nil => rw [List.dropLast_concat, walked, differ.walk walked]
    | cons dot more =>
      have other := sibling_ne draftDirectory name
      have dots : ∀ part ∈ (dot :: more).dropLast, part = "." := fun part member =>
        all part (List.dropLast_subset _ member)
      have split : (front ++ name :: dot :: more).dropLast
          = front ++ name :: (dot :: more).dropLast := by
        rw [List.dropLast_append_of_ne_nil (List.cons_ne_nil _ _), List.dropLast_cons_cons]
      rw [split, walk_append, walk_append, walked, differ.walk walked]
      simp only [Except.bind, walk_name _ _ _ here parent, differ.elsewhere _ other,
        walk_dots _ _ dots]
  · obtain nothing | ⟨front, last, shape⟩ := List.eq_nil_or_concat (parts path)
    · rw [nothing]
      rfl
    · rw [List.concat_eq_append] at shape
      rw [shape, walk_append] at walked
      obtain ⟨directory, before, -⟩ := of_bind_ok walked
      rw [shape, List.dropLast_concat, before, differ.walk before]

/-- A path and its temporary sibling lead to different places. -/
theorem Leads.place_ne (leads : Leads tree (temporary path) draft draftDirectory draftName)
    {name : String} (target : target? path = some t) (last : t.last = .name name)
    (walked : tree.walk [] t.parents = .ok directory) :
    directory ++ [name] ≠ draftDirectory ++ [draftName] := by
  obtain ⟨final, here, parent⟩ := (target?_name target).mp last
  rw [target?_parents target] at walked
  rcases leads.beside with ⟨front, name', dots, shape, -, -, all, before, rfl⟩ | ⟨noName, -⟩
  · obtain rfl | ⟨more, dot, rfl⟩ := List.eq_nil_or_concat dots
    · rw [shape, List.dropLast_concat, before] at walked
      rw [shape, List.getLast?_concat] at final
      cases walked
      cases final
      exact sibling_ne _ name
    · have dotted : name = "." := by
        rw [shape, List.concat_eq_append, ← List.cons_append, ← List.append_assoc,
          List.getLast?_concat] at final
        cases final
        exact all name (by simp)
      exact absurd dotted here
  · rcases noName name final with same | same
    · exact absurd same here
    · exact absurd same parent

/-- What happens to the temporary sibling does not show at a path. -/
theorem Leads.read_beside (leads : Leads tree (temporary path) draft draftDirectory draftName)
    (differ : Differ (draftDirectory ++ [draftName]) tree tree') :
    tree'.read path = tree.read path := by
  have located : tree'.locate path = tree.locate path := by
    unfold locate
    cases refused : refusal? [path] with
    | some fault => rfl
    | none =>
      cases target : target? path with
      | none => rfl
      | some t => simp only [target?_parents target, leads.walk_beside differ]
  unfold Tree.read
  rw [located]
  cases found : tree.locate path with
  | error fault => rfl
  | ok there =>
    obtain ⟨directory, t⟩ := there
    obtain ⟨accepted, target, walked⟩ := locate_ok.mp found
    simp only
    cases last : t.last with
    | name name =>
      have other := leads.place_ne target last walked
      simp only [differ.elsewhere _ other]
    | _ => rfl

end Sibling

end Tree

end GaugeExporter.Files
