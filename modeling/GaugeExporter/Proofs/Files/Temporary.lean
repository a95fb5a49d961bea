import Mathlib.Data.List.TakeWhile
import GaugeExporter.Files.Path

/-!
# Where the temporary sibling stands

The parts of a path and those of its temporary sibling, for every path that there
is (`temporary_parts`): with a file name, the sibling stands in the same directory
under this name with `.tmp` behind it, up to idle parts; without one, below what
the path leads to.
-/

namespace GaugeExporter

namespace Text

variable {separator : Char → Bool}

theorem split_append {c : Char} (cuts : separator c = true) (front back : List Char) :
    split separator (front ++ c :: back) = split separator front ++ split separator back := by
  induction front with
  | nil =>
    obtain ⟨first, later, pieces⟩ := List.exists_cons_of_ne_nil (split_ne_nil separator back)
    rw [List.nil_append, split]
    simp [pieces, cuts, split]
  | cons d front ih =>
    obtain ⟨first, later, pieces⟩ := List.exists_cons_of_ne_nil (split_ne_nil separator front)
    rw [List.cons_append, split, ih, split, pieces]
    simp only [List.cons_append]
    split <;> rfl

theorem split_free {piece : List Char} (free : ∀ c ∈ piece, separator c = false) :
    split separator piece = [piece] := by
  induction piece with
  | nil => rfl
  | cons c rest ih =>
    rw [split, ih fun d member => free d (List.mem_cons_of_mem _ member)]
    simp [free c List.mem_cons_self]

end Text

namespace Files

/-- No part of a path has a slash in it. -/
def Slashless (part : List Char) : Prop := ∀ c ∈ part, (c == '/') = false

theorem slashless_of_split {text part : List Char}
    (member : part ∈ Text.split (· == '/') text) : Slashless part := by
  intro c inside
  exact @Text.not_separator_of_mem_split (· == '/') text part c member inside

theorem split_joinParts {parts : List (List Char)} (nonempty : parts ≠ [])
    (slashless : ∀ part ∈ parts, Slashless part) :
    Text.split (· == '/') (joinParts parts) = parts := by
  induction parts with
  | nil => exact absurd rfl nonempty
  | cons first rest ih =>
    have alone := Text.split_free (slashless first List.mem_cons_self)
    cases rest with
    | nil => simpa [joinParts] using alone
    | cons second more =>
      have joined : joinParts (first :: second :: more)
          = first ++ '/' :: joinParts (second :: more) := by simp [joinParts]
      rw [joined, Text.split_append rfl, alone,
        ih (List.cons_ne_nil _ _) fun part member => slashless part (List.mem_cons_of_mem _ member)]
      rfl

/-- A name behind a directory is one part more. -/
theorem pieces_append (directory : List Char) {name : List Char} (slashless : Slashless name)
    (nonempty : name ≠ []) : Text.pieces (· == '/') (append directory name)
      = Text.pieces (· == '/') directory ++ [name] := by
  have alone := Text.split_free slashless
  have kept : [name].filter (!·.isEmpty) = [name] := by simp [nonempty]
  obtain rfl | ⟨front, last, rfl⟩ := List.eq_nil_or_concat directory
  · simp [append, Text.pieces, alone, Text.split, nonempty]
  · rw [List.concat_eq_append, append, List.getLast?_concat]
    by_cases slash : last = '/'
    · subst slash
      have shape : front ++ ['/'] ++ name = front ++ '/' :: name := by simp
      have empty : Text.split (· == '/') [] = [[]] := rfl
      simp only [Text.pieces, shape]
      rw [Text.split_append rfl, Text.split_append rfl, alone, empty, List.filter_append,
        List.filter_append, kept]
      simp
    · split
      next none => cases none
      next same => exact absurd (Option.some.inj same) slash
      next =>
        rw [Text.pieces, Text.pieces, Text.split_append rfl, alone, List.filter_append, kept]

/-! ## Idle parts -/

theorem dropIdle_append (parts : List (List Char)) :
    ∃ idle, parts = dropIdle parts ++ idle ∧ ∀ part ∈ idle, isIdle part = true := by
  match parts with
  | [] => exact ⟨[], rfl, nofun⟩
  | [first] => exact ⟨[], rfl, nofun⟩
  | first :: second :: more =>
    refine ⟨((second :: more).reverse.takeWhile isIdle).reverse, ?_, fun part member => ?_⟩
    · rw [dropIdle, List.cons_append, ← List.reverse_append, List.takeWhile_append_dropWhile,
        List.reverse_reverse]
      exact List.cons_ne_nil _ _
    · exact List.mem_takeWhile_imp (List.mem_reverse.mp member)

/-- What is left ends in a part that moves a walk, unless it is all there is. -/
theorem dropIdle_idle {parts front : List (List Char)} {last : List Char}
    (shape : dropIdle parts = front ++ [last]) (idle : isIdle last = true) : front = [] := by
  match parts with
  | [] => simp [dropIdle] at shape
  | [first] => simpa [dropIdle] using congrArg List.dropLast shape.symm
  | first :: second :: more =>
    simp only [dropIdle] at shape
    cases kept : (second :: more).reverse.dropWhile isIdle with
    | nil =>
      rw [kept] at shape
      simpa using congrArg List.dropLast shape.symm
    | cons head rest =>
      have moving : isIdle head = false := by
        have left : (second :: more).reverse.dropWhile isIdle ≠ [] := kept ▸ List.cons_ne_nil _ _
        have first := List.head_dropWhile_not isIdle left
        simp only [kept, List.head_cons] at first
        exact first
      rw [kept, List.reverse_cons, ← List.cons_append] at shape
      have same : head = last := by simpa using List.append_inj_right' shape rfl
      rw [← same, moving] at idle
      cases idle

/-- Idle parts leave no pieces but dots. -/
theorem dots_of_idle {idle : List (List Char)} (all : ∀ part ∈ idle, isIdle part = true) :
    ∀ part ∈ idle.filter (!·.isEmpty), part = ['.'] := by
  intro part member
  obtain ⟨inside, nonempty⟩ := List.mem_filter.mp member
  have either := all part inside
  simp only [isIdle, Bool.or_eq_true, decide_eq_true_eq] at either
  exact either.resolve_left (by simpa using nonempty)

/-- Idle parts lead to no pieces but dots, which do not matter. -/
theorem moving_pieces (parts : List (List Char)) :
    ((dropIdle parts).filter (!·.isEmpty)).filter (· ≠ ['.'])
      = (parts.filter (!·.isEmpty)).filter (· ≠ ['.']) := by
  obtain ⟨idle, whole, all⟩ := dropIdle_append parts
  have nothing : (idle.filter (!·.isEmpty)).filter (· ≠ ['.']) = [] := by
    rw [List.filter_eq_nil_iff]
    intro part member
    simp [dots_of_idle all part member]
  have filtered := congrArg (fun parts : List (List Char) =>
    (parts.filter (!·.isEmpty)).filter (· ≠ ['.'])) whole
  simp only [List.filter_append, nothing, List.append_nil] at filtered
  exact filtered.symm

/-! ## The temporary sibling -/

/-- A path with a file name and its temporary sibling, in pieces. -/
structure Named (path draft : List (List Char)) (front back : List (List Char)) (name : List Char)
    (dots : List (List Char)) : Prop where
  path : path = front ++ name :: dots
  draft : draft = back ++ [name ++ suffix]
  same : back.filter (· ≠ ['.']) = front.filter (· ≠ ['.'])
  here : name ≠ ['.']
  parent : name ≠ ['.', '.']
  dots : ∀ part ∈ dots, part = ['.']

/-- The last piece of a path names no file. -/
def Nameless (pieces : List (List Char)) : Prop :=
  ∀ name, pieces.getLast? = some name → name = ['.'] ∨ name = ['.', '.']

theorem nameless_append {front dots : List (List Char)} (nameless : Nameless front)
    (all : ∀ part ∈ dots, part = ['.']) : Nameless (front ++ dots) := by
  intro name last
  rw [List.getLast?_append, Option.or_eq_some_iff] at last
  rcases last with inside | ⟨-, before⟩
  · exact .inl (all name (List.mem_of_getLast? inside))
  · exact nameless name before

theorem joinName_pieces {directory : List (List Char)} {name : List Char}
    (slashless : ∀ part ∈ directory, Slashless part) (plain : Slashless name)
    (nonempty : name ≠ []) : Text.pieces (· == '/') (joinName name directory)
      = directory.filter (!·.isEmpty) ++ [name] := by
  unfold joinName
  split
  · exact pieces_append [] plain nonempty
  · exact pieces_append ['/'] plain nonempty
  next some _ => rw [pieces_append _ plain nonempty, Text.pieces, split_joinParts some slashless]

theorem temporary_pieces (path : List Char) :
    (∃ front back name dots, Named (Text.pieces (· == '/') path)
        (Text.pieces (· == '/') (temporaryText path)) front back name dots) ∨
      Nameless (Text.pieces (· == '/') path) ∧
        Text.pieces (· == '/') (temporaryText path)
          = Text.pieces (· == '/') path ++ [suffix] := by
  have plain : Slashless suffix := by simp [Slashless, suffix]
  have below := pieces_append path plain (List.cons_ne_nil _ _)
  obtain ⟨idle, whole, allIdle⟩ := dropIdle_append (Text.split (· == '/') path)
  have dots := dots_of_idle allIdle
  have pieces : Text.pieces (· == '/') path
      = (dropIdle (Text.split (· == '/') path)).filter (!·.isEmpty)
        ++ idle.filter (!·.isEmpty) := by
    rw [Text.pieces, ← List.filter_append, ← whole]
  have slashless : ∀ part ∈ dropIdle (Text.split (· == '/') path), Slashless part := by
    intro part member
    refine @slashless_of_split path part ?_
    rw [whole]
    exact List.mem_append_left _ member
  have nameless (all : Nameless ((dropIdle (Text.split (· == '/') path)).filter (!·.isEmpty))) :
      Nameless (Text.pieces (· == '/') path) := by
    rw [pieces]
    exact nameless_append all dots
  unfold temporaryText
  simp only
  split
  next nothing =>
    rw [List.getLast?_eq_none_iff.mp nothing] at nameless
    exact .inr ⟨nameless nofun, below⟩
  next last =>
    obtain ⟨front, shape⟩ := List.getLast?_eq_some_iff.mp last
    rw [shape, dropIdle_idle shape rfl] at nameless
    exact .inr ⟨nameless nofun, below⟩
  next last =>
    obtain ⟨front, shape⟩ := List.getLast?_eq_some_iff.mp last
    rw [shape, dropIdle_idle shape rfl] at nameless
    exact .inr ⟨nameless fun name same => .inl (Option.some.inj same).symm, below⟩
  next last =>
    obtain ⟨front, shape⟩ := List.getLast?_eq_some_iff.mp last
    refine .inr ⟨nameless fun name same => .inr ?_, below⟩
    rw [shape, List.filter_append] at same
    simpa using same.symm
  next name empty here parent last =>
    obtain ⟨front, shape⟩ := List.getLast?_eq_some_iff.mp last
    rw [shape, List.dropLast_concat]
    have named : Slashless name := slashless name (shape ▸ List.mem_append_right _ (by simp))
    have inFront : ∀ part ∈ dropIdle front, Slashless part := by
      obtain ⟨idleFront, wholeFront, -⟩ := dropIdle_append front
      intro part member
      refine slashless part (shape ▸ List.mem_append_left _ ?_)
      rw [wholeFront]
      exact List.mem_append_left _ member
    have nonempty : name ≠ [] := fun same => empty (same ▸ rfl)
    refine .inl ⟨front.filter (!·.isEmpty), (dropIdle front).filter (!·.isEmpty), name,
      idle.filter (!·.isEmpty), ?_, ?_, moving_pieces front, fun same => here (same ▸ rfl),
      fun same => parent (same ▸ rfl), dots⟩
    · rw [pieces, shape, List.filter_append]
      simp [nonempty]
    · refine joinName_pieces inFront (fun c member => ?_) (by simp [suffix])
      exact (List.mem_append.mp member).elim (named c) (plain c)

/-! ## In parts of paths -/

/-- The last part of a path names no file. -/
def NoName (parts : List String) : Prop :=
  ∀ name, parts.getLast? = some name → name = "." ∨ name = ".."

/-- A path with a file name and its temporary sibling, in parts. -/
structure Sibling (path draft : List String) (front back : List String) (name : String)
    (dots : List String) : Prop where
  path : path = front ++ name :: dots
  draft : draft = back ++ [name ++ ".tmp"]
  same : back.filter (· ≠ ".") = front.filter (· ≠ ".")
  here : name ≠ "."
  parent : name ≠ ".."
  dots : ∀ part ∈ dots, part = "."

theorem filter_ofList (pieces : List (List Char)) :
    (pieces.map String.ofList).filter (· ≠ ".")
      = (pieces.filter (· ≠ ['.'])).map String.ofList := by
  have dot (piece : List Char) : String.ofList piece = "." ↔ piece = ['.'] :=
    String.ofList_inj
  rw [List.filter_map]
  congr 1
  refine List.filter_congr fun piece _ => ?_
  simp [dot]

theorem Named.sibling {path draft front back dots : List (List Char)} {name : List Char}
    (named : Named path draft front back name dots) :
    Sibling (path.map String.ofList) (draft.map String.ofList) (front.map String.ofList)
      (back.map String.ofList) (String.ofList name) (dots.map String.ofList) where
  path := by rw [named.path, List.map_append, List.map_cons]
  draft := by
    rw [named.draft, List.map_append, List.map_singleton, String.ofList_append]
    rfl
  same := by rw [filter_ofList, filter_ofList, named.same]
  here same := named.here (String.ofList_inj.mp same)
  parent same := named.parent (String.ofList_inj.mp same)
  dots part member := by
    obtain ⟨piece, inside, rfl⟩ := List.mem_map.mp member
    rw [named.dots piece inside]

theorem temporary_parts (path : String) :
    (∃ front back name dots, Sibling (parts path) (parts (temporary path)) front back name dots) ∨
      NoName (parts path) ∧ parts (temporary path) = parts path ++ [".tmp"] := by
  unfold parts temporary
  rw [String.toList_ofList]
  rcases temporary_pieces path.toList with ⟨front, back, name, dots, named⟩ | ⟨nameless, below⟩
  · exact .inl ⟨_, _, _, _, named.sibling⟩
  · refine .inr ⟨fun name last => ?_, ?_⟩
    · rw [List.getLast?_map] at last
      obtain ⟨piece, final, rfl⟩ := Option.map_eq_some_iff.mp last
      exact (nameless piece final).imp (congrArg String.ofList) (congrArg String.ofList)
    · rw [below, List.map_append]
      rfl

end Files

end GaugeExporter
