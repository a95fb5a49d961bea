import GaugeExporter.Proofs.Toml.Nodes
import GaugeExporter.Proofs.Toml.Scalars
import GaugeExporter.Toml.Document

/-!
# Values come back

A value is `Expressible` if a document can say it: its integers have 64 bits,
there is one NaN, its date-times keep to the calendar and the clock, and no table
has a key twice.  Such a value is read back from its text in either layout
(`value?_write`), if it is not nested deeper than the reader goes.
-/

namespace GaugeExporter.Toml

open GaugeExporter.Text (Stops stops_cons)

/-! ## Expressible values -/

/-- A document can say the value. -/
inductive Value.Expressible : Value → Prop
  | string (s : String) : Expressible (.string s)
  | integer {n : Int} (fits : inRange n = true) : Expressible (.integer n)
  | float {x : Binary.Double} (standard : Standard x) : Expressible (.float x)
  | boolean (b : Bool) : Expressible (.boolean b)
  | dateTime {d : DateTime} (valid : d.Valid) : Expressible (.dateTime d)
  | array {items : List Value} (all : ∀ v ∈ items, Expressible v) : Expressible (.array items)
  | table {entries : Table} (distinct : (entries.map Prod.fst).Nodup)
      (all : ∀ entry ∈ entries, Expressible entry.2) : Expressible (.table entries)

def Table.Expressible (entries : Table) : Prop := (Value.table entries).Expressible

theorem Table.expressible_iff {entries : Table} : Table.Expressible entries ↔
    (entries.map Prod.fst).Nodup ∧ ∀ entry ∈ entries, entry.2.Expressible := by
  constructor
  · rintro ⟨⟩
    exact ⟨by assumption, by assumption⟩
  · rintro ⟨distinct, all⟩
    exact .table distinct all

mutual

/-- How many brackets and braces stand around the innermost scalar. -/
def Value.depth : Value → Nat
  | .array items => itemsDepth items + 1
  | .table entries => entriesDepth entries + 1
  | _ => 0

def itemsDepth : List Value → Nat
  | [] => 0
  | v :: rest => max v.depth (itemsDepth rest)

def entriesDepth : List (String × Value) → Nat
  | [] => 0
  | (_, v) :: rest => max v.depth (entriesDepth rest)

end

theorem depth_le_items {items : List Value} {v : Value} (member : v ∈ items) :
    v.depth ≤ itemsDepth items := by
  induction items with
  | nil => cases member
  | cons first rest ih =>
    rw [itemsDepth]
    cases List.mem_cons.mp member with
    | inl same => exact same ▸ Nat.le_max_left _ _
    | inr later => exact Nat.le_trans (ih later) (Nat.le_max_right _ _)

theorem depth_le_entries {entries : Table} {entry : String × Value} (member : entry ∈ entries) :
    entry.2.depth ≤ entriesDepth entries := by
  induction entries with
  | nil => cases member
  | cons first rest ih =>
    rw [entriesDepth]
    cases List.mem_cons.mp member with
    | inl same => exact same ▸ Nat.le_max_left _ _
    | inr later => exact Nat.le_trans (ih later) (Nat.le_max_right _ _)

/-! ## Leaves -/

theorem leaf?_string (s : String) {rest : List Char} (follows : Follows rest) :
    leaf? (stringText s ++ rest) = some (.string s, rest) := by
  have read := string?_stringText s follows.noQuote.1 follows.noQuote.2
  obtain ⟨first, more, text, quote⟩ := head_spell (formOf s.toList) s.toList
  have dispatch : leaf? (stringText s ++ rest)
      = (string? (stringText s ++ rest)).map fun read =>
          (.string (String.ofList read.1), read.2) := by
    rw [stringText, text]
    obtain rfl | rfl := quote <;> rfl
  rw [dispatch, read, Option.map_some]
  exact congrArg (fun s => some (Value.string s, rest)) String.ofList_toList

theorem value?_string (s : String) (levels : Nat) {rest : List Char} (follows : Follows rest) :
    value? levels (stringText s ++ rest) = some (.string s, rest) := by
  rw [← leaf?_string s follows]
  obtain ⟨first, more, text, quote⟩ := head_spell (formOf s.toList) s.toList
  rw [stringText, text]
  cases levels with
  | zero => rfl
  | succ levels => obtain rfl | rfl := quote <;> rfl

/-- What is no quote and no bracket is read as a scalar. -/
theorem value?_of_scalar {c : Char} (scalar : isScalarChar c = true) (levels : Nat)
    (rest : List Char) : value? levels (c :: rest) = scalar? (c :: rest) := by
  have other : ∀ d, isScalarChar d = false → c ≠ d := by
    rintro d none rfl
    rw [scalar] at none
    cases none
  have leaf : leaf? (c :: rest) = scalar? (c :: rest) := leaf?.eq_3 _
    (fun _ same => other '"' rfl (List.cons.inj same).1)
    (fun _ same => other '\'' rfl (List.cons.inj same).1)
  cases levels with
  | zero => exact leaf
  | succ levels =>
    rw [value?, leaf]
    · exact fun _ same => other '[' rfl (List.cons.inj same).1
    · exact fun _ same => other '{' rfl (List.cons.inj same).1

theorem value?_word {text : List Char} {v : Value} (word : IsWord text v) (levels : Nat)
    {rest : List Char} (follows : Follows rest) :
    value? levels (text ++ rest) = some (v, rest) := by
  rw [← word.read follows]
  obtain ⟨c, more, rfl, scalar⟩ := word.head
  exact value?_of_scalar scalar levels (more ++ rest)

/-! ## Heads -/

/-- A value's text begins neither with layout nor with what ends an array or an
inline table. -/
def isValueStart (c : Char) : Bool := isScalarChar c || isKeyStart c || c == '[' || c == '{'

theorem head_write {v : Value} (expressible : v.Expressible) (layout : Layout) :
    ∃ c rest, v.write layout = c :: rest ∧ isValueStart c = true := by
  have word : ∀ {text v}, IsWord text v → ∃ c rest, text = c :: rest ∧ isValueStart c = true := by
    intro text v word
    obtain ⟨c, rest, shape, scalar⟩ := word.head
    exact ⟨c, rest, shape, by simp only [isValueStart, scalar, Bool.true_or]⟩
  cases expressible with
  | string s =>
    obtain ⟨first, rest, text, quote⟩ := head_spell (formOf s.toList) s.toList
    exact ⟨first, rest, text, by obtain rfl | rfl := quote <;> rfl⟩
  | integer fits => exact word (isWord_integer fits)
  | float standard => exact word (isWord_float standard)
  | boolean b => exact word (isWord_boolean b)
  | dateTime valid => exact word (isWord_dateTime valid)
  | array all =>
    rw [Value.write, bracketed.eq_def]
    split <;> exact ⟨_, _, rfl, rfl⟩
  | table distinct all =>
    rw [Value.write]
    cases entryTexts layout _ <;> exact ⟨_, _, rfl, rfl⟩

theorem skipLayout?_start {c : Char} (start : isValueStart c = true) (rest : List Char) :
    skipLayout? false (c :: rest) = some (c :: rest) := by
  have other : ∀ d, isValueStart d = false → c ≠ d := by
    rintro d none rfl
    rw [start] at none
    cases none
  rw [skipLayout?.eq_8 c rest (fun _ same _ => other '\r' rfl same) (other '#' rfl), if_neg]
  simp only [isSpace, Bool.or_eq_true, beq_iff_eq, not_or]
  exact ⟨⟨other ' ' rfl, other '\t' rfl⟩, other '\n' rfl⟩

/-! ## Arrays -/

section Arrays

variable {item? : Reader Value} {layout : Layout} {items : List Value}

/-- The reader takes the texts of the items for them. -/
def Takes (item? : Reader Value) (layout : Layout) (items : List Value) : Prop :=
  ∀ v ∈ items, v.Expressible ∧
    ∀ rest, Follows rest → item? (v.write layout ++ rest) = some (v, rest)

/-- Behind layout an item is read, and what follows it decides how the array goes
on. -/
theorem items?_item {v : Value} (expressible : v.Expressible) {rest : List Char}
    (read : item? (v.write layout ++ rest) = some (v, rest)) (fuel : Nat) {cs : List Char}
    (front : skipLayout? false cs = skipLayout? false (v.write layout ++ rest)) :
    items? item? (fuel + 1) cs = (match skipLayout? false rest with
      | some (',' :: more) => (items? item? fuel more).map (pushItem v)
      | some (']' :: more) => some ([v], more)
      | _ => none) := by
  obtain ⟨c, text, shape, start⟩ := head_write expressible layout
  rw [shape, List.cons_append] at front read
  rw [skipLayout?_start start] at front
  rw [items?, front]
  split
  next none => cases none
  next ends =>
    cases ends
    cases start
  next same =>
    cases same
    generalize item? (c :: (text ++ rest)) = taken at read ⊢
    subst read
    rfl

theorem items?_comma {v : Value} (expressible : v.Expressible)
    (read : ∀ rest, Follows rest → item? (v.write layout ++ rest) = some (v, rest)) (fuel : Nat)
    {cs more : List Char}
    (front : skipLayout? false cs = skipLayout? false (v.write layout ++ ',' :: more)) :
    items? item? (fuel + 1) cs = (items? item? fuel more).map (pushItem v) :=
  items?_item expressible (read _ (.comma more)) fuel front

theorem items?_last {v : Value} (expressible : v.Expressible)
    (read : ∀ rest, Follows rest → item? (v.write layout ++ rest) = some (v, rest)) (fuel : Nat)
    {cs more : List Char}
    (front : skipLayout? false cs = skipLayout? false (v.write layout ++ ']' :: more)) :
    items? item? (fuel + 1) cs = some ([v], more) :=
  items?_item expressible (read _ (.bracket more)) fuel front

theorem skipLayout?_blank (rest : List Char) :
    skipLayout? false (' ' :: rest) = skipLayout? false rest := rfl

theorem skipLayout?_indent (rest : List Char) :
    skipLayout? false ('\n' :: ' ' :: ' ' :: ' ' :: ' ' :: rest) = skipLayout? false rest := rfl

theorem items?_compact (takes : Takes item? layout items) (nonempty : items ≠ []) {fuel : Nat}
    {cs rest : List Char}
    (front : skipLayout? false cs = skipLayout? false
      (List.flatten ((itemTexts layout items).intersperse [',', ' ']) ++ ']' :: rest))
    (enough : (List.flatten ((itemTexts layout items).intersperse [',', ' ']) ++ ']' :: rest).length
      ≤ fuel) :
    items? item? fuel cs = some (items, rest) := by
  induction items generalizing fuel cs with
  | nil => contradiction
  | cons v items ih =>
    obtain ⟨expressible, read⟩ := takes v List.mem_cons_self
    obtain ⟨fuel, rfl⟩ : ∃ smaller, fuel = smaller + 1 :=
      ⟨fuel - 1, by rw [List.length_append, List.length_cons] at enough; omega⟩
    cases items with
    | nil =>
      simp only [itemTexts, List.intersperse, List.flatten_cons, List.flatten_nil,
        List.append_nil] at front
      exact items?_last expressible read fuel front
    | cons w items =>
      have later := @ih fun v member => takes v (List.mem_cons_of_mem _ member)
      simp only [itemTexts, List.intersperse, List.flatten_cons, List.cons_append, List.nil_append,
        List.append_assoc] at front enough later
      rw [items?_comma expressible read fuel front,
        later (List.cons_ne_nil _ _) (skipLayout?_blank _)]
      · rfl
      · simp only [List.length_append, List.length_cons] at enough ⊢
        omega

theorem items?_spread (takes : Takes item? layout items) {fuel : Nat} {rest : List Char}
    (enough : ((itemTexts layout items).flatMap itemLine ++ '\n' :: ']' :: rest).length ≤ fuel) :
    items? item? fuel ((itemTexts layout items).flatMap itemLine ++ '\n' :: ']' :: rest)
      = some (items, rest) := by
  induction items generalizing fuel with
  | nil =>
    obtain ⟨fuel, rfl⟩ : ∃ smaller, fuel = smaller + 1 :=
      ⟨fuel - 1, by simp at enough; omega⟩
    rfl
  | cons v items ih =>
    obtain ⟨expressible, read⟩ := takes v List.mem_cons_self
    obtain ⟨fuel, rfl⟩ : ∃ smaller, fuel = smaller + 1 :=
      ⟨fuel - 1, by rw [List.length_append, List.length_cons] at enough; omega⟩
    simp only [itemTexts, List.flatMap_cons, itemLine, List.cons_append, List.append_assoc,
      List.nil_append] at enough ⊢
    rw [items?_comma expressible read fuel (skipLayout?_indent _),
      ih (fun v member => takes v (List.mem_cons_of_mem _ member))]
    · rfl
    · simp only [List.length_append, List.length_cons] at enough ⊢
      omega

/-- Brackets stand around items on lines of their own or items in one line. -/
theorem bracketed_cases (layout : Layout) (texts : List (List Char)) :
    bracketed layout texts = '[' :: (texts.flatMap itemLine ++ ['\n', ']']) ∨
      bracketed layout texts = '[' :: (List.flatten (texts.intersperse [',', ' ']) ++ [']']) := by
  unfold bracketed
  split
  · exact .inl rfl
  · exact .inr rfl

theorem items?_bracketed (takes : Takes item? layout items) (rest : List Char) :
    ∃ body, bracketed layout (itemTexts layout items) ++ rest = '[' :: body ∧
      items? item? body.length body = some (items, rest) := by
  obtain shape | shape := bracketed_cases layout (itemTexts layout items)
  · refine ⟨_, by rw [shape, List.cons_append], ?_⟩
    rw [List.append_assoc, List.cons_append, List.cons_append, List.nil_append]
    exact items?_spread takes (Nat.le_refl _)
  · refine ⟨_, by rw [shape, List.cons_append], ?_⟩
    rw [List.append_assoc, List.cons_append, List.nil_append]
    cases items with
    | nil => rfl
    | cons v items =>
      exact items?_compact takes (List.cons_ne_nil _ _) rfl (Nat.le_refl _)

end Arrays

/-! ## Inline tables -/

section Tables

variable {item? : Reader Value} {layout : Layout} {entries : Table}

theorem not_space_of_isValueStart {c : Char} (start : isValueStart c = true) :
    isSpace c = false := by
  rw [isSpace, Bool.or_eq_false_iff, beq_eq_false_iff_ne, beq_eq_false_iff_ne]
  constructor <;> rintro rfl <;> cases start

theorem key?_blank (rest : List Char) : key? (' ' :: rest) = key? rest := rfl

/-- A key with a value is read back, with the blanks behind the value skipped. -/
theorem pair?_text {key : List String} (nonempty : key ≠ []) (few : key.length ≤ depthLimit)
    {v : Value} (expressible : v.Expressible) {rest : List Char}
    (read : item? (v.write layout ++ rest) = some (v, rest)) :
    pair? item? (pairText key (v.write layout) ++ rest) = some ((key, v), skipSpaces rest) := by
  have stops : Stops isKeyChar (' ' :: '=' :: ' ' :: (v.write layout ++ rest)) := stops_cons rfl _
  have equals : skipSpaces (' ' :: '=' :: ' ' :: (v.write layout ++ rest))
      = '=' :: ' ' :: (v.write layout ++ rest) := rfl
  have keyRead := keyParts?_keyText nonempty few stops (by rw [equals]; rintro _ ⟨⟩)
  obtain ⟨c, more, text, start⟩ := head_write expressible layout
  have solid : skipSpaces (' ' :: (v.write layout ++ rest)) = v.write layout ++ rest := by
    rw [text]
    exact skipSpaces_stops (stops_cons (not_space_of_isValueStart start) _)
  rw [pair?, pairText, List.append_assoc, List.cons_append, List.cons_append, List.cons_append,
    key?, keyRead, equals]
  simp only [solid, read, Option.map_some]

theorem pairs?_text (takes : Takes item? layout (entries.map Prod.snd)) (nonempty : entries ≠ [])
    {fuel : Nat} {cs rest : List Char}
    (front : key? cs = key?
      (List.flatten ((entryTexts layout entries).intersperse [',', ' ']) ++ ' ' :: '}' :: rest))
    (enough : (List.flatten ((entryTexts layout entries).intersperse [',', ' '])
      ++ ' ' :: '}' :: rest).length ≤ fuel) :
    pairs? item? fuel cs = some (entries.map fun entry => ([entry.1], entry.2), rest) := by
  induction entries generalizing fuel cs with
  | nil => contradiction
  | cons entry entries ih =>
    obtain ⟨key, v⟩ := entry
    obtain ⟨expressible, read⟩ := takes v List.mem_cons_self
    obtain ⟨fuel, rfl⟩ : ∃ smaller, fuel = smaller + 1 :=
      ⟨fuel - 1, by rw [List.length_append, List.length_cons] at enough; omega⟩
    have pair : ∀ behind, Follows behind → pair? item? (pairText [key] (v.write layout) ++ behind)
        = some (([key], v), skipSpaces behind) := fun behind follows =>
      pair?_text (List.cons_ne_nil _ _) (Nat.le_of_ble_eq_true rfl) expressible
        (read behind follows)
    cases entries with
    | nil =>
      simp only [entryTexts, List.intersperse, List.flatten_cons, List.flatten_nil,
        List.append_nil] at front
      have same : pair? item? cs
          = pair? item? (pairText [key] (v.write layout) ++ ' ' :: '}' :: rest) := by
        rw [pair?, pair?, front]
      rw [pairs?, same, pair _ (.brace rest)]
      rfl
    | cons second entries =>
      have later := @ih fun v member => takes v (List.mem_cons_of_mem _ member)
      obtain ⟨secondKey, w⟩ := second
      simp only [entryTexts, List.intersperse, List.flatten_cons, List.cons_append, List.nil_append,
        List.append_assoc] at front enough later
      have same := pair _ (.comma (' ' :: (List.flatten ((pairText [secondKey] (w.write layout) ::
        entryTexts layout entries).intersperse [',', ' ']) ++ ' ' :: '}' :: rest)))
      rw [pair?, ← front, ← pair?] at same
      have comma : ∀ tail, skipSpaces (',' :: tail) = ',' :: tail := fun _ => rfl
      rw [pairs?, same, comma]
      simp only
      rw [later (List.cons_ne_nil _ _) (key?_blank _)]
      · rfl
      · simp only [List.length_append, List.length_cons] at enough ⊢
        omega

theorem assignAll_entries (distinct : (entries.map Prod.fst).Nodup) :
    assignAll (entries.map fun entry => ([entry.1], entry.2)) = some (Table.plain entries) :=
  @assign_plain entries [] (by rwa [List.map_nil, List.nil_append])

theorem inlineTable?_braced (distinct : (entries.map Prod.fst).Nodup)
    (takes : Takes item? layout (entries.map Prod.snd)) (rest : List Char) :
    ∃ body, braced (entryTexts layout entries) ++ rest = '{' :: body ∧
      inlineTable? item? body = some (.table entries, rest) := by
  cases entries with
  | nil => exact ⟨_, rfl, rfl⟩
  | cons entry entries =>
    obtain ⟨key, v⟩ := entry
    obtain ⟨c, more, text, start⟩ := head_keyPartText key
    have shape : braced (entryTexts layout ((key, v) :: entries)) ++ rest
        = '{' :: ' ' :: (List.flatten ((entryTexts layout ((key, v) :: entries)).intersperse
          [',', ' ']) ++ ' ' :: '}' :: rest) := by
      simp only [entryTexts, braced, List.cons_append, List.append_assoc, List.nil_append]
    have begins : ∃ behind, List.flatten ((entryTexts layout ((key, v) :: entries)).intersperse
        [',', ' ']) ++ ' ' :: '}' :: rest = c :: behind := by
      rw [entryTexts, pairText, keyText, text]
      cases entryTexts layout entries <;> exact ⟨_, rfl⟩
    refine ⟨_, shape, ?_⟩
    have read := @pairs?_text _ _ _ takes (List.cons_ne_nil _ _) _ _ rest rfl (Nat.le_refl _)
    obtain ⟨behind, split⟩ := begins
    rw [split] at read ⊢
    have solid : skipSpaces (' ' :: c :: behind) = c :: behind :=
      skipSpaces_stops (stops_cons (not_space_of_isKeyStart start) _)
    have notEnd : c ≠ '}' := by
      rintro rfl
      cases start
    rw [inlineTable?, solid]
    split
    next ends => exact absurd (List.cons.inj ends).1 notEnd
    · rw [read]
      simp only [assignAll_entries distinct, Option.map_some, finished_plain]

end Tables

/-! ## Values -/

/-- Every expressible value is read back from its text, in front of what follows
a value. -/
theorem value?_write {levels : Nat} {v : Value} (expressible : v.Expressible)
    (shallow : v.depth ≤ levels) (layout : Layout) {rest : List Char} (follows : Follows rest) :
    value? levels (v.write layout ++ rest) = some (v, rest) := by
  induction expressible generalizing levels rest with
  | string s => exact value?_string s _ follows
  | integer fits => exact value?_word (isWord_integer fits) _ follows
  | float standard => exact value?_word (isWord_float standard) _ follows
  | boolean b => exact value?_word (isWord_boolean b) _ follows
  | dateTime valid => exact value?_word (isWord_dateTime valid) _ follows
  | @array items all ih =>
    obtain ⟨levels, rfl⟩ : ∃ fewer, levels = fewer + 1 :=
      ⟨levels - 1, by rw [Value.depth] at shallow; omega⟩
    have takes : Takes (value? levels) layout items := fun v member => by
      have inside := Nat.le_trans (depth_le_items member) (Nat.le_of_succ_le_succ shallow)
      exact ⟨all v member, fun rest follows => ih v member inside follows⟩
    obtain ⟨body, shape, read⟩ := items?_bracketed takes rest
    rw [Value.write, shape, value?, read]
    rfl
  | @table entries distinct all ih =>
    obtain ⟨levels, rfl⟩ : ∃ fewer, levels = fewer + 1 :=
      ⟨levels - 1, by rw [Value.depth] at shallow; omega⟩
    have takes : Takes (value? levels) layout (entries.map Prod.snd) := by
      intro v member
      obtain ⟨entry, entered, rfl⟩ := List.mem_map.mp member
      have inside := Nat.le_trans (depth_le_entries entered) (Nat.le_of_succ_le_succ shallow)
      exact ⟨all entry entered, fun rest follows => ih entry entered inside follows⟩
    obtain ⟨body, shape, read⟩ := inlineTable?_braced distinct takes rest
    rw [Value.write, shape, value?, read]

end GaugeExporter.Toml
