import GaugeExporter.Proofs.Exposition.Decoder

/-!
# Fragments split in one way

The fragments of tags with valid keys are a prefix code: the fragment of one
tag is never the beginning of the fragment of another.  So joined fragments, as
a sample line holds them, come from one list of tags only, whatever quotes,
commas and backslashes the values hold.  The non-trivial ingredient is
`fragment?_fragmentText`: a reader gets the tag back from its fragment with any
text behind it, since of all quotes only the closing one has no backslash of its
own in front of it.
-/

namespace GaugeExporter

open Binary (Double)
open Exposition

/-- A text begins with the characters that its bytes begin with. -/
theorem Text.starts_of_utf8 {s t : List Char} (starts : utf8 s <+: utf8 t) : s <+: t := by
  obtain ⟨rest, same⟩ := starts
  have encoded : s.utf8Encode ++ rest.toByteArray = t.utf8Encode := by
    rw [List.utf8Encode, List.utf8Encode, ← List.toByteArray_append]
    exact congrArg List.toByteArray same
  exact List.isPrefix_of_utf8Encode_append_eq_utf8Encode _ encoded

namespace Tag

variable {a b : Tag}

/-! ## Equality -/

/-- The fragments that are compared too are those of the keys and values. -/
theorem beq_iff : (a == b) = true ↔ a.key = b.key ∧ a.value = b.value := by
  cases a with
  | mk key value =>
    cases b with
    | mk other text =>
      change (key == other && value == text && Tag.fragment _ == Tag.fragment _) = true ↔ _
      simp only [Bool.and_eq_true, beq_iff_eq]
      constructor
      · intro same
        exact same.1
      · intro same
        cases same.1
        cases same.2
        exact ⟨same, rfl⟩

/-! ## One fragment -/

theorem fragment_ne_nil : a.fragment ≠ [] := by
  simp [fragment]

/-- Reading what begins with a fragment gives its tag, and so does reading the
other fragment. -/
theorem fragmentText_starts (validA : isValidName a.key = true) (validB : isValidName b.key = true)
    (starts : a.fragmentText <+: b.fragmentText) : a = b := by
  obtain ⟨rest, same⟩ := starts
  have readA := fragment?_fragmentText validA rest
  have readB := fragment?_fragmentText validB []
  rw [List.append_nil, ← same, readA] at readB
  exact congrArg Prod.fst (Option.some.inj readB)

theorem fragment_starts (validA : isValidName a.key = true) (validB : isValidName b.key = true)
    (starts : a.fragment <+: b.fragment) : a = b := by
  rw [fragment_eq, fragment_eq] at starts
  exact fragmentText_starts validA validB (Text.starts_of_utf8 starts)

/-- What begins with a fragment begins with no other one. -/
theorem fragment_append (validA : isValidName a.key = true) (validB : isValidName b.key = true)
    {rest more : Bytes} (same : a.fragment ++ rest = b.fragment ++ more) : a = b ∧ rest = more := by
  have equal : a = b := by
    cases List.prefix_or_prefix_of_prefix (List.prefix_append a.fragment rest)
        (same ▸ List.prefix_append b.fragment more) with
    | inl starts => exact fragment_starts validA validB starts
    | inr starts => exact (fragment_starts validB validA starts).symm
  subst equal
  exact ⟨rfl, List.append_cancel_left same⟩

/-! ## Joined fragments -/

/-- All keys are valid names. -/
def KeysValid (tags : List Tag) : Prop := ∀ t ∈ tags, isValidName t.key = true

instance (tags : List Tag) : Decidable (KeysValid tags) :=
  inferInstanceAs (Decidable (∀ t ∈ tags, isValidName t.key = true))

theorem KeysValid.head {t : Tag} {tags : List Tag} (valid : KeysValid (t :: tags)) :
    isValidName t.key = true := valid t List.mem_cons_self

theorem KeysValid.tail {t : Tag} {tags : List Tag} (valid : KeysValid (t :: tags)) :
    KeysValid tags := fun other member => valid other (List.mem_cons_of_mem t member)

/-- Fragments, each behind a comma. -/
def listed (tags : List Tag) : Bytes := tags.flatMap fun t => 0x2c :: t.fragment

@[simp] theorem listed_nil : listed [] = [] := rfl

@[simp] theorem listed_cons (t : Tag) (tags : List Tag) :
    listed (t :: tags) = 0x2c :: (t.fragment ++ listed tags) := rfl

variable {tags others : List Tag} {rest more : Bytes}

/-- Listed fragments end where no comma follows. -/
theorem listed_append (valid : KeysValid tags) (valid' : KeysValid others)
    (ends : rest.head? ≠ some 0x2c) (ends' : more.head? ≠ some 0x2c)
    (same : listed tags ++ rest = listed others ++ more) : tags = others ∧ rest = more := by
  -- on both lists together: a comma goes on with a fragment, anything else ends the list
  induction tags generalizing others with
  | nil =>
    cases others with
    | nil => exact ⟨rfl, same⟩
    | cons other others =>
      have starts : rest = 0x2c :: (other.fragment ++ listed others ++ more) := same
      simp [starts] at ends
  | cons t tags ih =>
    cases others with
    | nil =>
      have starts : more = 0x2c :: (t.fragment ++ listed tags ++ rest) := same.symm
      simp [starts] at ends'
    | cons other others =>
      simp only [listed_cons, List.cons_append, List.append_assoc, List.cons.injEq,
        true_and] at same
      obtain ⟨rfl, behind⟩ := fragment_append valid.head valid'.head same
      obtain ⟨rfl, last⟩ := ih valid.tail valid'.tail behind
      exact ⟨rfl, last⟩

/-- A first fragment with listed ones behind it comes from one list of tags. -/
theorem joined_append (valid : KeysValid (a :: tags)) (valid' : KeysValid (b :: others))
    (ends : rest.head? ≠ some 0x2c) (ends' : more.head? ≠ some 0x2c)
    (same : a.fragment ++ (listed tags ++ rest) = b.fragment ++ (listed others ++ more)) :
    a :: tags = b :: others ∧ rest = more := by
  obtain ⟨rfl, behind⟩ := fragment_append valid.head valid'.head same
  obtain ⟨rfl, last⟩ := listed_append valid.tail valid'.tail ends ends' behind
  exact ⟨rfl, last⟩

theorem intercalate_fragments (first : Tag) (tags : List Tag) :
    [0x2c].intercalate ((first :: tags).map fragment) = first.fragment ++ listed tags := by
  induction tags generalizing first with
  | nil => simp
  | cons second tags ih =>
    have later := ih second
    rw [List.map_cons] at later
    rw [List.map_cons, List.map_cons, List.intercalate_cons_cons, later]
    simp

/-- Fragments with commas between them come from one list of tags. -/
theorem intercalate_inj (valid : KeysValid tags) (valid' : KeysValid others)
    (same : [0x2c].intercalate (tags.map fragment) = [0x2c].intercalate (others.map fragment)) :
    tags = others := by
  cases tags with
  | nil =>
    cases others with
    | nil => rfl
    | cons other others =>
      rw [intercalate_fragments] at same
      exact absurd (List.append_eq_nil_iff.mp same.symm).1 fragment_ne_nil
  | cons t tags =>
    cases others with
    | nil =>
      rw [intercalate_fragments] at same
      exact absurd (List.append_eq_nil_iff.mp same).1 fragment_ne_nil
    | cons other others =>
      rw [intercalate_fragments, intercalate_fragments] at same
      have closed : t.fragment ++ (listed tags ++ [])
          = other.fragment ++ (listed others ++ []) := by
        simpa using same
      exact (joined_append valid valid' (by simp) (by simp) closed).1

/-! ## Sample lines -/

theorem tagBlock_cons (first : Tag) (tags : List Tag) (rest : Bytes) :
    tagBlock (first :: tags) ++ rest
      = 0x7b :: (first.fragment ++ (listed tags ++ 0x7d :: rest)) := by
  simp [tagBlock, listed]

/-- The braces and the blank behind them show where the tags of a line end. -/
theorem tagBlock_append (valid : KeysValid tags) (valid' : KeysValid others)
    (same : tagBlock tags ++ 0x20 :: rest = tagBlock others ++ 0x20 :: more) : tags = others := by
  cases tags with
  | nil =>
    cases others with
    | nil => rfl
    | cons other others => simp [tagBlock] at same
  | cons t tags =>
    cases others with
    | nil => simp [tagBlock] at same
    | cons other others =>
      rw [tagBlock_cons, tagBlock_cons] at same
      exact (joined_append valid valid' (by simp) (by simp) (List.cons.inj same).2).1

/-- Two lines of one metric that are written behind the same content have the
same tags. -/
theorem writeSample_tags {timestamp later : Int} {out : Bytes} {name : String}
    {value current : Double} (valid : KeysValid tags) (valid' : KeysValid others)
    (same : writeSample timestamp out name value tags
      = writeSample later out name current others) : tags = others := by
  rw [writeSample_eq, writeSample_eq] at same
  have lines := List.append_cancel_left same
  simp only [sampleLine, List.append_assoc, List.cons_append] at lines
  exact tagBlock_append valid valid' (List.append_cancel_left lines)

/-! ## The code -/

/-- Fragments are a prefix code, tags are equal if and only if their keys and
value texts are, whatever the values were made from, and joined fragments come
from one list of tags, by themselves and in a sample line. -/
theorem fragments_prefix_code :
    (∀ key other value current, isValidName key = true → isValidName other = true →
      (of key value).fragment <+: (of other current).fragment →
      of key value = of other current ∧ key = other ∧ value.toText = current.toText) ∧
    (∀ key other value current, (of key value == of other current) = true ↔
      key = other ∧ value.toText = current.toText) ∧
    ∀ tags others, KeysValid tags → KeysValid others →
      ([0x2c].intercalate (tags.map fragment) = [0x2c].intercalate (others.map fragment) →
        tags = others) ∧
      ∀ timestamp later out name value current,
        writeSample timestamp out name value tags = writeSample later out name current others →
        tags = others := by
  refine ⟨?first, fun _ _ _ _ => beq_iff, fun tags others valid valid' => ⟨?joined, ?line⟩⟩
  case first =>
    intro key other value current valid valid' starts
    have equal := fragment_starts (a := of key value) (b := of other current) valid valid' starts
    exact ⟨equal, congrArg Tag.key equal, congrArg Tag.value equal⟩
  case joined => exact intercalate_inj valid valid'
  case line =>
    intro _ _ _ _ _ _ same
    exact writeSample_tags valid valid' same

/-- Values of other types with the same texts give the same fragments, and a
quote, a comma and a backslash in a value do not end it. -/
theorem fragments_of_other_types :
    (of "port" (.integer 1) = of "port" (.text "1") ∧ "port" = "port" ∧
      (TagValue.integer 1).toText = (TagValue.text "1").toText) ∧
    [of "port" (.integer 1), of "up" (.text "1\",up=\"2\\")]
      = [of "port" (.text "1"), of "up" (.present (.text "1\",up=\"2\\"))] ∧
    [of "up" (.boolean true)] = [of "up" (.present (.text "true"))] := by
  have starts : (of "port" (.integer 1)).fragment <+: (of "port" (.text "1")).fragment := by
    decide +kernel
  have valid : KeysValid [of "port" (.integer 1), of "up" (.text "1\",up=\"2\\")] := by
    decide +kernel
  have valid' : KeysValid [of "port" (.text "1"), of "up" (.present (.text "1\",up=\"2\\"))] := by
    decide +kernel
  refine ⟨fragments_prefix_code.1 _ _ _ _ (by decide) (by decide) starts, ?_, ?_⟩
  · exact (fragments_prefix_code.2.2 _ _ valid valid').1 (by decide +kernel)
  · exact (fragments_prefix_code.2.2 _ _ (by decide) (by decide)).2 7 7 [0x0a] "up" .nan .nan rfl

end Tag

end GaugeExporter
