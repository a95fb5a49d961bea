import GaugeExporter.Exposition.Name
import GaugeExporter.Proofs.Decimal.RoundTrip
import GaugeExporter.Proofs.Exposition.Document
import GaugeExporter.Proofs.Text.Runs
import GaugeExporter.Text.Split

/-!
# Reading documents

`decode` reads a document: it cuts the text into lines, reads a name, fragments
and numbers off each line, and gives samples to the header in front of them.
`decode_documentLines` says that it inverts the writing of families with valid
names.  The non-trivial ingredients are `quoted?_escape`, by which a value ends
at the first quote without a backslash in front of it, whatever the value
holds, and `not_feed_of_mem_documentLines`, by which no line holds a line feed.
-/

namespace GaugeExporter.Exposition

open Binary (Double)
open Decimal (sign ofDigits digits integer)
open GaugeExporter.Text (stops_cons takeWhile_run dropWhile_run)

/-! ## The decoder -/

/-- What follows a fixed text. -/
def expect? : List Char → List Char → Option (List Char)
  | [], text => some text
  | _ :: _, [] => none
  | c :: front, d :: text => if c = d then expect? front text else none

/-- Splits a text at the first double quote that no backslash escapes. -/
def quoted? : List Char → Option (List Char × List Char)
  | '"' :: rest => some ([], rest)
  | '\\' :: c :: rest => (quoted? rest).map fun (front, back) => ('\\' :: c :: front, back)
  | c :: rest => (quoted? rest).map fun (front, back) => (c :: front, back)
  | [] => none

/-- The tag of the fragment in front of a text. -/
def fragment? (text : List Char) : Option (Tag × List Char) :=
  (expect? ['=', '"'] (text.dropWhile isNameRest)).bind fun body =>
    (quoted? body).map fun (raw, rest) =>
      (⟨String.ofList (text.takeWhile isNameRest), String.ofList (unescape raw)⟩, rest)

theorem length_expect? {front text rest : List Char} (read : expect? front text = some rest) :
    rest.length + front.length = text.length := by
  induction front generalizing text with
  | nil =>
    rw [expect?] at read
    cases read
    rfl
  | cons c front ih =>
    cases text with
    | nil => cases read
    | cons d text =>
      rw [expect?] at read
      split at read
      · have := ih read
        simp only [List.length_cons]
        omega
      · cases read

theorem length_quoted? {text front back : List Char} (read : quoted? text = some (front, back)) :
    back.length < text.length := by
  induction text using quoted?.induct generalizing front with
  | case1 rest =>
    rw [quoted?] at read
    cases read
    exact Nat.lt_succ_self _
  | case2 c rest ih =>
    rw [quoted?] at read
    obtain ⟨⟨_, _⟩, split, same⟩ := Option.map_eq_some_iff.mp read
    cases same
    have := ih split
    simp only [List.length_cons]
    omega
  | case3 c rest notQuote notEscape ih =>
    rw [quoted?] at read
    · obtain ⟨⟨_, _⟩, split, same⟩ := Option.map_eq_some_iff.mp read
      cases same
      have := ih split
      simp only [List.length_cons]
      omega
    · exact notQuote
    · exact notEscape
  | case4 => cases read

theorem length_fragment? {text rest : List Char} {t : Tag}
    (read : fragment? text = some (t, rest)) : rest.length < text.length := by
  obtain ⟨body, expected, quoted⟩ := Option.bind_eq_some_iff.mp read
  obtain ⟨⟨raw, back⟩, split, same⟩ := Option.map_eq_some_iff.mp quoted
  cases same
  have := length_expect? expected
  have := length_quoted? split
  have := (List.dropWhile_sublist isNameRest : text.dropWhile isNameRest |>.Sublist text).length_le
  simp only [List.length_cons, List.length_nil] at *
  omega

/-- The tags of fragments up to the closing brace, with commas between them. -/
def tags? (text : List Char) : Option (List Tag × List Char) :=
  match _read : fragment? text with
  | some (t, '}' :: rest) => some ([t], rest)
  | some (t, ',' :: rest) => (tags? rest).map fun (tags, rest) => (t :: tags, rest)
  | _ => none
termination_by text.length
decreasing_by
  have := length_fragment? _read
  simp only [List.length_cons] at this
  omega

/-- The tags in braces in front of a text, none without a brace. -/
def tagBlock? : List Char → Option (List Tag × List Char)
  | '{' :: rest => tags? rest
  | text => some ([], text)

/-- An integer with an optional sign. -/
def integer? (text : List Char) : Option Int :=
  let (negative, body) := sign text
  if body ≠ [] ∧ body.all Char.isDigit then
    some (if negative then -(ofDigits body : Int) else ofDigits body)
  else none

/-- The sample of a line, with the name of its metric. -/
def sample? (line : List Char) : Option (String × Sample) := do
  let (tags, rest) ← tagBlock? (line.dropWhile isNameRest)
  let rest ← expect? [' '] rest
  let value ← Double.ofText? (rest.takeWhile (· ≠ ' '))
  let rest ← expect? [' '] (rest.dropWhile (· ≠ ' '))
  let timestamp ← integer? rest
  return (String.ofList (line.takeWhile isNameRest), ⟨tags, value, timestamp⟩)

/-- The name in a header. -/
def header? (line : List Char) : Option String := do
  let text ← expect? headerFront line
  let rest ← expect? headerBack (text.dropWhile isNameRest)
  if rest = [] then some (String.ofList (text.takeWhile isNameRest)) else none

/-- The families of lines up to the closing one, behind the samples that are
still without a header. -/
def families? : List (List Char) → Option (List (String × Sample) × List Family)
  | [] => none
  | line :: rest =>
    if line = closingText then
      if rest = [[]] then some ([], []) else none
    else
      (families? rest).bind fun (pending, families) =>
        match header? line with
        | some name =>
          if pending.all (·.1 == name) then
            some ([], ⟨name, pending.map (·.2)⟩ :: families)
          else none
        | none => (sample? line).map fun sample => (sample :: pending, families)

/-- Reads a document. -/
def decode (document : Bytes) : Option (List Family) :=
  (Text.decode? document).bind fun text =>
    match families? (Text.split (· == '\n') text.toList) with
    | some ([], families) => some families
    | _ => none

/-! ## Texts of one sample -/

theorem expect?_append (front rest : List Char) : expect? front (front ++ rest) = some rest := by
  induction front with
  | nil => rfl
  | cons c front ih => rw [List.cons_append, expect?, if_pos rfl, ih]

theorem unescape_escapeChar (c : Char) (rest : List Char) :
    unescape (escapeChar c ++ rest) = c :: unescape rest := by
  unfold escapeChar
  split
  · rfl
  · rfl
  · rfl
  next backslash _ => exact unescape_cons_of_ne rest fun same => backslash same

theorem unescape_escape (value : List Char) : unescape (escape value) = value := by
  induction value with
  | nil => rfl
  | cons c rest ih => rw [escape_cons, unescape_escapeChar, ih]

theorem quoted?_escapeChar (c : Char) (rest : List Char) :
    quoted? (escapeChar c ++ rest)
      = (quoted? rest).map fun (front, back) => (escapeChar c ++ front, back) := by
  by_cases quote : c = '"'
  · subst quote
    rfl
  by_cases backslash : c = '\\'
  · subst backslash
    rfl
  by_cases feed : c = '\n'
  · subst feed
    rfl
  rw [escapeChar_of_ne quote backslash feed, List.singleton_append, quoted?]
  · rfl
  · exact fun same => quote same
  · exact fun _ _ same _ => backslash same

/-- An escaped value ends at the first quote that is not escaped. -/
theorem quoted?_escape (value rest : List Char) :
    quoted? (escape value ++ '"' :: rest) = some (escape value, rest) := by
  induction value with
  | nil => rfl
  | cons c value ih =>
    rw [escape_cons, List.append_assoc, quoted?_escapeChar, ih]
    rfl

/-! ## Names -/

theorem isNameRest_of_valid {name : String} (valid : isValidName name = true) :
    ∀ c ∈ name.toList, isNameRest c = true := by
  unfold isValidName at valid
  split at valid
  · cases valid
  next first rest split =>
    rw [Bool.and_eq_true] at valid
    intro c member
    rw [split] at member
    cases List.mem_cons.mp member with
    | inl same =>
      subst same
      have start := valid.1
      rw [isNameStart, Bool.or_eq_true] at start
      rw [isNameRest, Char.isAlphanum, Bool.or_eq_true, Bool.or_eq_true]
      exact start.imp_left .inl
    | inr later => exact List.all_eq_true.mp valid.2 c later

/-- A run ends in front of the first other character. -/
theorem run_append {p : Char → Bool} {run : List Char} (all : ∀ c ∈ run, p c = true) {c : Char}
    (other : p c = false) (rest : List Char) :
    (run ++ c :: rest).takeWhile p = run ∧ (run ++ c :: rest).dropWhile p = c :: rest :=
  ⟨takeWhile_run all (stops_cons other rest), dropWhile_run all (stops_cons other rest)⟩

/-! ## Tags -/

theorem fragment?_fragmentText {t : Tag} (valid : isValidName t.key = true) (rest : List Char) :
    fragment? (t.fragmentText ++ rest) = some (t, rest) := by
  have shape : t.fragmentText ++ rest
      = t.key.toList ++ '=' :: ('"' :: (escape t.value.toList ++ '"' :: rest)) := by
    simp [Tag.fragmentText]
  obtain ⟨key, behind⟩ := run_append (isNameRest_of_valid valid)
    (by decide : isNameRest '=' = false) ('"' :: (escape t.value.toList ++ '"' :: rest))
  have opened : expect? ['=', '"'] ('=' :: '"' :: (escape t.value.toList ++ '"' :: rest))
      = some (escape t.value.toList ++ '"' :: rest) := expect?_append ['=', '"'] _
  rw [shape, fragment?, key, behind, opened, Option.bind_some, quoted?_escape, Option.map_some]
  simp only [unescape_escape, String.ofList_toList]

theorem tags?_last {text rest : List Char} {t : Tag}
    (read : fragment? text = some (t, '}' :: rest)) : tags? text = some ([t], rest) := by
  rw [tags?]
  split
  next last => rw [last] at read; cases read; rfl
  next more => rw [more] at read; cases read
  next none _ => exact absurd read (none _ _)

theorem tags?_more {text rest : List Char} {t : Tag}
    (read : fragment? text = some (t, ',' :: rest)) :
    tags? text = (tags? rest).map fun (tags, rest) => (t :: tags, rest) := by
  rw [tags?]
  split
  next last => rw [last] at read; cases read
  next more => rw [more] at read; cases read; rfl
  next none => exact absurd read (none _ _)

theorem tags?_fragments {first : Tag} {more : List Tag}
    (valid : ∀ t ∈ first :: more, isValidName t.key = true) (rest : List Char) :
    tags? (first.fragmentText ++ (more.flatMap (fun t => ',' :: t.fragmentText) ++ '}' :: rest))
      = some (first :: more, rest) := by
  have read := fragment?_fragmentText (valid first List.mem_cons_self)
  induction more generalizing first with
  | nil => exact tags?_last (read _)
  | cons second more ih =>
    have validRest : ∀ t ∈ second :: more, isValidName t.key = true := fun t member =>
      valid t (List.mem_cons_of_mem _ member)
    have later := ih validRest (fragment?_fragmentText (validRest second List.mem_cons_self))
    rw [List.flatMap_cons, List.append_assoc, List.cons_append, tags?_more (read _), later]
    rfl

theorem tagBlock?_tagText {tags : List Tag} (valid : ∀ t ∈ tags, isValidName t.key = true)
    (rest : List Char) : tagBlock? (tagText tags ++ ' ' :: rest) = some (tags, ' ' :: rest) := by
  cases tags with
  | nil => rfl
  | cons first more =>
    have shape : tagText (first :: more) ++ ' ' :: rest = '{' :: (first.fragmentText
        ++ (more.flatMap (fun t => ',' :: t.fragmentText) ++ '}' :: ' ' :: rest)) := by
      simp [tagText]
    rw [shape, tagBlock?, tags?_fragments valid]

/-! ## Numbers -/

theorem integer?_integer (n : Int) : integer? (integer n) = some n := by
  have read := Decimal.exponentPart?_integer n
  rwa [Decimal.exponentPart?, if_pos (.inl rfl)] at read

theorem magnitudeText_layout (d : Decimal) :
    valueStyle.magnitude d = d.positional ∨ valueStyle.magnitude d = d.scientific := by
  change magnitudeText d = _ ∨ magnitudeText d = _
  unfold magnitudeText
  split
  · exact .inr rfl
  · exact .inl rfl

/-- Every finite value is recovered from its text, bit for bit. -/
theorem ofText?_valueText {x : Double} (finite : x.isFinite = true) :
    Double.ofText? (valueText x) = some x :=
  Double.ofText?_write magnitudeText_layout finite

theorem isNumeral_of_mem_valueText {x : Double} (finite : x.isFinite = true) {c : Char}
    (member : c ∈ valueText x) : Decimal.IsNumeral c := by
  obtain ⟨negative, m, e, parts⟩ := Double.parts_of_finite finite
  have digits : c ∈ valueStyle.magnitude (Decimal.shortest Binary.double m e) →
      Decimal.IsNumeral c := by
    intro inside
    cases magnitudeText_layout (Decimal.shortest Binary.double m e) with
    | inl positional => exact Decimal.isNumeral_of_mem_positional (positional ▸ inside)
    | inr scientific => exact Decimal.isNumeral_of_mem_scientific (scientific ▸ inside)
  rw [valueText, Decimal.Text.write_finite valueStyle parts] at member
  split at member
  · cases List.mem_cons.mp member with
    | inl minus => exact .inr (.inl minus)
    | inr inside => exact digits inside
  · exact digits member

theorem IsNumeral.ne {c d : Char} (numeral : Decimal.IsNumeral c) (digit : d.isDigit = false)
    (other : d ≠ '-' ∧ d ≠ '.' ∧ d ≠ 'e') : c ≠ d := by
  rintro rfl
  obtain number | minus | point | letter := numeral
  · rw [digit] at number
    cases number
  · exact other.1 minus
  · exact other.2.1 point
  · exact other.2.2 letter

theorem notBlank_of_mem_valueText {x : Double} (finite : x.isFinite = true) :
    ∀ c ∈ valueText x, decide (c ≠ ' ') = true := fun _ member =>
  decide_eq_true (IsNumeral.ne (isNumeral_of_mem_valueText finite member) rfl (by decide))

/-! ## Lines -/

/-- The sample has a finite value and tags with valid keys. -/
def Sample.Valid (sample : Sample) : Prop :=
  sample.value.isFinite = true ∧ ∀ t ∈ sample.tags, isValidName t.key = true

/-- The family and its tags have valid names, and its values are finite. -/
def Family.Valid (family : Family) : Prop :=
  isValidName family.name = true ∧ ∀ sample ∈ family.samples, sample.Valid

theorem tagText_stops (tags : List Tag) (rest : List Char) :
    ∃ c more, tagText tags ++ ' ' :: rest = c :: more ∧ isNameRest c = false := by
  cases tags with
  | nil => exact ⟨' ', rest, rfl, by decide⟩
  | cons first more => exact ⟨'{', _, rfl, by decide⟩

theorem sample?_sampleText {name : String} {sample : Sample} (validName : isValidName name = true)
    (valid : sample.Valid) : sample? (sampleText name sample) = some (name, sample) := by
  obtain ⟨finite, keys⟩ := valid
  have shape : sampleText name sample = name.toList ++ (tagText sample.tags ++ ' ' ::
      (valueText sample.value ++ ' ' :: integer sample.timestamp)) := by
    simp [sampleText]
  obtain ⟨c, more, starts, other⟩ := tagText_stops sample.tags
    (valueText sample.value ++ ' ' :: integer sample.timestamp)
  obtain ⟨front, behind⟩ := run_append (isNameRest_of_valid validName) other more
  obtain ⟨number, later⟩ := run_append (notBlank_of_mem_valueText finite)
    (by decide : decide (' ' ≠ ' ') = false) (integer sample.timestamp)
  have blank : ∀ rest, expect? [' '] (' ' :: rest) = some rest := expect?_append [' ']
  have block := tagBlock?_tagText keys (valueText sample.value ++ ' ' :: integer sample.timestamp)
  rw [shape, starts]
  rw [starts] at block
  simp only [sample?, front, behind, block, blank, number, later, ofText?_valueText finite,
    integer?_integer, Option.bind_eq_bind, Option.bind_some, String.ofList_toList]
  rfl

theorem header?_headerText {name : String} (valid : isValidName name = true) :
    header? (headerText name) = some name := by
  have shape : headerText name = headerFront ++ (name.toList ++ headerBack) :=
    List.append_assoc ..
  obtain ⟨rest, blank⟩ : ∃ rest, headerBack = ' ' :: rest := ⟨"gauge".toList, by decide +kernel⟩
  obtain ⟨front, behind⟩ := run_append (isNameRest_of_valid valid)
    (by decide : isNameRest ' ' = false) rest
  rw [← blank] at front behind
  have closed : expect? headerBack headerBack = some [] := by
    simpa using expect?_append headerBack []
  simp only [header?, shape, expect?_append, front, behind, closed, Option.bind_eq_bind,
    Option.bind_some, if_true, String.ofList_toList]

/-! ## No line holds a line feed -/

theorem not_feed_of_mem_name {name : String} (valid : isValidName name = true) :
    '\n' ∉ name.toList := by
  intro member
  have := isNameRest_of_valid valid '\n' member
  revert this
  decide

theorem not_feed_of_mem_escape (value : List Char) : '\n' ∉ escape value := by
  intro member
  obtain ⟨c, -, inside⟩ := List.mem_flatMap.mp member
  unfold escapeChar at inside
  split at inside
  · revert inside
    decide
  · revert inside
    decide
  · revert inside
    decide
  next feed => exact feed (List.mem_singleton.mp inside).symm

theorem not_feed_of_mem_fragment {t : Tag} (valid : isValidName t.key = true) :
    '\n' ∉ t.fragmentText := by
  simp only [Tag.fragmentText, List.mem_append, List.mem_cons, not_or]
  exact ⟨⟨not_feed_of_mem_name valid, by decide, by decide, not_feed_of_mem_escape _⟩, by decide,
    List.not_mem_nil⟩

theorem not_feed_of_mem_tagText {tags : List Tag} (valid : ∀ t ∈ tags, isValidName t.key = true) :
    '\n' ∉ tagText tags := by
  cases tags with
  | nil => exact List.not_mem_nil
  | cons first more =>
    intro member
    simp only [tagText, List.cons_append, List.mem_cons, List.mem_append,
      List.mem_flatMap] at member
    obtain brace | (inFirst | ⟨t, inside, comma | inFragment⟩) | brace := member
    · exact absurd brace (by decide)
    · exact not_feed_of_mem_fragment (valid first List.mem_cons_self) inFirst
    · exact absurd comma (by decide)
    · exact not_feed_of_mem_fragment (valid t (List.mem_cons_of_mem _ inside)) inFragment
    · revert brace
      decide

theorem not_feed_of_mem_sampleText {name : String} {sample : Sample}
    (validName : isValidName name = true) (valid : sample.Valid) :
    '\n' ∉ sampleText name sample := by
  obtain ⟨finite, keys⟩ := valid
  have numeral : ∀ text : List Char, (∀ c ∈ text, Decimal.IsNumeral c) → '\n' ∉ text :=
    fun text all member => IsNumeral.ne (all _ member) (by decide : '\n'.isDigit = false)
      (by decide) rfl
  simp only [sampleText, List.mem_append, List.mem_cons, not_or]
  exact ⟨⟨⟨not_feed_of_mem_name validName, not_feed_of_mem_tagText keys⟩, by decide,
    numeral _ fun _ => isNumeral_of_mem_valueText finite⟩, by decide,
    numeral _ fun _ => Decimal.isNumeral_of_mem_integer⟩

theorem not_feed_of_mem_headerText {name : String} (valid : isValidName name = true) :
    '\n' ∉ headerText name := by
  simp only [headerText, List.mem_append, not_or]
  exact ⟨⟨by decide, not_feed_of_mem_name valid⟩, by decide⟩

theorem not_feed_of_mem_documentLines {families : List Family}
    (valid : ∀ family ∈ families, family.Valid) :
    ∀ line ∈ documentLines families, '\n' ∉ line := by
  intro line member
  cases List.mem_append.mp member with
  | inl inside =>
    obtain ⟨family, mine, inLines⟩ := List.mem_flatMap.mp inside
    obtain ⟨validName, samples⟩ := valid family mine
    cases List.mem_cons.mp inLines with
    | inl header =>
      rw [header]
      exact not_feed_of_mem_headerText validName
    | inr isSample =>
      obtain ⟨sample, mine, rfl⟩ := List.mem_map.mp isSample
      exact not_feed_of_mem_sampleText validName (samples sample mine)
  | inr last =>
    rw [List.mem_singleton.mp last]
    decide

theorem split_line {line : List Char} (free : '\n' ∉ line) (rest : List Char) :
    Text.split (· == '\n') (line ++ '\n' :: rest) = line :: Text.split (· == '\n') rest := by
  induction line with
  | nil =>
    rw [List.nil_append, Text.split]
    split
    next none => exact absurd none (Text.split_ne_nil _ _)
    next some => rw [some]; rfl
  | cons c line ih =>
    obtain ⟨other, free⟩ := not_or.mp (mt List.mem_cons.mpr free)
    rw [List.cons_append, Text.split, ih free]
    simp only
    rw [if_neg (by simpa using fun same => other same.symm)]

/-- The lines come back, and nothing behind the last line feed. -/
theorem split_unlines {lines : List (List Char)} (free : ∀ line ∈ lines, '\n' ∉ line) :
    Text.split (· == '\n') (unlines lines) = lines ++ [[]] := by
  induction lines with
  | nil => rfl
  | cons line rest ih =>
    have shape : unlines (line :: rest) = line ++ '\n' :: unlines rest := by
      simp [unlines]
    rw [shape, split_line (free line List.mem_cons_self),
      ih fun other member => free other (List.mem_cons_of_mem _ member)]
    rfl

/-! ## Families -/

/-- A line that begins with a name is no header and does not close a document. -/
theorem sampleText_starts {name : String} (valid : isValidName name = true) (sample : Sample) :
    sampleText name sample ≠ closingText ∧ header? (sampleText name sample) = none := by
  unfold isValidName at valid
  split at valid
  · cases valid
  next first rest split =>
    have other : '#' ≠ first := by
      rintro rfl
      rw [Bool.and_eq_true] at valid
      exact absurd valid.1 (by decide)
    obtain ⟨more, starts⟩ : ∃ more, sampleText name sample = first :: more := by
      rw [sampleText, split]
      exact ⟨_, rfl⟩
    have front : ∃ rest, headerFront = '#' :: rest := ⟨" TYPE ".toList, by decide +kernel⟩
    have closing : ∃ rest, closingText = '#' :: rest := ⟨" EOF".toList, by decide +kernel⟩
    obtain ⟨_, front⟩ := front
    obtain ⟨_, closing⟩ := closing
    constructor
    · rw [starts, closing]
      exact fun same => other (List.cons.inj same).1.symm
    · rw [header?, starts, front, expect?, if_neg other]
      rfl

theorem families?_samples {name : String} {samples : List Sample} {rest : List (List Char)}
    {families : List Family} (validName : isValidName name = true)
    (valid : ∀ sample ∈ samples, sample.Valid) (read : families? rest = some ([], families)) :
    families? (samples.map (sampleText name) ++ rest)
      = some (samples.map fun sample => (name, sample), families) := by
  induction samples with
  | nil => exact read
  | cons sample more ih =>
    obtain ⟨open_, noHeader⟩ := sampleText_starts validName sample
    have later := ih fun other member => valid other (List.mem_cons_of_mem _ member)
    rw [List.map_cons, List.cons_append, families?, if_neg open_, later, Option.bind_some]
    simp only [noHeader, sample?_sampleText validName (valid sample List.mem_cons_self)]
    rfl

theorem headerText_ne_closingText (name : String) : headerText name ≠ closingText := by
  intro same
  have third := congrArg (·[2]?) same
  have front : (headerText name)[2]? = some 'T' := by
    rw [headerText, List.append_assoc, List.getElem?_append_left (by decide)]
    decide
  have closing : closingText[2]? = some 'E' := by decide
  simp only [front, closing] at third
  exact absurd third (by decide)

theorem families?_lines {family : Family} {rest : List (List Char)} {families : List Family}
    (valid : family.Valid) (read : families? rest = some ([], families)) :
    families? (family.lines ++ rest) = some ([], family :: families) := by
  obtain ⟨validName, samples⟩ := valid
  have later := families?_samples validName samples read
  have mine : (family.samples.map fun sample => (family.name, sample)).all
      (·.1 == family.name) = true := by
    simp
  rw [Family.lines, List.cons_append, families?, if_neg (headerText_ne_closingText _), later,
    Option.bind_some]
  have back : (family.samples.map fun sample => (family.name, sample)).map (·.2)
      = family.samples := by
    simp
  simp only [header?_headerText validName, mine, if_true, back]

theorem families?_documentLines {families : List Family}
    (valid : ∀ family ∈ families, family.Valid) :
    families? (documentLines families ++ [[]]) = some ([], families) := by
  induction families with
  | nil => decide
  | cons family rest ih =>
    have later := ih fun other member => valid other (List.mem_cons_of_mem _ member)
    have shape : documentLines (family :: rest) ++ [[]]
        = family.lines ++ (documentLines rest ++ [[]]) := by
      simp [documentLines]
    rw [shape, families?_lines (valid family List.mem_cons_self) later]

theorem decode_documentLines {families : List Family} (valid : ∀ family ∈ families, family.Valid) :
    decode (Text.utf8 (unlines (documentLines families))) = some families := by
  rw [decode, Text.decode?_utf8, Option.bind_some, String.toList_ofList,
    split_unlines (not_feed_of_mem_documentLines valid), families?_documentLines valid]

end GaugeExporter.Exposition

/-! ## Registries -/

namespace GaugeExporter.Registry

open Exposition

/-- All names of metrics and all keys of tags are valid names. -/
structure NamesValid (r : Registry) : Prop where
  metrics : ∀ metric ∈ r.metrics, isValidName metric.name = true
  keys : ∀ series ∈ r.series, ∀ t ∈ series.tags, isValidName t.key = true

variable {r : Registry}

theorem NamesValid.tags (valid : r.NamesValid) (s : SeriesId) :
    ∀ t ∈ r.tags s, isValidName t.key = true := by
  intro t member
  rw [Registry.tags] at member
  cases found : r.series[s]? with
  | none =>
    rw [found] at member
    cases member
  | some series =>
    rw [found] at member
    exact valid.keys series (Array.mem_of_getElem? found) t member

theorem NamesValid.emitted (valid : r.NamesValid) (timestamp : Int) :
    ∀ family ∈ r.emitted timestamp, family.Valid := by
  intro family member
  obtain ⟨metric, registered, shows⟩ := List.mem_filterMap.mp member
  rw [family?] at shows
  split at shows
  · cases shows
  next shown _ =>
    cases shows
    refine ⟨valid.metrics metric (Array.mem_def.mpr registered), fun sample inside => ?_⟩
    obtain ⟨s, finite, rfl⟩ := List.mem_map.mp inside
    exact ⟨(List.mem_filter.mp finite).2, valid.tags s⟩

theorem decode_document (valid : r.NamesValid) (timestamp : Int) :
    decode (r.document timestamp) = some (r.emitted timestamp) := by
  rw [document_eq, decode_documentLines (valid.emitted timestamp)]

end GaugeExporter.Registry
