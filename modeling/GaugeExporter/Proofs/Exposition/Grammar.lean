import GaugeExporter.Proofs.Exposition.Decoder

/-!
# The grammar of documents

What a document looks like, said about its characters and without its writer:
blocks of a header and sample lines behind it, and a closing line.  Between
two line feeds stands one of these lines, so nothing inside a name, a value or
a number can begin another (`IsDocument`).  The document of a registry with
valid names, no tag key twice in a series, is of this form
(`Registry.document_isDocument`).
-/

namespace GaugeExporter.Exposition

open Binary (Double)
open Decimal (digits integer positional scientific)

/-! ## Names and values -/

def IsLetter (c : Char) : Prop := 'a' ≤ c ∧ c ≤ 'z' ∨ 'A' ≤ c ∧ c ≤ 'Z'

def IsDigit (c : Char) : Prop := '0' ≤ c ∧ c ≤ '9'

instance : DecidablePred IsDigit := fun c => inferInstanceAs (Decidable ('0' ≤ c ∧ c ≤ '9'))

/-- `[a-zA-Z_][a-zA-Z0-9_]*` -/
inductive IsName : List Char → Prop
  | intro {first : Char} {rest : List Char} (start : IsLetter first ∨ first = '_')
      (more : ∀ c ∈ rest, IsLetter c ∨ IsDigit c ∨ c = '_') : IsName (first :: rest)

/-- What stands between the quotes of a tag: no line feed, a quote only behind a
backslash, and a backslash only in front of a backslash, a quote or an `n`. -/
inductive IsQuoted : List Char → Prop
  | done : IsQuoted []
  | plain {c : Char} {rest : List Char} (other : c ≠ '\\' ∧ c ≠ '"' ∧ c ≠ '\n')
      (more : IsQuoted rest) : IsQuoted (c :: rest)
  | escaped {c : Char} {rest : List Char} (known : c = '\\' ∨ c = '"' ∨ c = 'n')
      (more : IsQuoted rest) : IsQuoted ('\\' :: c :: rest)

/-! ## Numbers -/

/-- `[0-9]+` -/
def IsRun (text : List Char) : Prop := text ≠ [] ∧ ∀ c ∈ text, IsDigit c

/-- `-?[0-9]+` -/
inductive IsInteger : List Char → Prop
  | plain {run : List Char} (isRun : IsRun run) : IsInteger run
  | negative {run : List Char} (isRun : IsRun run) : IsInteger ('-' :: run)

/-- `[0-9]+(\.[0-9]+)?` -/
inductive IsFixed : List Char → Prop
  | whole {run : List Char} (isRun : IsRun run) : IsFixed run
  | pointed {whole fraction : List Char} (isWhole : IsRun whole) (isFraction : IsRun fraction) :
      IsFixed (whole ++ '.' :: fraction)

/-- `[0-9]+(\.[0-9]+)?(e-?[0-9]+)?` -/
inductive IsMagnitude : List Char → Prop
  | fixed {text : List Char} (isFixed : IsFixed text) : IsMagnitude text
  | scaled {text power : List Char} (isFixed : IsFixed text) (isPower : IsInteger power) :
      IsMagnitude (text ++ 'e' :: power)

/-- `-?[0-9]+(\.[0-9]+)?(e-?[0-9]+)?` -/
inductive IsNumber : List Char → Prop
  | plain {text : List Char} (magnitude : IsMagnitude text) : IsNumber text
  | negative {text : List Char} (magnitude : IsMagnitude text) : IsNumber ('-' :: text)

/-! ## Lines, blocks and documents -/

/-- `key="value"` -/
def pairText (pair : List Char × List Char) : List Char :=
  pair.1 ++ '=' :: '"' :: pair.2 ++ ['"']

/-- Nothing, or pairs in braces with commas between them and no key twice. -/
inductive IsTagBlock : List Char → Prop
  | absent : IsTagBlock []
  | present {pairs : List (List Char × List Char)} (some : pairs ≠ [])
      (keys : ∀ pair ∈ pairs, IsName pair.1) (values : ∀ pair ∈ pairs, IsQuoted pair.2)
      (distinct : (pairs.map Prod.fst).Nodup) :
      IsTagBlock ('{' :: [','].intercalate (pairs.map pairText) ++ ['}'])

/-- A line with a value of the metric with this name. -/
inductive IsSample (name : List Char) (timestamp : Int) : List Char → Prop
  | intro {tags value : List Char} (isTagBlock : IsTagBlock tags) (isNumber : IsNumber value) :
      IsSample name timestamp
        (name ++ tags ++ ' ' :: value ++ ' ' :: (toString timestamp).toList)

/-- A header with at least one sample of the same metric behind it. -/
inductive IsBlock (timestamp : Int) : List (List Char) → Prop
  | intro {name : List Char} {samples : List (List Char)} (isName : IsName name)
      (some : samples ≠ []) (all : ∀ line ∈ samples, IsSample name timestamp line) :
      IsBlock timestamp (("# TYPE ".toList ++ name ++ " gauge".toList) :: samples)

/-- The line feeds of the text cut it into the lines of blocks, a closing line
and nothing behind it. -/
def IsDocument (timestamp : Int) (text : List Char) : Prop :=
  ∃ blocks : List (List (List Char)), (∀ block ∈ blocks, IsBlock timestamp block) ∧
    text.splitOn '\n' = blocks.flatten ++ ["# EOF".toList, []]

/-! ## What is written belongs to the grammar -/

theorem isLetter_of_isAlpha {c : Char} (alpha : c.isAlpha = true) : IsLetter c := by
  cases (Bool.or_eq_true c.isUpper c.isLower).mp alpha with
  | inl upper => exact .inr (of_decide_eq_true upper)
  | inr lower => exact .inl ((Bool.and_eq_true _ _ ▸ lower).imp of_decide_eq_true of_decide_eq_true)

theorem isDigit_of_isDigit {c : Char} (digit : c.isDigit = true) : IsDigit c :=
  (Bool.and_eq_true _ _ ▸ digit).imp of_decide_eq_true of_decide_eq_true

theorem isName_of_valid {name : String} (valid : isValidName name = true) :
    IsName name.toList := by
  unfold isValidName at valid
  split at valid
  · cases valid
  next first rest split =>
    rw [Bool.and_eq_true, List.all_eq_true] at valid
    obtain ⟨start, more⟩ := valid
    rw [isNameStart, Bool.or_eq_true, beq_iff_eq] at start
    rw [split]
    refine .intro (start.imp_left isLetter_of_isAlpha) fun c member => ?_
    have rest := more c member
    rw [isNameRest, Bool.or_eq_true, Char.isAlphanum, Bool.or_eq_true, beq_iff_eq] at rest
    obtain (alpha | digit) | underscore := rest
    · exact .inl (isLetter_of_isAlpha alpha)
    · exact .inr (.inl (isDigit_of_isDigit digit))
    · exact .inr (.inr underscore)

theorem isQuoted_escape (value : List Char) : IsQuoted (escape value) := by
  induction value with
  | nil => exact .done
  | cons c rest ih =>
    rw [escape_cons]
    unfold escapeChar
    split
    · exact .escaped (.inr (.inl rfl)) ih
    · exact .escaped (.inl rfl) ih
    · exact .escaped (.inr (.inr rfl)) ih
    next quote backslash feed => exact .plain ⟨backslash, quote, feed⟩ ih

/-- A quoted text is written as it was. -/
theorem escape_unescape {text : List Char} (quoted : IsQuoted text) :
    escape (unescape text) = text := by
  induction quoted with
  | done => rfl
  | plain other more ih =>
    obtain ⟨backslash, quote, feed⟩ := other
    rw [unescape_cons_of_ne _ backslash, escape_cons, escapeChar_of_ne quote backslash feed, ih]
    rfl
  | escaped known more ih =>
    obtain rfl | rfl | rfl := known
    · rw [unescape, escape_cons, ih]
      rfl
    · rw [unescape, escape_cons, ih]
      rfl
    · rw [unescape, escape_cons, ih]
      rfl

/-- Escaping is undone by reading, and reading by escaping exactly where the text
is quoted: these are all texts that escaping gives.  What the buffer holds already
does not matter. -/
theorem writeEscaped_unescape :
    (∀ value, ∃ text, (∀ out, writeEscaped out (Text.utf8 value) = out ++ Text.utf8 text) ∧
        unescape text = value) ∧
      ∀ text, (writeEscaped [] (Text.utf8 (unescape text)) = Text.utf8 text ↔
          ∃ value, writeEscaped [] (Text.utf8 value) = Text.utf8 text) ∧
        ((∃ value, writeEscaped [] (Text.utf8 value) = Text.utf8 text) ↔ IsQuoted text) := by
  have writes (out : Bytes) (value : List Char) :
      writeEscaped out (Text.utf8 value) = out ++ Text.utf8 (escape value) := by
    rw [writeEscaped_eq, escapeBytes_utf8]
  have gives (value text : List Char) :
      writeEscaped [] (Text.utf8 value) = Text.utf8 text ↔ escape value = text := by
    rw [writes, List.nil_append, Text.utf8_injective.eq_iff]
  refine ⟨fun value => ⟨escape value, fun out => writes out value, unescape_escape value⟩,
    fun text => ⟨⟨fun back => ⟨_, back⟩, ?_⟩, ?_, ?_⟩⟩
  · rintro ⟨value, written⟩
    obtain rfl := (gives value text).mp written
    rw [unescape_escape]
    exact written
  · rintro ⟨value, written⟩
    exact (gives value text).mp written ▸ isQuoted_escape value
  · intro quoted
    exact ⟨unescape text, (gives _ _).mpr (escape_unescape quoted)⟩

theorem isRun_digits (n : Nat) : IsRun (digits n) :=
  ⟨Decimal.digits_ne_nil n, fun _ member =>
    isDigit_of_isDigit (Decimal.isDigit_of_mem_digits member)⟩

theorem isInteger_integer (n : Int) : IsInteger (integer n) := by
  unfold integer
  split
  · exact .negative (isRun_digits _)
  · exact .plain (isRun_digits _)

/-- Zeros around a run leave a run. -/
theorem IsRun.zeros {text : List Char} (isRun : IsRun text) (before after : Nat) :
    IsRun (List.replicate before '0' ++ text ++ List.replicate after '0') := by
  refine ⟨by simp [isRun.1], fun c member => ?_⟩
  have zero : ∀ n, c ∈ List.replicate n '0' → IsDigit c := fun n inside =>
    (List.mem_replicate.mp inside).2 ▸ by decide
  obtain (front | inside) | back := (List.mem_append.mp member).imp_left List.mem_append.mp
  · exact zero before front
  · exact isRun.2 c inside
  · exact zero after back

theorem isFixed_positional (d : Decimal) : IsFixed d.positional := by
  have run := isRun_digits d.significand
  unfold positional
  simp only
  split
  · split
    · exact .whole ⟨by simp, fun c member => List.mem_singleton.mp member ▸ by decide⟩
    · exact .whole (by simpa using run.zeros 0 d.exponent.toNat)
  · split
    next inside =>
      -- the point stands among the digits, with some of them on both sides
      refine .pointed ⟨?_, fun c member => run.2 c (List.mem_of_mem_take member)⟩
        ⟨?_, fun c member => run.2 c (List.mem_of_mem_drop member)⟩
      · rw [Ne, ← List.length_eq_zero_iff, List.length_take]
        omega
      · rw [Ne, ← List.length_eq_zero_iff, List.length_drop]
        omega
    next =>
      have fraction := run.zeros ((-d.exponent).toNat - (digits d.significand).length) 0
      rw [List.replicate_zero, List.append_nil] at fraction
      exact @IsFixed.pointed ['0'] _
        ⟨by simp, fun c member => List.mem_singleton.mp member ▸ by decide⟩ fraction

theorem isMagnitude_scientific (d : Decimal) : IsMagnitude d.scientific := by
  obtain ⟨some, all⟩ := isRun_digits d.significand
  unfold scientific
  simp only
  refine .scaled ?_ (isInteger_integer _)
  split
  next first second rest text =>
    rw [text] at all
    exact @IsFixed.pointed [first] (second :: rest)
      ⟨by simp, fun c member => List.mem_singleton.mp member ▸ all first List.mem_cons_self⟩
      ⟨by simp, fun c member => all c (List.mem_cons_of_mem _ member)⟩
  next => exact .whole ⟨some, all⟩

theorem isNumber_valueText {x : Double} (finite : x.isFinite = true) : IsNumber (valueText x) := by
  obtain ⟨negative, m, e, parts⟩ := Double.parts_of_finite finite
  have magnitude : IsMagnitude (valueStyle.magnitude (Decimal.shortest Binary.double m e)) := by
    cases magnitudeText_layout (Decimal.shortest Binary.double m e) with
    | inl plain =>
      rw [plain]
      exact .fixed (isFixed_positional _)
    | inr scaled =>
      rw [scaled]
      exact isMagnitude_scientific _
  rw [valueText, Decimal.Text.write_finite valueStyle parts]
  split
  · exact .negative magnitude
  · exact .plain magnitude

theorem digits_eq_toDigits (n : Nat) : digits n = Nat.toDigits 10 n := by
  have chars : ∀ d : Fin 10, Decimal.digitChar d = Nat.digitChar d := by decide
  fun_induction digits n with
  | case1 n small =>
    rw [Nat.toDigits_of_lt_base small]
    exact congrArg ([·]) (chars ⟨n, small⟩)
  | case2 n large ih =>
    rw [Nat.toDigits_of_base_le (by decide) (Nat.le_of_not_lt large), ih]
    exact congrArg (Nat.toDigits 10 (n / 10) ++ [·]) (chars ⟨n % 10, Nat.mod_lt _ (by decide)⟩)

theorem integer_eq_toString (n : Int) : integer n = (toString n).toList := by
  have natural (m : Nat) : (Nat.repr m).toList = digits m := by
    rw [Nat.repr, String.toList_ofList, digits_eq_toDigits]
  change integer n = n.repr.toList
  cases n with
  | ofNat m => exact (natural m).symm
  | negSucc m =>
    rw [Int.repr, String.toList_append, natural, integer, if_pos (Int.negSucc_lt_zero m)]
    rfl

/-! ## Tags and samples -/

theorem tagText_eq {tags : List Tag} (some : tags ≠ []) :
    tagText tags = '{' :: [','].intercalate (tags.map Tag.fragmentText) ++ ['}'] := by
  cases tags with
  | nil => exact absurd rfl some
  | cons first rest =>
    clear some
    have joined (first : Tag) : first.fragmentText ++ rest.flatMap (fun t => ',' :: t.fragmentText)
        = [','].intercalate ((first :: rest).map Tag.fragmentText) := by
      induction rest generalizing first with
      | nil => simp [List.intercalate]
      | cons second rest ih =>
        have later := ih second
        rw [List.map_cons] at later
        rw [List.map_cons, List.map_cons, List.intercalate_cons_cons, ← later, List.flatMap_cons]
        simp
    rw [tagText, List.cons_append, joined]

/-- Key and escaped value of a tag. -/
def pairOf (t : Tag) : List Char × List Char := (t.key.toList, escape t.value.toList)

theorem isTagBlock_tagText {tags : List Tag} (keys : ∀ t ∈ tags, isValidName t.key = true)
    (distinct : (tags.map Tag.key).Nodup) : IsTagBlock (tagText tags) := by
  by_cases none : tags = []
  · subst none
    exact .absent
  · have pairs : tags.map Tag.fragmentText = (tags.map pairOf).map pairText := by
      rw [List.map_map]
      rfl
    rw [tagText_eq none, pairs]
    refine .present (by simpa using none) ?_ ?_ ?_
    · intro pair member
      obtain ⟨t, inside, rfl⟩ := List.mem_map.mp member
      exact isName_of_valid (keys t inside)
    · intro pair member
      obtain ⟨t, inside, rfl⟩ := List.mem_map.mp member
      exact isQuoted_escape _
    · have texts := List.Nodup.map (fun _ _ same => String.toList_injective same) distinct
      rwa [List.map_map] at texts ⊢

theorem isSample_sampleText (name : String) {sample : Sample} (valid : sample.Valid)
    (distinct : (sample.tags.map Tag.key).Nodup) :
    IsSample name.toList sample.timestamp (sampleText name sample) := by
  rw [sampleText, integer_eq_toString]
  exact .intro (isTagBlock_tagText valid.2 distinct) (isNumber_valueText valid.1)

theorem isBlock_lines {family : Family} (valid : family.Valid) (timestamp : Int)
    (some : family.samples ≠ [])
    (samples : ∀ sample ∈ family.samples,
      sample.timestamp = timestamp ∧ (sample.tags.map Tag.key).Nodup) :
    IsBlock timestamp family.lines := by
  refine .intro (isName_of_valid valid.1) (by simpa using some) fun line member => ?_
  obtain ⟨sample, inside, rfl⟩ := List.mem_map.mp member
  obtain ⟨rfl, distinct⟩ := samples sample inside
  exact isSample_sampleText family.name (valid.2 sample inside) distinct

theorem splitOn_unlines {lines : List (List Char)} (free : ∀ line ∈ lines, '\n' ∉ line) :
    (unlines lines).splitOn '\n' = lines ++ [[]] := by
  have joined : unlines lines = ['\n'].intercalate (lines ++ [[]]) := by
    induction lines with
    | nil => rfl
    | cons line rest ih =>
      have later := ih fun other member => free other (List.mem_cons_of_mem _ member)
      have shape : unlines (line :: rest) = line ++ ['\n'] ++ unlines rest := rfl
      rw [shape, later, List.cons_append, List.intercalate_cons_of_ne_nil (by simp)]
  refine joined ▸ List.splitOn_intercalate _ (fun line member => ?_) (by simp)
  cases List.mem_append.mp member with
  | inl inside => exact free line inside
  | inr last => exact List.mem_singleton.mp last ▸ List.not_mem_nil

end GaugeExporter.Exposition

namespace GaugeExporter.Registry

open Exposition

variable {r : Registry}

/-- No series has a tag key twice. -/
def KeysDistinct (r : Registry) : Prop :=
  ∀ series ∈ r.series, (series.tags.map Tag.key).Nodup

theorem KeysDistinct.tags (distinct : r.KeysDistinct) (s : SeriesId) :
    ((r.tags s).map Tag.key).Nodup := by
  rw [Registry.tags]
  cases found : r.series[s]? with
  | none => exact List.nodup_nil
  | some series => exact distinct series (Array.mem_of_getElem? found)

/-- The document of a registry is a document, whatever its tags and values
hold. -/
theorem document_isDocument (valid : r.NamesValid) (distinct : r.KeysDistinct) (timestamp : Int) :
    ∃ text, r.document timestamp = Text.utf8 text ∧ IsDocument timestamp text := by
  refine ⟨_, document_eq r timestamp, (r.emitted timestamp).map Family.lines, ?_, ?_⟩
  · intro block member
    obtain ⟨family, emitted, rfl⟩ := List.mem_map.mp member
    have familyValid := valid.emitted timestamp family emitted
    obtain ⟨metric, -, shows⟩ := List.mem_filterMap.mp emitted
    rw [family?] at shows
    split at shows
    · cases shows
    next shown some =>
      cases shows
      refine isBlock_lines familyValid timestamp (by simpa using some) fun sample inside => ?_
      obtain ⟨s, -, rfl⟩ := List.mem_map.mp inside
      exact ⟨rfl, distinct.tags s⟩
  · rw [splitOn_unlines (not_feed_of_mem_documentLines (valid.emitted timestamp)), documentLines,
      List.flatMap_def, List.append_assoc]
    rfl

end GaugeExporter.Registry
