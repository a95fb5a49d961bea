import GaugeExporter.Proofs.Exposition.Buffer

/-!
# What a document shows

A document shows families: the name of a metric with its samples.  `emitted` is
what a registry shows, and `document_eq` says that its document is the encoding
of the lines of these families, as characters.  The non-trivial ingredient is
`escapeBytes_utf8`: the bytes that are escaped are whole characters, since the
bytes of all longer characters have their high bit set.
-/

namespace GaugeExporter

open Binary (Double)

theorem Text.decode?_utf8 (text : List Char) : decode? (utf8 text) = some (String.ofList text) := by
  have encoded : (⟨(utf8 text).toArray⟩ : ByteArray) = (String.ofList text).toByteArray := by
    rw [String.toByteArray_ofList]
    exact ByteArray.ext (by rw [List.utf8Encode, List.data_toByteArray]; rfl)
  rw [decode?, encoded, String.fromUTF8?, dif_pos (String.ofList text).isValidUTF8]
  rfl

theorem Text.utf8_injective : Function.Injective utf8 := by
  intro s t same
  have read := decode?_utf8 s
  rw [same, decode?_utf8] at read
  rw [← @String.toList_ofList s, ← @String.toList_ofList t, Option.some.inj read]

namespace Exposition

/-! ## Escapes -/

theorem utf8EncodeChar_ascii {c : Char} (ascii : c.toNat < 0x80) :
    String.utf8EncodeChar c = [UInt8.ofNat c.toNat] := by
  have small : c.val.toNat ≤ 0x7f := Nat.le_of_lt_succ ascii
  simp only [String.utf8EncodeChar, if_pos small]
  rfl

/-- The bytes of a longer character have their high bit set. -/
theorem high_of_mem_utf8EncodeChar {c : Char} (long : 0x80 ≤ c.toNat) {b : UInt8}
    (member : b ∈ String.utf8EncodeChar c) : 0x80 ≤ b.toNat := by
  have large : ¬ c.val.toNat ≤ 0x7f := Nat.not_le.mpr long
  have bound : c.val.toNat < 0x110000 := by
    have valid := c.valid
    simp only [UInt32.isValidChar, Nat.isValidChar] at valid
    omega
  unfold String.utf8EncodeChar at member
  generalize c.val.toNat = n at *
  simp only [if_neg large] at member
  split at member
  · simp only [List.mem_cons, List.not_mem_nil, or_false] at member
    obtain rfl | rfl := member <;> rw [UInt8.toNat_ofNat'] <;> omega
  · split at member
    · simp only [List.mem_cons, List.not_mem_nil, or_false] at member
      obtain rfl | rfl | rfl := member <;> rw [UInt8.toNat_ofNat'] <;> omega
    · simp only [List.mem_cons, List.not_mem_nil, or_false] at member
      obtain rfl | rfl | rfl | rfl := member <;> rw [UInt8.toNat_ofNat'] <;> omega

theorem escapeByte?_of_ne {b : UInt8} (quote : b ≠ 0x22) (backslash : b ≠ 0x5c)
    (feed : b ≠ 0x0a) : escapeByte? b = none := by
  rw [escapeByte?, if_neg quote, if_neg backslash, if_neg feed]

theorem escapeBytes_append {front : Bytes} (plain : ∀ b ∈ front, escapeByte? b = none)
    (rest : Bytes) : escapeBytes (front ++ rest) = front ++ escapeBytes rest := by
  induction front with
  | nil => rfl
  | cons b front ih =>
    rw [List.cons_append, escapeBytes_cons, plain b List.mem_cons_self,
      ih fun b member => plain b (List.mem_cons_of_mem _ member)]
    rfl

/-- Escaping the bytes of a character is escaping the character. -/
theorem escapeBytes_char (c : Char) (rest : Bytes) :
    escapeBytes (String.utf8EncodeChar c ++ rest)
      = Text.utf8 (escapeChar c) ++ escapeBytes rest := by
  by_cases quote : c = '"'
  · subst quote
    exact escapeBytes_cons 0x22 rest
  by_cases backslash : c = '\\'
  · subst backslash
    exact escapeBytes_cons 0x5c rest
  by_cases feed : c = '\n'
  · subst feed
    exact escapeBytes_cons 0x0a rest
  have plain : ∀ b ∈ String.utf8EncodeChar c, escapeByte? b = none := by
    intro b member
    by_cases ascii : c.toNat < 0x80
    · -- the byte of a short character is its code point
      rw [utf8EncodeChar_ascii ascii, List.mem_singleton] at member
      have other : ∀ d : Char, c ≠ d → d.toNat < 0x80 → b ≠ UInt8.ofNat d.toNat := by
        intro d differs small same
        rw [member, ← UInt8.toNat_inj, UInt8.toNat_ofNat', UInt8.toNat_ofNat'] at same
        exact differs (Char.toNat_inj.mp (by omega))
      exact escapeByte?_of_ne (other '"' quote (by decide)) (other '\\' backslash (by decide))
        (other '\n' feed (by decide))
    · have high := high_of_mem_utf8EncodeChar (Nat.not_lt.mp ascii) member
      refine escapeByte?_of_ne ?_ ?_ ?_ <;>
      · rintro rfl
        exact absurd high (by decide)
  rw [escapeBytes_append plain, escapeChar_of_ne quote backslash feed, Text.utf8_cons,
    Text.utf8_nil, List.append_nil]

theorem escapeBytes_utf8 (value : List Char) :
    escapeBytes (Text.utf8 value) = Text.utf8 (escape value) := by
  induction value with
  | nil => rfl
  | cons c rest ih => rw [Text.utf8_cons, escapeBytes_char, ih, escape_cons, Text.utf8_append]

/-! ## Samples and families -/

/-- A sample as a document shows it. -/
structure Sample where
  tags : List Tag
  value : Double
  timestamp : Int
  deriving DecidableEq

/-- A metric as a document shows it. -/
structure Family where
  name : String
  samples : List Sample
  deriving DecidableEq

/-- Fragments with commas between them in braces, nothing without tags. -/
def tagText : List Tag → List Char
  | [] => []
  | first :: rest =>
    '{' :: first.fragmentText ++ rest.flatMap (fun t => ',' :: t.fragmentText) ++ ['}']

/-- The line of a sample without its line feed. -/
def sampleText (name : String) (sample : Sample) : List Char :=
  name.toList ++ tagText sample.tags ++ ' ' :: valueText sample.value
    ++ ' ' :: Decimal.integer sample.timestamp

/-- What stands in front of the name in a header. -/
def headerFront : List Char := "# TYPE ".toList

/-- What stands behind the name in a header. -/
def headerBack : List Char := " gauge".toList

/-- The line in front of the samples without its line feed. -/
def headerText (name : String) : List Char := headerFront ++ name.toList ++ headerBack

/-- The closing line without its line feed. -/
def closingText : List Char := "# EOF".toList

/-- The lines of a family. -/
def Family.lines (family : Family) : List (List Char) :=
  headerText family.name :: family.samples.map (sampleText family.name)

/-- The lines of a document. -/
def documentLines (families : List Family) : List (List Char) :=
  families.flatMap Family.lines ++ [closingText]

/-- Lines, each with its line feed. -/
def unlines (lines : List (List Char)) : List Char := lines.flatMap (· ++ ['\n'])

theorem unlines_append (front back : List (List Char)) :
    unlines (front ++ back) = unlines front ++ unlines back := List.flatMap_append

theorem fragment_eq (t : Tag) : t.fragment = Text.utf8 t.fragmentText := by
  rw [Tag.fragment, Tag.fragmentText, writeEscaped_eq, Text.bytes, Text.bytes, escapeBytes_utf8]
  simp only [List.cons_append, Text.utf8_append, Text.utf8_cons, Text.utf8_nil, List.append_nil,
    List.append_assoc]
  rfl

theorem tagBlock_eq (tags : List Tag) : tagBlock tags = Text.utf8 (tagText tags) := by
  cases tags with
  | nil => rfl
  | cons first rest =>
    have more : rest.flatMap (fun t => 0x2c :: t.fragment)
        = Text.utf8 (rest.flatMap fun t => ',' :: t.fragmentText) := by
      induction rest with
      | nil => rfl
      | cons t rest ih =>
        rw [List.flatMap_cons, List.flatMap_cons, ih, Text.utf8_append, Text.utf8_cons, fragment_eq]
        rfl
    rw [tagBlock, tagText, more, fragment_eq]
    simp only [List.cons_append, Text.utf8_append, Text.utf8_cons]
    rfl

theorem sampleLine_eq (timestamp : Int) (name : String) (value : Double) (tags : List Tag) :
    sampleLine timestamp name value tags
      = Text.utf8 (sampleText name ⟨tags, value, timestamp⟩ ++ ['\n']) := by
  rw [sampleLine, sampleText, tagBlock_eq, valueBytes_eq, Text.bytes]
  simp only [List.cons_append, Text.utf8_append, Text.utf8_cons, List.append_assoc]
  rfl

theorem typeHeader_eq (name : String) :
    typeHeader name = Text.utf8 (headerText name ++ ['\n']) := by
  have feed : Text.bytes " gauge\n" = Text.utf8 (headerBack ++ ['\n']) :=
    congrArg Text.utf8 (by decide +kernel)
  refine (congrArg (Text.utf8 headerFront ++ Text.bytes name ++ ·) feed).trans ?_
  rw [headerText, Text.bytes]
  simp only [Text.utf8_append, List.append_assoc]

end Exposition

/-! ## Registries -/

namespace Registry

open Exposition

variable (r : Registry) (timestamp : Int)

/-- What the document shows of a series. -/
def sample (s : SeriesId) : Sample := ⟨r.tags s, r.value s, timestamp⟩

/-- What the document shows of a metric: nothing without a finite value,
otherwise the finite series in list order. -/
def family? (metric : Metric) : Option Family :=
  match r.finiteSeries metric with
  | [] => none
  | shown => some ⟨metric.name, shown.map (r.sample timestamp)⟩

/-- What the document shows of a registry, in registration order. -/
def emitted : List Family := r.metrics.toList.filterMap (r.family? timestamp)

theorem plainBlock_eq (metric : Metric) :
    r.plainBlock metric timestamp
      = Text.utf8 (unlines ((r.family? timestamp metric).toList.flatMap Family.lines)) := by
  rw [plainBlock, family?]
  cases r.finiteSeries metric with
  | nil => rfl
  | cons s rest =>
    have samples : ∀ shown : List SeriesId,
        (shown.flatMap fun s => sampleLine timestamp metric.name (r.value s) (r.tags s))
          = Text.utf8 (unlines
              ((shown.map (r.sample timestamp)).map (sampleText metric.name))) := by
      intro shown
      induction shown with
      | nil => rfl
      | cons s rest ih =>
        rw [List.flatMap_cons, ih, sampleLine_eq, ← Text.utf8_append]
        rfl
    simp only
    rw [samples, typeHeader_eq, ← Text.utf8_append]
    simp [unlines, Family.lines]

theorem range_metrics :
    (List.range r.metricCount).map (fun m => r.metrics[m]?.getD default) = r.metrics.toList := by
  refine List.ext_getElem (by simp [metricCount]) fun m inside inside' => ?_
  simp [Array.getElem?_eq_getElem (show m < r.metrics.size by simpa using inside')]

theorem document_eq :
    r.document timestamp = Text.utf8 (unlines (documentLines (r.emitted timestamp))) := by
  have blocks : ∀ metrics : List Metric,
      (metrics.flatMap fun metric => r.plainBlock metric timestamp)
        = Text.utf8 (unlines ((metrics.filterMap (r.family? timestamp)).flatMap Family.lines)) := by
    intro metrics
    induction metrics with
    | nil => rfl
    | cons metric rest ih =>
      rw [List.flatMap_cons, ih, plainBlock_eq, ← Text.utf8_append]
      cases shown : r.family? timestamp metric with
      | none => rw [List.filterMap_cons_none shown]; rfl
      | some family =>
        rw [List.filterMap_cons_some shown]
        simp [unlines]
  have numbered : r.blocks timestamp r.metricCount
      = r.metrics.toList.flatMap fun metric => r.plainBlock metric timestamp := by
    rw [← range_metrics, List.flatMap_map]
    rfl
  have closing : documentEnd = Text.utf8 (unlines [closingText]) := by decide
  rw [document, numbered, blocks, emitted, documentLines, unlines_append, Text.utf8_append, closing]

end Registry

end GaugeExporter
