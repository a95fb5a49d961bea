import GaugeExporter.Proofs.Text.Runs
import GaugeExporter.Proofs.Toml.Strings

/-!
# Keys come back

A key is spelled bare, between double quotes or between apostrophes, and what is
read from its spelling is the key (`keyPart?_keyPartText`).  Keys with dots
between their parts come back part by part (`keyParts?_keyText`).
-/

namespace GaugeExporter.Toml

open GaugeExporter.Text (Stops stops_cons takeWhile_run dropWhile_run)

/-! ## Parts -/

/-- What a key part is spelled with begins with a character of bare keys or with
a quote. -/
def isKeyStart (c : Char) : Bool := isKeyChar c || c == '"' || c == '\''

/-- A key part is spelled bare, as a basic string or as a literal one, each only
where that form can say it. -/
theorem keyPartText_cases (key : String) :
    (keyPartText key = key.toList ∧ key.toList ≠ [] ∧ ∀ c ∈ key.toList, isKeyChar c = true) ∨
      keyPartText key = Form.basic.spell key.toList ∨
        (keyPartText key = Form.literal.spell key.toList ∧
          ∀ c ∈ key.toList, isPlain c = true ∧ c ≠ '\'') := by
  simp only [keyPartText]
  split
  next bare =>
    rw [Bool.and_eq_true, List.all_eq_true] at bare
    obtain ⟨nonempty, all⟩ := bare
    refine .inl ⟨rfl, fun none => ?_, all⟩
    rw [none] at nonempty
    cases nonempty
  · split
    · exact .inr (.inl rfl)
    · split
      next plain =>
        simp only [Bool.and_eq_true, Bool.not_eq_true', List.any_eq_false, Bool.or_eq_true,
          not_or, Bool.not_eq_true, beq_iff_eq, List.contains_eq_mem,
          decide_eq_false_iff_not] at plain
        obtain ⟨control, quote⟩ := plain
        exact .inr (.inr ⟨rfl, fun c member =>
          ⟨isPlain_of_not_control (control c member).1 (control c member).2,
            fun same => quote (same ▸ member)⟩⟩)
      · exact .inr (.inl rfl)

theorem head_keyPartText (key : String) :
    ∃ first rest, keyPartText key = first :: rest ∧ isKeyStart first = true := by
  have quoted : ∀ form : Form, ∃ first rest, form.spell key.toList = first :: rest
      ∧ isKeyStart first = true := by
    intro form
    obtain ⟨first, rest, same, quote⟩ := head_spell form key.toList
    exact ⟨first, rest, same, by rcases quote with rfl | rfl <;> rfl⟩
  obtain ⟨bare, nonempty, all⟩ | basic | ⟨literal, -⟩ := keyPartText_cases key
  · obtain ⟨first, rest, word⟩ := List.exists_cons_of_ne_nil nonempty
    refine ⟨first, rest, bare.trans word, ?_⟩
    rw [isKeyStart, all first (word ▸ List.mem_cons_self)]
    rfl
  · rw [basic]
    exact quoted .basic
  · rw [literal]
    exact quoted .literal

theorem keyPart?_bare {s : List Char} (nonempty : s ≠ []) (all : ∀ c ∈ s, isKeyChar c = true)
    {rest : List Char} (stops : Stops isKeyChar rest) :
    keyPart? (s ++ rest) = some (String.ofList s, rest) := by
  cases s with
  | nil => contradiction
  | cons c s =>
    have first := all c List.mem_cons_self
    have double : c ≠ '"' := by rintro rfl; cases first
    have single : c ≠ '\'' := by rintro rfl; cases first
    rw [keyPart?.eq_3, takeWhile_run all stops, dropWhile_run all stops, if_neg nonempty]
    · exact fun _ same => double (List.cons.inj same).1
    · exact fun _ same => single (List.cons.inj same).1

theorem keyPart?_basic (s rest : List Char) :
    keyPart? (Form.basic.spell s ++ rest) = some (String.ofList s, rest) := by
  rw [basic_append, keyPart?, basicBody?_text]
  rfl

theorem keyPart?_literal {s : List Char} (plain : ∀ c ∈ s, isPlain c = true ∧ c ≠ '\'')
    (rest : List Char) :
    keyPart? (Form.literal.spell s ++ rest) = some (String.ofList s, rest) := by
  rw [literal_append, keyPart?, literalBody?_text plain]
  rfl

theorem keyPart?_keyPartText (key : String) {rest : List Char} (stops : Stops isKeyChar rest) :
    keyPart? (keyPartText key ++ rest) = some (key, rest) := by
  have whole : String.ofList key.toList = key := String.ofList_toList
  obtain ⟨bare, nonempty, all⟩ | basic | ⟨literal, plain⟩ := keyPartText_cases key
  · rw [bare, keyPart?_bare nonempty all stops, whole]
  · rw [basic, keyPart?_basic, whole]
  · rw [literal, keyPart?_literal plain, whole]

/-! ## Keys with dots -/

theorem skipSpaces_stops {text : List Char} (stops : Stops isSpace text) :
    skipSpaces text = text :=
  @dropWhile_run isSpace [] text (fun _ member => nomatch member) stops

theorem not_space_of_isKeyStart {c : Char} (start : isKeyStart c = true) : isSpace c = false := by
  rw [isSpace, Bool.or_eq_false_iff, beq_eq_false_iff_ne, beq_eq_false_iff_ne]
  constructor <;> rintro rfl <;> cases start

/-- A key comes back with the blanks behind it skipped, if no dot follows
those. -/
theorem keyParts?_keyText {bound : Nat} {path : List String} (nonempty : path ≠ [])
    (few : path.length ≤ bound) {rest : List Char} (stops : Stops isKeyChar rest)
    (noDot : ∀ more, skipSpaces rest ≠ '.' :: more) :
    keyParts? bound (keyText path ++ rest) = some (path, skipSpaces rest) := by
  induction path generalizing bound with
  | nil => contradiction
  | cons part path ih =>
    obtain ⟨bound, rfl⟩ : ∃ smaller, bound = smaller + 1 :=
      ⟨bound - 1, by rw [List.length_cons] at few; omega⟩
    obtain ⟨first, more, text, start⟩ := head_keyPartText part
    have solid : ∀ tail, skipSpaces (keyPartText part ++ tail) = keyPartText part ++ tail := by
      intro tail
      rw [text]
      exact skipSpaces_stops (stops_cons (not_space_of_isKeyStart start) _)
    cases path with
    | nil =>
      rw [keyText, keyParts?, solid, keyPart?_keyPartText part stops]
      simp only
    | cons second path =>
      have dot : Stops isKeyChar ('.' :: (keyText (second :: path) ++ rest)) :=
        stops_cons rfl _
      rw [keyText.eq_3 part _ (List.cons_ne_nil _ _), List.append_assoc, List.cons_append,
        keyParts?, solid, keyPart?_keyPartText part dot]
      simp only [skipSpaces_stops (@stops_cons isSpace '.' rfl _)]
      rw [ih (List.cons_ne_nil _ _) (Nat.le_of_succ_le_succ few)]
      rfl

end GaugeExporter.Toml
