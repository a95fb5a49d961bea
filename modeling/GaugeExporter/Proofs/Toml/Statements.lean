import GaugeExporter.Proofs.Toml.Values

/-!
# Statements come back

What is read from the text of statements are the statements (`ofText?_text`), if
they say something and none of them is nested deeper than the reader goes.
-/

namespace GaugeExporter.Toml

open GaugeExporter.Text (Stops stops_cons)

namespace Statement

/-- The statement has a key, and its value can be said. -/
def Sound : Statement → Prop
  | .pair key v => key ≠ [] ∧ v.Expressible
  | .table path | .element path => path ≠ []

/-- The statement is not nested deeper than the reader goes. -/
def Shallow : Statement → Prop
  | .pair key v => key.length ≤ depthLimit ∧ v.depth ≤ depthLimit
  | .table path | .element path => path.length ≤ depthLimit

variable {statement : Statement}

/-! ## One statement -/

theorem lineEnd?_feed (rest : List Char) : lineEnd? ('\n' :: rest) = some rest := rfl

theorem header?_text {path : List String} (nonempty : path ≠ []) (few : path.length ≤ depthLimit)
    (rest : List Char) : key? (keyText path ++ ']' :: rest) = some (path, ']' :: rest) := by
  have bracket : skipSpaces (']' :: rest) = ']' :: rest := rfl
  have read := @keyParts?_keyText depthLimit path nonempty few (']' :: rest) (stops_cons rfl _)
    (by rw [bracket]; rintro _ ⟨⟩)
  rwa [bracket] at read

theorem head_keyText {path : List String} (nonempty : path ≠ []) :
    ∃ c rest, keyText path = c :: rest ∧ isKeyStart c = true := by
  cases path with
  | nil => contradiction
  | cons part path =>
    obtain ⟨c, more, text, start⟩ := head_keyPartText part
    cases path with
    | nil => exact ⟨c, more, text, start⟩
    | cons second path =>
      refine ⟨c, more ++ '.' :: keyText (second :: path), ?_, start⟩
      rw [keyText.eq_3 part _ (List.cons_ne_nil _ _), text]
      rfl

theorem statement?_text (sound : statement.Sound) (shallow : statement.Shallow)
    (rest : List Char) : statement? (statement.text ++ rest) = some (statement, rest) := by
  cases statement with
  | pair key v =>
    obtain ⟨nonempty, expressible⟩ := sound
    obtain ⟨few, flat⟩ := shallow
    obtain ⟨c, more, text, start⟩ := head_keyText nonempty
    have notBracket : c ≠ '[' := by
      rintro rfl
      cases start
    have read := pair?_text nonempty few expressible
      (value?_write expressible flat .spread (.feed rest))
    have shape : Statement.text (.pair key v) ++ rest
        = pairText key (v.write .spread) ++ '\n' :: rest := by
      rw [Statement.text, List.append_assoc, List.singleton_append]
    have head : pairText key (v.write .spread) ++ '\n' :: rest
        = c :: (more ++ ' ' :: '=' :: ' ' :: v.write .spread ++ '\n' :: rest) := by
      rw [pairText, text]
      rfl
    rw [shape, statement?.eq_3, read]
    · rfl
    · intro _ front
      rw [head] at front
      exact notBracket (List.cons.inj front).1
    · intro _ front
      rw [head] at front
      exact notBracket (List.cons.inj front).1
  | table path =>
    obtain ⟨c, more, text, start⟩ := head_keyText sound
    have notBracket : c ≠ '[' := by
      rintro rfl
      cases start
    have read := header?_text sound shallow ('\n' :: rest)
    have shape : Statement.text (.table path) ++ rest
        = '[' :: (keyText path ++ ']' :: '\n' :: rest) := by
      simp only [Statement.text, List.cons_append, List.append_assoc, List.nil_append]
    rw [shape, statement?.eq_2, read]
    · rfl
    · intro _ front
      rw [text] at front
      exact notBracket (List.cons.inj front).1
  | element path =>
    have read := header?_text sound shallow (']' :: '\n' :: rest)
    have shape : Statement.text (.element path) ++ rest
        = '[' :: '[' :: (keyText path ++ ']' :: ']' :: '\n' :: rest) := by
      simp only [Statement.text, List.cons_append, List.append_assoc, List.nil_append]
    rw [shape, statement?, read]
    rfl

/-! ## Documents -/

/-- A statement begins with a key or a bracket. -/
theorem head_text (sound : statement.Sound) :
    ∃ c rest, statement.text = c :: rest ∧ (isKeyStart c || c == '[') = true := by
  cases statement with
  | pair key v =>
    obtain ⟨c, more, text, start⟩ := head_keyText sound.1
    rw [Statement.text, pairText, text]
    exact ⟨c, _, rfl, by rw [start]; rfl⟩
  | table path => exact ⟨_, _, rfl, rfl⟩
  | element path => exact ⟨_, _, rfl, rfl⟩

/-- The statements of a document, one after another. -/
theorem statements?_line (sound : statement.Sound) (shallow : statement.Shallow) (fuel : Nat)
    (rest : List Char) :
    statements? (fuel + 1) (statement.text ++ rest)
      = (statements? fuel rest).map (statement :: ·) := by
  have read := statement?_text sound shallow rest
  obtain ⟨c, more, text, start⟩ := head_text sound
  have other : ∀ d, (isKeyStart d || d == '[') = false → c ≠ d := by
    rintro d none rfl
    rw [start] at none
    cases none
  have solid : skipSpaces (c :: (more ++ rest)) = c :: (more ++ rest) := by
    refine skipSpaces_stops (stops_cons ?_ _)
    rw [isSpace, Bool.or_eq_false_iff, beq_eq_false_iff_ne, beq_eq_false_iff_ne]
    exact ⟨other ' ' rfl, other '\t' rfl⟩
  have full : lineEnd? (c :: (more ++ rest)) = none := by
    rw [lineEnd?, solid, skipComment.eq_2 _ fun _ same => other '#' rfl (List.cons.inj same).1]
    split
    next none => cases none
    next feed => exact absurd (List.cons.inj feed).1 (other '\n' rfl)
    next carriage => exact absurd (List.cons.inj carriage).1 (other '\r' rfl)
    · rfl
  rw [text, List.cons_append] at read ⊢
  rw [statements?.eq_3 _ _ (List.cons_ne_nil _ _), full]
  simp only [solid, read]

theorem length_text_pos (sound : statement.Sound) : 0 < statement.text.length := by
  obtain ⟨c, more, text, -⟩ := head_text sound
  rw [text, List.length_cons]
  exact Nat.succ_pos _

theorem statements?_laterText {statements : List Statement}
    (sound : ∀ statement ∈ statements, statement.Sound)
    (shallow : ∀ statement ∈ statements, statement.Shallow) {fuel : Nat}
    (enough : (laterText statements).length < fuel) :
    statements? fuel (laterText statements) = some statements := by
  induction statements generalizing fuel with
  | nil =>
    obtain ⟨fuel, rfl⟩ : ∃ fewer, fuel = fewer + 1 := ⟨fuel - 1, by omega⟩
    rfl
  | cons statement statements ih =>
    obtain ⟨first, others⟩ := List.forall_mem_cons.mp sound
    obtain ⟨flat, low⟩ := List.forall_mem_cons.mp shallow
    have later := @ih others low
    have long := length_text_pos first
    rw [laterText, List.append_assoc] at enough ⊢
    -- In front of a header the empty line takes a round of its own.
    cases header : statement.isHeader with
    | false =>
      rw [header, if_neg Bool.false_ne_true, List.nil_append] at enough
      rw [if_neg Bool.false_ne_true, List.nil_append]
      obtain ⟨fuel, rfl⟩ : ∃ fewer, fuel = fewer + 1 := ⟨fuel - 1, by omega⟩
      rw [List.length_append] at enough
      rw [statements?_line first flat, later (by omega)]
      rfl
    | true =>
      rw [header, if_pos rfl, List.singleton_append, List.length_cons,
        List.length_append] at enough
      rw [if_pos rfl, List.singleton_append]
      obtain ⟨fuel, rfl⟩ : ∃ fewer, fuel = fewer + 1 + 1 := ⟨fuel - 2, by omega⟩
      rw [statements?.eq_3 _ _ (List.cons_ne_nil _ _), lineEnd?_feed]
      simp only
      rw [statements?_line first flat, later (by omega)]
      rfl

/-- The document that statements are written as is read as these statements. -/
theorem ofText?_text {statements : List Statement}
    (sound : ∀ statement ∈ statements, statement.Sound)
    (shallow : ∀ statement ∈ statements, statement.Shallow) :
    Entries.ofText? (String.ofList (statementsText statements))
      = Entries.ofStatements? statements := by
  cases statements with
  | nil => rfl
  | cons statement statements =>
    obtain ⟨first, others⟩ := List.forall_mem_cons.mp sound
    obtain ⟨flat, low⟩ := List.forall_mem_cons.mp shallow
    obtain ⟨c, more, text, start⟩ := head_text first
    have notMark : c ≠ '\uFEFF' := by
      rintro rfl
      cases start
    have unmarked : skipMark (statementsText (statement :: statements))
        = statementsText (statement :: statements) := by
      rw [statementsText, text]
      exact skipMark.eq_2 _ fun _ same => notMark (List.cons.inj same).1
    have long := length_text_pos first
    have read : statements? ((statementsText (statement :: statements)).length + 1)
        (statementsText (statement :: statements)) = some (statement :: statements) := by
      have enough : (laterText statements).length
          < (statementsText (statement :: statements)).length := by
        rw [statementsText, List.length_append]
        omega
      refine (statements?_line first flat _ _).trans ?_
      rw [statements?_laterText others low enough]
      rfl
    rw [Entries.ofText?, String.toList_ofList]
    simp only [unmarked, read, Option.bind_some]

end Statement

end GaugeExporter.Toml
