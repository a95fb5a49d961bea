import GaugeExporter.Toml.Lexical
import GaugeExporter.Toml.Spelling

/-!
# Strings come back

Whatever characters a string has, what is read from its spelling is the string
(`string?_stringText`).  There is one lemma for each form.  The non-trivial ones
are those of the tripled forms, where a run of quotes at the end of the string
meets the closing ones.
-/

namespace GaugeExporter.Toml

/-! ## Characters -/

theorem isPlain_of_not_control {c : Char} (control : isControl c = false) (feed : c ≠ '\n') :
    isPlain c = true := by
  simp only [isControl, Bool.or_eq_false_iff, Bool.and_eq_false_iff, decide_eq_false_iff_not,
    bne_eq_false_iff_eq, beq_eq_false_iff_ne] at control
  simp only [isPlain, Bool.or_eq_true, beq_iff_eq, Bool.and_eq_true, decide_eq_true_eq,
    bne_iff_ne]
  obtain ⟨(large | tab) | isFeed, notDelete⟩ := control
  · exact .inr ⟨Nat.le_of_not_lt large, notDelete⟩
  · exact .inl tab
  · exact absurd isFeed feed

/-- The four digits of a small number name the character with this number. -/
theorem codePoint?_codeEscape {n : Nat} (small : n < 0x80) :
    codePoint? [upperDigit (n / 4096 % 16), upperDigit (n / 256 % 16), upperDigit (n / 16 % 16),
      upperDigit (n % 16)] = some (Char.ofNat n) := by
  have all : ∀ n : Fin 0x80, codePoint? [upperDigit (n / 4096 % 16), upperDigit (n / 256 % 16),
      upperDigit (n / 16 % 16), upperDigit (n % 16)] = some (Char.ofNat n) := by decide
  exact all ⟨n, small⟩

theorem escape?_codeEscape {c : Char} (small : c.toNat < 0x80) (rest : List Char) :
    ∃ tail, codeEscape c.toNat = '\\' :: tail ∧ escape? (tail ++ rest) = some (c, rest) := by
  refine ⟨_, rfl, ?_⟩
  have read := codePoint?_codeEscape small
  rw [Char.ofNat_toNat] at read
  simp only [List.cons_append, List.nil_append, escape?, codeEscape?, List.length_cons]
  rw [if_neg (by omega)]
  simp only [List.take_succ_cons, List.take_zero, List.drop_succ_cons, List.drop_zero, read,
    Option.map_some]

/-- A character other than a line feed stands for itself or is an escape that is
read back. -/
theorem escaped_cases {c : Char} (feed : c ≠ '\n') :
    (escaped c = [c] ∧ isPlain c = true ∧ c ≠ '\\') ∨
      ∀ rest, ∃ tail, escaped c = '\\' :: tail ∧ escape? (tail ++ rest) = some (c, rest) := by
  unfold escaped
  split
  · exact .inr fun rest => ⟨['b'], rfl, rfl⟩
  · exact .inr fun rest => ⟨['t'], rfl, rfl⟩
  · exact .inr fun rest => ⟨['f'], rfl, rfl⟩
  · exact .inr fun rest => ⟨['r'], rfl, rfl⟩
  · exact .inr fun rest => ⟨['\\'], rfl, rfl⟩
  next backslash =>
    cases control : isControl c with
    | false =>
      exact .inl ⟨if_neg Bool.false_ne_true, isPlain_of_not_control control feed, backslash⟩
    | true =>
      have small : c.toNat < 0x80 := by
        simp only [isControl, Bool.or_eq_true, Bool.and_eq_true, decide_eq_true_eq,
          beq_iff_eq] at control
        omega
      exact .inr fun rest => by
        rw [if_pos rfl]
        exact escape?_codeEscape small rest

/-- A spelled character does not begin with a quote of either kind, unless it is
one. -/
theorem head_escaped {c q : Char} (quote : q = '"' ∨ q = '\'') (other : c ≠ q) :
    ∃ first rest, escaped c = first :: rest ∧ first ≠ q := by
  by_cases feed : c = '\n'
  · subst feed
    exact ⟨_, _, rfl, other⟩
  · obtain ⟨same, -⟩ | escape := escaped_cases feed
    · exact ⟨c, [], same, other⟩
    · obtain ⟨tail, same, -⟩ := escape []
      exact ⟨'\\', tail, same, by rcases quote with rfl | rfl <;> decide⟩

/-! ## Basic strings -/

theorem basicBody?_plain {c : Char} (quote : c ≠ '"') (backslash : c ≠ '\\')
    (plain : isPlain c = true) (rest : List Char) :
    basicBody? (c :: rest) = (basicBody? rest).map (push c) := by
  rw [basicBody?.eq_def]
  split
  · contradiction
  next same => exact absurd (List.cons.inj same).1 quote
  next same => exact absurd (List.cons.inj same).1 backslash
  next same =>
    obtain ⟨rfl, rfl⟩ := List.cons.inj same
    rw [if_pos plain]

theorem basicBody?_escape {c : Char} {text rest : List Char}
    (read : escape? text = some (c, rest)) :
    basicBody? ('\\' :: text) = (basicBody? rest).map (push c) := by
  rw [basicBody?]
  split
  next none => rw [read] at none; cases none
  next some => rw [read] at some; cases some; rfl

theorem basicBody?_escaped {c : Char} (feed : c ≠ '\n') (quote : c ≠ '"') (rest : List Char) :
    basicBody? (escaped c ++ rest) = (basicBody? rest).map (push c) := by
  obtain ⟨same, plain, backslash⟩ | escape := escaped_cases feed
  · rw [same]
    exact basicBody?_plain quote backslash plain rest
  · obtain ⟨tail, same, read⟩ := escape rest
    rw [same]
    exact basicBody?_escape read

theorem basicBody?_text (s rest : List Char) :
    basicBody? (basicText s ++ '"' :: rest) = some (s, rest) := by
  fun_induction basicText s with
  | case1 => rw [List.nil_append, basicBody?]
  | case2 more ih =>
    rw [List.cons_append, List.cons_append, basicBody?_escape rfl, ih]
    rfl
  | case3 more ih =>
    rw [List.cons_append, List.cons_append, basicBody?_escape rfl, ih]
    rfl
  | case4 c more feed quote ih =>
    rw [List.append_assoc, basicBody?_escaped feed quote, ih]
    rfl

/-! ## Literal strings -/

theorem literalBody?_text {s : List Char} (plain : ∀ c ∈ s, isPlain c = true ∧ c ≠ '\'')
    (rest : List Char) : literalBody? (s ++ '\'' :: rest) = some (s, rest) := by
  induction s with
  | nil => rfl
  | cons c more ih =>
    obtain ⟨first, quote⟩ := plain c List.mem_cons_self
    have later := ih fun d member => plain d (List.mem_cons_of_mem _ member)
    rw [List.cons_append, literalBody?.eq_3 c _ quote, if_pos first, later]
    rfl

/-! ## Tripled double quotes -/

theorem multilineBody?_plain {c : Char} (quote : c ≠ '"') (backslash : c ≠ '\\')
    (plain : isPlain c = true ∨ c = '\n') (rest : List Char) :
    multilineBody? (c :: rest) = (multilineBody? rest).map (push c) := by
  have taken : (isPlain c || c == '\n') = true := by
    rw [Bool.or_eq_true, beq_iff_eq]
    exact plain
  rw [multilineBody?.eq_def]
  split
  · contradiction
  next same => exact absurd (List.cons.inj same).1 quote
  next same => exact absurd (List.cons.inj same).1 quote
  next same => exact absurd (List.cons.inj same).1 quote
  next same => exact absurd (List.cons.inj same).1 backslash
  next same =>
    rw [(List.cons.inj same).1] at plain
    exact absurd plain (by decide)
  next same =>
    obtain ⟨rfl, rfl⟩ := List.cons.inj same
    rw [if_pos taken]

theorem multilineBody?_escape {c : Char} {text rest : List Char}
    (read : escape? text = some (c, rest)) :
    multilineBody? ('\\' :: text) = (multilineBody? rest).map (push c) := by
  rw [multilineBody?]
  split
  next some => rw [read] at some; cases some; rfl
  next none => rw [read] at none; cases none

/-- A quote that at most one more follows is part of the content. -/
theorem multilineBody?_quote {text : List Char}
    (few : ∀ more, text ≠ '"' :: '"' :: more) :
    multilineBody? ('"' :: text) = (multilineBody? text).map (push '"') := by
  rw [multilineBody?.eq_def]
  split
  · contradiction
  next same => exact absurd (List.cons.inj same).2 (few _)
  next same => exact absurd (List.cons.inj same).2 (few _)
  next same => exact absurd (List.cons.inj same).2 (few _)
  next same => exact absurd (List.cons.inj same).1 (by decide)
  next same => exact absurd (List.cons.inj same).1 (by decide)
  next same =>
    obtain ⟨rfl, rfl⟩ := List.cons.inj same
    rfl

theorem multilineBody?_closing {rest : List Char} (stops : rest.head? ≠ some '"') :
    multilineBody? ('"' :: '"' :: '"' :: rest) = some ([], rest)
      ∧ multilineBody? ('"' :: '"' :: '"' :: '"' :: rest) = some (['"'], rest)
      ∧ multilineBody? ('"' :: '"' :: '"' :: '"' :: '"' :: rest) = some (['"', '"'], rest) := by
  have one : ∀ more, rest = '"' :: more → False := by
    rintro _ rfl
    exact stops rfl
  have two : ∀ more, rest = '"' :: '"' :: more → False := fun _ => one _
  exact ⟨multilineBody?.eq_4 rest two one, multilineBody?.eq_3 rest one, multilineBody?.eq_2 rest⟩

/-- Behind two quotes, or at another character, the text does not go on with a
quote. -/
theorem head_multilineText {quotes : Nat} {c : Char} (other : quotes = 2 ∨ c ≠ '"')
    (rest : List Char) :
    ∃ first more, multilineText quotes (c :: rest) = first :: more ∧ first ≠ '"' := by
  rw [multilineText]
  split
  next quote =>
    rw [if_pos (other.resolve_right (not_not_intro quote))]
    exact ⟨_, _, rfl, by decide⟩
  next quote =>
    split
    · exact ⟨_, _, rfl, by decide⟩
    next feed =>
      obtain ⟨first, more, same, different⟩ := head_escaped (.inl rfl) quote
      exact ⟨first, more ++ multilineText 0 rest, by rw [same]; rfl, different⟩

theorem multilineBody?_escaped {c : Char} (feed : c ≠ '\n') (quote : c ≠ '"') (rest : List Char) :
    multilineBody? (escaped c ++ rest) = (multilineBody? rest).map (push c) := by
  obtain ⟨same, plain, backslash⟩ | escape := escaped_cases feed
  · rw [same]
    exact multilineBody?_plain quote backslash (.inl plain) rest
  · obtain ⟨tail, same, read⟩ := escape rest
    rw [same]
    exact multilineBody?_escape read

/-- A quote in front of content that comes back.  At the end of the content it
stands in one run with the closing quotes, and the reader counts them; anywhere
else at most one other stands behind it. -/
theorem multilineBody?_run {quotes : Nat} (few : quotes < 2) {s rest : List Char}
    (stops : rest.head? ≠ some '"')
    (later : multilineBody? (multilineText (quotes + 1) s ++ '"' :: '"' :: '"' :: rest)
      = some (s, rest)) :
    multilineBody? ('"' :: (multilineText (quotes + 1) s ++ '"' :: '"' :: '"' :: rest))
      = some ('"' :: s, rest) := by
  have step : (∀ more, multilineText (quotes + 1) s ++ '"' :: '"' :: '"' :: rest
        ≠ '"' :: '"' :: more) →
      multilineBody? ('"' :: (multilineText (quotes + 1) s ++ '"' :: '"' :: '"' :: rest))
        = some ('"' :: s, rest) := by
    intro one
    rw [multilineBody?_quote one, later]
    rfl
  obtain ⟨-, one, two⟩ := multilineBody?_closing stops
  cases s with
  | nil => exact one
  | cons d s =>
    by_cases other : quotes + 1 = 2 ∨ d ≠ '"'
    · obtain ⟨first, more, same, different⟩ := head_multilineText other s
      refine step fun _ front => different ?_
      rw [same] at front
      exact (List.cons.inj front).1
    · obtain ⟨single, quote⟩ := not_or.mp other
      obtain rfl : quotes = 0 := by omega
      obtain rfl := Decidable.not_not.mp quote
      cases s with
      | nil => exact two
      | cons e s =>
        obtain ⟨first, more, same, different⟩ := @head_multilineText 2 e (.inl rfl) s
        refine step fun _ front => different ?_
        rw [multilineText, if_pos rfl, if_neg (by decide), same] at front
        exact (List.cons.inj (List.cons.inj front).2).1

theorem multilineBody?_text {quotes : Nat} (few : quotes ≤ 2) (s : List Char) {rest : List Char}
    (stops : rest.head? ≠ some '"') :
    multilineBody? (multilineText quotes s ++ '"' :: '"' :: '"' :: rest) = some (s, rest) := by
  induction s generalizing quotes with
  | nil => exact (multilineBody?_closing stops).1
  | cons c s ih =>
    have fromZero := ih (Nat.zero_le 2)
    rw [multilineText]
    split
    next quote =>
      subst quote
      split
      · rw [List.cons_append, List.cons_append, multilineBody?_escape rfl, fromZero]
        rfl
      next notTwo =>
        have fewer : quotes < 2 := Nat.lt_of_le_of_ne few notTwo
        exact multilineBody?_run fewer stops (ih fewer)
    next quote =>
      split
      next feed =>
        subst feed
        rw [List.cons_append, multilineBody?_plain quote (by decide) (.inr rfl), fromZero]
        rfl
      next feed =>
        rw [List.append_assoc, multilineBody?_escaped feed quote, fromZero]
        rfl

/-! ## Tripled apostrophes -/

theorem multilineLiteralBody?_plain {c : Char} (quote : c ≠ '\'')
    (plain : isPlain c = true ∨ c = '\n') (rest : List Char) :
    multilineLiteralBody? (c :: rest) = (multilineLiteralBody? rest).map (push c) := by
  have taken : (isPlain c || c == '\n') = true := by
    rw [Bool.or_eq_true, beq_iff_eq]
    exact plain
  rw [multilineLiteralBody?.eq_6, if_pos taken]
  · rintro _ rfl
    exact absurd rfl quote
  · rintro _ rfl
    exact absurd rfl quote
  · rintro _ rfl
    exact absurd rfl quote
  · rintro _ rfl
    exact absurd plain (by decide)

theorem multilineLiteralBody?_quote {text : List Char} (few : ∀ more, text ≠ '\'' :: '\'' :: more) :
    multilineLiteralBody? ('\'' :: text) = (multilineLiteralBody? text).map (push '\'') := by
  rw [multilineLiteralBody?.eq_6, if_pos (by decide)]
  · exact fun _ _ same => few _ same
  · exact fun _ _ same => few _ same
  · exact fun _ _ same => few _ same
  · rintro _ ⟨⟩

theorem multilineLiteralBody?_closing {rest : List Char} (stops : rest.head? ≠ some '\'') :
    multilineLiteralBody? ('\'' :: '\'' :: '\'' :: rest) = some ([], rest)
      ∧ multilineLiteralBody? ('\'' :: '\'' :: '\'' :: '\'' :: rest) = some (['\''], rest)
      ∧ multilineLiteralBody? ('\'' :: '\'' :: '\'' :: '\'' :: '\'' :: rest)
        = some (['\'', '\''], rest) := by
  have one : ∀ more, rest = '\'' :: more → False := by
    rintro _ rfl
    exact stops rfl
  have two : ∀ more, rest = '\'' :: '\'' :: more → False := fun _ => one _
  exact ⟨multilineLiteralBody?.eq_4 rest two one, multilineLiteralBody?.eq_3 rest one,
    multilineLiteralBody?.eq_2 rest⟩

theorem hasThree_tail {q c : Char} {s : List Char} (free : hasThree q (c :: s) = false) :
    hasThree q s = false := by
  match s with
  | [] => rfl
  | [_] => rfl
  | d :: e :: s =>
    rw [hasThree, Bool.or_eq_false_iff] at free
    exact free.2

theorem multilineLiteralBody?_text {s : List Char}
    (plain : ∀ c ∈ s, isPlain c = true ∨ c = '\n') (free : hasThree '\'' s = false)
    {rest : List Char} (stops : rest.head? ≠ some '\'') :
    multilineLiteralBody? (s ++ '\'' :: '\'' :: '\'' :: rest) = some (s, rest) := by
  obtain ⟨closing, one, two⟩ := multilineLiteralBody?_closing stops
  induction s with
  | nil => exact closing
  | cons c s ih =>
    have later := ih (fun d member => plain d (List.mem_cons_of_mem _ member)) (hasThree_tail free)
    by_cases quote : c = '\''
    · subst quote
      have step : (∀ more, s ++ '\'' :: '\'' :: '\'' :: rest ≠ '\'' :: '\'' :: more) →
          multilineLiteralBody? ('\'' :: s ++ '\'' :: '\'' :: '\'' :: rest)
            = some ('\'' :: s, rest) := by
        intro few
        rw [List.cons_append, multilineLiteralBody?_quote few, later]
        rfl
      match s with
      | [] => exact one
      | [d] =>
        by_cases second : d = '\''
        · subst second
          exact two
        · exact step fun _ front => second (List.cons.inj front).1
      | d :: e :: s =>
        refine step ?_
        rintro _ ⟨⟩
        simp [hasThree] at free
    · rw [List.cons_append, multilineLiteralBody?_plain quote (plain c List.mem_cons_self), later]
      rfl

/-! ## Forms -/

theorem head_basicText (c : Char) (s : List Char) :
    ∃ first more, basicText (c :: s) = first :: more ∧ first ≠ '"' := by
  by_cases feed : c = '\n'
  · subst feed
    exact ⟨_, _, rfl, by decide⟩
  · by_cases quote : c = '"'
    · subst quote
      exact ⟨_, _, rfl, by decide⟩
    · obtain ⟨first, more, same, different⟩ := head_escaped (.inl rfl) quote
      refine ⟨first, more ++ basicText s, ?_, different⟩
      rw [basicText.eq_4 c s feed quote, same]
      rfl

theorem basic_append (s rest : List Char) :
    Form.basic.spell s ++ rest = '"' :: (basicText s ++ '"' :: rest) := by
  simp only [Form.spell, List.cons_append, List.append_assoc, List.nil_append]

theorem literal_append (s rest : List Char) :
    Form.literal.spell s ++ rest = '\'' :: (s ++ '\'' :: rest) := by
  simp only [Form.spell, List.cons_append, List.append_assoc, List.nil_append]

theorem string?_basic (s : List Char) {rest : List Char} (stops : rest.head? ≠ some '"') :
    string? (Form.basic.spell s ++ rest) = some (s, rest) := by
  rw [basic_append, string?.eq_2, basicBody?_text]
  cases s with
  | nil =>
    intro _ front
    exact stops (by rw [(List.cons.inj front).2]; rfl)
  | cons c s =>
    obtain ⟨first, more, same, different⟩ := head_basicText c s
    rw [same]
    intro _ front
    exact different (List.cons.inj front).1

/-- The literal form is taken for content without apostrophes. -/
theorem formOf_literal {s : List Char} (form : formOf s = .literal) :
    s ≠ [] ∧ ∀ c ∈ s, isPlain c = true ∧ c ≠ '\'' := by
  constructor
  · rintro rfl
    cases form
  · intro c member
    simp only [formOf] at form
    split at form
    · cases form
    split at form
    next plain =>
      simp only [Bool.and_eq_true, Bool.not_eq_true', List.any_eq_false, Bool.not_eq_true,
        List.contains_eq_mem, decide_eq_false_iff_not] at plain
      obtain ⟨⟨control, breaks⟩, quote⟩ := plain
      exact ⟨isPlain_of_not_control (control c member) fun same => breaks (same ▸ member),
        fun same => quote (same ▸ member)⟩
    · split at form
      · cases form
      · split at form
        · cases form
        · split at form <;> cases form

theorem formOf_multilineLiteral {s : List Char} (form : formOf s = .multilineLiteral) :
    (∀ c ∈ s, isControl c = false) ∧ hasThree '\'' s = false := by
  simp only [formOf] at form
  split at form
  · cases form
  · split at form
    · cases form
    · split at form
      · cases form
      · split at form
        next plain =>
          simp only [Bool.and_eq_true, Bool.not_eq_true', List.any_eq_false,
            Bool.not_eq_true] at plain
          exact plain
        · split at form <;> cases form

theorem string?_literal {s : List Char} (nonempty : s ≠ [])
    (plain : ∀ c ∈ s, isPlain c = true ∧ c ≠ '\'') (rest : List Char) :
    string? (Form.literal.spell s ++ rest) = some (s, rest) := by
  rw [literal_append, string?.eq_4, literalBody?_text plain]
  cases s with
  | nil => contradiction
  | cons c s =>
    intro _ front
    exact (plain c List.mem_cons_self).2 (List.cons.inj front).1

/-- The line break behind the opening quotes is skipped, and only this one. -/
theorem skipOpeningBreak_openingBreak {s text : List Char}
    (later : '\n' ∉ s → ∀ c, text.head? = some c → c ≠ '\n' ∧ c ≠ '\r') :
    skipOpeningBreak (openingBreak s ++ text) = text := by
  by_cases breaks : '\n' ∈ s
  · rw [openingBreak, if_pos (List.contains_iff_mem.mpr breaks)]
    rfl
  · rw [openingBreak, if_neg (by rwa [List.contains_iff_mem]), List.nil_append]
    cases text with
    | nil => rfl
    | cons c text =>
      obtain ⟨feed, carriage⟩ := later breaks c rfl
      exact skipOpeningBreak.eq_3 _ (fun _ same => feed (List.cons.inj same).1)
        (fun _ same => carriage (List.cons.inj same).1)

theorem head_multilineText_of_no_feed {quotes : Nat} {c : Char} {s : List Char}
    (free : '\n' ∉ s) (head : (multilineText quotes s).head? = some c) : c ≠ '\n' ∧ c ≠ '\r' := by
  cases s with
  | nil => cases head
  | cons d s =>
    rw [multilineText] at head
    split at head
    · split at head <;> cases head <;> decide
    · have feed : d ≠ '\n' := fun same => free (same ▸ List.mem_cons_self)
      rw [if_neg feed] at head
      obtain ⟨same, plain, -⟩ | escape := escaped_cases feed
      · rw [same] at head
        cases head
        exact ⟨feed, by rintro rfl; cases plain⟩
      · obtain ⟨tail, same, -⟩ := escape []
        rw [same] at head
        cases head
        decide

theorem string?_multiline (s : List Char) {rest : List Char} (stops : rest.head? ≠ some '"') :
    string? (Form.multiline.spell s ++ rest) = some (s, rest) := by
  have spelled : Form.multiline.spell s ++ rest
      = '"' :: '"' :: '"' ::
        (openingBreak s ++ (multilineText 0 s ++ '"' :: '"' :: '"' :: rest)) := by
    simp only [Form.spell, List.cons_append, List.append_assoc, List.nil_append]
  rw [spelled, string?, skipOpeningBreak_openingBreak, multilineBody?_text (Nat.zero_le 2) s stops]
  intro free c head
  rw [List.head?_append] at head
  cases front : (multilineText 0 s).head? with
  | none =>
    rw [front] at head
    cases head
    decide
  | some d =>
    rw [front] at head
    cases head
    exact head_multilineText_of_no_feed free front

theorem string?_multilineLiteral {s : List Char} (control : ∀ c ∈ s, isControl c = false)
    (free : hasThree '\'' s = false) {rest : List Char} (stops : rest.head? ≠ some '\'') :
    string? (Form.multilineLiteral.spell s ++ rest) = some (s, rest) := by
  have spelled : Form.multilineLiteral.spell s ++ rest
      = '\'' :: '\'' :: '\'' ::
        (openingBreak s ++ (s ++ '\'' :: '\'' :: '\'' :: rest)) := by
    simp only [Form.spell, List.cons_append, List.append_assoc, List.nil_append]
  have plain : ∀ c ∈ s, isPlain c = true ∨ c = '\n' := by
    intro c member
    by_cases feed : c = '\n'
    · exact .inr feed
    · exact .inl (isPlain_of_not_control (control c member) feed)
  rw [spelled, string?, skipOpeningBreak_openingBreak, multilineLiteralBody?_text plain free stops]
  intro breaks c head
  cases s with
  | nil =>
    cases head
    decide
  | cons d s =>
    cases head
    refine ⟨fun same => breaks (same ▸ List.mem_cons_self), ?_⟩
    rintro rfl
    exact absurd (control _ List.mem_cons_self) (by decide)

/-- Every string comes back from its spelling, if no quote follows it. -/
theorem string?_stringText (s : String) {rest : List Char} (double : rest.head? ≠ some '"')
    (single : rest.head? ≠ some '\'') :
    string? (stringText s ++ rest) = some (s.toList, rest) := by
  rw [stringText]
  cases form : formOf s.toList with
  | basic => exact string?_basic s.toList double
  | literal =>
    obtain ⟨nonempty, plain⟩ := formOf_literal form
    exact string?_literal nonempty plain rest
  | multiline => exact string?_multiline s.toList double
  | multilineLiteral =>
    obtain ⟨control, free⟩ := formOf_multilineLiteral form
    exact string?_multilineLiteral control free single

theorem head_spell (form : Form) (s : List Char) :
    ∃ first rest, form.spell s = first :: rest ∧ (first = '"' ∨ first = '\'') := by
  cases form with
  | basic => exact ⟨_, _, rfl, .inl rfl⟩
  | literal => exact ⟨_, _, rfl, .inr rfl⟩
  | multiline => exact ⟨_, _, rfl, .inl rfl⟩
  | multilineLiteral => exact ⟨_, _, rfl, .inr rfl⟩

end GaugeExporter.Toml
