import GaugeExporter.Proofs.Toml.Drafts

/-!
# What readers give

Every value of a document that was read is expressible.  For scalars this is what
their readers check; a float is a NaN only where `nan` was read, because rounding
never gives one.
-/

namespace GaugeExporter.Toml

open Binary (Double double)

/-! ## Scalars -/

theorem ofRatio_le (N D : Nat) : double.ofRatio N D ≤ 0x7ff0000000000000 := by
  rw [Binary.Format.ofRatio]
  split
  · exact Nat.zero_le _
  · exact Nat.min_le_left _ _

theorem classify_nan {f : Binary.Format} {bits : Nat} (parts : f.classify bits = .nan) :
    bits / 2 ^ f.precision % 2 ^ f.exponentBits = f.topField ∧ bits % 2 ^ f.precision ≠ 0 := by
  unfold Binary.Format.classify at parts
  simp only [Nat.pow_eq] at parts
  split at parts
  next top =>
    split at parts
    · cases parts
    next some => exact ⟨top, some⟩
  · split at parts <;> cases parts

/-- Patterns up to that of infinity are no NaN, whatever the sign. -/
theorem not_isNaN_of_le {n : Nat} (low : n ≤ 0x7ff0000000000000) (negative : Bool) :
    (Double.ofNatBits (if negative then double.signBit + n else n)).isNaN = false := by
  generalize pattern : (if negative then double.signBit + n else n) = bits
  have sign : double.signBit = 0x8000000000000000 := rfl
  have size : bits < 2 ^ 64 ∧ (bits = n ∨ bits = 0x8000000000000000 + n) := by
    rw [← pattern]
    split <;> omega
  have stored : (Double.ofNatBits bits).bits.toNat = bits := UInt64.toNat_ofNat_of_lt' size.1
  rw [Double.isNaN]
  split
  next nan =>
    rw [Double.number, stored] at nan
    have fields : bits / 4503599627370496 % 2048 = 2047 ∧ bits % 4503599627370496 ≠ 0 :=
      classify_nan nan
    omega
  · rfl

theorem standard_of_not_isNaN {x : Double} (number : x.isNaN = false) : Standard x := by
  intro isNaN
  rw [number] at isNaN
  cases isNaN

theorem standard_toDouble (negative : Bool) (d : Decimal) : Standard (d.toDouble negative) := by
  refine standard_of_not_isNaN ?_
  rw [Decimal.toDouble]
  split
  · cases negative <;> decide
  · split
    · cases negative <;> decide
    · exact not_isNaN_of_le (ofRatio_le _ _) negative

theorem standard_of_float? {cs : List Char} {x : Double} (read : float? cs = some x) :
    Standard x := by
  rw [float?] at read
  simp only at read
  split at read
  · cases read
    exact standard_of_not_isNaN (by cases (Decimal.sign cs).1 <;> decide)
  · split at read
    · cases read
      exact fun _ => rfl
    · simp only [bind, Option.bind_eq_some_iff] at read
      obtain ⟨whole, -, ⟨fraction, tail⟩, -, power, -, read⟩ := read
      simp only at read
      split at read
      · cases read
      · split at read
        · cases read
        · cases read
          exact standard_toDouble _ _

theorem inRange_of_checked {n m : Int} (read : (if inRange n then some n else none) = some m) :
    inRange m = true := by
  split at read
  next fits =>
    cases read
    exact fits
  · cases read

theorem inRange_of_radix? {base : Nat} {isDigit : Char → Bool} {cs : List Char} {n : Int}
    (read : radix? base isDigit cs = some n) : inRange n = true := by
  simp only [radix?, bind, Option.bind_eq_some_iff] at read
  obtain ⟨_, -, _, -, checked⟩ := read
  exact inRange_of_checked checked

theorem inRange_of_integer? {cs : List Char} {n : Int} (read : integer? cs = some n) :
    inRange n = true := by
  unfold integer? at read
  split at read
  · exact inRange_of_radix? read
  · exact inRange_of_radix? read
  · exact inRange_of_radix? read
  · simp only [bind, Option.bind_eq_some_iff] at read
    obtain ⟨_, -, checked⟩ := read
    exact inRange_of_checked checked

theorem valid_of_ofText? {cs : List Char} {d : DateTime} (read : DateTime.ofText? cs = some d) :
    d.Valid := by
  rw [DateTime.ofText?] at read
  cases done : DateTime.read cs with
  | error e =>
    rw [done] at read
    cases read
  | ok dt =>
    rw [done] at read
    cases read
    exact DateTime.read_valid done

theorem expressible_of_word? {cs : List Char} {v : Value} (read : word? cs = some v) :
    v.Expressible := by
  rw [word?] at read
  split at read
  · cases read
    exact .boolean true
  · split at read
    · cases read
      exact .boolean false
    · split at read
      next integer =>
        cases read
        exact .integer (inRange_of_integer? integer)
      next float =>
        cases read
        exact .float (standard_of_float? float)
      next dateTime =>
        cases read
        exact .dateTime (valid_of_ofText? dateTime)
      · cases read

theorem expressible_of_scalar? {cs rest : List Char} {v : Value}
    (read : scalar? cs = some (v, rest)) : v.Expressible := by
  rw [scalar?] at read
  split at read
  next date _ =>
    split at read
    next dateTime =>
      cases read
      exact .dateTime (valid_of_ofText? dateTime)
    · cases read
      exact .dateTime (valid_of_ofText? date)
  · obtain ⟨w, word, same⟩ := Option.map_eq_some_iff.mp read
    cases same
    exact expressible_of_word? word

theorem expressible_of_leaf? {cs rest : List Char} {v : Value}
    (read : leaf? cs = some (v, rest)) : v.Expressible := by
  simp only [leaf?] at read
  split at read
  · obtain ⟨⟨s, tail⟩, -, same⟩ := Option.map_eq_some_iff.mp read
    cases same
    exact .string _
  · obtain ⟨⟨s, tail⟩, -, same⟩ := Option.map_eq_some_iff.mp read
    cases same
    exact .string _
  · exact expressible_of_scalar? read

/-! ## Arrays -/

/-- The reader gives nothing but expressible values. -/
def Gives (item? : Reader Value) : Prop :=
  ∀ {cs rest : List Char} {v : Value}, item? cs = some (v, rest) → v.Expressible

theorem expressible_of_items? {item? : Reader Value} (gives : Gives item?) {fuel : Nat}
    {cs rest : List Char} {items : List Value} (read : items? item? fuel cs = some (items, rest)) :
    ∀ v ∈ items, v.Expressible := by
  induction fuel generalizing cs items with
  | zero => cases read
  | succ fuel ih =>
    rw [items?] at read
    split at read
    · cases read
    · cases read
      exact List.forall_mem_nil _
    · split at read
      · cases read
      next first =>
        split at read
        · obtain ⟨⟨others, tail⟩, later, same⟩ := Option.map_eq_some_iff.mp read
          cases same
          exact List.forall_mem_cons.mpr ⟨gives first, ih later⟩
        · cases read
          exact List.forall_mem_singleton.mpr (gives first)
        · cases read

/-! ## Inline tables -/

theorem expressible_of_pair? {item? : Reader Value} (gives : Gives item?) {cs rest : List Char}
    {pair : List String × Value} (read : pair? item? cs = some (pair, rest)) :
    pair.2.Expressible := by
  rw [pair?] at read
  split at read
  · obtain ⟨⟨v, tail⟩, first, same⟩ := Option.map_eq_some_iff.mp read
    cases same
    exact gives first
  · cases read

theorem expressible_of_pairs? {item? : Reader Value} (gives : Gives item?) {fuel : Nat}
    {cs rest : List Char} {pairs : List (List String × Value)}
    (read : pairs? item? fuel cs = some (pairs, rest)) : ∀ pair ∈ pairs, pair.2.Expressible := by
  induction fuel generalizing cs pairs with
  | zero => cases read
  | succ fuel ih =>
    rw [pairs?] at read
    split at read
    next first =>
      obtain ⟨⟨others, tail⟩, later, same⟩ := Option.map_eq_some_iff.mp read
      cases same
      exact List.forall_mem_cons.mpr ⟨expressible_of_pair? gives first, ih later⟩
    next first =>
      cases read
      exact List.forall_mem_singleton.mpr (expressible_of_pair? gives first)
    · cases read

theorem inlineTable?_gives {item? : Reader Value} (gives : Gives item?) :
    Gives (inlineTable? item?) := by
  intro cs rest v read
  rw [inlineTable?] at read
  split at read
  · cases read
    exact .table List.nodup_nil (List.forall_mem_nil _)
  · split at read
    · cases read
    next pairs =>
      obtain ⟨entries, assigned, same⟩ := Option.map_eq_some_iff.mp read
      cases same
      exact assignAll_sound (expressible_of_pairs? gives pairs) assigned

/-! ## Values and documents -/

theorem value?_gives (levels : Nat) : Gives (value? levels) := by
  induction levels with
  | zero => exact expressible_of_leaf?
  | succ levels ih =>
    intro cs rest v read
    simp only [value?] at read
    split at read
    · obtain ⟨⟨items, tail⟩, inside, same⟩ := Option.map_eq_some_iff.mp read
      cases same
      exact .array (expressible_of_items? ih inside)
    · exact inlineTable?_gives ih read
    · exact expressible_of_leaf? read

theorem expressible_of_statement? {cs rest : List Char} {statement : Statement}
    (read : statement? cs = some (statement, rest)) : statement.ValueExpressible := by
  unfold statement? at read
  split at read
  · split at read
    · obtain ⟨tail, -, same⟩ := Option.map_eq_some_iff.mp read
      cases same
      trivial
    · cases read
  · split at read
    · obtain ⟨tail, -, same⟩ := Option.map_eq_some_iff.mp read
      cases same
      trivial
    · cases read
  · split at read
    next pair =>
      obtain ⟨tail, -, same⟩ := Option.map_eq_some_iff.mp read
      cases same
      exact expressible_of_pair? (value?_gives _) pair
    · cases read

theorem expressible_of_statements? {fuel : Nat} {cs : List Char} {statements : List Statement}
    (read : statements? fuel cs = some statements) :
    ∀ statement ∈ statements, statement.ValueExpressible := by
  induction fuel generalizing cs statements with
  | zero => cases read
  | succ fuel ih =>
    rw [statements?.eq_def] at read
    split at read
    · contradiction
    · cases read
      exact List.forall_mem_nil _
    next same _ =>
      cases same
      split at read
      · exact ih read
      · split at read
        next first =>
          obtain ⟨others, later, same⟩ := Option.map_eq_some_iff.mp read
          cases same
          exact List.forall_mem_cons.mpr ⟨expressible_of_statement? first, ih later⟩
        · cases read

/-- The entries of every document that was read are expressible. -/
theorem sound_of_ofText? {text : String} {entries : Entries}
    (read : Entries.ofText? text = some entries) : Entries.Sound entries := by
  rw [Entries.ofText?] at read
  obtain ⟨statements, parsed, built⟩ := Option.bind_eq_some_iff.mp read
  exact ofStatements?_sound (expressible_of_statements? parsed) built

end GaugeExporter.Toml
