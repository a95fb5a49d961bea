import GaugeExporter.Config.Duration
import GaugeExporter.Proofs.Exposition.Numerals
import GaugeExporter.Proofs.Text.Runs
import Mathlib.Data.List.TakeWhile

/-!
# Which texts are durations

A duration is a count with an ending directly behind it and blanks around the two
(`Denotes`).  The endings overlap, but a count ends with a digit, so a text can be
taken apart in one way only (`Denotes.parts`): what is read is what the text denotes, and
nothing is read from any other text (`ofText?_iff_denotes`).  That holds up to the greatest
number of minutes whose seconds have 64 bits; the seconds of more minutes wrap around.
-/

namespace GaugeExporter.Text

/-! ## Trimming -/

theorem trim_between {front text back : List Char} (before : ∀ c ∈ front, isBlank c = true)
    (some : text ≠ []) (first : Stops isBlank text) (last : Stops isBlank text.reverse)
    (behind : ∀ c ∈ back, isBlank c = true) : trim (front ++ text ++ back) = text := by
  have goesOn : Stops isBlank (text ++ back) := by
    intro c head
    rw [List.head?_append_of_ne_nil _ some] at head
    exact first c head
  rw [trim, List.append_assoc, dropWhile_run before goesOn, List.reverse_append,
    dropWhile_run (fun c member => behind c (List.mem_reverse.mp member)) last,
    List.reverse_reverse]

theorem trim_parts (text : List Char) : ∃ front back, text = front ++ trim text ++ back ∧
    (∀ c ∈ front, isBlank c = true) ∧ ∀ c ∈ back, isBlank c = true := by
  let rest := text.dropWhile isBlank
  refine ⟨text.takeWhile isBlank, (rest.reverse.takeWhile isBlank).reverse, ?_,
    fun c member => List.mem_takeWhile_imp member,
    fun c member => List.mem_takeWhile_imp (List.mem_reverse.mp member)⟩
  have ends : trim text ++ (rest.reverse.takeWhile isBlank).reverse = rest := by
    rw [trim, ← List.reverse_append, List.takeWhile_append_dropWhile, List.reverse_reverse]
  rw [List.append_assoc, ends, List.takeWhile_append_dropWhile]

end GaugeExporter.Text

namespace GaugeExporter.Decimal

open Exposition (IsDigit IsRun)

/-! ## Counts -/

/-- `[+]?[0-9]+` with the number it denotes. -/
inductive IsCount : List Char → Nat → Prop
  | plain {run : List Char} (isRun : IsRun run) : IsCount run (ofDigits run)
  | signed {run : List Char} (isRun : IsRun run) : IsCount ('+' :: run) (ofDigits run)

theorem not_isRun_plus {run : List Char} : ¬ IsRun ('+' :: run) :=
  fun isRun => absurd (isRun.2 '+' List.mem_cons_self) (by decide)

theorem IsCount.eq_of {text : List Char} {n m : Nat} (one : IsCount text n)
    (other : IsCount text m) : n = m := by
  cases one with
  | plain isRun =>
    cases other with
    | plain => rfl
    | signed => exact absurd isRun not_isRun_plus
  | signed isRun =>
    cases other with
    | plain isRun => exact absurd isRun not_isRun_plus
    | signed => rfl

theorem isRun_iff {text : List Char} :
    IsRun text ↔ text ≠ [] ∧ text.all Char.isDigit = true := by
  refine and_congr_right fun _ => ?_
  rw [List.all_eq_true]
  exact forall₂_congr fun c _ => ⟨Exposition.isDigit_of_IsDigit, Exposition.isDigit_of_isDigit⟩

/-- A number is read from the counts below the bound, and from nothing else. -/
theorem natural?_iff {bound n : Nat} {text : List Char} :
    natural? bound text = some n ↔ IsCount text n ∧ n < bound := by
  have readRun {run : List Char} : natural? bound ('+' :: run) = some n
      ↔ (IsRun run ∧ ofDigits run = n) ∧ n < bound := by
    rw [isRun_iff, natural?]
    grind
  by_cases plus : ∃ run, text = '+' :: run
  · obtain ⟨run, rfl⟩ := plus
    rw [readRun]
    refine and_congr_left fun _ => ⟨fun ⟨isRun, same⟩ => same ▸ .signed isRun, fun isCount => ?_⟩
    cases isCount with
    | plain isRun => exact absurd isRun not_isRun_plus
    | signed isRun => exact ⟨isRun, rfl⟩
  · have unsigned : natural? bound text = natural? bound ('+' :: text) := by
      cases text with
      | nil => rfl
      | cons c rest =>
        have other : c ≠ '+' := fun same => plus ⟨rest, same ▸ rfl⟩
        simp [natural?, other]
    rw [unsigned, readRun]
    refine and_congr_left fun _ => ⟨fun ⟨isRun, same⟩ => same ▸ .plain isRun, fun isCount => ?_⟩
    cases isCount with
    | plain isRun => exact ⟨isRun, rfl⟩
    | signed isRun => exact absurd ⟨_, rfl⟩ plus

/-- A count begins with a sign or a digit and ends with a digit. -/
theorem IsCount.ends {text : List Char} {n : Nat} (isCount : IsCount text n) :
    (∃ c rest, text = c :: rest ∧ (c = '+' ∨ IsDigit c)) ∧
      ∃ rest c, text = rest ++ [c] ∧ IsDigit c := by
  have last {run : List Char} (isRun : IsRun run) : ∃ rest c, run = rest ++ [c] ∧ IsDigit c :=
    ⟨run.dropLast, run.getLast isRun.1, (List.dropLast_append_getLast isRun.1).symm,
      isRun.2 _ (List.getLast_mem isRun.1)⟩
  cases isCount with
  | plain isRun =>
    obtain ⟨c, rest, rfl⟩ := List.exists_cons_of_ne_nil isRun.1
    exact ⟨⟨c, rest, rfl, .inr (isRun.2 c List.mem_cons_self)⟩, last isRun⟩
  | signed isRun =>
    obtain ⟨rest, c, same, digit⟩ := last isRun
    exact ⟨⟨'+', _, rfl, .inl rfl⟩, '+' :: rest, c, congrArg _ same, digit⟩

end GaugeExporter.Decimal

namespace GaugeExporter.Duration

open Decimal (IsCount natural?_iff ofDigits)
open Exposition (IsDigit)
open Text (Stops isBlank)

/-! ## What a text denotes -/

/-- The milliseconds of one unit. -/
def Scale.milliseconds : Scale → Nat
  | .millisecond => 1
  | .second => 1000
  | .minute => 60000

/-- The endings, with the milliseconds that one of the count stands for. -/
inductive IsEnding : List Char → Nat → Prop
  | milliseconds : IsEnding ['m', 's'] 1
  | seconds : IsEnding ['s'] 1000
  | minutes : IsEnding ['m'] 60000
  | bare : IsEnding [] 1000

/-- The text is a count of `n` and an ending that makes each of them `unit`
milliseconds, with blanks around the two. -/
inductive Denotes : List Char → Nat → Nat → Prop
  | intro {front count ending back : List Char} {n unit : Nat}
      (before : ∀ c ∈ front, isBlank c = true) (isCount : IsCount count n)
      (isEnding : IsEnding ending unit) (behind : ∀ c ∈ back, isBlank c = true) :
      Denotes (front ++ (count ++ ending) ++ back) n unit

/-! ## Taking a text apart -/

theorem not_isBlank_of_isDigit {c : Char} (digit : IsDigit c) : isBlank c = false := by
  have bounds : 48 ≤ c.toNat ∧ c.toNat ≤ 57 := digit
  simp only [isBlank, Bool.or_eq_false_iff, Bool.and_eq_false_iff, decide_eq_false_iff_not,
    beq_eq_false_iff_ne]
  omega

theorem splitScale_sound {text body : List Char} {scale : Scale}
    (split : splitScale text = (body, scale)) :
    ∃ ending, IsEnding ending scale.milliseconds ∧ text = body ++ ending := by
  have whole {back : List Char} (same : text.reverse = back) : text = back.reverse := by
    rw [← same, List.reverse_reverse]
  unfold splitScale at split
  split at split <;> cases split
  next same => exact ⟨_, .milliseconds, by rw [whole same]; simp⟩
  next same => exact ⟨_, .seconds, by rw [whole same]; simp⟩
  next same => exact ⟨_, .minutes, by rw [whole same]; simp⟩
  next => exact ⟨_, .bare, (List.append_nil text).symm⟩

/-- An ending is found behind a count, which ends with a digit. -/
theorem splitScale_count {count ending : List Char} {n unit : Nat} (isCount : IsCount count n)
    (isEnding : IsEnding ending unit) :
    ∃ scale, splitScale (count ++ ending) = (count, scale) ∧ scale.milliseconds = unit := by
  obtain ⟨-, rest, c, rfl, digit⟩ := isCount.ends
  have other : c ≠ 's' ∧ c ≠ 'm' := by
    constructor <;> rintro rfl <;> revert digit <;> decide
  cases isEnding with
  | milliseconds => exact ⟨.millisecond, by simp [splitScale], rfl⟩
  | seconds => exact ⟨.second, by simp [splitScale, other], rfl⟩
  | minutes => exact ⟨.minute, by simp [splitScale], rfl⟩
  | bare => exact ⟨.second, by simp [splitScale, other], rfl⟩

theorem trim_said {front count ending back : List Char} {n unit : Nat}
    (before : ∀ c ∈ front, isBlank c = true) (isCount : IsCount count n)
    (isEnding : IsEnding ending unit) (behind : ∀ c ∈ back, isBlank c = true) :
    Text.trim (front ++ (count ++ ending) ++ back) = count ++ ending := by
  obtain ⟨⟨first, more, begins, known⟩, rest, last, ends, digit⟩ := isCount.ends
  have unblank : isBlank first = false :=
    known.elim (fun plus => plus ▸ rfl) not_isBlank_of_isDigit
  refine Text.trim_between before ?_ ?_ ?_ behind
  · simp [begins]
  · rw [begins]
    exact Text.stops_cons unblank _
  · rw [List.reverse_append, ends, List.reverse_append]
    cases isEnding <;> first
      | exact Text.stops_cons rfl _
      | exact Text.stops_cons (not_isBlank_of_isDigit digit) _

/-- Reading takes a text apart into the count and the ending that it consists of. -/
theorem Denotes.parts {text : List Char} {n unit : Nat} (denotes : Denotes text n unit) :
    ∃ count scale, splitScale (Text.trim text) = (count, scale) ∧ IsCount count n ∧
      scale.milliseconds = unit := by
  cases denotes with
  | intro before isCount isEnding behind =>
    obtain ⟨scale, split, same⟩ := splitScale_count isCount isEnding
    exact ⟨_, scale, by rw [trim_said before isCount isEnding behind, split], isCount, same⟩

theorem denotes_of_split {text count : List Char} {n : Nat} {scale : Scale}
    (split : splitScale (Text.trim text) = (count, scale)) (isCount : IsCount count n) :
    Denotes text n scale.milliseconds := by
  obtain ⟨front, back, whole, before, behind⟩ := Text.trim_parts text
  obtain ⟨ending, isEnding, same⟩ := splitScale_sound split
  rw [whole, same]
  exact .intro before isCount isEnding behind

/-- No text denotes two things. -/
theorem Denotes.eq_of {text : List Char} {n m unit other : Nat} (one : Denotes text n unit)
    (two : Denotes text m other) : n = m ∧ unit = other := by
  obtain ⟨count, scale, split, isCount, rfl⟩ := one.parts
  obtain ⟨count', scale', split', isCount', rfl⟩ := two.parts
  cases split.symm.trans split'
  exact ⟨isCount.eq_of isCount', rfl⟩

/-! ## Reading -/

/-- The greatest number of minutes whose seconds have 64 bits. -/
def mostMinutes : Nat := 307445734561825860

/-- Nothing wraps around as long as there are not too many minutes. -/
theorem Scale.measure_eq {scale : Scale} {n : Nat}
    (fits : scale.milliseconds = 60000 → n ≤ mostMinutes) :
    scale.measure n = n * scale.milliseconds := by
  cases scale with
  | millisecond => exact (Nat.mul_one n).symm
  | second => rfl
  | minute =>
    have few := fits rfl
    unfold mostMinutes at few
    have small : n * 60 < 0x10000000000000000 := by omega
    rw [measure, Nat.mod_eq_of_lt small, Nat.mul_assoc, milliseconds]

theorem Scale.measure_lt (scale : Scale) {n : Nat} (below : n < 2 ^ 64) :
    (⟨scale.measure n⟩ : Duration).seconds < 2 ^ 64 := by
  cases scale <;> simp only [seconds, measure] <;> omega

theorem ofText?_eq_some {text : String} {d : Duration} :
    ofText? text = some d ↔ ∃ count scale n, splitScale (Text.trim text.toList) = (count, scale) ∧
      IsCount count n ∧ n < 2 ^ 64 ∧ d = ⟨scale.measure n⟩ := by
  rcases split : splitScale (Text.trim text.toList) with ⟨body, scale⟩
  simp only [ofText?, split, Option.map_eq_some_iff, natural?_iff]
  constructor
  · rintro ⟨n, ⟨isCount, below⟩, rfl⟩
    exact ⟨body, scale, n, rfl, isCount, below, rfl⟩
  · rintro ⟨_, _, n, ⟨⟩, isCount, below, rfl⟩
    exact ⟨n, ⟨isCount, below⟩, rfl⟩

/-- The minutes that a text may denote do not make more seconds than have 64
bits. -/
def FewMinutes (text : String) : Prop := ∀ n, Denotes text.toList n 60000 → n ≤ mostMinutes

theorem ofText?_denotes {text : String} (few : FewMinutes text) {d : Duration} :
    ofText? text = some d ↔
      ∃ n unit, Denotes text.toList n unit ∧ n < 2 ^ 64 ∧ d.milliseconds = n * unit := by
  rw [ofText?_eq_some]
  constructor
  · rintro ⟨count, scale, n, split, isCount, below, rfl⟩
    have denotes := denotes_of_split split isCount
    exact ⟨n, _, denotes, below, Scale.measure_eq fun minutes => few n (minutes ▸ denotes)⟩
  · rintro ⟨n, unit, denotes, below, same⟩
    obtain ⟨count, scale, split, isCount, rfl⟩ := denotes.parts
    have exactly := Scale.measure_eq fun minutes => few n (minutes ▸ denotes)
    exact ⟨count, scale, n, split, isCount, below,
      congrArg Duration.mk (same.trans exactly.symm)⟩

/-- A text without too many minutes is read if and only if it denotes a number of 64
bits.  What is read is that many units, and its seconds have 64 bits too. -/
theorem ofText?_iff_denotes (text : String)
    (fits : ∀ n, Denotes text.toList n 60000 → n ≤ mostMinutes) (d : Duration) :
    (ofText? text = some d ↔
      ∃ n unit, Denotes text.toList n unit ∧ n < 2 ^ 64 ∧ d.milliseconds = n * unit) ∧
    (ofText? text = some d → d.seconds < 2 ^ 64) := by
  refine ⟨ofText?_denotes fits, fun read => ?_⟩
  obtain ⟨count, scale, n, -, -, below, rfl⟩ := ofText?_eq_some.mp read
  exact scale.measure_lt below

/-- A sign, leading zeros and blanks of all kinds do not count. -/
theorem spaced_minutes : (∀ n, Denotes "\u00a0+0090m\u2003\n".toList n 60000 → n ≤ mostMinutes) ∧
    ofText? "\u00a0+0090m\u2003\n" = some ⟨90 * 60000⟩ := by
  have denotes : Denotes "\u00a0+0090m\u2003\n".toList 90 60000 :=
    @Denotes.intro ['\u00a0'] "+0090".toList ['m'] ['\u2003', '\n'] 90 60000
      (List.all_eq_true.mp (by decide)) (.signed (Decimal.isRun_iff.mpr (by decide))) .minutes
      (List.all_eq_true.mp (by decide))
  have fits (n : Nat) (other : Denotes "\u00a0+0090m\u2003\n".toList n 60000) :
      n ≤ mostMinutes := by
    rw [← (denotes.eq_of other).1]
    decide
  exact ⟨fits, (ofText?_iff_denotes _ fits _).1.mpr ⟨90, 60000, denotes, by decide, rfl⟩⟩

example : ofText? "1 0s" = none ∧ ofText? "-1s" = none ∧ ofText? "1sm" = none := by decide

example : ofText? "307445734561825861m" = some ⟨44000⟩ := by decide

end GaugeExporter.Duration
