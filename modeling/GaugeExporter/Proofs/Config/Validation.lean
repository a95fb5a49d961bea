import GaugeExporter.Proofs.CommandLine.Collect
import GaugeExporter.Proofs.Config.Durations

/-!
# What a configuration is refused for

Of a blank output, an interval that is no positive duration and a producer with
a blank kind the first counts, in this order and among the producers too.
`Config.Verdict` says so without the steps of `Config.validate`, and
`validate_iff` that these steps find it.  A text that is accepted gives a
configuration with a positive period, so the commands that read the interval
once more get it, and the ticker of the export loop has a period
(`exportLoop_of_prepare`).
-/

namespace GaugeExporter

/-! ## Blank texts -/

/-- Nothing is left of the text when blanks are trimmed off it. -/
def Text.IsBlank (text : String) : Prop := trim text.toList = []

theorem Text.isBlankText_iff {text : String} : isBlankText text = true ↔ IsBlank text :=
  trim_eq_nil_iff.symm

/-! ## Positive durations -/

namespace Duration

/-- The text denotes a duration with a positive count of 64 bits. -/
def IsPositive (text : String) : Prop :=
  ∃ n unit, Denotes text.toList n unit ∧ 0 < n ∧ n < 2 ^ 64

theorem Denotes.unit_pos {text : List Char} {n unit : Nat} (denotes : Denotes text n unit) :
    0 < unit := by
  cases denotes with
  | intro before isCount isEnding behind => cases isEnding <;> decide

end Duration

namespace ExportSettings

open Duration (ofText?_denotes FewMinutes IsPositive)

variable {settings : ExportSettings}

theorem duration?_eq_some {d : Duration} :
    settings.duration? = some d ↔
      Duration.ofText? settings.interval = some d ∧ 0 < d.milliseconds := by
  rw [duration?, Option.filter_eq_some_iff]
  simp [Nat.pos_iff_ne_zero]

/-- An interval is read as a positive duration if and only if it denotes one. -/
theorem exists_duration?_iff (few : FewMinutes settings.interval) :
    (∃ d, settings.duration? = some d) ↔ IsPositive settings.interval := by
  simp only [duration?_eq_some, ofText?_denotes few]
  constructor
  · rintro ⟨d, ⟨n, unit, denotes, below, same⟩, positive⟩
    rw [same] at positive
    exact ⟨n, unit, denotes, Nat.pos_of_mul_pos_right positive, below⟩
  · rintro ⟨n, unit, denotes, positive, below⟩
    exact ⟨⟨n * unit⟩, ⟨n, unit, denotes, below, rfl⟩, Nat.mul_pos positive denotes.unit_pos⟩

theorem period_eq_ok {d : Duration} :
    settings.period = .ok d ↔ settings.duration? = some d := by
  rw [period]
  cases settings.duration? with
  | none => simp
  | some other => simp

end ExportSettings

namespace Config

open Duration (FewMinutes IsPositive)
open Text (IsBlank)

/-! ## Verdicts -/

/-- The producer at this position has a blank kind, and none before it has. -/
def FirstBlank (producers : List ProducerSettings) (position : Nat) : Prop :=
  (∃ p, producers[position]? = some p ∧ IsBlank p.kind) ∧
    ∀ before < position, ∀ p, producers[before]? = some p → ¬ IsBlank p.kind

/-- What is to be said of a configuration. -/
inductive Verdict (config : Config) : Except ConfigError Unit → Prop
  | emptyOutput (blank : IsBlank config.exporter.output) : Verdict config (.error .emptyOutput)
  | interval (output : ¬ IsBlank config.exporter.output)
      (never : ¬ IsPositive config.exporter.interval) :
      Verdict config (.error (.interval config.exporter.interval))
  | missingKind {position : Nat} (output : ¬ IsBlank config.exporter.output)
      (positive : IsPositive config.exporter.interval)
      (first : FirstBlank config.producers position) :
      Verdict config (.error (.missingKind position))
  | valid (output : ¬ IsBlank config.exporter.output)
      (positive : IsPositive config.exporter.interval)
      (kinds : ∀ p ∈ config.producers, ¬ IsBlank p.kind) : Verdict config (.ok ())

theorem blankKind?_eq_none {producers : List ProducerSettings} :
    blankKind? producers = none ↔ ∀ p ∈ producers, ¬ IsBlank p.kind := by
  rw [blankKind?, List.findIdx?_eq_none_iff]
  simp only [← Text.isBlankText_iff, Bool.not_eq_true]

theorem blankKind?_eq_some {producers : List ProducerSettings} {position : Nat} :
    blankKind? producers = some position ↔ FirstBlank producers position := by
  rw [blankKind?, List.findIdx?_eq_some_iff_getElem, FirstBlank]
  simp only [Text.isBlankText_iff]
  constructor
  · rintro ⟨inside, blank, none⟩
    refine ⟨⟨_, List.getElem?_eq_getElem inside, blank⟩, fun before less p found => ?_⟩
    obtain ⟨_, rfl⟩ := List.getElem?_eq_some_iff.mp found
    exact none before less
  · rintro ⟨⟨p, found, blank⟩, none⟩
    obtain ⟨inside, rfl⟩ := List.getElem?_eq_some_iff.mp found
    exact ⟨inside, blank, fun before less =>
      none before less _ (List.getElem?_eq_getElem (less.trans inside))⟩

variable {config : Config}

theorem FirstBlank.unique {producers : List ProducerSettings} {i j : Nat}
    (one : FirstBlank producers i) (other : FirstBlank producers j) : i = j :=
  Option.some.inj ((blankKind?_eq_some.mpr one).symm.trans (blankKind?_eq_some.mpr other))

theorem FirstBlank.not_all {producers : List ProducerSettings} {i : Nat}
    (first : FirstBlank producers i) : ¬ ∀ p ∈ producers, ¬ IsBlank p.kind := by
  obtain ⟨⟨p, found, blank⟩, -⟩ := first
  exact fun none => none p (List.mem_of_getElem? found) blank

/-- Only one thing is to be said of a configuration. -/
theorem Verdict.unique {one other : Except ConfigError Unit} (first : config.Verdict one)
    (second : config.Verdict other) : one = other := by
  cases first with
  | emptyOutput blank => cases second <;> first | rfl | contradiction
  | interval output never => cases second <;> first | rfl | contradiction
  | missingKind output positive first =>
    cases second with
    | emptyOutput | interval => contradiction
    | missingKind _ _ second => rw [first.unique second]
    | valid _ _ kinds => exact absurd kinds first.not_all
  | valid output positive kinds =>
    cases second with
    | emptyOutput | interval => contradiction
    | missingKind _ _ second => exact absurd kinds second.not_all
    | valid => rfl

theorem validate_verdict (few : FewMinutes config.exporter.interval) :
    config.Verdict config.validate := by
  rw [validate]
  by_cases blank : IsBlank config.exporter.output
  · rw [if_pos (Text.isBlankText_iff.mpr blank)]
    exact .emptyOutput blank
  rw [if_neg (mt Text.isBlankText_iff.mp blank)]
  have read := ExportSettings.exists_duration?_iff few
  cases found : config.exporter.duration? with
  | none =>
    have never : ¬ IsPositive config.exporter.interval := by
      rw [← read, found]
      simp
    exact .interval blank never
  | some d =>
    have positive : IsPositive config.exporter.interval := read.mp ⟨d, found⟩
    cases kinds : blankKind? config.producers with
    | none => exact .valid blank positive (blankKind?_eq_none.mp kinds)
    | some position => exact .missingKind blank positive (blankKind?_eq_some.mp kinds)

theorem validate_iff (few : FewMinutes config.exporter.interval)
    (verdict : Except ConfigError Unit) : config.validate = verdict ↔ config.Verdict verdict := by
  constructor
  · rintro rfl
    exact validate_verdict few
  · exact (validate_verdict few).unique

/-! ## Periods -/

/-- Whatever its minutes are, the interval of a valid configuration gives a
positive period. -/
theorem period_of_validate (valid : config.validate = .ok ()) :
    ∃ period, config.exporter.period = .ok period ∧ 0 < period.milliseconds := by
  rw [validate] at valid
  split at valid
  · cases valid
  · split at valid
    · cases valid
    next some =>
      cases found : config.exporter.duration? with
      | none => simp [found] at some
      | some d =>
        exact ⟨d, ExportSettings.period_eq_ok.mpr found,
          (ExportSettings.duration?_eq_some.mp found).2⟩

theorem period_of_ofText {text : String} (read : ofText text = .ok config) :
    ∃ period, config.exporter.period = .ok period ∧ 0 < period.milliseconds :=
  period_of_validate (settled_of_ofText read).2

end Config

namespace CommandLine

variable {st made : Station} {path : String} {config : Config}

theorem ofFile_of_prepare (prepared : prepare st path = .ok (made, config)) :
    Config.ofFile st.files path = .ok config := by
  rw [prepare] at prepared
  split at prepared
  · cases prepared
  next other read =>
    split at prepared
    · cases prepared
    · cases prepared
      exact read

/-- Behind the preparation no command fails because of the interval. -/
theorem exportLoop_of_prepare (prepared : prepare st path = .ok (made, config)) :
    ∃ period, config.exporter.period = .ok period ∧ 0 < period.milliseconds ∧
      exportLoop st path = .ok (Loop.start made (sink config)) ∧
      checkConfig st path = .success
        (s!"{path}: ok ({config.producers.length} producers, {made.registry.metricCount} metrics, "
          ++ s!"interval {period.display}, output {config.exporter.output})\n") := by
  obtain ⟨text, -, read⟩ := Config.of_ofFile_ok (ofFile_of_prepare prepared)
  obtain ⟨period, asked, positive⟩ := Config.period_of_ofText read
  refine ⟨period, asked, positive, ?_, ?_⟩
  · rw [exportLoop, prepared]
    simp only [asked]
    rw [Loop.every, if_neg (Nat.ne_of_gt positive)]
  · rw [checkConfig, prepared]
    simp only [summary, ExportSettings.period_eq_ok.mp asked, Option.map_some, Option.getD_some]

end CommandLine

namespace Config

open CommandLine (prepare checkConfig exportLoop sink hosting)
open Duration (FewMinutes)

/-- A configuration is refused for what comes first and for nothing else.  One
that was read from a text has a positive period, and so no command that got past
its preparation fails because of the interval. -/
theorem validate_settles (config : Config) :
    (FewMinutes config.exporter.interval →
      ∀ verdict, config.validate = verdict ↔ config.Verdict verdict) ∧
    (∀ text, ofText text = .ok config →
      ∃ period, config.exporter.period = .ok period ∧ 0 < period.milliseconds) ∧
    ∀ (st : Station) (path : String) (made : Station), prepare st path = .ok (made, config) →
      ∃ period, config.exporter.period = .ok period ∧ 0 < period.milliseconds ∧
        exportLoop st path = .ok (Loop.start made (sink config)) ∧
        checkConfig st path = .success
          (s!"{path}: ok ({config.producers.length} producers, {made.registry.metricCount} metrics, "
            ++ s!"interval {period.display}, output {config.exporter.output})\n") :=
  ⟨validate_iff, fun _ => period_of_ofText, fun _ _ _ => CommandLine.exportLoop_of_prepare⟩

/-- A configuration with an interval of zero and with a blank kind. -/
def idle : Config := { exporter := { interval := "\u2003000ms" }, producers := [{ kind := " " }] }

/-- The interval counts before the kind.  The scaffold is valid, and a command
that has prepared it gets a period. -/
theorem idle_and_scaffold_settle :
    idle.Verdict (.error (.interval "\u2003000ms")) ∧
    (scaffold "lab").Verdict (.ok ()) ∧
    (∃ period, (scaffold "lab").exporter.period = .ok period ∧ 0 < period.milliseconds) ∧
    ∃ made, prepare { files := hosting (scaffold "lab").text "" } "/conf"
        = .ok (made, scaffold "lab") ∧
      exportLoop { files := hosting (scaffold "lab").text "" } "/conf"
        = .ok (Loop.start made .standardOutput) := by
  have zero : Duration.Denotes "\u2003000ms".toList 0 1 :=
    @Duration.Denotes.intro ['\u2003'] "000".toList ['m', 's'] [] 0 1
      (List.all_eq_true.mp (by decide)) (.plain (Decimal.isRun_iff.mpr (by decide))) .milliseconds
      (List.all_eq_true.mp (by decide))
  have fifteen : Duration.Denotes "15s".toList 15 1000 :=
    @Duration.Denotes.intro [] "15".toList ['s'] [] 15 1000
      (List.all_eq_true.mp (by decide)) (.plain (Decimal.isRun_iff.mpr (by decide))) .seconds
      (List.all_eq_true.mp (by decide))
  have fewIdle : FewMinutes idle.exporter.interval :=
    fun n other => absurd (zero.eq_of other).2 (by decide)
  have few : FewMinutes (scaffold "lab").exporter.interval :=
    fun n other => absurd (fifteen.eq_of other).2 (by decide)
  obtain ⟨r, prepared, -⟩ := CommandLine.prepare_of_accepts _ 0 "/conf"
    (CommandLine.accepts_hosting (ofText_scaffold "lab")
      ⟨3, by rw [Producer.installAll_scaffold]⟩ "")
  obtain ⟨period, -, -, loop, -⟩ := (validate_settles (scaffold "lab")).2.2 _ _ _ prepared
  exact ⟨((validate_settles idle).1 fewIdle _).mp (by decide),
    ((validate_settles (scaffold "lab")).1 few _).mp (validate_scaffold "lab"),
    (validate_settles (scaffold "lab")).2.1 _ (ofText_scaffold "lab"), _, prepared, loop⟩

end Config

end GaugeExporter
