import GaugeExporter.CommandLine.Execute
import GaugeExporter.Proofs.Config.Scaffold
import GaugeExporter.Proofs.Producer.Contributions

/-!
# The command that collects once

A command that collects goes through all stages of the program: the file of the
configuration is read, the producers are installed, their callbacks run, and the
document is written.  It succeeds if the configuration is accepted, all
producers can be installed and every file of load averages is missing or
readable, and it fails otherwise, whatever else the files hold
(`collect_settled`).  Its output is the whole document of the configuration or
nothing.  Checking a configuration is the same without the files of its
producers.
-/

namespace GaugeExporter

open Exposition (IsDocument documentLines unlines)

/-! ## Documents of configurations -/

namespace Config

/-- Every file of load averages is missing or begins with three numbers. -/
def Readable (config : Config) (files : Files.Tree) : Prop :=
  ∀ settings ∈ config.producers, ∀ file ∈ Producer.loadFile? settings,
    LoadAverage.Readable files file

/-- What the producers show, in their order: installed at one time and refreshed
at another. -/
def readings (config : Config) (files : Files.Tree) (now clock : Nat) : List Reading :=
  config.producers.flatMap (Producer.readings files now clock)

theorem of_ofFile_ok {files : Files.Tree} {path : String} {config : Config}
    (read : Config.ofFile files path = .ok config) :
    ∃ text, files.readText path = .ok text ∧ Config.ofText text = .ok config := by
  rw [ofFile] at read
  split at read
  · cases read
  next text found => exact ⟨text, found, read⟩

/-- The document with a block for every reading that has a finite value. -/
def document (config : Config) (files : Files.Tree) (now clock : Nat) : String :=
  let shown := (config.readings files now clock).filter Reading.present
  String.ofList (unlines (documentLines (shown.map (Reading.family (clock / 1000000 : Nat)))))

end Config

namespace CommandLine

open Producer (Shows)

/-! ## What is written -/

theorem document_of_shows {files : Files.Tree} {now clock : Nat} {config : Config} {r : Registry}
    (shows : Shows files now clock config.producers r) :
    (r.refreshed files clock).document (clock / 1000000 : Nat)
      = Text.utf8 (config.document files now clock).toList := by
  rw [Registry.document_eq, Registry.emitted_eq, shows.readings, Config.document,
    String.toList_ofList, Config.readings]

/-! ## A single collection -/

/-- The collection of a command has a token of its own. -/
def onceRequest (st : Station) : Request := { timestamp := st.timestamp, token := st.issued }

theorem render_eq (st : Station) : (st.render st.timestamp).2 =
    let result := (st.issue.1.collect (onceRequest st)).2
    result.outcome.map fun outcome => outcome.map fun _ =>
      (Text.decode? result.out).getD (String.ofList (Text.lossy result.out)) := rfl

/-- A collection after some time, and on other files than those that the
producers were installed with. -/
theorem renderOnce_of_shows {st : Station} {config : Config} {now : Nat}
    (calm : st.isCancelled st.issued = false)
    (shows : Shows st.files now st.clock config.producers st.registry) :
    (config.Readable st.files →
      renderOnce st = .success (config.document st.files now st.clock)) ∧
    (¬ config.Readable st.files → ∃ report, renderOnce st = .failure report) := by
  have undisturbed : (onceRequest st).Undisturbed := fun _ => rfl
  have collected := @Station.collect_refreshed _ st.issue.1 undisturbed calm shows.sound.produced
  obtain ⟨succeeds, fails⟩ := collected
  constructor
  · intro readable
    have result := succeeds (shows.readable.mpr readable)
    have same : (st.issue.1.collect (onceRequest st)).2
        = ⟨Text.utf8 (config.document st.files now st.clock).toList, some (.ok ())⟩ :=
      result.trans (congrArg (Result.mk · _) (document_of_shows shows))
    rw [renderOnce, render_eq, same]
    simp only [Text.decode?_utf8, Option.map_some, Except.map, Option.getD_some,
      String.ofList_toList]
  · intro unreadable
    obtain ⟨failure, outcome⟩ := fails fun readable => unreadable (shows.readable.mp readable)
    refine ⟨.ofCollect (.callback failure), ?_⟩
    rw [renderOnce, render_eq]
    simp only [outcome, Option.map_some, Except.map]

/-! ## Preparations -/

/-- The file of a configuration is accepted and its producers can be installed. -/
structure Accepts (st : Station) (path : String) (config : Config) : Prop where
  read : Config.ofFile st.files path = .ok config
  installs : ∃ n, (Producer.installAll st.clock {} config.producers).2 = .ok n

/-- What the configuration shows is a document. -/
theorem Accepts.isDocument {files : Files.Tree} {now : Nat} {path : String} {config : Config}
    (accepts : Accepts { files, clock := now } path config) (later : Files.Tree) (time : Nat) :
    IsDocument (time / 1000000 : Nat) (config.document later now time).toList := by
  obtain ⟨read, n, installs⟩ := accepts
  obtain ⟨text, -, read⟩ := Config.of_ofFile_ok read
  have keyed : ∀ settings ∈ config.producers, Toml.Table.Keyed settings.options :=
    fun settings member => ((settled_of_ofText read).1 settings member).expressible.keyed
  have tidy := (Producer.installAll_tidy .empty now keyed).assign
    ((Producer.installAll now {} config.producers).1.assignments later time)
  obtain ⟨document, written, isDocument⟩ :=
    Registry.document_isDocument tidy.names tidy.distinct (time / 1000000 : Nat)
  have shown := document_of_shows (Producer.installAll_shows later now time installs)
  rw [Registry.refreshed, written] at shown
  exact Text.utf8_injective shown ▸ isDocument

theorem Accepts.unique {st : Station} {path : String} {config other : Config}
    (accepts : Accepts st path config) (too : Accepts st path other) : config = other :=
  Except.ok.inj (accepts.read.symm.trans too.read)

variable (files : Files.Tree) (clock : Nat) (path : String)

theorem prepare_of_accepts {config : Config} (accepts : Accepts { files, clock } path config) :
    ∃ r, prepare { files, clock } path = .ok ({ files, clock, registry := r }, config) ∧
      ∀ later time, Shows later clock time config.producers r := by
  obtain ⟨read, n, installs⟩ := accepts
  refine ⟨(Producer.installAll clock {} config.producers).1, ?_,
    fun later time => Producer.installAll_shows later clock time installs⟩
  simp only [prepare, installAll, read, installs, Except.map]

theorem prepare_of_not_accepts (rejected : ¬ ∃ config, Accepts { files, clock } path config) :
    ∃ report, prepare { files, clock } path = .error report := by
  rw [prepare]
  cases read : Config.ofFile files path with
  | error e => exact ⟨_, rfl⟩
  | ok config =>
    cases installed : (Producer.installAll clock {} config.producers).2 with
    | ok n => exact absurd ⟨config, read, n, installed⟩ rejected
    | error e =>
      simp only [installAll, installed, Except.map]
      exact ⟨_, rfl⟩

/-! ## Commands -/

theorem collect_of_accepts {config : Config} (accepts : Accepts { files, clock } path config) :
    (config.Readable files →
      collect { files, clock } path = .success (config.document files clock clock)) ∧
    (¬ config.Readable files → ∃ report, collect { files, clock } path = .failure report) := by
  obtain ⟨r, prepared, shows⟩ := prepare_of_accepts files clock path accepts
  rw [collect, prepared]
  exact @renderOnce_of_shows { files, clock, registry := r } config clock rfl (shows files clock)

theorem collect_cases :
    (∃ config, Accepts { files, clock } path config ∧ config.Readable files ∧
      collect { files, clock } path = .success (config.document files clock clock)) ∨
    ((¬ ∃ config, Accepts { files, clock } path config ∧ config.Readable files) ∧
      ∃ report, collect { files, clock } path = .failure report) := by
  by_cases accepted : ∃ config, Accepts { files, clock } path config
  · obtain ⟨config, accepts⟩ := accepted
    obtain ⟨succeeds, fails⟩ := collect_of_accepts files clock path accepts
    by_cases readable : config.Readable files
    · exact .inl ⟨config, accepts, readable, succeeds readable⟩
    · refine .inr ⟨?_, fails readable⟩
      rintro ⟨other, itsAccepts, itsReadable⟩
      exact readable (accepts.unique itsAccepts ▸ itsReadable)
  · obtain ⟨report, prepared⟩ := prepare_of_not_accepts files clock path accepted
    refine .inr ⟨fun ⟨config, accepts, _⟩ => accepted ⟨config, accepts⟩, report, ?_⟩
    rw [collect, prepared]

/-- Only the file of the configuration is read. -/
theorem checkConfig_congr {files others : Files.Tree}
    (same : others.readText path = files.readText path) :
    checkConfig { files := others, clock } path = checkConfig { files, clock } path := by
  have read : Config.ofFile others path = Config.ofFile files path := by
    rw [Config.ofFile, Config.ofFile, same]
  simp only [checkConfig, prepare, read, installAll]
  cases Config.ofFile files path with
  | error e => rfl
  | ok config =>
    simp only
    cases (Producer.installAll clock {} config.producers).2 <;> rfl

/-- A command that collects succeeds if the configuration is accepted, its
producers can be installed and every file of load averages is missing or
readable, and then it prints the document of the configuration.  In all other
cases it fails and prints nothing.  To check the configuration succeeds under
the first two conditions, and no other file matters. -/
theorem collect_settled :
    let st : Station := { files, clock }
    ((collect st path).exit = 0 ↔ ∃ config, Accepts st path config ∧ config.Readable files) ∧
    (∀ config, Accepts st path config → config.Readable files →
      collect st path = .success (config.document files clock clock) ∧
        IsDocument st.timestamp (config.document files clock clock).toList) ∧
    ((collect st path).exit ≠ 0 → (collect st path).output = "") ∧
    ((checkConfig st path).exit = 0 ↔ ∃ config, Accepts st path config) ∧
    ∀ others : Files.Tree, others.readText path = files.readText path →
      checkConfig { files := others, clock } path = checkConfig st path := by
  intro st
  refine ⟨?_, fun config accepts readable =>
    ⟨(collect_of_accepts files clock path accepts).1 readable, accepts.isDocument files clock⟩, ?_,
    ⟨fun succeeded => ?_, ?_⟩, fun others => checkConfig_congr clock path⟩
  · obtain ⟨config, accepts, readable, succeeds⟩ | ⟨unmet, report, fails⟩ :=
      collect_cases files clock path
    · rw [succeeds]
      exact ⟨fun _ => ⟨config, accepts, readable⟩, fun _ => rfl⟩
    · rw [fails]
      exact ⟨nofun, fun met => absurd met unmet⟩
  · obtain ⟨config, accepts, readable, succeeds⟩ | ⟨unmet, report, fails⟩ :=
      collect_cases files clock path
    · rw [succeeds]
      exact fun failed => absurd rfl failed
    · rw [fails]
      exact fun _ => rfl
  · by_contra rejected
    obtain ⟨report, prepared⟩ := prepare_of_not_accepts files clock path rejected
    rw [checkConfig, prepared] at succeeded
    cases succeeded
  · rintro ⟨config, accepts⟩
    obtain ⟨r, prepared, -⟩ := prepare_of_accepts files clock path accepts
    rw [checkConfig, prepared]
    rfl

/-- Files with a configuration, and with load averages in their default place. -/
def hosting (config load : String) : Files.Tree where
  entries :=
    [ (["conf"], .file (Text.utf8 config.toList))
    , (["proc"], .directory)
    , (["proc", "loadavg"], .file (Text.utf8 load.toList)) ]

theorem readText_hosting (config load : String) :
    (hosting config load).readText "/conf" = .ok config ∧
      (hosting config load).readText LoadAverage.defaultPath = .ok load := by
  have first : (hosting config load).read "/conf" = .ok (Text.utf8 config.toList) := rfl
  have second : (hosting config load).read LoadAverage.defaultPath
      = .ok (Text.utf8 load.toList) := rfl
  rw [Files.Tree.readText, Files.Tree.readText, first, second]
  simp only [Text.decode?_utf8, String.ofList_toList, and_self]

theorem accepts_hosting {text : String} {config : Config} (read : Config.ofText text = .ok config)
    (installs : ∃ n, (Producer.installAll 0 {} config.producers).2 = .ok n) (load : String) :
    Accepts { files := hosting text load } "/conf" config where
  read := by
    rw [Config.ofFile, (readText_hosting text load).1]
    exact read
  installs := installs

theorem readable_scaffold (site : String) (files : Files.Tree) :
    (Config.scaffold site).Readable files
      ↔ LoadAverage.Readable files LoadAverage.defaultPath := by
  have static : Producer.loadFile? ⟨"static", Config.siteOptions site⟩ = none := by
    rw [Producer.loadFile?, show Producer.Kind.find? "static" = some .static by decide]
  have process : Producer.loadFile? ⟨"process", []⟩ = none := rfl
  have load : Producer.loadFile? ⟨"loadavg", []⟩ = some LoadAverage.defaultPath := rfl
  rw [Config.Readable, Config.producers_scaffold]
  simp [static, process, load]

/-- The same configuration with load averages that are understood, and with some
that are not. -/
theorem collect_scaffold :
    let site := Config.scaffold "lab"
    let fine := hosting site.text "0.5 0.25 0.125 1/2 3\n"
    let broken := hosting site.text "n/a"
    (Accepts { files := fine } "/conf" site ∧ site.Readable fine ∧
      collect { files := fine } "/conf" = .success (site.document fine 0 0) ∧
      IsDocument (Station.timestamp { files := fine }) (site.document fine 0 0).toList) ∧
    ((collect { files := broken } "/conf").exit ≠ 0 ∧
      (collect { files := broken } "/conf").output = "") ∧
    broken.readText "/conf" = fine.readText "/conf" ∧
      checkConfig { files := broken } "/conf" = checkConfig { files := fine } "/conf" := by
  intro site fine broken
  have accepts := accepts_hosting (Config.ofText_scaffold "lab")
    ⟨3, by rw [Producer.installAll_scaffold]⟩
  have readable : site.Readable fine :=
    (readable_scaffold "lab" fine).mpr
      (.inr ⟨_, (readText_hosting _ _).2, by decide +kernel, by decide +kernel⟩)
  have unreadable : ¬ site.Readable broken := by
    intro readable
    obtain missing | ⟨text, read, numbers, -⟩ := (readable_scaffold "lab" broken).mp readable
    · rw [(readText_hosting _ _).2] at missing
      cases missing
    · rw [(readText_hosting _ _).2] at read
      cases read
      exact absurd numbers (by decide)
  have same : broken.readText "/conf" = fine.readText "/conf" :=
    (readText_hosting _ _).1.trans (readText_hosting _ _).1.symm
  obtain ⟨-, succeeds, -, -, others⟩ := collect_settled fine 0 "/conf"
  obtain ⟨⟨only, -⟩, -, fails, -⟩ := collect_settled broken 0 "/conf"
  have failed : (collect { files := broken } "/conf").exit ≠ 0 := by
    intro succeeded
    obtain ⟨config, accepted, readable⟩ := only succeeded
    rw [accepted.unique (accepts "n/a")] at readable
    exact unreadable readable
  exact ⟨⟨accepts _, readable, succeeds site (accepts _) readable⟩, ⟨failed, fails failed⟩, same,
    others broken same⟩

end CommandLine

end GaugeExporter
