import GaugeExporter.CommandLine.Execute
import GaugeExporter.Proofs.Config.RoundTrip
import GaugeExporter.Proofs.Exposition.Decoder
import GaugeExporter.Proofs.Producer.Growth

/-!
# A configuration to start from

The site of a scaffold goes through three quoting schemes: it is an argument,
then a string of a document, then the value of a tag.  The text of the scaffold
is read as the scaffold (`ofText_scaffold`), its producers can be installed
(`installAll_scaffold`), and since no callback sets the series with the site,
every document begins with it (`Registry.document_of_site`).  Nothing here
depends on which characters the site has (`scaffold_serves`).
-/

namespace GaugeExporter

open Binary (Double)
open Exposition (isValidName escape unescape unlines documentLines Family)
open Toml (Table Value)

/-! ## The text of a scaffold -/

namespace Config

def siteMetric : String := "sensord_site_info"

def siteKey : String := "site"

def one : Double := .ofNatBits 0x3ff0000000000000

def siteOptions (site : String) : Table :=
  [("metric", .string siteMetric), ("tags", .table [(siteKey, .string site)]),
    ("value", .float one)]

theorem producers_scaffold (site : String) : (scaffold site).producers
    = [⟨"static", siteOptions site⟩, ⟨"process", []⟩, ⟨"loadavg", []⟩] := rfl

theorem siteOptions_expressible (site : String) : Table.Expressible (siteOptions site) := by
  have tags : (Value.table [(siteKey, .string site)]).Expressible :=
    .table (List.nodup_singleton _) (by simp [Value.Expressible.string])
  refine Toml.Table.expressible_iff.mpr ⟨by simp [siteOptions], ?_⟩
  simp only [siteOptions, List.forall_mem_cons]
  exact ⟨.string _, tags, .float nofun, nofun⟩

theorem siteOptions_sorted (site : String) :
    Table.sorted (siteOptions site) = siteOptions site := by
  have inside : Value.sortedEntries (siteOptions site) = siteOptions site := by
    simp only [siteOptions, Value.sortedEntries, Value.sorted, List.mergeSort_singleton]
  have ordered : (siteOptions site).Pairwise fun a b => Value.keyLE a b = true := by
    simp [siteOptions, Value.keyLE]
  rw [Table.sorted, inside]
  exact List.mergeSort_of_pairwise ordered

theorem settled_scaffold (site : String) : ∀ p ∈ (scaffold site).producers, p.Settled := by
  have plain (kind : String) : ProducerSettings.Settled ⟨kind, []⟩ :=
    ⟨.table List.nodup_nil (List.forall_mem_nil _), by simp [Table.sorted, Value.sortedEntries],
      by simp⟩
  have static : ProducerSettings.Settled ⟨"static", siteOptions site⟩ :=
    ⟨siteOptions_expressible site, siteOptions_sorted site, by simp [siteOptions, kindKey]⟩
  rw [producers_scaffold]
  simp only [List.forall_mem_cons]
  exact ⟨static, plain _, plain _, List.forall_mem_nil _⟩

theorem validate_scaffold (site : String) : (scaffold site).validate = .ok () := by
  have output : Text.isBlankText "-" = false := by decide
  have interval : ({} : ExportSettings).duration?.isNone = false := by decide +kernel
  have kinds : Text.isBlankText "static" = false ∧ Text.isBlankText "process" = false ∧
      Text.isBlankText "loadavg" = false := by decide
  rw [validate, blankKind?, producers_scaffold]
  simp only [List.findIdx?_cons, kinds]
  simp [scaffold, interval, output]

/-- A scaffold is read back from its text. -/
theorem ofText_scaffold (site : String) :
    Config.ofText (scaffold site).text = .ok (scaffold site) := by
  have settled := settled_scaffold site
  have unmarked : (scaffold site).Unmarked := by
    rw [Unmarked, producers_scaffold]
    simp only [List.forall_mem_cons]
    exact ⟨rfl, rfl, rfl, nofun⟩
  have low : Toml.entriesDepth (scaffold site).entries ≤ Toml.depthLimit :=
    Nat.le_of_ble_eq_true rfl
  have within := withinLimit_of_depth settled low
  rw [Config.ofText, Config.text, Toml.ofText?_text (entries_expressible settled) within]
  simp only
  rw [decode_nodes settled unmarked]
  simp only [validate_scaffold]

end Config

/-! ## Its registry -/

namespace Producer

open Config (siteMetric siteKey siteOptions one)

/-- The registry of a gauge with the site alone. -/
def siteRegistry (site : String) : Registry :=
  (addGauge {} siteMetric [⟨siteKey, site⟩] one).1

theorem check_siteOptions (site : String) : StaticOptions.check (siteOptions site)
    = .ok ⟨siteMetric, one, [(siteKey, .string site)]⟩ := by
  have metric : isValidName siteMetric = true := by decide
  have key : isValidName siteKey = true := by decide
  have decodes : StaticOptions.decode (siteOptions site)
      = .ok ⟨siteMetric, one, [(siteKey, .string site)]⟩ := rfl
  rw [StaticOptions.check, decodes]
  simp only [decoded, bind, Except.bind, checkName, if_pos metric, List.forM, if_pos key]
  rfl

/-- The producers of a scaffold on a fresh registry. -/
theorem installAll_scaffold (now : Nat) (site : String) :
    installAll now {} (Config.scaffold site).producers
      = (addLoadAverage LoadAverage.defaultPath (addProcess now (siteRegistry site)), .ok 3) := by
  have static : Kind.find? "static" = some .static := by decide
  have process : Kind.find? "process" = some .process := by decide
  have loadAverage : Kind.find? "loadavg" = some .loadAverage := by decide
  rw [Config.producers_scaffold]
  simp only [installAll, List.forM, install, static, process, loadAverage, build, buildStatic,
    buildLoadAverage, Installation.on_bind, Installation.on_check, check_siteOptions,
    Installation.on_modify, Installation.on_pure]
  rfl

end Producer

/-! ## Its documents -/

/-- The block with a site: a header and a line, in which the site is escaped. -/
def siteBlock (site : String) (timestamp : Int) : List Char :=
  "# TYPE sensord_site_info gauge\nsensord_site_info\x7bsite=\"".toList ++ escape site.toList
    ++ "\"\x7d 1 ".toList ++ Decimal.integer timestamp ++ ['\n']

namespace Registry

open Config (siteMetric siteKey one)

/-- The first metric of a registry has one series, which tells the site. -/
def telling (site : String) : Feature where
  holds r := r.metrics[0]? = some ⟨siteMetric, none, [0]⟩ ∧
    r.series[0]? = some ⟨0, [⟨siteKey, site⟩], none, one⟩
  spares s := 1 ≤ s
  set {r s} spared held value := by
    refine ⟨held.1, ?_⟩
    have other : s ≠ 0 := Nat.ne_of_gt spared
    simp [Registry.set, Array.getElem?_modify, other, held.2]

theorem getElem?_of_grown {α : Type} {items more : Array α} {i : Nat} {item : α}
    (grown : items.toList <+: more.toList) (there : items[i]? = some item) :
    more[i]? = some item := by
  rw [← Array.getElem?_toList] at there ⊢
  obtain ⟨inside, -⟩ := List.getElem?_eq_some_iff.mp there
  rw [← there, List.prefix_iff_getElem?.mp grown i inside, List.getElem?_eq_getElem inside]

theorem siteRegistry_telling (site : String) :
    (telling site).holds (Producer.siteRegistry site) := ⟨rfl, rfl⟩

theorem document_of_site {site : String} {r : Registry} (told : (telling site).holds r)
    (timestamp : Int) : ∃ families, r.document timestamp
      = Text.utf8 (siteBlock site timestamp ++ unlines (documentLines families)) := by
  obtain ⟨metric, series⟩ := told
  obtain ⟨rest, metrics⟩ : ∃ rest, r.metrics.toList = ⟨siteMetric, none, [0]⟩ :: rest := by
    rw [← Array.getElem?_toList] at metric
    cases list : r.metrics.toList with
    | nil => rw [list] at metric; cases metric
    | cons first rest => rw [list] at metric; cases metric; exact ⟨rest, rfl⟩
  have value : r.value 0 = one := by rw [Registry.value, series]; rfl
  have tags : r.tags 0 = [⟨siteKey, site⟩] := by rw [Registry.tags, series]; rfl
  have family : r.family? timestamp ⟨siteMetric, none, [0]⟩
      = some ⟨siteMetric, [⟨[⟨siteKey, site⟩], one, timestamp⟩]⟩ := by
    have finite : one.isFinite = true := by decide
    simp [family?, finiteSeries, sample, value, tags, finite]
  have text : Exposition.valueText one = ['1'] := by decide +kernel
  have front : "# TYPE sensord_site_info gauge\nsensord_site_info\x7bsite=\"".toList
      = Exposition.headerText siteMetric
        ++ '\n' :: (siteMetric.toList ++ '{' :: (siteKey.toList ++ ['=', '"'])) := by decide
  have middle : "\"\x7d 1 ".toList = ['"', '}', ' ', '1', ' '] := by decide
  have block : unlines (Family.lines ⟨siteMetric, [⟨[⟨siteKey, site⟩], one, timestamp⟩]⟩)
      = siteBlock site timestamp := by
    unfold siteBlock
    rw [front, middle]
    simp only [Family.lines, unlines, Exposition.sampleText, Exposition.tagText, Tag.fragmentText,
      text, List.map_cons, List.map_nil, List.flatMap_cons, List.flatMap_nil, List.append_assoc,
      List.cons_append, List.nil_append, List.append_nil]
  refine ⟨rest.filterMap (r.family? timestamp), ?_⟩
  rw [document_eq, emitted, metrics, List.filterMap_cons_some family, ← block,
    ← Exposition.unlines_append, documentLines, documentLines, List.flatMap_cons, List.append_assoc]

/-- The registry of a scaffold has four metrics, and its callbacks leave the site
alone. -/
theorem scaffold_bears (now : Nat) (site : String) :
    (Producer.installAll now {} (Config.scaffold site).producers).1.metricCount = 4 ∧
      (Producer.installAll now {} (Config.scaffold site).producers).1.Bears (telling site) := by
  rw [Producer.installAll_scaffold]
  obtain ⟨uptime, setsUptime, process⟩ :=
    Producer.addProcess_gained (Producer.siteRegistry site) now
  obtain ⟨load, setsLoad, whole⟩ := Producer.addLoadAverage_gained
    (Producer.addProcess now (Producer.siteRegistry site)) LoadAverage.defaultPath
  have gained := process.trans whole
  obtain ⟨metric, series⟩ := siteRegistry_telling site
  refine ⟨gained.metricCount, ⟨getElem?_of_grown gained.metrics metric,
    getElem?_of_grown gained.series series⟩, fun callback member => ?_, fun callback member => ?_⟩
  · rw [gained.syncCallbacks] at member
    cases List.mem_singleton.mp member
    exact setsUptime.imp fun s added => added
  · rw [gained.asyncCallbacks] at member
    cases List.mem_singleton.mp member
    exact setsLoad.imp fun s added => Nat.le_trans process.le_series added

end Registry

/-! ## From the command line to a document -/

namespace CommandLine

theorem ofArguments_init (site : String) :
    Invocation.ofArguments ["init", "--site=" ++ site] = .command (.init site) := by
  have recognized : recognize (some siteOption) ("--site=" ++ site) = .attached site.toList := by
    rw [recognize, String.toList_append]
    rfl
  have options : Invocation.ofArguments ["init", "--site=" ++ site]
      = optionsFrom .init siteOption none ["--site=" ++ site] := rfl
  rw [options, optionsFrom, recognized]
  simp [siteOption, Valued.admits, optionsFrom, Topic.command]

/-- A site that does not look like an option may be an argument of its own. -/
theorem ofArguments_init_value {site : String} (value : isValue site = true) :
    Invocation.ofArguments ["init", "--site", site] = .command (.init site) := by
  have recognized : recognize (some siteOption) "--site" = .detached := by decide
  have options : Invocation.ofArguments ["init", "--site", site]
      = optionsFrom .init siteOption none ["--site", site] := rfl
  rw [options, optionsFrom, recognized]
  simp [value, siteOption, Valued.admits, optionsFrom, Topic.command]

end CommandLine

/-- Whatever the site is: the arguments ask for its scaffold, whose text is
printed; the text is read as the scaffold; its producers can be installed and
give four metrics; and every collection that succeeds on them puts a document
behind the content of its output that begins with the site. -/
theorem Config.scaffold_serves (site : String) :
    CommandLine.Invocation.ofArguments ["init", "--site=" ++ site] = .command (.init site) ∧
      (CommandLine.isValue site = true →
        CommandLine.Invocation.ofArguments ["init", "--site", site] = .command (.init site)) ∧
      (∀ due fuel st, CommandLine.perform due fuel st (.command (.init site))
        = (st, .success (scaffold site).text)) ∧
      Config.ofText (scaffold site).text = .ok (scaffold site) ∧
      unescape (escape site.toList) = site.toList ∧
      ∀ now, (Producer.installAll now {} (scaffold site).producers).2 = .ok 3 ∧
        (Producer.installAll now {} (scaffold site).producers).1.metricCount = 4 ∧
        ∀ (start : Station) (requests : List Request) (moves : List Move),
          start.registry = (Producer.installAll now {} (scaffold site).producers).1 →
          (∀ move ∈ moves, move.Quiet) →
          ∀ task ∈ ((System.ofRequests start requests).play moves).tasks,
            task.phase = .ended (.ok ()) →
            ∃ families, task.out = task.request.buffer ++
              Text.utf8 (siteBlock site task.request.timestamp ++
                unlines (documentLines families)) := by
  refine ⟨CommandLine.ofArguments_init site, CommandLine.ofArguments_init_value,
    fun _ _ _ => rfl, ofText_scaffold site,
    Exposition.unescape_escape site.toList, fun now => ?_⟩
  obtain ⟨metrics, bears⟩ := Registry.scaffold_bears now site
  refine ⟨by rw [Producer.installAll_scaffold], metrics, ?_⟩
  intro start requests moves installed quiet task member succeeded
  rw [← installed] at bears
  obtain ⟨r, told, wrote⟩ := bears.document requests quiet member succeeded
  obtain ⟨families, document⟩ := Registry.document_of_site told task.request.timestamp
  exact ⟨families, by rw [wrote, document]⟩

/-- A site that looks like the end of a string, of a tag and of a line. -/
def hostileSite : String := "'''\"\"\"\\\"\x7d 1 2\r\n# TYPE forged gauge\x7f"

/-- One collection on the producers of its scaffold. -/
def hostileScrape : System :=
  (System.ofRequests
    { registry := (Producer.installAll 0 {} (Config.scaffold hostileSite).producers).1 }
    [{ timestamp := 7, token := 0 }]).play [.poll 0, .poll 0]

theorem Config.hostileSite_serves :
    hostileScrape.tasks.map Task.outcome? = [some (.ok ())] ∧
      ∀ task ∈ hostileScrape.tasks, task.phase = .ended (.ok ()) →
        ∃ families, task.out = task.request.buffer ++
          Text.utf8 (siteBlock hostileSite task.request.timestamp ++
            unlines (documentLines families)) := by
  have collects := ((Config.scaffold_serves hostileSite).2.2.2.2.2 0).2.2
  exact ⟨by decide +kernel, collects _ [{ timestamp := 7, token := 0 }] [.poll 0, .poll 0] rfl
    (by simp [Move.Quiet])⟩

end GaugeExporter
