import ClassAtlas.Proofs.CommandLine.Reading
import ClassAtlas.Proofs.Settings.Layering
import ClassAtlas.Resource
import Mathlib.Data.List.TakeWhile

/-!
What settings have to satisfy. The layers of the file and of the environment are checked one by one,
and the merged settings once more. So every constraint holds of the outcome whatever layer a value
came from, except for three lists that only the layers below the command line are checked for.
-/

namespace ClassAtlas

namespace Settings.Field

/-- The constraint on what a field holds. -/
def Admits : (field : Field) → field.Value → Prop
  | .inputPath, (path : String) => path ≠ ""
  | .outputFile, (path : Option String) => path ≠ some ""
  | .reportFile, (path : Option String) => path ≠ some ""
  | .classificationFile, (path : Option String) => path ≠ some ""
  | .excludePatterns, (patterns : List String) =>
    ∀ pattern ∈ patterns, pattern ≠ "" ∧ ∃ compiled, Glob.compile pattern = .ok compiled
  | .extraFileTypes, (types : List String) => ∀ t ∈ types, ResourceRule.withoutDots t ≠ ""
  | .platformPrefixes, (starts : List String) => ∀ start ∈ starts, start ≠ ""
  | .renderer, (command : String) => ∃ c ∈ command.toList, Text.isBlank c = false
  | .renderTimeoutSecs, (seconds : Nat) => 1 ≤ seconds
  | .threads, (count : Option Nat) => ∀ n ∈ count, 1 ≤ n
  | .includeExternal, _ | .maxDepth, _ | .followLinks, _ | .render, _ | .reportFormat, _
  | .parallel, _ | .skipMalformed, _ | .quiet, _ | .verbose, _ | .useColors, _ | .showProgress, _ =>
    True

/-- Every default satisfies its constraint. -/
theorem admits_default (field : Field) : field.Admits (field.get {}) := by
  cases field
  case renderer => exact ⟨'d', by decide, by decide⟩
  all_goals simp [Admits, get]

end Settings.Field

namespace PartialSettings

/-- Whatever a layer sets satisfies the constraint on it. -/
def Sound (p : PartialSettings) : Prop :=
  ∀ (field : Settings.Field) (value : field.Value), field.set? p = some value → field.Admits value

theorem sound_empty : Sound {} := by
  intro field value set
  rw [Settings.Field.set?_empty] at set
  cases set

theorem excludeProblem?_eq_none_iff (pattern : String) :
    excludeProblem? pattern = none ↔
      pattern ≠ "" ∧ ∃ compiled, Glob.compile pattern = .ok compiled := by
  unfold excludeProblem?
  by_cases empty : pattern = ""
  · simp [empty]
  · cases Glob.compile pattern with
    | ok compiled => simp [empty]
    | error fault => simp [empty]

theorem withoutDots_ne_empty_iff (t : String) :
    ResourceRule.withoutDots t ≠ "" ↔ t.toList.all (· == '.') = false := by
  unfold ResourceRule.withoutDots
  rw [ne_eq, String.ofList_eq_empty_iff, List.dropWhile_eq_nil_iff]
  simp

theorem ne_empty_of_set {path value : Option String} (given : path ≠ some "")
    (set : path.map some = some value) : value ≠ some "" := by
  obtain ⟨text, rfl, rfl⟩ := Option.map_eq_some_iff.mp set
  exact given

/-- The constraints one after another. -/
theorem sound_iff (p : PartialSettings) :
    p.Sound ↔ p.inputPath ≠ some "" ∧ p.outputFile ≠ some "" ∧ p.reportFile ≠ some "" ∧
      p.classificationFile ≠ some "" ∧
      (∀ pattern ∈ p.excludePatterns.getD [],
        pattern ≠ "" ∧ ∃ compiled, Glob.compile pattern = .ok compiled) ∧
      (∀ t ∈ p.extraFileTypes.getD [], ResourceRule.withoutDots t ≠ "") ∧
      (∀ start ∈ p.platformPrefixes.getD [], start ≠ "") ∧
      (∀ command ∈ p.renderer, ∃ c ∈ command.toList, Text.isBlank c = false) ∧
      p.renderTimeoutSecs ≠ some 0 ∧ p.threads ≠ some 0 := by
  constructor
  · intro sound
    refine ⟨?_, ?_, ?_, ?_, ?_, ?_, ?_, ?_, ?_, ?_⟩
    · exact fun empty => sound .inputPath "" empty rfl
    · exact fun empty => sound .outputFile (some "") (congrArg (Option.map some) empty) rfl
    · exact fun empty => sound .reportFile (some "") (congrArg (Option.map some) empty) rfl
    · exact fun empty => sound .classificationFile (some "") (congrArg (Option.map some) empty) rfl
    · cases set : p.excludePatterns with
      | none => exact fun _ member => (List.not_mem_nil member).elim
      | some patterns => exact sound .excludePatterns patterns set
    · cases set : p.extraFileTypes with
      | none => exact fun _ member => (List.not_mem_nil member).elim
      | some types => exact sound .extraFileTypes types set
    · cases set : p.platformPrefixes with
      | none => exact fun _ member => (List.not_mem_nil member).elim
      | some starts => exact sound .platformPrefixes starts set
    · exact fun command set => sound .renderer command set
    · intro zero
      exact Nat.not_succ_le_zero 0 (sound .renderTimeoutSecs Nat.zero zero)
    · intro zero
      exact Nat.not_succ_le_zero 0 (sound .threads (some 0) (congrArg (Option.map some) zero) 0 rfl)
  · rintro ⟨inputPath, outputFile, reportFile, classificationFile, patterns, types, starts, renderer,
      timeout, threads⟩ field value set
    have listed {items : Option (List String)} {held : List String} {P : String → Prop}
        (all : ∀ item ∈ items.getD [], P item) (same : items = some held) : ∀ item ∈ held, P item := by
      subst same
      exact all
    cases field
    case inputPath => exact fun empty => inputPath (empty ▸ set)
    case outputFile => exact ne_empty_of_set outputFile set
    case reportFile => exact ne_empty_of_set reportFile set
    case classificationFile => exact ne_empty_of_set classificationFile set
    case excludePatterns => exact listed patterns set
    case extraFileTypes => exact listed types set
    case platformPrefixes => exact listed starts set
    case renderer => exact renderer value set
    case renderTimeoutSecs => exact Nat.pos_of_ne_zero fun zero => timeout (zero ▸ set)
    case threads =>
      intro n same
      obtain ⟨count, given, rfl⟩ := Option.map_eq_some_iff.mp set
      cases same
      exact Nat.pos_of_ne_zero fun zero => threads (zero ▸ given)
    all_goals trivial

/-- The check of a layer looks at every constraint. -/
theorem problem?_eq_none_iff (p : PartialSettings) : p.problem? = none ↔ p.Sound := by
  have step (condition : Bool) (problem : String) (rest : Option String) :
      (if condition then some problem else rest) = none ↔ condition = false ∧ rest = none := by
    cases condition <;> simp
  have patterns : (p.excludePatterns.getD []).findSome? excludeProblem? = none ↔
      ∀ pattern ∈ p.excludePatterns.getD [],
        pattern ≠ "" ∧ ∃ compiled, Glob.compile pattern = .ok compiled := by
    simp only [List.findSome?_eq_none_iff, excludeProblem?_eq_none_iff]
  have blank : p.renderer.any (fun command => command.toList.all Text.isBlank) = false ↔
      ∀ command ∈ p.renderer, ∃ c ∈ command.toList, Text.isBlank c = false := by
    cases p.renderer <;> simp
  rw [sound_iff]
  unfold problem?
  cases found : (p.excludePatterns.getD []).findSome? excludeProblem? with
  | some problem =>
      rw [← patterns]
      simp [step, found]
  | none =>
      rw [← patterns]
      simp only [step, found, withoutDots_ne_empty_iff, blank]
      simp [isEmptyText]

theorem sound_of_check {p q : PartialSettings} {place : String} (checked : p.check place = .ok q) :
    q.Sound := by
  unfold check at checked
  split at checked
  case h_1 => cases checked
  case h_2 accepted =>
    cases checked
    exact (problem?_eq_none_iff p).mp accepted

end PartialSettings

namespace Settings

variable {w : World} {s : Settings}

theorem sound_of_ofPath {path : String} {p : PartialSettings} (read : ofPath w path = .ok p) :
    p.Sound := by
  unfold ofPath at read
  cases opened : w.readText path with
  | error cause =>
      simp only [opened] at read
      split at read <;> cases read
  | ok content =>
      simp only [opened] at read
      split at read
      case isTrue => cases read
      case isFalse =>
        unfold ofContent at read
        split at read
        case h_1 => exact PartialSettings.sound_of_check read
        case h_2 => cases read

theorem sound_of_fileLayer {config : Option String} {p : PartialSettings}
    (read : fileLayer w config = .ok p) : p.Sound := by
  cases config with
  | some path =>
      simp only [fileLayer, FileLayer.load] at read
      split at read
      case isTrue => exact sound_of_ofPath read
      case isFalse => cases read
  | none =>
      obtain ⟨found, searched, same⟩ := bind_eq_ok_iff.mp read
      cases same
      unfold findDefault at searched
      split at searched
      case h_1 =>
        obtain ⟨settings, opened, same⟩ := bind_eq_ok_iff.mp searched
        cases same
        exact sound_of_ofPath opened
      case h_2 =>
        cases searched
        exact PartialSettings.sound_empty

theorem sound_of_environment {layer : EnvironmentLayer} {p : PartialSettings}
    (read : layer.load w = .ok p) : p.Sound := by
  unfold EnvironmentLayer.load at read
  simp only [bind_eq_ok_iff] at read
  obtain ⟨_, -, _, -, _, -, _, -, _, -, _, -, _, -, _, -, checked⟩ := read
  exact PartialSettings.sound_of_check checked

theorem require_eq_ok_iff {condition : Bool} {failure : Failure} :
    require condition failure = .ok () ↔ condition = true := by
  cases condition <;> simp [require]

theorem checkPattern_eq_ok_iff (pattern : String) :
    checkPattern pattern = .ok () ↔ ∃ compiled, Glob.compile pattern = .ok compiled := by
  unfold checkPattern
  cases Glob.compile pattern <;> simp

/-- What settings are accepted for, among them those of the constraints that are checked twice. -/
theorem check_eq_ok_iff :
    s.check w = .ok () ↔ w.pathExists s.inputPath = true ∧
      (∀ pattern ∈ s.excludePatterns, ∃ compiled, Glob.compile pattern = .ok compiled) ∧
      (∀ image ∈ s.outputFile, checkImage w image = .ok ()) ∧
      (∀ report ∈ s.reportFile, checkOutputDirectory w report = .ok ()) ∧
      (∀ path ∈ s.classificationFile, w.isFile path = true) ∧
      Field.renderer.Admits s.renderer ∧ Field.renderTimeoutSecs.Admits s.renderTimeoutSecs ∧
      Field.threads.Admits s.threads ∧ ¬ (s.quiet = true ∧ s.verbose = true) := by
  have blank : s.renderer.toList.any (!Text.isBlank ·) = true ↔ Field.renderer.Admits s.renderer := by
    simp [Field.Admits]
  have timeout : (s.renderTimeoutSecs != 0) = true ↔
      Field.renderTimeoutSecs.Admits s.renderTimeoutSecs := by
    simp [Field.Admits, Nat.one_le_iff_ne_zero]
  have threads : (s.threads != some 0) = true ↔ Field.threads.Admits s.threads := by
    simp only [Field.Admits]
    cases s.threads <;> simp [Nat.one_le_iff_ne_zero]
  have spoken : (!(s.quiet && s.verbose)) = true ↔ ¬ (s.quiet = true ∧ s.verbose = true) := by
    cases s.quiet <;> simp
  unfold check
  simp only [bind_unit_eq_ok_iff, forM_eq_ok_iff, optionForM_eq_ok_iff, require_eq_ok_iff,
    checkPattern_eq_ok_iff, blank, timeout, threads, spoken]

end Settings

namespace CommandLine

/-- No path of a request is empty. -/
structure PathsNamed (r : Request) : Prop where
  inputPath : r.settings.inputPath ≠ some ""
  outputFile : r.settings.outputFile ≠ some ""
  reportFile : r.settings.reportFile ≠ some ""
  classificationFile : r.settings.classificationFile ≠ some ""

theorem filePath_named {text : String} {path : Option String}
    (given : Request.filePath text = .ok path) : path ≠ some "" := by
  unfold Request.filePath at given
  split at given
  case isTrue => cases given
  case isFalse named =>
    cases given
    simpa using named

theorem pathsNamed_kept : Kept PathsNamed where
  flag {r} argument named := by
    obtain ⟨inputPath, outputFile, reportFile, classificationFile⟩ := named
    cases argument <;> exact ⟨inputPath, outputFile, reportFile, classificationFile⟩
  value {r after argument text} named set := by
    obtain ⟨inputPath, outputFile, reportFile, classificationFile⟩ := named
    cases argument
    case path =>
      obtain ⟨path, given, same⟩ := bind_eq_ok_iff.mp set
      cases same
      exact ⟨filePath_named given, outputFile, reportFile, classificationFile⟩
    case outputFile =>
      obtain ⟨path, given, same⟩ := bind_eq_ok_iff.mp set
      cases same
      exact ⟨inputPath, filePath_named given, reportFile, classificationFile⟩
    case reportFile =>
      obtain ⟨path, given, same⟩ := bind_eq_ok_iff.mp set
      cases same
      exact ⟨inputPath, outputFile, filePath_named given, classificationFile⟩
    case classification =>
      obtain ⟨path, given, same⟩ := bind_eq_ok_iff.mp set
      cases same
      exact ⟨inputPath, outputFile, reportFile, filePath_named given⟩
    case maxDepth | renderTimeout | threads | config =>
      obtain ⟨_, -, same⟩ := bind_eq_ok_iff.mp set
      cases same
      exact ⟨inputPath, outputFile, reportFile, classificationFile⟩
    case format =>
      simp only [Request.setValue] at set
      split at set
      case h_1 =>
        cases set
        exact ⟨inputPath, outputFile, reportFile, classificationFile⟩
      case h_2 => cases set
    all_goals
      cases set
      exact ⟨inputPath, outputFile, reportFile, classificationFile⟩

theorem pathsNamed_of_parse {args : List String} {request : Request}
    (parsed : parse args = .ok request) : PathsNamed request :=
  pathsNamed_kept.parse ⟨nofun, nofun, nofun, nofun⟩ parsed

end CommandLine

namespace Settings

/-- Over layers that are sound, a field satisfies its constraint exactly if the command line does not
set it to something else. -/
theorem admits_layers_iff {file environment : PartialSettings} (soundFile : file.Sound)
    (soundEnvironment : environment.Sound) (line : PartialSettings) (field : Field) :
    field.Admits (field.get ((file.merge environment).merge line).toSettings) ↔
      ∀ value, field.set? line = some value → field.Admits value := by
  rw [Field.get_toSettings, Field.set?_merge, Field.set?_merge]
  cases setLine : field.set? line with
  | some value =>
      refine ⟨fun admitted other same => ?_, fun all => all value rfl⟩
      cases same
      exact admitted
  | none =>
      refine ⟨fun _ _ wrong => (nomatch wrong), fun _ => ?_⟩
      cases setEnvironment : field.set? environment with
      | some value => exact soundEnvironment field value setEnvironment
      | none =>
          cases setFile : field.set? file with
          | some value => exact soundFile field value setFile
          | none => exact field.admits_default

/-- The fields that the merged settings are not checked for, although each layer below the command
line is. -/
def uncheckedOnLine : List Field := [.excludePatterns, .extraFileTypes, .platformPrefixes]

/-- Of what a command line sets, only these lists may violate their constraints in settings that are
accepted. -/
theorem admits_of_accepted {request : CommandLine.Request} {w : World} {s : Settings}
    (named : CommandLine.PathsNamed request) (checked : s.check w = .ok ()) {field : Field}
    (looked : field ∉ uncheckedOnLine) {value : field.Value}
    (set : field.set? request.settings = some value) (held : field.get s = value) :
    field.Admits value := by
  obtain ⟨-, -, -, -, -, renderer, timeout, threads, -⟩ := check_eq_ok_iff.mp checked
  cases field
  case inputPath => exact fun empty => named.inputPath (empty ▸ set)
  case outputFile => exact PartialSettings.ne_empty_of_set named.outputFile set
  case reportFile => exact PartialSettings.ne_empty_of_set named.reportFile set
  case classificationFile => exact PartialSettings.ne_empty_of_set named.classificationFile set
  case excludePatterns | extraFileTypes | platformPrefixes => exact absurd (by decide) looked
  case renderer => exact held ▸ renderer
  case renderTimeoutSecs => exact held ▸ timeout
  case threads => exact held ▸ threads
  all_goals trivial

/-- Settings that are loaded satisfy every constraint, unless an exclude pattern, a file type or a
platform name of the command line is empty: these are checked in the other layers only. -/
theorem load_admits_iff {args : List String} {request : CommandLine.Request} {w : World}
    {stem : String} {s : Settings} (parsed : CommandLine.parse args = .ok request)
    (loaded : load w request stem = .ok s) :
    (∀ field : Field, field.Admits (field.get s) ↔ (field ∈ uncheckedOnLine →
      ∀ value, field.set? request.settings = some value → field.Admits value)) ∧
    ∀ pattern ∈ s.excludePatterns, ∃ compiled, Glob.compile pattern = .ok compiled := by
  obtain ⟨file, environment, fromFile, fromEnvironment, rfl, checked⟩ :=
    (load_eq_ok_iff ..).mp loaded
  have iff := admits_layers_iff (sound_of_fileLayer fromFile) (sound_of_environment fromEnvironment)
    request.settings
  refine ⟨fun field => ?_, (check_eq_ok_iff.mp checked).2.1⟩
  rw [iff field]
  refine ⟨fun all _ => all, fun all value set => ?_⟩
  by_cases looked : field ∈ uncheckedOnLine
  · exact all looked value set
  · refine admits_of_accepted (CommandLine.pathsNamed_of_parse parsed) checked looked set ?_
    rw [Field.get_toSettings, Field.set?_merge, set]
    rfl

/-- A machine on which the environment names two file types. -/
def typedMachine : World where
  environment := [("CLASSWALK_EXTRA_FILE_TYPES", "jsp, .xml")]

theorem typedMachine_admits :
    ∃ s, load typedMachine { settings := { excludePatterns := some ["*.tmp"], threads := some 2 } }
        defaultStem = .ok s ∧ s.extraFileTypes = ["jsp", ".xml"] ∧
      ∀ field : Field, field.Admits (field.get s) := by
  have parsed : CommandLine.parse ["-j2", "--exclude", "*.tmp"] =
      .ok { settings := { excludePatterns := some ["*.tmp"], threads := some 2 } } := by
    rfl
  have loaded : load typedMachine
      { settings := { excludePatterns := some ["*.tmp"], threads := some 2 } } defaultStem =
        .ok { extraFileTypes := ["jsp", ".xml"], excludePatterns := ["*.tmp"], threads := some 2 } := by
    rfl
  refine ⟨_, loaded, rfl, fun field => ((load_admits_iff parsed loaded).1 field).mpr ?_⟩
  intro listed value set
  simp only [uncheckedOnLine, List.mem_cons, List.not_mem_nil, or_false] at listed
  obtain rfl | rfl | rfl := listed
  · cases set
    intro pattern member
    cases List.mem_singleton.mp member
    exact ⟨by decide, ⟨[.anySequence, .char '.', .char 't', .char 'm', .char 'p']⟩, rfl⟩
  · cases set
  · cases set

/-- An empty name of platform classes is accepted on the command line. -/
theorem emptyPrefix_accepted :
    ∃ request s, CommandLine.parse ["--platform-prefix", ""] = .ok request ∧
      load {} request defaultStem = .ok s ∧
      ¬ Field.platformPrefixes.Admits (Field.platformPrefixes.get s) := by
  refine ⟨{ settings := { platformPrefixes := some [""] } }, { platformPrefixes := [""] }, rfl, rfl, ?_⟩
  intro admitted
  exact admitted "" (List.mem_singleton_self "") rfl

end Settings

end ClassAtlas
