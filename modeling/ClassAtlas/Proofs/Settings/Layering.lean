import ClassAtlas.Proofs.Outcome
import ClassAtlas.Settings.Load

/-!
Layers of settings. A layer sets some fields; merging takes each field from the upper layer that sets
it, and the settings of a run have each field from the highest of their layers, or else by default.
-/

namespace ClassAtlas

namespace Settings

/-- The settings by their names. -/
inductive Field where
  | inputPath
  | outputFile
  | includeExternal
  | extraFileTypes
  | platformPrefixes
  | excludePatterns
  | maxDepth
  | followLinks
  | renderer
  | renderTimeoutSecs
  | render
  | classificationFile
  | reportFormat
  | reportFile
  | parallel
  | threads
  | skipMalformed
  | quiet
  | verbose
  | useColors
  | showProgress
  deriving Repr, DecidableEq

namespace Field

/-- What a field holds. -/
def Value : Field → Type
  | .inputPath | .renderer => String
  | .outputFile | .classificationFile | .reportFile => Option String
  | .extraFileTypes | .platformPrefixes | .excludePatterns => List String
  | .maxDepth | .threads => Option Nat
  | .renderTimeoutSecs => Nat
  | .reportFormat => OutputFormat
  | .includeExternal | .followLinks | .render | .parallel | .skipMalformed | .quiet | .verbose
  | .useColors | .showProgress => Bool

def get : (field : Field) → Settings → field.Value
  | .inputPath, s => s.inputPath
  | .outputFile, s => s.outputFile
  | .includeExternal, s => s.includeExternal
  | .extraFileTypes, s => s.extraFileTypes
  | .platformPrefixes, s => s.platformPrefixes
  | .excludePatterns, s => s.excludePatterns
  | .maxDepth, s => s.maxDepth
  | .followLinks, s => s.followLinks
  | .renderer, s => s.renderer
  | .renderTimeoutSecs, s => s.renderTimeoutSecs
  | .render, s => s.render
  | .classificationFile, s => s.classificationFile
  | .reportFormat, s => s.reportFormat
  | .reportFile, s => s.reportFile
  | .parallel, s => s.parallel
  | .threads, s => s.threads
  | .skipMalformed, s => s.skipMalformed
  | .quiet, s => s.quiet
  | .verbose, s => s.verbose
  | .useColors, s => s.useColors
  | .showProgress, s => s.showProgress

/-- What a layer sets a field to. A field that may be absent is never set to its absence. -/
def set? : (field : Field) → PartialSettings → Option field.Value
  | .inputPath, p => p.inputPath
  | .outputFile, p => p.outputFile.map some
  | .includeExternal, p => p.includeExternal
  | .extraFileTypes, p => p.extraFileTypes
  | .platformPrefixes, p => p.platformPrefixes
  | .excludePatterns, p => p.excludePatterns
  | .maxDepth, p => p.maxDepth.map some
  | .followLinks, p => p.followLinks
  | .renderer, p => p.renderer
  | .renderTimeoutSecs, p => p.renderTimeoutSecs
  | .render, p => p.render
  | .classificationFile, p => p.classificationFile.map some
  | .reportFormat, p => p.reportFormat
  | .reportFile, p => p.reportFile.map some
  | .parallel, p => p.parallel
  | .threads, p => p.threads.map some
  | .skipMalformed, p => p.skipMalformed
  | .quiet, p => p.quiet
  | .verbose, p => p.verbose
  | .useColors, p => p.useColors
  | .showProgress, p => p.showProgress

/-- There are no settings but those of the fields. -/
theorem eq_of_get {s t : Settings} (same : ∀ field : Field, field.get s = field.get t) : s = t := by
  cases s
  cases t
  congr
  · exact same .inputPath
  · exact same .outputFile
  · exact same .includeExternal
  · exact same .extraFileTypes
  · exact same .platformPrefixes
  · exact same .excludePatterns
  · exact same .maxDepth
  · exact same .followLinks
  · exact same .renderer
  · exact same .renderTimeoutSecs
  · exact same .render
  · exact same .classificationFile
  · exact same .reportFormat
  · exact same .reportFile
  · exact same .parallel
  · exact same .threads
  · exact same .skipMalformed
  · exact same .quiet
  · exact same .verbose
  · exact same .useColors
  · exact same .showProgress

/-- A layer is what it sets. -/
theorem eq_of_set? {p q : PartialSettings} (same : ∀ field : Field, field.set? p = field.set? q) :
    p = q := by
  have optional {α : Type} {a b : Option α} (mapped : a.map some = b.map some) : a = b :=
    (Option.map_inj_right fun _ _ => Option.some.inj).mp mapped
  cases p
  cases q
  congr
  · exact same .inputPath
  · exact optional (same .outputFile)
  · exact same .includeExternal
  · exact same .extraFileTypes
  · exact same .platformPrefixes
  · exact same .excludePatterns
  · exact optional (same .maxDepth)
  · exact same .followLinks
  · exact same .renderer
  · exact same .renderTimeoutSecs
  · exact same .render
  · exact optional (same .classificationFile)
  · exact same .reportFormat
  · exact optional (same .reportFile)
  · exact same .parallel
  · exact optional (same .threads)
  · exact same .skipMalformed
  · exact same .quiet
  · exact same .verbose
  · exact same .useColors
  · exact same .showProgress

@[simp] theorem set?_empty (field : Field) : field.set? {} = none := by
  cases field <;> rfl

theorem set?_merge (field : Field) (lower upper : PartialSettings) :
    field.set? (lower.merge upper) = (field.set? upper).or (field.set? lower) := by
  have plain {α : Type} (upper lower : Option α) : (upper <|> lower) = upper.or lower :=
    Option.orElse_eq_or
  have optional {α : Type} (upper lower : Option α) :
      (upper <|> lower).map some = (upper.map some).or (lower.map some) := by
    rw [plain, Option.map_or]
  cases field
  case outputFile | maxDepth | classificationFile | reportFile | threads => exact optional ..
  all_goals exact plain ..

theorem get_toSettings (field : Field) (p : PartialSettings) :
    field.get p.toSettings = (field.set? p).getD (field.get {}) := by
  have optional {α : Type} (value : Option α) : value = (value.map some).getD none := by
    cases value <;> rfl
  cases field
  case outputFile | maxDepth | classificationFile | reportFile | threads => exact optional _
  all_goals rfl

theorem findSome?_cons_eq_or {α β : Type} (f : α → Option β) (first : α) (rest : List α) :
    (first :: rest).findSome? f = (f first).or (rest.findSome? f) := by
  rw [List.findSome?_cons]
  cases f first <;> rfl

/-- The settings of three layers have each field from the highest that sets it. -/
theorem get_layers (field : Field) (file environment line : PartialSettings) :
    field.get ((file.merge environment).merge line).toSettings =
      ([line, environment, file].findSome? field.set?).getD (field.get {}) := by
  rw [get_toSettings, set?_merge, set?_merge, findSome?_cons_eq_or, findSome?_cons_eq_or,
    findSome?_cons_eq_or, List.findSome?_nil, Option.or_none]

end Field

namespace EnvironmentLayer

variable {layer : EnvironmentLayer} {w : World}

theorem isAvailable_eq_false_iff :
    layer.isAvailable w = false ↔
      ∀ key ∈ keys, w.envVar? (layer.stem ++ "_" ++ key) = none := by
  simp [isAvailable, read]

theorem readAs_of_unset {α : Type} {parse? : String → Option α} {key : String}
    (unset : layer.read w key = none) : layer.readAs w parse? key = .ok none := by
  rw [readAs, unset]

theorem readList_of_unset {key : String} (unset : layer.read w key = none) :
    layer.readList w key = none := by
  rw [readList, unset]
  rfl

/-- Every variable that is read is among the keys. -/
theorem load_of_unavailable (unavailable : layer.isAvailable w = false) :
    layer.load w = .ok {} := by
  have unset : ∀ key ∈ keys, layer.read w key = none := isAvailable_eq_false_iff.mp unavailable
  simp only [keys, List.forall_mem_cons] at unset
  obtain ⟨inputPath, outputFile, includeExternal, extraFileTypes, platformPrefixes, exclude,
    maxDepth, renderer, renderTimeout, render, classificationFile, reportFormat, reportFile,
    parallel, threads, skipMalformed, -⟩ := unset
  unfold load
  rw [readAs_of_unset includeExternal, readAs_of_unset maxDepth, readAs_of_unset renderTimeout,
    readAs_of_unset render, readAs_of_unset reportFormat, readAs_of_unset parallel,
    readAs_of_unset threads, readAs_of_unset skipMalformed, readList_of_unset extraFileTypes,
    readList_of_unset platformPrefixes, readList_of_unset exclude, inputPath, outputFile, renderer,
    classificationFile, reportFile]
  rfl

end EnvironmentLayer

/-- Leaving out a layer without variables is the same as merging it. -/
theorem environmentLayer_eq_load (w : World) (stem : String) :
    environmentLayer w stem = EnvironmentLayer.load { stem } w := by
  cases available : EnvironmentLayer.isAvailable { stem } w with
  | true => exact if_pos available
  | false =>
      rw [EnvironmentLayer.load_of_unavailable available]
      exact if_neg (ne_true_of_eq_false available)

theorem load_eq_ok_iff (w : World) (request : CommandLine.Request) (stem : String) (s : Settings) :
    load w request stem = .ok s ↔ ∃ file environment, fileLayer w request.config = .ok file ∧
      EnvironmentLayer.load { stem } w = .ok environment ∧
      ((file.merge environment).merge request.settings).toSettings = s ∧ s.check w = .ok () := by
  unfold load
  rw [environmentLayer_eq_load]
  simp only [bind_eq_ok_iff]
  constructor
  · rintro ⟨file, read, environment, found, ⟨⟩, checked, same⟩
    cases same
    exact ⟨file, environment, read, found, rfl, checked⟩
  · rintro ⟨file, environment, read, found, rfl, checked⟩
    exact ⟨file, read, environment, found, (), checked, rfl⟩

/-- Each field of the settings comes from the highest layer that sets it, the command line before the
environment before the file, and from the defaults if none does. -/
theorem settings_from_layers :
    (∀ (file environment line : PartialSettings) (s : Settings),
      ((file.merge environment).merge line).toSettings = s ↔
        ∀ field : Field, field.get s =
          ([line, environment, file].findSome? field.set?).getD (field.get {})) ∧
    (∀ one two three : PartialSettings,
      (one.merge two).merge three = one.merge (two.merge three)) ∧
    (∀ p : PartialSettings, p.merge {} = p ∧ PartialSettings.merge {} p = p) ∧
    (∀ (w : World) (layer : EnvironmentLayer),
      (layer.isAvailable w = false ↔
        ∀ key ∈ EnvironmentLayer.keys, w.envVar? (layer.stem ++ "_" ++ key) = none) ∧
      (layer.isAvailable w = false → layer.load w = .ok {})) ∧
    (∀ (w : World) (request : CommandLine.Request) (stem : String) (s : Settings),
      load w request stem = .ok s ↔ ∃ file environment,
        fileLayer w request.config = .ok file ∧
        EnvironmentLayer.load { stem } w = .ok environment ∧
        ((file.merge environment).merge request.settings).toSettings = s ∧
        s.check w = .ok ()) := by
  refine ⟨fun file environment line s => ⟨?_, ?_⟩, ?_, ?_, ?_, load_eq_ok_iff⟩
  · rintro rfl field
    exact Field.get_layers field file environment line
  · intro highest
    refine Field.eq_of_get fun field => ?_
    rw [highest field, Field.get_layers]
  · intro one two three
    refine Field.eq_of_set? fun field => ?_
    simp only [Field.set?_merge, Option.or_assoc]
  · intro p
    constructor
    · refine Field.eq_of_set? fun field => ?_
      rw [Field.set?_merge, Field.set?_empty, Option.none_or]
    · refine Field.eq_of_set? fun field => ?_
      rw [Field.set?_merge, Field.set?_empty, Option.or_none]
  · intro w layer
    exact ⟨EnvironmentLayer.isAvailable_eq_false_iff, EnvironmentLayer.load_of_unavailable⟩

/-- A machine whose variables have nothing to do with the settings, though one is called like their
stem. -/
def plainMachine : World where
  environment := [("HOME", "/home/ann"), ("CLASSWALK", "threads"), ("CLASSWALK_QUIET", "true")]

theorem plainMachine_environment :
    EnvironmentLayer.isAvailable {} plainMachine = false ∧
      EnvironmentLayer.load {} plainMachine = .ok {} := by
  have unavailable : EnvironmentLayer.isAvailable {} plainMachine = false := by decide
  exact ⟨unavailable, (settings_from_layers.2.2.2.1 plainMachine {}).2 unavailable⟩

end Settings

end ClassAtlas
