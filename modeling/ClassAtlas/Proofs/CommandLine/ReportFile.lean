import ClassAtlas.Proofs.CommandLine.Execution
import ClassAtlas.Proofs.Graph.Export

/-!
Whether the file of the report still holds the report when a command is done. The report is written
before the graph is drawn, and no report can be taken for the document of a graph: its first byte is
another. Main statement: the report stays exactly if the document lands elsewhere.
-/

namespace ClassAtlas

theorem head?_append {a b : String} {c : Char} (starts : a.toList.head? = some c) :
    (a ++ b).toList.head? = some c := by
  rw [String.toList_append, List.head?_append, starts]
  rfl

theorem Text.head?_utf8 {text : String} {c : Char} (starts : text.toList.head? = some c)
    (ascii : c.toNat < 128) : (utf8 text).head? = some c.toUInt8 := by
  obtain ⟨rest, chars⟩ := List.head?_eq_some_iff.mp starts
  rw [utf8_eq, chars, List.flatMap_cons, utf8EncodeChar_ascii ascii]
  rfl

theorem Graph.Document.head?_text (document : Graph.Document) :
    document.text.toList.head? = some 'd' := by
  unfold text openText header
  repeat apply head?_append
  rfl

namespace Report

theorem head?_paint (useColors : Bool) (color : Color) (text : String) :
    (paint useColors color text).toList.head? =
      if useColors then some '\x1b' else text.toList.head? := by
  unfold paint
  cases useColors with
  | true =>
    simp only [if_true]
    repeat apply head?_append
    rfl
  | false => rfl

/-- No report starts as a document does. -/
theorem head?_format (kind : OutputFormat) (style : Style) (results : Results) :
    ∃ c : Char, (c.toNat < 128 ∧ c.toUInt8 ≠ 'd'.toUInt8) ∧
      (format kind style results).toList.head? = some c := by
  unfold format
  cases kind with
  | text =>
    dsimp only
    split
    case isTrue =>
      refine ⟨'C', by decide, ?_⟩
      unfold quietText
      dsimp only
      repeat apply head?_append
      rfl
    case isFalse =>
      refine ⟨if style.useColors then '\x1b' else 'D', by split <;> decide, ?_⟩
      have titled := head?_paint style.useColors .boldBlue "Dependency Analysis Summary"
      unfold fullText
      dsimp only
      generalize paint style.useColors .boldBlue "Dependency Analysis Summary" = title at titled ⊢
      repeat apply head?_append
      rw [titled]
      split <;> rfl
  | json =>
    refine ⟨'\x7b', by decide, ?_⟩
    rw [Json.text, resultsJson, Json.render]
    repeat apply head?_append
    rfl
  | csv =>
    refine ⟨'C', by decide, ?_⟩
    rw [csvText, Csv.text, List.map_cons, String.join_cons]
    apply head?_append
    rfl

/-- A report is neither empty nor the document of a graph. -/
theorem utf8_format_ne (kind : OutputFormat) (style : Style) (results : Results) :
    Text.utf8 (format kind style results) ≠ [] ∧
      ∀ document : Graph.Document, Text.utf8 (format kind style results) ≠ Text.utf8 document.text := by
  obtain ⟨c, ⟨ascii, other⟩, starts⟩ := head?_format kind style results
  have byte := Text.head?_utf8 starts ascii
  refine ⟨fun empty => ?_, fun document same => ?_⟩
  · rw [empty] at byte
    cases byte
  · rw [same, Text.head?_utf8 document.head?_text (by decide)] at byte
    exact other (Option.some.inj byte).symm

end Report

namespace CommandLine

open FileSystem

/-- The bytes of the report on results. -/
def reportBytes (s : Settings) (results : Results) : List UInt8 :=
  Text.utf8 (Report.format s.reportFormat (reportStyle s) results)

/-- Started once a report is written to a path and a document beside the image, the renderer writes
nothing but the image. -/
def RendererConfined (runner : Process.Runner) (w : World) (s : Settings) (p : String) : Prop :=
  ∀ image ∈ s.outputFile, ∀ target, Graph.Target.ofImage image = .ok target →
    ∀ report written, w.writeText p report = .ok written →
      Graph.Confined written target (rendererOf runner s)

theorem render_of_rendererOf {runner : Process.Runner} {s : Settings}
    (started : (rendererOf runner s).isSome) : s.render = true := by
  unfold rendererOf at started
  split at started
  case isTrue render => exact render
  case isFalse => cases started

theorem writeText_of_report {w written : World} {p report out : String}
    (wrote : (Report.Target.file p).write w report = .ok (written, out)) :
    w.writeText p report = .ok written := by
  unfold Report.Target.write at wrote
  cases done : w.writeText p report with
  | ok after =>
    simp only [done] at wrote
    cases wrote
    rfl
  | error =>
    simp only [done] at wrote
    cases wrote

section

variable {runner : Process.Runner} {w written : World} {s : Settings} {p image : String}
  {results : Results} {style : Graph.Style} {exported : Graph.Exported} {place : Place}

/-- Drawing the graph keeps a report in a file exactly if the document lands elsewhere. -/
theorem report_drawn_iff (lands : w.landing? p = some place)
    (wrote : w.writeText p (Report.format s.reportFormat (reportStyle s) results) = .ok written)
    (drawn : Graph.exportGraph written style results.records results.packages image
      (rendererOf runner s) = .ok exported)
    (confined : ∀ target, Graph.Target.ofImage image = .ok target →
      Graph.Confined written target (rendererOf runner s))
    (imageApart : s.render → w.landing? image ≠ some place) :
    exported.world.readFile p = .ok (reportBytes s results) ↔
      ∀ target, Graph.Target.ofImage image = .ok target →
        w.landing? target.dotFile ≠ some place := by
  have landing (path : String) : written.landing? path = w.landing? path :=
    World.landing?_of_writeFile wrote
  have apart : (rendererOf runner s).isSome → written.landing? image ≠ some place := by
    rw [landing]
    exact fun started => imageApart (render_of_rendererOf started)
  rw [← landing] at lands
  constructor
  · intro read target made onto
    rw [← landing] at onto
    have document := Graph.eq_of_readFile_after_export drawn made (confined target made)
      (fun _ done => World.holds_of_landing lands done onto) apart read
    exact (Report.utf8_format_ne s.reportFormat (reportStyle s) results).2 _ document
  · intro elsewhere
    obtain ⟨target, _, made, _⟩ := Graph.exportGraph_cases drawn
    have documentApart := elsewhere target made
    rw [← landing] at documentApart
    have holds := World.holds_of_landing (landing p ▸ lands) wrote (landing p ▸ lands)
    exact Graph.readFile_after_export drawn made (confined target made) lands holds documentApart apart

/-- What is written to a device is never read again. -/
theorem no_report_on_device (notFree : ¬ Free (view w.root) place) (holds : w.Holds p place [])
    (drawn : Graph.exportGraph w style results.records results.packages image
      (rendererOf runner s) = .ok exported)
    (confined : ∀ target, Graph.Target.ofImage image = .ok target →
      Graph.Confined w target (rendererOf runner s)) :
    exported.world.readFile p ≠ .ok (reportBytes s results) := by
  have apart (path : String) : w.landing? path ≠ some place :=
    fun lands => notFree (World.landing?_eq_some_iff.mp lands).2
  intro read
  obtain ⟨target, _, made, _⟩ := Graph.exportGraph_cases drawn
  have empty := Graph.eq_of_readFile_after_export drawn made (confined target made)
    (fun _ done => holds.after_write done (apart target.dotFile)) (fun _ => apart image) read
  exact (Report.utf8_format_ne s.reportFormat (reportStyle s) results).1 empty

end

/-- The report is in place after a run exactly if its path lands at a file and the document of the
graph lands elsewhere. The image, if there is one, has to land elsewhere too. -/
theorem report_in_place_iff {runner : Process.Runner} {request : Request} {w : World}
    {s : Settings} {p : String} {effects : Effects} (analysis : request.init = false)
    (loaded : Settings.load w request Settings.defaultStem = .ok s)
    (reported : s.reportFile = some p) (succeeded : execute runner request w = (.ok (), effects))
    (confined : RendererConfined runner w s p)
    (imageApart : s.render → ∀ image ∈ s.outputFile, ∀ place, w.landing? p = some place →
      w.landing? image ≠ some place) :
    ∃ outcome, Analysis.run w s (Analysis.rulesOf s []) = .ok outcome ∧
      (effects.world.readFile p = .ok (reportBytes s outcome.results) ↔
        ∃ place, w.landing? p = some place ∧
          ∀ image ∈ s.outputFile, ∀ target, Graph.Target.ofImage image = .ok target →
            w.landing? target.dotFile ≠ some place) := by
  have ran : (analyze runner request).run.run { world := w } = (.ok (), effects) := by
    unfold execute at succeeded
    rwa [analysis] at succeeded
  obtain ⟨s', outcome, written, out, loaded', analyzed, wrote, rest⟩ := analyze_cases ran
  cases loaded.symm.trans loaded'
  rw [reported] at wrote
  have wrote := writeText_of_report wrote
  refine ⟨outcome, analyzed, ?_⟩
  obtain ⟨place, ⟨lands, holds⟩ | ⟨notFree, rfl, holds⟩⟩ := World.holds_of_writeFile wrote
  · -- the report went to a file
    have only {other : Place} (also : w.landing? p = some other) : other = place :=
      Option.some.inj (also.symm.trans lands)
    obtain ⟨noGraph, same⟩ | ⟨image, style, exported, output, drawn, same⟩ := rest
    · rw [same, noGraph]
      exact iff_of_true holds.readFile ⟨place, lands, fun _ noImage => nomatch noImage⟩
    · have drawnIff := report_drawn_iff lands wrote drawn
        (fun target made => confined image output target made _ written wrote)
        (fun render => imageApart render image output place lands)
      rw [same, drawnIff, output]
      constructor
      · intro elsewhere
        refine ⟨place, lands, fun _ output => ?_⟩
        cases output
        exact elsewhere
      · rintro ⟨other, also, elsewhere⟩
        cases only also
        exact elsewhere image rfl
  · -- the report went to a device
    refine iff_of_false ?_ ?_
    · obtain ⟨_, same⟩ | ⟨image, style, exported, output, drawn, same⟩ := rest
      · rw [same, holds.readFile]
        intro empty
        exact (Report.utf8_format_ne s.reportFormat (reportStyle s) outcome.results).1
          (Except.ok.inj empty).symm
      · rw [same]
        exact no_report_on_device notFree holds drawn fun target made =>
          confined image output target made _ _ wrote
    · rintro ⟨other, lands, _⟩
      obtain ⟨reached, free⟩ := World.landing?_eq_some_iff.mp lands
      cases holds.reached.unique reached
      exact notFree free

/-- A machine without any file. -/
def bareMachine : World where
  root := .directory []

/-- Every command succeeds and does nothing. -/
def idleRunner : Process.Runner where
  start w _ _ _ := .ok { root := w.root, stderr := [], ending := .finished (.exited 0) }

def graphRequest (report : String) (render : Bool) : Request where
  settings := {
    outputFile := some "deps.svg", reportFile := some report, reportFormat := some .csv
    render := some render, showProgress := some false }

def graphSettings (report : String) (render : Bool) : Settings where
  outputFile := some "deps.svg"
  reportFile := some report
  reportFormat := .csv
  render := render
  showProgress := false

theorem eq_ok_of_toOption {ε α : Type} {result : Except ε α} {a : α}
    (given : result.toOption = some a) : result = .ok a := by
  cases result with
  | ok value => exact congrArg Except.ok (Option.some.inj given)
  | error => cases given

theorem execute_graphRequest (report : String) (render : Bool)
    (done : (execute idleRunner (graphRequest report render) bareMachine).1.toOption = some ()) :
    execute idleRunner (graphRequest report render) bareMachine =
      (.ok (), (execute idleRunner (graphRequest report render) bareMachine).2) :=
  Prod.ext (eq_ok_of_toOption done) rfl

theorem rendererConfined_idleRunner (w : World) (s : Settings) (p : String) :
    RendererConfined idleRunner w s p := by
  intro image _ target _ report written _ started isStarted document drawn _
  unfold rendererOf at isStarted
  split at isStarted
  case isTrue =>
    cases isStarted
    exact ⟨drawn, .inl rfl, rfl, rfl⟩
  case isFalse => cases isStarted

theorem separate_report_in_place :
    ∃ outcome, Analysis.run bareMachine (graphSettings "deps.csv" true) [] = .ok outcome ∧
      (execute idleRunner (graphRequest "deps.csv" true) bareMachine).2.world.readFile "deps.csv" =
        .ok (reportBytes (graphSettings "deps.csv" true) outcome.results) := by
  have loaded : Settings.load bareMachine (graphRequest "deps.csv" true) Settings.defaultStem =
      .ok (graphSettings "deps.csv" true) := rfl
  have done := execute_graphRequest "deps.csv" true (by decide +kernel)
  have report : bareMachine.landing? "deps.csv" = some ["deps.csv"] := by decide +kernel
  have image : bareMachine.landing? "deps.svg" = some ["deps.svg"] := by decide +kernel
  have document : bareMachine.landing? "deps.dot" = some ["deps.dot"] := by decide +kernel
  have files : Graph.Target.ofImage "deps.svg" = .ok ⟨"deps.svg", "deps.dot", "svg", "deps"⟩ := rfl
  have imageApart : ∀ image ∈ (graphSettings "deps.csv" true).outputFile, ∀ place,
      bareMachine.landing? "deps.csv" = some place → bareMachine.landing? image ≠ some place := by
    rintro _ output place lands
    cases output
    cases report.symm.trans lands
    rw [image]
    decide
  obtain ⟨outcome, ran, iff⟩ := report_in_place_iff rfl loaded rfl done
    (rendererConfined_idleRunner _ _ _) fun _ => imageApart
  refine ⟨outcome, ran, iff.mpr ⟨["deps.csv"], report, fun _ output target made => ?_⟩⟩
  cases output
  cases made.symm.trans files
  rw [document]
  decide

/-- A report that is named as the text of the graph is lost, though the run succeeds. -/
theorem report_overwritten :
    ∃ effects outcome, execute idleRunner (graphRequest "deps.dot" false) bareMachine = (.ok (), effects) ∧
      Settings.load bareMachine (graphRequest "deps.dot" false) Settings.defaultStem =
        .ok (graphSettings "deps.dot" false) ∧
      Analysis.run bareMachine (graphSettings "deps.dot" false) [] = .ok outcome ∧
      effects.world.readFile "deps.dot" ≠
        .ok (reportBytes (graphSettings "deps.dot" false) outcome.results) := by
  have done := execute_graphRequest "deps.dot" false (by decide +kernel)
  have other :
      ((execute idleRunner (graphRequest "deps.dot" false) bareMachine).2.world.readFile "deps.dot").toOption ≠
        (Analysis.run bareMachine (graphSettings "deps.dot" false) []).toOption.map
          fun outcome => reportBytes (graphSettings "deps.dot" false) outcome.results := by
    decide +kernel
  have found : (Analysis.run bareMachine (graphSettings "deps.dot" false) []).toOption.isSome := by
    decide +kernel
  obtain ⟨outcome, given⟩ := Option.isSome_iff_exists.mp found
  refine ⟨_, outcome, done, rfl, eq_ok_of_toOption given, fun read => other ?_⟩
  rw [read, given]
  rfl

end CommandLine

end ClassAtlas
