import ClassAtlas.Report.OutputFormat

/-!
What a run is told to do. Settings come in layers: a layer sets some of them, a later layer wins
over an earlier one, and what no layer sets has its default.
-/

namespace ClassAtlas

structure Settings where
  inputPath : String := "."
  /-- The graph image; without one no graph is exported. -/
  outputFile : Option String := none
  includeExternal : Bool := false
  extraFileTypes : List String := []
  platformPrefixes : List String := ["java"]
  excludePatterns : List String := []
  maxDepth : Option Nat := none
  followLinks : Bool := false
  renderer : String := "dot"
  renderTimeoutSecs : Nat := 60
  /-- Without rendering the DOT file is kept. -/
  render : Bool := true
  classificationFile : Option String := none
  reportFormat : OutputFormat := .text
  /-- Without a file the report goes to the standard output. -/
  reportFile : Option String := none
  parallel : Bool := true
  threads : Option Nat := none
  skipMalformed : Bool := false
  quiet : Bool := false
  verbose : Bool := false
  useColors : Bool := true
  showProgress : Bool := true
  deriving Repr, DecidableEq

structure PartialSettings where
  inputPath : Option String := none
  outputFile : Option String := none
  includeExternal : Option Bool := none
  extraFileTypes : Option (List String) := none
  platformPrefixes : Option (List String) := none
  excludePatterns : Option (List String) := none
  maxDepth : Option Nat := none
  followLinks : Option Bool := none
  renderer : Option String := none
  renderTimeoutSecs : Option Nat := none
  render : Option Bool := none
  classificationFile : Option String := none
  reportFormat : Option OutputFormat := none
  reportFile : Option String := none
  parallel : Option Bool := none
  threads : Option Nat := none
  skipMalformed : Option Bool := none
  quiet : Option Bool := none
  verbose : Option Bool := none
  useColors : Option Bool := none
  showProgress : Option Bool := none
  deriving Repr, DecidableEq

namespace PartialSettings

def merge (lower upper : PartialSettings) : PartialSettings where
  inputPath := upper.inputPath <|> lower.inputPath
  outputFile := upper.outputFile <|> lower.outputFile
  includeExternal := upper.includeExternal <|> lower.includeExternal
  extraFileTypes := upper.extraFileTypes <|> lower.extraFileTypes
  platformPrefixes := upper.platformPrefixes <|> lower.platformPrefixes
  excludePatterns := upper.excludePatterns <|> lower.excludePatterns
  maxDepth := upper.maxDepth <|> lower.maxDepth
  followLinks := upper.followLinks <|> lower.followLinks
  renderer := upper.renderer <|> lower.renderer
  renderTimeoutSecs := upper.renderTimeoutSecs <|> lower.renderTimeoutSecs
  render := upper.render <|> lower.render
  classificationFile := upper.classificationFile <|> lower.classificationFile
  reportFormat := upper.reportFormat <|> lower.reportFormat
  reportFile := upper.reportFile <|> lower.reportFile
  parallel := upper.parallel <|> lower.parallel
  threads := upper.threads <|> lower.threads
  skipMalformed := upper.skipMalformed <|> lower.skipMalformed
  quiet := upper.quiet <|> lower.quiet
  verbose := upper.verbose <|> lower.verbose
  useColors := upper.useColors <|> lower.useColors
  showProgress := upper.showProgress <|> lower.showProgress

def toSettings (p : PartialSettings) : Settings :=
  let d : Settings := {}
  { inputPath := p.inputPath.getD d.inputPath
    outputFile := p.outputFile
    includeExternal := p.includeExternal.getD d.includeExternal
    extraFileTypes := p.extraFileTypes.getD d.extraFileTypes
    platformPrefixes := p.platformPrefixes.getD d.platformPrefixes
    excludePatterns := p.excludePatterns.getD d.excludePatterns
    maxDepth := p.maxDepth
    followLinks := p.followLinks.getD d.followLinks
    renderer := p.renderer.getD d.renderer
    renderTimeoutSecs := p.renderTimeoutSecs.getD d.renderTimeoutSecs
    render := p.render.getD d.render
    classificationFile := p.classificationFile
    reportFormat := p.reportFormat.getD d.reportFormat
    reportFile := p.reportFile
    parallel := p.parallel.getD d.parallel
    threads := p.threads
    skipMalformed := p.skipMalformed.getD d.skipMalformed
    quiet := p.quiet.getD d.quiet
    verbose := p.verbose.getD d.verbose
    useColors := p.useColors.getD d.useColors
    showProgress := p.showProgress.getD d.showProgress }

end PartialSettings

end ClassAtlas
