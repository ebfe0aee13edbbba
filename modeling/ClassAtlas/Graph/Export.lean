import ClassAtlas.Analysis.Results
import ClassAtlas.FileSystem.World
import ClassAtlas.Graph.Build
import ClassAtlas.Graph.Target

/-!
Export of a graph: the document is written next to the image and handed to a renderer. It is
removed once a renderer has tried, and kept if there is none.
-/

namespace ClassAtlas.Graph

/-- Makes an image of a document. It gets the world, the document's file, the image and the format;
what it leaves behind counts also where it fails. -/
structure Renderer where
  name : String
  render : World → String → String → String → World × Except Failure Unit

inductive RenderOutcome where
  | rendered (image : String)
  | failed (reason : String)
  | skipped (dotFile : String)
  deriving Repr, DecidableEq

structure Exported where
  world : World
  outcome : RenderOutcome
  log : List LogLine := []

def removeQuietly (w : World) (path : String) : World :=
  (w.removeFile path).toOption.getD w

def renderTarget (w : World) (target : Target) (renderer : Renderer) : Exported :=
  let (w, result) := renderer.render w target.dotFile target.image target.format
  let w := removeQuietly w target.dotFile
  match result with
  | .ok () => { world := w, outcome := .rendered target.image }
  | .error failure =>
    { world := w, outcome := .failed failure.message, log := [⟨.warning, failure.userMessage⟩] }

def exportGraph (w : World) (style : Style) (records : List DependencyRecord)
    (packages : PackageIndex) (image : String) (renderer : Option Renderer) :
    Except Failure Exported := do
  let target ← Target.ofImage image
  let document := build style target.stem records packages
  match w.writeText target.dotFile document.text with
  | .error cause => throw (.outputWrite target.dotFile (.os cause))
  | .ok w =>
    match renderer with
    | none => return { world := w, outcome := .skipped target.dotFile }
    | some renderer => return renderTarget w target renderer

end ClassAtlas.Graph
