import ClassAtlas.Proofs.CommandLine.Execution
import ClassAtlas.Proofs.FileSystem.Linkless
import ClassAtlas.Proofs.Graph.Export

/-!
The files that the export of a graph touches where there are no links. The document is written in the
directory of the image under another name, and it is removed again once a renderer was started. Main
statement: an export fails only before it starts the renderer, and it changes nothing but the
document and the image.
-/

namespace ClassAtlas.Graph

open FileSystem

/-- The document lies in the directory of the image, at another place. -/
structure Target.Apart (target : Target) : Prop where
  beside : ∃ directory, Path.parent? target.image = some directory ∧
    Path.parent? target.dotFile = some directory
  other : target.dotFile ≠ target.image
  apart : ∀ w : World, w.placeOf target.dotFile ≠ w.placeOf target.image

section

variable {image fileName suffix : String}

theorem toList_dotName (stem : String) :
    (stem ++ ".dot").toList = stem.toList ++ ['.', 'd', 'o', 't'] := by
  rw [String.toList_append]
  rfl

theorem plain_dotName (plain : Path.Plain fileName) : Path.Plain (stemOf fileName ++ ".dot") := by
  have chars := toList_dotName (stemOf fileName)
  have long : 4 ≤ (stemOf fileName ++ ".dot").toList.length := by
    rw [chars, List.length_append]
    exact Nat.le_add_left 4 _
  refine ⟨?_, ?_, ?_⟩
  · rw [chars, stemOf, String.toList_ofList, List.mem_append, not_or]
    exact ⟨fun found => plain.noSlash (List.takeWhile_subset _ found), by decide⟩
  · rw [Bool.eq_false_iff, Ne, Path.isVoid_eq_true_iff]
    rintro (void | void) <;> rw [void] at long <;> exact absurd long (by decide)
  · intro up
    rw [up] at long
    exact absurd long (by decide)

/-- The suffix of the document is the suffix of no image. -/
theorem dotName_ne (named : Path.fileName? image = some fileName)
    (suffixed : Path.extension? image = some suffix) (known : Text.lowercase suffix ∈ imageFormats)
    (stem : String) : stem ++ ".dot" ≠ fileName := by
  rintro rfl
  have cut : Text.cutLast? '.' (stem ++ ".dot").toList = some (stem.toList, ['d', 'o', 't']) := by
    rw [toList_dotName]
    exact Text.cutLast?_append _ (by decide)
  rw [Path.extension?, named] at suffixed
  simp only [Option.bind_eq_bind, Option.bind_some, cut] at suffixed
  split at suffixed
  case h_1 => cases suffixed
  case h_2 _ same =>
    cases same
    cases suffixed
    exact absurd known (by decide +kernel)
  case h_3 nothing => cases nothing

end

theorem Target.apart_of_ofImage {image : String} {target : Target}
    (made : Target.ofImage image = .ok target) : target.Apart := by
  obtain ⟨fileName, suffix, named, suffixed, known, stem, same⟩ := ofImage_cases made
  have dotFile : target.dotFile = Path.beside image (stemOf fileName ++ ".dot") := by
    rw [same]
    rfl
  have plain := plain_dotName (Path.plain_of_fileName? named)
  have places (w : World) : w.placeOf target.dotFile ≠ w.placeOf target.image := by
    rw [dotFile, image_of_ofImage made]
    exact w.placeOf_beside named plain (dotName_ne named suffixed known _)
  obtain ⟨front, ends⟩ := Path.exists_endsIn named
  have directory := ends.parent?
  refine ⟨?_, fun one => places {} (congrArg (World.placeOf {}) one), places⟩
  rw [dotFile, image_of_ofImage made, Path.parent?_beside named plain]
  exact ⟨_, directory, directory⟩

/-- What a renderer leaves that is started for a target, and how it ends. -/
def Renderer.paint (renderer : Renderer) (w : World) (target : Target) :
    World × Except Failure Unit :=
  renderer.render w target.dotFile target.image target.format

/-- Started for a target, the renderer changes nothing but the image, and leaves no link. -/
structure Renderer.PaintsImage (renderer : Renderer) (w : World) (target : Target) : Prop where
  changed : w.ChangedOnly (renderer.paint w target).1 [target.image]
  linkless : Linkless (view (renderer.paint w target).1.root)

/-- An export without a renderer keeps the document. A device forgets it. -/
structure KeepsDocument (w : World) (target : Target) (document : String) (exported : Exported) :
    Prop where
  outcome : exported.outcome = .skipped target.dotFile
  holds : (∀ full, view w.root (w.placeOf target.dotFile) ≠ some (.device full)) →
    exported.world.readFile target.dotFile = .ok (Text.utf8 document)
  changed : w.ChangedOnly exported.world [target.dotFile]

/-- An export with a renderer, which is started once the document is `drawn`, tells how the renderer
ended, and removes the document. It can do so unless the renderer takes a directory away. -/
structure RemovesDocument (w drawn : World) (target : Target) (renderer : Renderer)
    (exported : Exported) : Prop where
  rendered : exported.outcome = .rendered target.image ↔ (renderer.paint drawn target).2 = .ok ()
  failed : ∀ failure, (renderer.paint drawn target).2 = .error failure →
    exported.outcome = .failed failure.message
  absent : renderer.PaintsImage drawn target →
    (∃ rest, (renderer.paint drawn target).1.removeFile target.dotFile = .ok rest) →
      exported.world.pathExists target.dotFile = false
  removable : renderer.PaintsImage drawn target →
    (view drawn.root (drawn.placeOf target.image) = some .directory →
      view (renderer.paint drawn target).1.root (drawn.placeOf target.image) = some .directory) →
    ∃ rest, (renderer.paint drawn target).1.removeFile target.dotFile = .ok rest
  changed : renderer.PaintsImage drawn target →
    w.ChangedOnly exported.world [target.dotFile, target.image]

section

variable {w drawn : World} {target : Target} {document : String}

theorem keepsDocument (linkless : Linkless (view w.root))
    (written : w.writeText target.dotFile document = .ok drawn) :
    KeepsDocument w target document { world := drawn, outcome := .skipped target.dotFile } := by
  refine ⟨rfl, fun noDevice => ?_, (World.writeFile_changes linkless written).1⟩
  rcases World.writeFile_cases written with ⟨r, lands, _⟩ | ⟨⟨r, full, reached, device⟩, _⟩
  · exact (World.holds_of_landing lands written lands).readFile
  · rw [reached.eq_placeOf linkless] at device
    exact absurd device (noDevice full)

theorem removeQuietly_changes {left : World} (linkless : Linkless (view left.root)) (path : String) :
    left.ChangedOnly (removeQuietly left path) [path] := by
  unfold removeQuietly
  cases removed : left.removeFile path with
  | error => exact .refl left _
  | ok rest => exact (World.removeFile_changes linkless removed).1

/-- The outcome of a rendering is how the renderer ended. -/
theorem outcome_renderTarget (renderer : Renderer) :
    (renderTarget drawn target renderer).outcome =
      match (renderer.paint drawn target).2 with
      | .ok () => .rendered target.image
      | .error failure => .failed failure.message := by
  unfold renderTarget Renderer.paint
  obtain ⟨left, result⟩ := renderer.render drawn target.dotFile target.image target.format
  cases result <;> rfl

theorem exists_holds (written : w.writeText target.dotFile document = .ok drawn) :
    ∃ r content, drawn.Holds target.dotFile r content := by
  obtain ⟨r, ⟨_, holds⟩ | ⟨_, rfl, holds⟩⟩ := World.holds_of_writeFile written
  · exact ⟨r, _, holds⟩
  · exact ⟨r, _, holds⟩

theorem removesDocument (renderer : Renderer) (linkless : Linkless (view w.root))
    (separate : target.Apart) (written : w.writeText target.dotFile document = .ok drawn) :
    RemovesDocument w drawn target renderer (renderTarget drawn target renderer) := by
  have world : (renderTarget drawn target renderer).world =
      removeQuietly (renderer.paint drawn target).1 target.dotFile := renderTarget_world ..
  obtain ⟨wrote, linklessDrawn⟩ := World.writeFile_changes linkless written
  refine ⟨?_, ?_, ?_, ?_, ?_⟩
  · rw [outcome_renderTarget]
    cases (renderer.paint drawn target).2 <;> simp
  · intro failure failed
    rw [outcome_renderTarget, failed]
  · rintro paints ⟨rest, removed⟩
    obtain ⟨changed, linklessRest, absent⟩ := World.removeFile_changes paints.linkless removed
    have same : (renderTarget drawn target renderer).world = rest := by
      rw [world, removeQuietly, removed]
      rfl
    rw [← World.placeOf_of_here changed.here] at absent
    rw [same]
    exact World.pathExists_of_absent linklessRest absent
  · intro paints directoryStays
    obtain ⟨r, content, holds⟩ := exists_holds written
    exact paints.changed.removable linklessDrawn holds (separate.apart drawn) directoryStays
  · intro paints
    rw [world]
    refine (wrote.trans (paints.changed.trans (removeQuietly_changes paints.linkless _))).mono ?_
    simp

end

/-- An export fails if the image is refused, and then nothing is touched, or if the document cannot
be written, and in both cases whatever the renderer. Otherwise it succeeds, and changes nothing but
its own two files: without a renderer the document is kept, and with one it is removed. -/
theorem export_touches_own_files (style : Style) (records : List DependencyRecord)
    (packages : PackageIndex) (image : String) {w : World} (linkless : Linkless (view w.root)) :
    (∀ failure, Target.ofImage image = .error failure →
      (∀ renderer, exportGraph w style records packages image renderer = .error failure) ∧
      ∀ runner s results (e : CommandLine.Effects), ∃ told,
        (CommandLine.drawGraph runner s results image).run.run e = (.error (.failure told), e)) ∧
    ∀ target, Target.ofImage image = .ok target →
      target.image = image ∧ target.Apart ∧
      (∀ cause, w.writeText target.dotFile (build style target.stem records packages).text =
          .error cause →
        ∀ renderer, exportGraph w style records packages image renderer =
          .error (.outputWrite target.dotFile (.os cause))) ∧
      ∀ drawn, w.writeText target.dotFile (build style target.stem records packages).text =
          .ok drawn →
        (∃ exported, exportGraph w style records packages image none = .ok exported ∧
          KeepsDocument w target (build style target.stem records packages).text exported) ∧
        ∀ renderer, ∃ exported,
          exportGraph w style records packages image (some renderer) = .ok exported ∧
            RemovesDocument w drawn target renderer exported := by
  refine ⟨fun failure refused => ⟨exportGraph_refused refused, fun runner s results e => ?_⟩, ?_⟩
  · apply CommandLine.drawGraph_of_refused
    intro style
    exact ⟨failure, exportGraph_refused refused _⟩
  · intro target made
    have separate := Target.apart_of_ofImage made
    refine ⟨Target.image_of_ofImage made, separate, ?_, ?_⟩
    · intro cause unwritten renderer
      exact exportGraph_unwritten made unwritten renderer
    · intro drawn written
      refine ⟨⟨_, exportGraph_unrendered made written, keepsDocument linkless written⟩, ?_⟩
      intro renderer
      exact ⟨_, exportGraph_rendered made written renderer,
        removesDocument renderer linkless separate written⟩

/-- A renderer that copies the document. -/
def copyRenderer : Renderer where
  name := "copy"
  render w dotFile image _ :=
    match w.readFile dotFile >>= w.writeFile image with
    | .ok painted => (painted, .ok ())
    | .error cause => (w, .error (.renderer "copy" cause.message))

section

variable {w : World} {target : Target}

theorem paintsImage_copyRenderer (linkless : Linkless (view w.root)) :
    copyRenderer.PaintsImage w target := by
  have left : w.ChangedOnly (copyRenderer.paint w target).1 [target.image] ∧
      Linkless (view (copyRenderer.paint w target).1.root) := by
    unfold Renderer.paint copyRenderer
    dsimp only
    split
    case h_1 painted copied =>
      obtain ⟨content, _, written⟩ := bind_eq_ok_iff.mp copied
      exact World.writeFile_changes linkless written
    case h_2 => exact ⟨.refl w _, linkless⟩
  exact ⟨left.1, left.2⟩

theorem copyRenderer_succeeds {r : Place} {content : List UInt8}
    (read : w.readFile target.dotFile = .ok content) (lands : w.landing? target.image = some r) :
    (copyRenderer.paint w target).2 = .ok () := by
  obtain ⟨painted, written⟩ := World.exists_writeFile lands content
  unfold Renderer.paint copyRenderer
  simp only [read, bind, Except.bind, written]

end

/-- A directory in which the image was drawn before. -/
def studio : World where
  root := .directory [("out", .directory [("deps.v2.SVG", .file [1, 2] false)])]

def studioTarget : Target where
  image := "out/deps.v2.SVG"
  dotFile := "out/deps.dot"
  format := "svg"
  stem := "deps"

def studioStyle : Style where
  includeExternal := true

def studioRecords : List DependencyRecord :=
  [.ofClass "shop/Cart" ["shop/Item"] ["java/util/List"]]

theorem studio_exported :
    ∃ exported, exportGraph studio studioStyle studioRecords (.ofRecords studioRecords [])
        "out/deps.v2.SVG" (some copyRenderer) = .ok exported ∧
      exported.outcome = .rendered "out/deps.v2.SVG" ∧
      exported.world.pathExists "out/deps.dot" = false ∧
      studio.ChangedOnly exported.world ["out/deps.dot", "out/deps.v2.SVG"] := by
  have linkless : Linkless (view studio.root) := by
    simp [studio, linkless_directory, linkless_file]
  have made : Target.ofImage "out/deps.v2.SVG" = .ok studioTarget := by decide +kernel
  have lands : studio.landing? "out/deps.dot" = some ["out", "deps.dot"] := by decide +kernel
  have imageLands : studio.landing? "out/deps.v2.SVG" = some ["out", "deps.v2.SVG"] := by
    decide +kernel
  obtain ⟨drawn, written⟩ := World.exists_writeFile lands _
  obtain ⟨-, accepted⟩ := export_touches_own_files studioStyle studioRecords
    (.ofRecords studioRecords []) "out/deps.v2.SVG" linkless
  obtain ⟨-, -, -, succeeds⟩ := accepted studioTarget made
  obtain ⟨exported, ran, removes⟩ := (succeeds drawn written).2 copyRenderer
  obtain ⟨wrote, linklessDrawn⟩ := World.writeFile_changes linkless written
  have paints : copyRenderer.PaintsImage drawn studioTarget := paintsImage_copyRenderer linklessDrawn
  have painted : (copyRenderer.paint drawn studioTarget).2 = .ok () := by
    rw [← World.landing?_of_writeFile written] at imageLands
    exact copyRenderer_succeeds (World.holds_of_landing lands written lands).readFile imageLands
  refine ⟨exported, ran, removes.rendered.mpr painted, removes.absent paints ?_,
    removes.changed paints⟩
  -- the image was a file before
  refine removes.removable paints fun directory => ?_
  rw [World.placeOf_of_here wrote.here, wrote.elsewhere _ (by decide +kernel)] at directory
  cases directory

end ClassAtlas.Graph
