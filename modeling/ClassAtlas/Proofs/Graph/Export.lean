import ClassAtlas.Graph.Export
import ClassAtlas.Proofs.FileSystem.Writing
import ClassAtlas.Proofs.Text.Utf8

/-!
What the export of a graph does to a file that is already there. The document and the image may land
on it; if neither does, the file stays, and if the document does, the file is lost.
-/

namespace ClassAtlas.Graph

open FileSystem

/-- The files of an image whose name has a stem and the suffix of a format. -/
theorem Target.ofImage_cases {image : String} {target : Target}
    (made : Target.ofImage image = .ok target) :
    ∃ fileName suffix, Path.fileName? image = some fileName ∧ Path.extension? image = some suffix ∧
      Text.lowercase suffix ∈ imageFormats ∧ stemOf fileName ≠ "" ∧
      target = {
        image
        dotFile := Path.join ((Path.parent? image).getD "") (stemOf fileName ++ ".dot")
        format := Text.lowercase suffix
        stem := stemOf fileName } := by
  unfold Target.ofImage at made
  split at made
  case h_2 => cases made
  case h_1 fileName named =>
    split at made
    case h_2 => cases made
    case h_1 suffix suffixed =>
      simp only [bind, Except.bind] at made
      split at made
      case isTrue => cases made
      case isFalse known =>
        split at made
        case isTrue => cases made
        case isFalse stem =>
          cases made
          simp only [Bool.not_eq_true', Bool.not_eq_false, List.contains_iff_mem] at known
          exact ⟨fileName, suffix, named, suffixed, known,
            fun empty => stem (String.isEmpty_iff.mpr empty), rfl⟩

theorem Target.image_of_ofImage {image : String} {target : Target}
    (made : Target.ofImage image = .ok target) : target.image = image := by
  obtain ⟨_, _, _, _, _, _, rfl⟩ := ofImage_cases made
  rfl

/-- Started for a target, the renderer writes nothing but the image. -/
def Renderer.WritesOnlyImage (renderer : Renderer) (w : World) (target : Target) : Prop :=
  ∃ painted, (painted = w ∨ ∃ content, w.writeFile target.image content = .ok painted) ∧
    painted.SameFiles (renderer.render w target.dotFile target.image target.format).1

theorem renderTarget_world (w : World) (target : Target) (renderer : Renderer) :
    (renderTarget w target renderer).world = removeQuietly
      (renderer.render w target.dotFile target.image target.format).1 target.dotFile := by
  unfold renderTarget
  obtain ⟨left, result⟩ := renderer.render w target.dotFile target.image target.format
  cases result <;> rfl

section

variable {w drawn : World} {style : Style} {records : List DependencyRecord}
  {packages : PackageIndex} {image : String} {target : Target} {renderer : Option Renderer}
  {exported : Exported}

/-! An export, by what it meets. -/

theorem exportGraph_refused {failure : Failure} (refused : Target.ofImage image = .error failure)
    (renderer : Option Renderer) :
    exportGraph w style records packages image renderer = .error failure := by
  rw [exportGraph, refused]
  rfl

theorem exportGraph_unwritten {cause : OsError} (made : Target.ofImage image = .ok target)
    (unwritten : w.writeText target.dotFile (build style target.stem records packages).text =
      .error cause) (renderer : Option Renderer) :
    exportGraph w style records packages image renderer =
      .error (.outputWrite target.dotFile (.os cause)) := by
  rw [exportGraph, made]
  simp only [bind, Except.bind, unwritten]
  rfl

theorem exportGraph_unrendered (made : Target.ofImage image = .ok target)
    (written : w.writeText target.dotFile (build style target.stem records packages).text =
      .ok drawn) :
    exportGraph w style records packages image none =
      .ok { world := drawn, outcome := .skipped target.dotFile } := by
  rw [exportGraph, made]
  simp only [bind, Except.bind, written]
  rfl

theorem exportGraph_rendered (made : Target.ofImage image = .ok target)
    (written : w.writeText target.dotFile (build style target.stem records packages).text =
      .ok drawn) (started : Renderer) :
    exportGraph w style records packages image (some started) =
      .ok (renderTarget drawn target started) := by
  rw [exportGraph, made]
  simp only [bind, Except.bind, written]
  rfl

/-- The steps of an export that succeeds. -/
theorem exportGraph_cases (ran : exportGraph w style records packages image renderer = .ok exported) :
    ∃ target drawn, Target.ofImage image = .ok target ∧
      w.writeText target.dotFile (build style target.stem records packages).text = .ok drawn ∧
      (renderer = none ∧ exported.world = drawn ∨
        ∃ started, renderer = some started ∧ exported.world = removeQuietly
          (started.render drawn target.dotFile target.image target.format).1 target.dotFile) := by
  cases made : Target.ofImage image with
  | error failure => cases (exportGraph_refused made renderer).symm.trans ran
  | ok target =>
    cases written : w.writeText target.dotFile (build style target.stem records packages).text with
    | error cause => cases (exportGraph_unwritten made written renderer).symm.trans ran
    | ok drawn =>
      refine ⟨target, drawn, rfl, written, ?_⟩
      cases renderer with
      | none =>
        cases (exportGraph_unrendered made written).symm.trans ran
        exact .inl ⟨rfl, rfl⟩
      | some started =>
        cases (exportGraph_rendered made written started).symm.trans ran
        exact .inr ⟨started, rfl, renderTarget_world ..⟩

end

section

variable {w drawn : World} {target : Target} {started : Renderer} {path removed : String}
  {n r : Place} {content text : List UInt8}

/-- Writing the document does not move where the image lands. -/
theorem landing?_image {image document : String} (made : Target.ofImage image = .ok target)
    (written : w.writeText target.dotFile document = .ok drawn) :
    drawn.landing? target.image = w.landing? image := by
  rw [Target.image_of_ofImage made]
  exact World.landing?_of_writeFile written

/-- What a path holds stays where a renderer writes nothing but an image that lands elsewhere. -/
theorem holds_after_render (holds : drawn.Holds path r content)
    (confined : started.WritesOnlyImage drawn target)
    (apart : drawn.landing? target.image ≠ some r) :
    (started.render drawn target.dotFile target.image target.format).1.Holds path r content := by
  obtain ⟨painted, rfl | ⟨_, written⟩, same⟩ := confined
  · exact same.holds holds
  · exact same.holds (holds.after_write written apart)

theorem holds_after_any_render (holds : drawn.Holds path r content)
    (confined : started.WritesOnlyImage drawn target) :
    ∃ left, (started.render drawn target.dotFile target.image target.format).1.Holds path r left := by
  obtain ⟨painted, rfl | ⟨_, written⟩, same⟩ := confined
  · exact ⟨content, same.holds holds⟩
  · obtain ⟨left, holds⟩ := holds.after_any_write written
    exact ⟨left, same.holds holds⟩

theorem readFile_removeQuietly (holds : w.Holds path r content) (elsewhere : w.Holds removed n text)
    (apart : r ≠ n) : (removeQuietly w removed).readFile path = .ok content := by
  unfold removeQuietly
  cases done : w.removeFile removed with
  | error => exact holds.readFile
  | ok after => exact holds.readFile_after_removal done elsewhere apart

theorem eq_of_readFile_removeQuietly (holds : w.Holds path r content) {left : List UInt8}
    (read : (removeQuietly w removed).readFile path = .ok left) : left = content := by
  unfold removeQuietly at read
  cases done : w.removeFile removed with
  | error =>
    rw [done] at read
    exact Except.ok.inj (read.symm.trans holds.readFile)
  | ok after =>
    rw [done] at read
    exact holds.eq_of_readFile_after_removal done read

end

/-- Whatever the document, the renderer writes nothing but the image. -/
def Confined (w : World) (target : Target) (renderer : Option Renderer) : Prop :=
  ∀ started ∈ renderer, ∀ document drawn, w.writeText target.dotFile document = .ok drawn →
    started.WritesOnlyImage drawn target

section

variable {w : World} {style : Style} {records : List DependencyRecord} {packages : PackageIndex}
  {image path : String} {renderer : Option Renderer} {exported : Exported} {target : Target}
  {r : Place} {content : List UInt8}

/-- A file stays if neither the document nor the image lands on it. -/
theorem readFile_after_export
    (ran : exportGraph w style records packages image renderer = .ok exported)
    (made : Target.ofImage image = .ok target) (confined : Confined w target renderer)
    (lands : w.landing? path = some r) (holds : w.Holds path r content)
    (documentApart : w.landing? target.dotFile ≠ some r)
    (imageApart : renderer.isSome → w.landing? image ≠ some r) :
    exported.world.readFile path = .ok content := by
  obtain ⟨target, drawn, made', written, rest⟩ := exportGraph_cases ran
  cases made.symm.trans made'
  have kept := holds.after_write written documentApart
  obtain ⟨rfl, same⟩ | ⟨started, rfl, same⟩ := rest
  · rw [same]
    exact kept.readFile
  · have onlyImage := confined started rfl _ drawn written
    have elsewhere : drawn.landing? target.image ≠ some r := by
      rw [landing?_image made written]
      exact imageApart rfl
    -- the document is removed from another place than the file's
    obtain ⟨n, text, document, apart⟩ : ∃ n text, drawn.Holds target.dotFile n text ∧ r ≠ n := by
      obtain ⟨n, ⟨landsThere, document⟩ | ⟨notFree, rfl, document⟩⟩ :=
        World.holds_of_writeFile written
      · refine ⟨n, _, document, ?_⟩
        rintro rfl
        exact documentApart landsThere
      · refine ⟨n, _, document, ?_⟩
        rintro rfl
        exact notFree (World.landing?_eq_some_iff.mp lands).2
    obtain ⟨_, document⟩ := holds_after_any_render document onlyImage
    rw [same]
    exact readFile_removeQuietly (holds_after_render kept onlyImage elsewhere) document apart

/-- Nothing but what a path holds once the document is written can be read there in the end. -/
theorem eq_of_readFile_after_export
    (ran : exportGraph w style records packages image renderer = .ok exported)
    (made : Target.ofImage image = .ok target) (confined : Confined w target renderer)
    (holds : ∀ drawn,
      w.writeText target.dotFile (build style target.stem records packages).text = .ok drawn →
        drawn.Holds path r content)
    (imageApart : renderer.isSome → w.landing? image ≠ some r) {left : List UInt8}
    (read : exported.world.readFile path = .ok left) : left = content := by
  obtain ⟨target, drawn, made', written, rest⟩ := exportGraph_cases ran
  cases made.symm.trans made'
  obtain ⟨rfl, same⟩ | ⟨started, rfl, same⟩ := rest
  · rw [same] at read
    exact Except.ok.inj (read.symm.trans (holds drawn written).readFile)
  · have onlyImage := confined started rfl _ drawn written
    have elsewhere : drawn.landing? target.image ≠ some r := by
      rw [landing?_image made written]
      exact imageApart rfl
    rw [same] at read
    exact eq_of_readFile_removeQuietly (holds_after_render (holds drawn written) onlyImage elsewhere)
      read

end

end ClassAtlas.Graph
