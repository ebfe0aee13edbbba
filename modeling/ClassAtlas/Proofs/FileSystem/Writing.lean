import ClassAtlas.FileSystem.World
import ClassAtlas.Proofs.FileSystem.Frame
import ClassAtlas.Proofs.Outcome
import ClassAtlas.Proofs.Text.Cut

/-!
Writing and removing files by their paths. A path lands at a place if writing it would put a file
there. No write moves where any path lands, so that what a sequence of writes leaves in a file is
decided by the places their paths land at in the beginning.
-/

namespace ClassAtlas

namespace FileSystem

/-- Every path has a step. -/
theorem stepsOf_ne_nil (path : String) : stepsOf path ≠ [] := by
  unfold stepsOf
  simp only
  split
  case isTrue => exact List.append_ne_nil_of_right_ne_nil _ (List.cons_ne_nil _ _)
  case isFalse named =>
    have last := List.getLast?_eq_some_getLast (Text.splitAll_ne_nil '/' path.toList)
    rw [last] at named
    intro nothing
    have allEmpty := List.filter_eq_nil_iff.mp (List.map_eq_nil_iff.mp nothing) _
      (List.getLast_mem (Text.splitAll_ne_nil '/' path.toList))
    simp_all

namespace Leads

variable {v : Place → Option Shell} {purpose : Purpose} {k : Nat} {p r : Place}
  {steps : List String}

/-- The directory of a missing name is there. -/
theorem directory_of_absent (leads : Leads v purpose k p steps r) (absent : v r = none) :
    v r.dropLast = some .directory := by
  induction leads with
  | arrived present => cases present.symm.trans absent
  | stays _ _ _ ih | climbs _ _ ih | enters _ _ _ _ _ ih | follows _ _ _ _ _ ih => exact ih absent
  | stops _ _ _ link => cases link.symm.trans absent
  | lacks directory => rwa [List.dropLast_concat]

theorem directory_of_step (leads : Leads v purpose k p steps r) (step : steps ≠ []) :
    v p = some .directory := by
  cases leads with
  | arrived => exact absurd rfl step
  | stays directory | climbs directory | enters directory | follows directory | stops _ directory
  | lacks directory => exact directory

end Leads

end FileSystem

open FileSystem

namespace World

/-- A path that the system takes. -/
structure Accepts (path : String) : Prop where
  noNul : path.toList.contains '\x00' = false
  notEmpty : path.isEmpty = false
  short : path.utf8ByteSize ≤ pathLimit

/-- Where a path leads. -/
structure Reaches (w : World) (purpose : Purpose) (path : String) (r : Place) : Prop where
  accepted : Accepts path
  leads : ∃ k ≤ linkLimit, Leads (view w.root) purpose k (startOf w.here path) (stepsOf path) r

theorem resolve_eq_ok_iff {w : World} {purpose : Purpose} {path : String} {out : Resolved} :
    resolve w.root w.here purpose path = .ok out ↔
      ∃ r, w.Reaches purpose path r ∧ out = .atPlace w.root r := by
  unfold resolve
  constructor
  · intro resolved
    split at resolved
    case isTrue => cases resolved
    case isFalse noNul =>
      split at resolved
      case isTrue => cases resolved
      case isFalse notEmpty =>
        split at resolved
        case isTrue => cases resolved
        case isFalse short =>
          obtain ⟨k, r, within, leads, same⟩ := follow_eq_ok_iff.mp resolved
          refine ⟨r, ⟨⟨?_, ?_, Nat.not_lt.mp short⟩, k, within, leads⟩, same⟩
          · exact Bool.not_eq_true _ ▸ noNul
          · exact Bool.not_eq_true _ ▸ notEmpty
  · rintro ⟨r, ⟨accepted, k, within, leads⟩, rfl⟩
    rw [if_neg (by rw [accepted.noNul]; exact Bool.false_ne_true),
      if_neg (by rw [accepted.notEmpty]; exact Bool.false_ne_true),
      if_neg (Nat.not_lt.mpr accepted.short)]
    exact follow_of_leads leads within

/-- The place at which a path lands: where writing it would put a file. -/
def landing? (w : World) (path : String) : Option Place :=
  match resolve w.root w.here .write path with
  | .ok (.found place (.file _ _)) => some place
  | .ok (.missing directory name) => some (directory ++ [name])
  | _ => none

section

variable {w : World} {path : String} {r : Place} {purpose : Purpose}

theorem Reaches.unique {r' : Place} (reached : w.Reaches purpose path r)
    (other : w.Reaches purpose path r') : r = r' := by
  obtain ⟨_, _, _, leads⟩ := reached
  obtain ⟨_, _, _, leads'⟩ := other
  exact leads.unique leads'

theorem resolve_eq_found_iff {node : Node} :
    resolve w.root w.here purpose path = .ok (.found r node) ↔
      w.Reaches purpose path r ∧ w.root.at? r = some node := by
  simp only [resolve_eq_ok_iff, Resolved.found_eq_atPlace_iff]
  constructor
  · rintro ⟨_, reached, rfl, present⟩
    exact ⟨reached, present⟩
  · rintro ⟨reached, present⟩
    exact ⟨r, reached, rfl, present⟩

theorem resolve_eq_missing_iff {directory : Place} {name : String} :
    resolve w.root w.here purpose path = .ok (.missing directory name) ↔
      w.Reaches purpose path (directory ++ [name]) ∧ w.root.at? (directory ++ [name]) = none := by
  simp only [resolve_eq_ok_iff, Resolved.missing_eq_atPlace_iff]
  constructor
  · rintro ⟨_, reached, rfl, absent⟩
    exact ⟨reached, absent⟩
  · rintro ⟨reached, absent⟩
    exact ⟨_, reached, rfl, absent⟩

theorem Reaches.free_of_absent (reached : w.Reaches purpose path r)
    (absent : view w.root r = none) : Free (view w.root) r := by
  obtain ⟨_, _, _, leads⟩ := reached
  exact .inr ⟨absent, leads.directory_of_absent absent⟩

theorem landing?_eq_some_iff :
    w.landing? path = some r ↔ w.Reaches .write path r ∧ Free (view w.root) r := by
  constructor
  · intro lands
    unfold landing? at lands
    split at lands
    case h_1 place content executable resolved =>
      cases lands
      obtain ⟨reached, present⟩ := resolve_eq_found_iff.mp resolved
      exact ⟨reached, .inl ⟨content, executable, view_of_at? present⟩⟩
    case h_2 directory name resolved =>
      cases lands
      obtain ⟨reached, absent⟩ := resolve_eq_missing_iff.mp resolved
      exact ⟨reached, reached.free_of_absent (view_eq_none_iff.mpr absent)⟩
    case h_3 => cases lands
  · rintro ⟨reached, ⟨content, executable, present⟩ | ⟨absent, _⟩⟩
    · have found := resolve_eq_found_iff.mpr ⟨reached, view_eq_file_iff.mp present⟩
      rw [landing?, found]
    · rcases List.eq_nil_or_concat r with rfl | ⟨directory, name, rfl⟩
      · cases absent
      · rw [List.concat_eq_append] at *
        have missing := resolve_eq_missing_iff.mpr ⟨reached, view_eq_none_iff.mp absent⟩
        rw [landing?, missing]

end

/-- A world in which a file was written at a place. -/
structure Wrote (w w' : World) (place : Place) (content : List UInt8) : Prop where
  free : Free (view w.root) place
  here : w'.here = w.here
  changed : ∃ executable, view w'.root = withFile (view w.root) place content executable

section

variable {w w' : World} {path other : String} {r : Place} {content : List UInt8}

/-- What writing a file does: it puts the content where the path lands. A path that leads to a
device takes it without a change. -/
theorem writeFile_cases (written : w.writeFile path content = .ok w') :
    (∃ r, w.landing? path = some r ∧ w.Wrote w' r content) ∨
      (∃ r full, w.Reaches .write path r ∧ view w.root r = some (.device full)) ∧ w' = w := by
  obtain ⟨out, resolved, rest⟩ := bind_eq_ok_iff.mp written
  split at rest
  case h_1 => cases rest
  case h_2 place old executable =>
    cases rest
    obtain ⟨reached, present⟩ := resolve_eq_found_iff.mp resolved
    have free : Free (view w.root) place := .inl ⟨old, executable, view_of_at? present⟩
    exact .inl ⟨place, landing?_eq_some_iff.mpr ⟨reached, free⟩, free, rfl, executable,
      view_put free content executable⟩
  case h_3 => cases rest
  case h_4 place full =>
    obtain ⟨reached, present⟩ := resolve_eq_found_iff.mp resolved
    refine .inr ⟨⟨place, full, reached, view_of_at? present⟩, ?_⟩
    split at rest
    case isTrue => cases rest
    case isFalse => exact (Except.ok.inj rest).symm
  case h_5 directory name =>
    cases rest
    obtain ⟨reached, absent⟩ := resolve_eq_missing_iff.mp resolved
    have free := reached.free_of_absent (view_eq_none_iff.mpr absent)
    exact .inl ⟨directory ++ [name], landing?_eq_some_iff.mpr ⟨reached, free⟩, free, rfl, false,
      view_put free content false⟩

/-- A path that lands can be written. -/
theorem exists_writeFile (lands : w.landing? path = some r) (content : List UInt8) :
    ∃ w', w.writeFile path content = .ok w' := by
  unfold landing? at lands
  unfold writeFile
  split at lands
  case h_1 resolved => rw [resolved]; exact ⟨_, rfl⟩
  case h_2 resolved => rw [resolved]; exact ⟨_, rfl⟩
  case h_3 => cases lands

theorem Wrote.present (wrote : w.Wrote w' r content) :
    ∃ executable, view w'.root r = some (.file content executable) := by
  obtain ⟨executable, changed⟩ := wrote.changed
  exact ⟨executable, by rw [changed, withFile_self]⟩

theorem Wrote.of_ne (wrote : w.Wrote w' r content) {place : Place} (apart : place ≠ r) :
    view w'.root place = view w.root place := by
  obtain ⟨executable, changed⟩ := wrote.changed
  rw [changed, withFile_of_ne apart]

/-- A write moves no way of writing. -/
theorem Wrote.reaches_iff (wrote : w.Wrote w' r content) {place : Place} :
    w'.Reaches .write other place ↔ w.Reaches .write other place := by
  obtain ⟨executable, changed⟩ := wrote.changed
  constructor
  · rintro ⟨accepted, k, within, leads⟩
    rw [changed, wrote.here] at leads
    refine ⟨accepted, k, within, leads.before_put wrote.free ?_⟩
    -- a path has a step, and none can be taken from the new file
    intro same
    have directory := leads.directory_of_step (stepsOf_ne_nil other)
    rw [same, withFile_self] at directory
    cases directory
  · rintro ⟨accepted, k, within, leads⟩
    refine ⟨accepted, k, within, ?_⟩
    rw [changed, wrote.here]
    exact leads.after_put wrote.free

theorem Wrote.free_iff (wrote : w.Wrote w' r content) {place : Place} :
    Free (view w'.root) place ↔ Free (view w.root) place := by
  obtain ⟨executable, changed⟩ := wrote.changed
  rw [changed]
  by_cases same : place = r
  · rw [same]
    exact ⟨fun _ => wrote.free, fun _ => .inl ⟨content, executable, withFile_self⟩⟩
  · unfold Free
    rw [withFile_eq_directory_iff wrote.free, withFile_of_ne same]

/-- No write moves where a path lands. -/
theorem landing?_of_writeFile (written : w.writeFile path content = .ok w') :
    w'.landing? other = w.landing? other := by
  rcases writeFile_cases written with ⟨r, _, wrote⟩ | ⟨_, rfl⟩
  · ext place
    rw [landing?_eq_some_iff, landing?_eq_some_iff, wrote.reaches_iff, wrote.free_iff]
  · rfl

end

section

variable {w w' : World} {path other : String} {n r : Place} {content text : List UInt8}

theorem Reaches.find {purpose : Purpose} {shell : Shell} (reached : w.Reaches purpose path r)
    (present : view w.root r = some shell) (noLink : ∀ target, shell ≠ .link target) :
    w.Reaches .find path r := by
  obtain ⟨accepted, k, within, leads⟩ := reached
  exact ⟨accepted, k, within, leads.find present noLink⟩

theorem stat_eq_ok_iff {node : Node} :
    w.stat path = .ok (r, node) ↔ w.Reaches .find path r ∧ w.root.at? r = some node := by
  rw [← resolve_eq_found_iff, stat, bind_eq_ok_iff]
  constructor
  · rintro ⟨out, resolved, rest⟩
    split at rest
    case h_1 =>
      cases rest
      exact resolved
    case h_2 => cases rest
  · intro resolved
    exact ⟨_, resolved, rfl⟩

theorem readFile_eq_ok_iff :
    w.readFile path = .ok content ↔
      ∃ r shell, w.Reaches .find path r ∧ view w.root r = some shell ∧
        shell.content? = some content := by
  rw [readFile, bind_eq_ok_iff]
  constructor
  · rintro ⟨⟨r, node⟩, found, rest⟩
    obtain ⟨reached, present⟩ := stat_eq_ok_iff.mp found
    refine ⟨r, node.shell, reached, view_of_at? present, ?_⟩
    split at rest
    case h_1 same =>
      cases rest
      cases same
      rfl
    case h_2 same =>
      cases rest
      cases same
      rfl
    case h_3 => cases rest
  · rintro ⟨r, shell, reached, present, readable⟩
    obtain ⟨node, met, rfl⟩ := Option.map_eq_some_iff.mp present
    refine ⟨(r, node), stat_eq_ok_iff.mpr ⟨reached, met⟩, ?_⟩
    cases node with
    | file | device =>
      cases readable
      rfl
    | directory | link => cases readable

/-- A path leads to a file or a device that holds the content, and can be written. -/
structure Holds (w : World) (path : String) (n : Place) (content : List UInt8) : Prop where
  reached : w.Reaches .write path n
  data : ∃ shell, view w.root n = some shell ∧ shell.content? = some content

theorem Holds.readFile (holds : w.Holds path n content) : w.readFile path = .ok content := by
  obtain ⟨shell, present, readable⟩ := holds.data
  have noLink := (Shell.plain_of_content? readable).2
  exact readFile_eq_ok_iff.mpr ⟨n, shell, holds.reached.find present noLink, present, readable⟩

/-- What is written where a path lands is what the path holds. -/
theorem holds_of_landing (lands : w.landing? path = some n)
    (written : w.writeFile other text = .ok w') (onto : w.landing? other = some n) :
    w'.Holds path n text := by
  rcases writeFile_cases written with ⟨r, lands', wrote⟩ | ⟨⟨r, full, reached, present⟩, _⟩
  · cases Option.some.inj (onto.symm.trans lands')
    obtain ⟨executable, present⟩ := wrote.present
    exact ⟨wrote.reaches_iff.mpr (landing?_eq_some_iff.mp lands).1, _, present, rfl⟩
  · obtain ⟨reached', ⟨_, _, file⟩ | ⟨absent, _⟩⟩ := landing?_eq_some_iff.mp onto
    · cases reached.unique reached'
      cases file.symm.trans present
    · cases reached.unique reached'
      cases absent.symm.trans present

/-- A path that was written holds the content where it lands, or is a device that nothing can land
at. -/
theorem holds_of_writeFile (written : w.writeFile path content = .ok w') :
    ∃ n, (w.landing? path = some n ∧ w'.Holds path n content) ∨
      (¬ Free (view w.root) n ∧ w' = w ∧ w.Holds path n []) := by
  rcases writeFile_cases written with ⟨n, lands, _⟩ | ⟨⟨n, full, reached, present⟩, same⟩
  · exact ⟨n, .inl ⟨lands, holds_of_landing lands written lands⟩⟩
  · refine ⟨n, .inr ⟨?_, same, reached, _, present, rfl⟩⟩
    rintro (⟨_, _, file⟩ | ⟨absent, _⟩)
    · cases present.symm.trans file
    · cases present.symm.trans absent

/-- What a path holds stays as it is while other files are written. -/
theorem Holds.after_write (holds : w.Holds path n content)
    (written : w.writeFile other text = .ok w') (apart : w.landing? other ≠ some n) :
    w'.Holds path n content := by
  rcases writeFile_cases written with ⟨r, lands, wrote⟩ | ⟨_, rfl⟩
  · refine ⟨wrote.reaches_iff.mpr holds.reached, ?_⟩
    rw [wrote.of_ne]
    · exact holds.data
    · rintro rfl
      exact apart lands
  · exact holds

/-- No write takes what a path holds away. -/
theorem Holds.after_any_write (holds : w.Holds path n content)
    (written : w.writeFile other text = .ok w') : ∃ left, w'.Holds path n left := by
  by_cases onto : w.landing? other = some n
  · have free := (landing?_eq_some_iff.mp onto).2
    exact ⟨text, holds_of_landing (landing?_eq_some_iff.mpr ⟨holds.reached, free⟩) written onto⟩
  · exact ⟨content, holds.after_write written onto⟩

end

/-! Removing. -/

section

variable {w w' : World} {path other : String} {n r : Place} {content text : List UInt8}

theorem removeFile_cases (removed : w.removeFile path = .ok w') :
    ∃ q shell, w.Reaches .findItself path q ∧ view w.root q = some shell ∧ shell ≠ .directory ∧
      view w'.root = without (view w.root) q ∧ w'.here = w.here := by
  obtain ⟨out, resolved, rest⟩ := bind_eq_ok_iff.mp removed
  split at rest
  case h_1 => cases rest
  case h_2 q node noDirectory =>
    cases rest
    obtain ⟨reached, present⟩ := resolve_eq_found_iff.mp resolved
    have plain : node.shell ≠ .directory := by
      intro directory
      obtain ⟨entries, rfl⟩ := Node.shell_eq_directory_iff.mp directory
      exact noDirectory entries rfl
    have proper : q ≠ [] := by
      rintro rfl
      obtain ⟨_, _, _, leads⟩ := reached
      cases present
      exact plain (top_of_directory (leads.directory_of_step (stepsOf_ne_nil path)))
    exact ⟨q, node.shell, reached, view_of_at? present, plain,
      view_erase proper (view_of_at? present) plain, rfl⟩
  case h_3 => cases rest

/-- Removing what a path names leaves what others hold at other places. -/
theorem Holds.readFile_after_removal (holds : w.Holds path r content)
    (removed : w.removeFile other = .ok w') (elsewhere : w.Holds other n text) (apart : r ≠ n) :
    w'.readFile path = .ok content := by
  obtain ⟨q, _, ⟨_, _, _, itself⟩, met, plain, changed, here⟩ := removeFile_cases removed
  obtain ⟨found, there, readableThere⟩ := elsewhere.data
  obtain ⟨noDirectory, noLink⟩ := Shell.plain_of_content? readableThere
  obtain ⟨_, _, _, through⟩ := elsewhere.reached.find there noLink
  obtain ⟨shell, present, readable⟩ := holds.data
  have plainEnd := (Shell.plain_of_content? readable).2
  obtain ⟨accepted, k, within, leads⟩ := holds.reached.find present plainEnd
  obtain ⟨away, kept⟩ := Leads.kept_by_removal itself met plain through there noDirectory noLink
    leads present plainEnd apart
  rw [← changed, ← here] at kept
  refine readFile_eq_ok_iff.mpr ⟨r, shell, ⟨accepted, k, within, kept⟩, ?_, readable⟩
  rw [changed, without_of_ne away, present]

/-- After a removal nothing is read from a path but what it held before. -/
theorem Holds.eq_of_readFile_after_removal (holds : w.Holds path r content)
    (removed : w.removeFile other = .ok w') {left : List UInt8}
    (read : w'.readFile path = .ok left) : left = content := by
  obtain ⟨q, _, _, _, _, changed, here⟩ := removeFile_cases removed
  obtain ⟨r', found, ⟨_, _, _, leads⟩, met, leftThere⟩ := readFile_eq_ok_iff.mp read
  obtain ⟨shell, present, readable⟩ := holds.data
  obtain ⟨_, _, _, before⟩ := holds.reached.find present (Shell.plain_of_content? readable).2
  rw [changed, here] at leads
  rw [changed] at met
  -- the way after the removal is the way before it
  cases (leads.before_removal met).unique before
  cases Option.some.inj ((of_without met).symm.trans present)
  exact Option.some.inj (leftThere.symm.trans readable)

end

/-- Worlds with the same files, seen from the same directory. -/
def SameFiles (w w' : World) : Prop :=
  w'.root = w.root ∧ w'.here = w.here

theorem SameFiles.holds {w w' : World} (same : w.SameFiles w') {path : String} {n : Place}
    {content : List UInt8} (holds : w.Holds path n content) : w'.Holds path n content := by
  obtain ⟨⟨accepted, leads⟩, data⟩ := holds
  rw [← same.1] at leads data
  rw [← same.2] at leads
  exact ⟨⟨accepted, leads⟩, data⟩

end World

end ClassAtlas
