import ClassAtlas.Proofs.Discovery.Resources
import ClassAtlas.Proofs.Outcome
import Mathlib.Data.List.Infix

/-!
One entry of an archive. Its name tells what it is to a walk: a directory, a class, an archive of the
family, or something else. Main statements: what is needed of an entry of each kind, what it then
contributes, and how it fails otherwise.
-/

namespace ClassAtlas.Discovery

/-- The path of a name from which a start is taken off once, where it is there. -/
def IsWithout (start name path : String) : Prop :=
  name = start ++ path ∨ ¬ start.toList <+: name.toList ∧ path = name

/-- An archive whose last segment, in lower case, contains the name of the family. -/
def OfFamily (family name : String) : Prop :=
  (∃ ending ∈ Name.extension? name, Text.sameIgnoringCase ending "jar") ∧
    family.toList <:+: (Text.lowercase (String.ofList (Name.lastSegment name))).toList

inductive Role where
  | directory
  | classFile (name : String)
  /-- An archive that is visited. -/
  | archive
  | other (path : String)
  deriving DecidableEq

inductive HasRole (family start : String) (e : Zip.Entry) : Role → Prop
  | directory : e.isDirectory = true → HasRole family start e .directory
  | classFile {name : String} : e.isDirectory = false → IsWithout start e.name (name ++ ".class") →
      name ≠ "" → HasRole family start e (.classFile name)
  | archive {path : String} : e.isDirectory = false → IsWithout start e.name path →
      (∀ name, path = name ++ ".class" → name = "") → OfFamily family e.name →
      HasRole family start e .archive
  | other {path : String} : e.isDirectory = false → IsWithout start e.name path →
      (∀ name, path = name ++ ".class" → name = "") → ¬ OfFamily family e.name →
      HasRole family start e (.other path)

def roleOf (family start : String) (e : Zip.Entry) : Role :=
  if e.isDirectory then .directory
  else
    match Entry.className? (stripStart start e.name) with
    | some name => .classFile name
    | none => if isFamilyArchive family e.name then .archive else .other (stripStart start e.name)

section Roles

variable {family start : String} {e : Zip.Entry}

theorem stripStart_eq_iff {name path : String} :
    stripStart start name = path ↔ IsWithout start name path := by
  have split : name = start ++ path ↔ name.toList = start.toList ++ path.toList := by
    rw [← String.toList_inj, String.toList_append]
  unfold stripStart IsWithout
  rw [split]
  split
  case isTrue starts =>
    obtain ⟨rest, chars⟩ := List.isPrefixOf_iff_prefix.mp starts
    have dropped : name.toList.drop start.length = rest := by
      rw [← chars, ← String.length_toList, List.drop_left]
    rw [dropped, ← chars, List.append_cancel_left_eq, ← String.toList_inj, String.toList_ofList]
    constructor
    · exact .inl
    · intro paths
      cases paths with
      | inl same => exact same
      | inr other => exact absurd (List.prefix_append _ _) other.1
  case isFalse other =>
    have noStart : ¬ start.toList <+: name.toList := mt List.isPrefixOf_iff_prefix.mpr other
    constructor
    · intro same
      exact .inr ⟨noStart, same.symm⟩
    · intro paths
      cases paths with
      | inl starts => exact absurd ⟨_, starts.symm⟩ noStart
      | inr same => exact same.2.symm

theorem occursIn_iff {part text : List Char} : occursIn part text ↔ part <:+: text := by
  induction text with
  | nil => rw [occursIn, List.isEmpty_iff, List.infix_nil]
  | cons c rest ih =>
      rw [occursIn, Bool.or_eq_true, List.isPrefixOf_iff_prefix, ih, List.infix_cons_iff]

theorem isFamilyArchive_iff {name : String} : isFamilyArchive family name ↔ OfFamily family name := by
  simp only [isFamilyArchive, OfFamily, Bool.and_eq_true, Option.any_eq_true, occursIn_iff,
    Option.mem_def]

theorem className?_eq_none_iff {path : String} :
    Entry.className? path = none ↔ ∀ name, path = name ++ ".class" → name = "" := by
  rw [Option.eq_none_iff_forall_ne_some]
  refine forall_congr' fun name => ?_
  rw [Ne, Entry.className?_eq_some_iff]
  tauto

theorem hasRole_iff {role : Role} : HasRole family start e role ↔ roleOf family start e = role := by
  unfold roleOf
  constructor
  · intro has
    cases has with
    | directory isDirectory => rw [if_pos isDirectory]
    | classFile file path named =>
        rw [stripStart_eq_iff.mpr path, Entry.className?_eq_some_iff.mpr ⟨named, rfl⟩, file]
        rfl
    | archive file path noClass isFamily =>
        rw [stripStart_eq_iff.mpr path, className?_eq_none_iff.mpr noClass, file,
          isFamilyArchive_iff.mpr isFamily]
        rfl
    | other file path noClass noFamily =>
        rw [stripStart_eq_iff.mpr path, className?_eq_none_iff.mpr noClass, file]
        exact if_neg (mt isFamilyArchive_iff.mp noFamily)
  · intro same
    subst same
    split
    case isTrue isDirectory => exact .directory isDirectory
    case isFalse file =>
      have file : e.isDirectory = false := Bool.eq_false_iff.mpr file
      have path := stripStart_eq_iff.mp (rfl : stripStart start e.name = _)
      split
      case h_1 name found =>
        obtain ⟨named, whole⟩ := Entry.className?_eq_some_iff.mp found
        rw [whole] at path
        exact .classFile file path named
      case h_2 noClass =>
        have noClass := className?_eq_none_iff.mp noClass
        split
        case isTrue isFamily => exact .archive file path noClass (isFamilyArchive_iff.mp isFamily)
        case isFalse noFamily => exact .other file path noClass (mt isFamilyArchive_iff.mpr noFamily)

instance (role : Role) : Decidable (HasRole family start e role) :=
  decidable_of_iff _ hasRole_iff.symm

theorem HasRole.unique {role other : Role} (has : HasRole family start e role)
    (also : HasRole family start e other) : role = other :=
  (hasRole_iff.mp has).symm.trans (hasRole_iff.mp also)

theorem HasRole.ofFamily (has : HasRole family start e .archive) : OfFamily family e.name := by
  cases has with
  | archive _ _ _ isFamily => exact isFamily

end Roles

/-! What is needed of one entry, what it contributes, and how it fails. `inside` speaks of what is in
the entry, where that is an archive that is visited. -/

/-- The bytes that an entry holds, if it can be opened and read. -/
def Gives (e : Zip.Entry) (bytes : List UInt8) : Prop :=
  ∃ data, e.opened = .ok data ∧ e.content data = .ok bytes

/-- The bytes of other entries do not matter. -/
def Role.NeedsBytes : Role → Prop
  | .directory => False
  | .classFile _ => True
  | .archive => True
  | .other _ => False

/-- Every entry is opened, whatever it is. -/
structure EntryReadable (family start : String) (e : Zip.Entry) (inside : Prop) : Prop where
  opened : ∃ data, e.opened = .ok data
  bytes (role : Role) : HasRole family start e role → role.NeedsBytes → ∃ bytes, Gives e bytes
  archive : HasRole family start e .archive →
    (∃ bytes archive, Gives e bytes ∧ Zip.Archive.read bytes = .ok archive) ∧ inside

inductive Contributes (rules : List ResourceRule) (family start : String) (e : Zip.Entry)
    (inside : List Entry → Prop) : List Entry → Prop
  | directory : HasRole family start e .directory → Contributes rules family start e inside []
  | classFile {name : String} {bytes : List UInt8} : HasRole family start e (.classFile name) →
      Gives e bytes →
      Contributes rules family start e inside [{ name := name, kind := .classBytes bytes }]
  | archive {found : List Entry} : HasRole family start e .archive → inside found →
      Contributes rules family start e inside found
  | other {path : String} : HasRole family start e (.other path) →
      Contributes rules family start e inside (resourceOf? rules path).toList

inductive EntryFails (family start label : String) (e : Zip.Entry) (inside : Failure → Prop) :
    Failure → Prop
  | unopened {cause : Zip.Error} : e.opened = .error cause →
      EntryFails family start label e inside (.archiveUnreadable label cause.message)
  | unread {role : Role} {data : List UInt8} {cause : Zip.ReadError} : HasRole family start e role →
      role.NeedsBytes → e.opened = .ok data → e.content data = .error cause →
      EntryFails family start label e inside (.archiveEntryUnreadable label e.name cause.message)
  | noArchive {bytes : List UInt8} {cause : Zip.Error} : HasRole family start e .archive →
      Gives e bytes → Zip.Archive.read bytes = .error cause →
      EntryFails family start label e inside
        (.archiveUnreadable (label ++ "!/" ++ e.name) cause.message)
  | inside {bytes : List UInt8} {archive : Zip.Archive} {failure : Failure} :
      HasRole family start e .archive → Gives e bytes → Zip.Archive.read bytes = .ok archive →
      inside failure → EntryFails family start label e inside failure

section Contributions

variable {rules : List ResourceRule} {family start label : String} {e : Zip.Entry}
  {data bytes : List UInt8} {enter : String → Zip.Archive → Except Failure (List Entry)}

theorem readEntry_eq_ok_iff (opened : e.opened = .ok data) :
    readEntry label e data = .ok bytes ↔ Gives e bytes := by
  simp only [readEntry, Gives, opened, Except.ok.injEq, exists_eq_left']
  cases e.content data <;> simp

theorem readEntry_eq_error_iff {failure : Failure} :
    readEntry label e data = .error failure ↔
      ∃ cause, e.content data = .error cause ∧
        .archiveEntryUnreadable label e.name cause.message = failure := by
  unfold readEntry
  cases e.content data <;> simp

theorem openArchive_eq_ok_iff {archive : Zip.Archive} :
    openArchive label bytes = .ok archive ↔ Zip.Archive.read bytes = .ok archive := by
  unfold openArchive
  cases Zip.Archive.read bytes <;> simp

theorem openArchive_eq_error_iff {failure : Failure} :
    openArchive label bytes = .error failure ↔
      ∃ cause, Zip.Archive.read bytes = .error cause ∧
        .archiveUnreadable label cause.message = failure := by
  unfold openArchive
  cases Zip.Archive.read bytes <;> simp

theorem examine_of_unopened {cause : Zip.Error} (unopened : e.opened = .error cause) :
    examine rules family start label e = .error (.archiveUnreadable label cause.message) := by
  rw [examine, unopened]
  rfl

def Role.finding (rules : List ResourceRule) (label : String) (e : Zip.Entry) (data : List UInt8) :
    Role → Except Failure Finding
  | .directory => return .entries []
  | .classFile name => do
    return .entries [{ name := name, kind := .classBytes (← readEntry label e data) }]
  | .archive => do
    let inner := nestedLabel label e.name
    return .archive inner (← openArchive inner (← readEntry label e data))
  | .other path => return .entries (resourceOf? rules path).toList

theorem examine_of_opened (opened : e.opened = .ok data) :
    examine rules family start label e = (roleOf family start e).finding rules label e data := by
  simp only [examine, opened, roleOf]
  cases e.isDirectory with
  | true => rfl
  | false =>
      cases Entry.className? (stripStart start e.name) with
      | some name => rfl
      | none => cases isFamilyArchive family e.name <;> rfl

theorem examine_of_role {role : Role} (opened : e.opened = .ok data)
    (has : HasRole family start e role) :
    examine rules family start label e = role.finding rules label e data := by
  rw [examine_of_opened opened, hasRole_iff.mp has]

/-! What an entry of each role contributes. -/

theorem contribution_of_unopened {cause : Zip.Error} (unopened : e.opened = .error cause) :
    contribution rules family enter start label e =
      .error (.archiveUnreadable label cause.message) := by
  rw [contribution, examine_of_unopened unopened]
  rfl

theorem contribution_directory (opened : e.opened = .ok data)
    (has : HasRole family start e .directory) :
    contribution rules family enter start label e = .ok [] := by
  rw [contribution, examine_of_role opened has]
  rfl

theorem contribution_classFile {name : String} (opened : e.opened = .ok data)
    (has : HasRole family start e (.classFile name)) :
    contribution rules family enter start label e =
      readEntry label e data >>= fun bytes =>
        pure [{ name := name, kind := .classBytes bytes }] := by
  rw [contribution, examine_of_role opened has]
  simp only [Role.finding, bind_assoc, pure_bind]

theorem contribution_archive (opened : e.opened = .ok data)
    (has : HasRole family start e .archive) :
    contribution rules family enter start label e =
      readEntry label e data >>= fun bytes =>
        openArchive (nestedLabel label e.name) bytes >>= enter (nestedLabel label e.name) := by
  rw [contribution, examine_of_role opened has]
  simp only [Role.finding, bind_assoc, pure_bind]

theorem contribution_other {path : String} (opened : e.opened = .ok data)
    (has : HasRole family start e (.other path)) :
    contribution rules family enter start label e = .ok (resourceOf? rules path).toList := by
  rw [contribution, examine_of_role opened has]
  rfl

variable {readable : Prop} {flattened : List Entry → Prop} {fails : Failure → Prop}

theorem EntryReadable.of_role {role : Role} (opened : e.opened = .ok data)
    (has : HasRole family start e role) (bytes : role.NeedsBytes → ∃ bytes, Gives e bytes)
    (archive : role = .archive →
      (∃ bytes archive, Gives e bytes ∧ Zip.Archive.read bytes = .ok archive) ∧ readable) :
    EntryReadable family start e readable where
  opened := ⟨data, opened⟩
  bytes other also needs := by
    cases has.unique also
    exact bytes needs
  archive also := archive (has.unique also)

theorem contribution_eq_ok_iff {here : List Entry}
    (entered : ∀ bytes archive, HasRole family start e .archive → Gives e bytes →
      Zip.Archive.read bytes = .ok archive →
        ∀ found, enter (nestedLabel label e.name) archive = .ok found ↔ readable ∧ flattened found) :
    contribution rules family enter start label e = .ok here ↔
      EntryReadable family start e readable ∧ Contributes rules family start e flattened here := by
  constructor
  · intro ran
    cases opened : e.opened with
    | error cause =>
        rw [contribution_of_unopened opened] at ran
        cases ran
    | ok data =>
        have has : HasRole family start e (roleOf family start e) := hasRole_iff.mpr rfl
        cases role : roleOf family start e with
        | directory =>
            rw [role] at has
            rw [contribution_directory opened has] at ran
            cases ran
            exact ⟨.of_role opened has False.elim nofun, .directory has⟩
        | classFile name =>
            rw [role] at has
            rw [contribution_classFile opened has] at ran
            obtain ⟨bytes, read, same⟩ := bind_eq_ok_iff.mp ran
            cases same
            have gives := (readEntry_eq_ok_iff opened).mp read
            exact ⟨.of_role opened has (fun _ => ⟨bytes, gives⟩) nofun, .classFile has gives⟩
        | archive =>
            rw [role] at has
            rw [contribution_archive opened has] at ran
            obtain ⟨bytes, read, ran⟩ := bind_eq_ok_iff.mp ran
            obtain ⟨archive, opens, ran⟩ := bind_eq_ok_iff.mp ran
            have gives := (readEntry_eq_ok_iff opened).mp read
            have opens := openArchive_eq_ok_iff.mp opens
            obtain ⟨inside, found⟩ := (entered bytes archive has gives opens here).mp ran
            exact ⟨.of_role opened has (fun _ => ⟨bytes, gives⟩)
              fun _ => ⟨⟨bytes, archive, gives, opens⟩, inside⟩, .archive has found⟩
        | other path =>
            rw [role] at has
            rw [contribution_other opened has] at ran
            cases ran
            exact ⟨.of_role opened has False.elim nofun, .other has⟩
  · intro ⟨needed, contributes⟩
    obtain ⟨data, opened⟩ := needed.opened
    cases contributes with
    | directory has => exact contribution_directory opened has
    | classFile has gives =>
        rw [contribution_classFile opened has, (readEntry_eq_ok_iff opened).mpr gives]
        rfl
    | archive has found =>
        obtain ⟨⟨bytes, archive, gives, opens⟩, inside⟩ := needed.archive has
        rw [contribution_archive opened has, bind_eq_ok_iff]
        refine ⟨bytes, (readEntry_eq_ok_iff opened).mpr gives, ?_⟩
        rw [bind_eq_ok_iff]
        exact ⟨archive, openArchive_eq_ok_iff.mpr opens,
          (entered bytes archive has gives opens here).mpr ⟨inside, found⟩⟩
    | other has => exact contribution_other opened has

theorem contribution_eq_error_iff {failure : Failure}
    (entered : ∀ bytes archive, HasRole family start e .archive → Gives e bytes →
      Zip.Archive.read bytes = .ok archive →
        ∀ failure, enter (nestedLabel label e.name) archive = .error failure ↔ fails failure) :
    contribution rules family enter start label e = .error failure ↔
      EntryFails family start label e fails failure := by
  constructor
  · intro failed
    cases opened : e.opened with
    | error cause =>
        rw [contribution_of_unopened opened] at failed
        cases failed
        exact .unopened opened
    | ok data =>
        have has : HasRole family start e (roleOf family start e) := hasRole_iff.mpr rfl
        cases role : roleOf family start e with
        | directory =>
            rw [role] at has
            rw [contribution_directory opened has] at failed
            cases failed
        | classFile name =>
            rw [role] at has
            rw [contribution_classFile opened has, bind_eq_error_iff] at failed
            rcases failed with failed | ⟨bytes, -, wrong⟩
            · obtain ⟨cause, unread, rfl⟩ := readEntry_eq_error_iff.mp failed
              exact .unread has trivial opened unread
            · cases wrong
        | archive =>
            rw [role] at has
            rw [contribution_archive opened has, bind_eq_error_iff] at failed
            rcases failed with failed | ⟨bytes, read, failed⟩
            · obtain ⟨cause, unread, rfl⟩ := readEntry_eq_error_iff.mp failed
              exact .unread has trivial opened unread
            · have gives := (readEntry_eq_ok_iff opened).mp read
              rcases bind_eq_error_iff.mp failed with failed | ⟨archive, opens, failed⟩
              · obtain ⟨cause, noArchive, rfl⟩ := openArchive_eq_error_iff.mp failed
                exact .noArchive has gives noArchive
              · have opens := openArchive_eq_ok_iff.mp opens
                exact .inside has gives opens ((entered bytes archive has gives opens failure).mp failed)
        | other path =>
            rw [role] at has
            rw [contribution_other opened has] at failed
            cases failed
  · intro failed
    cases failed with
    | unopened unopened => exact contribution_of_unopened unopened
    | @unread role data cause has needs opened unread =>
        have failed : readEntry label e data =
            .error (.archiveEntryUnreadable label e.name cause.message) :=
          readEntry_eq_error_iff.mpr ⟨cause, unread, rfl⟩
        cases role with
        | directory => exact needs.elim
        | classFile name => rw [contribution_classFile opened has, failed]; rfl
        | archive => rw [contribution_archive opened has, failed]; rfl
        | other path => exact needs.elim
    | @noArchive bytes cause has gives noArchive =>
        obtain ⟨data, opened, -⟩ := id gives
        rw [contribution_archive opened has, bind_eq_error_iff]
        refine .inr ⟨bytes, (readEntry_eq_ok_iff opened).mpr gives, ?_⟩
        rw [bind_eq_error_iff]
        exact .inl (openArchive_eq_error_iff.mpr ⟨cause, noArchive, rfl⟩)
    | @inside bytes archive _ has gives opens failed =>
        have failed := (entered bytes archive has gives opens failure).mpr failed
        obtain ⟨data, opened, -⟩ := id gives
        rw [contribution_archive opened has, bind_eq_error_iff]
        refine .inr ⟨bytes, (readEntry_eq_ok_iff opened).mpr gives, ?_⟩
        rw [bind_eq_error_iff]
        exact .inr ⟨archive, openArchive_eq_ok_iff.mpr opens, failed⟩

theorem EntryReadable.exists_contributes (needed : EntryReadable family start e readable)
    (inside : readable → ∃ found, flattened found) :
    ∃ here, Contributes rules family start e flattened here := by
  have has : HasRole family start e (roleOf family start e) := hasRole_iff.mpr rfl
  cases role : roleOf family start e with
  | directory => exact ⟨_, .directory (role ▸ has)⟩
  | classFile name =>
      rw [role] at has
      obtain ⟨bytes, gives⟩ := needed.bytes _ has trivial
      exact ⟨_, .classFile has gives⟩
  | archive =>
      rw [role] at has
      obtain ⟨here, found⟩ := inside (needed.archive has).2
      exact ⟨here, .archive has found⟩
  | other path => exact ⟨_, .other (role ▸ has)⟩

end Contributions

end ClassAtlas.Discovery
