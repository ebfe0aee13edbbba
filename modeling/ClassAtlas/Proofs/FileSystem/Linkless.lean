import ClassAtlas.Proofs.FileSystem.Path
import ClassAtlas.Proofs.FileSystem.Writing

/-!
Files without links. Where no link stands a path names one place by its text alone, so that what is
done to a path changes one place that is known before. Main statement: writing or removing a path
changes nothing but what stands at its place.
-/

namespace ClassAtlas

namespace FileSystem

/-- No link stands at any place. -/
def Linkless (v : Place → Option Shell) : Prop :=
  ∀ place target, v place ≠ some (.link target)

theorem linkless_file (content : List UInt8) (executable : Bool) :
    Linkless (view (.file content executable)) := by
  intro place target link
  cases place with
  | nil => cases link
  | cons => cases link

theorem linkless_directory {entries : List (String × Node)}
    (inner : ∀ entry ∈ entries, Linkless (view entry.2)) : Linkless (view (.directory entries)) := by
  intro place target link
  cases place with
  | nil => cases link
  | cons name rest =>
    rw [view_cons] at link
    obtain ⟨child, found, below⟩ := Option.bind_eq_some_iff.mp link
    obtain ⟨before, after, same, -⟩ := List.lookup_eq_some_iff.mp found
    rw [Node.entries_directory] at same
    refine inner (name, child) ?_ rest target below
    rw [same]
    exact List.mem_append_right _ List.mem_cons_self

/-- Where a step leads if it meets no link. -/
def advance (place : Place) (step : String) : Place :=
  if step = "." ∨ step = "" then place
  else if step = ".." then place.dropLast
  else place ++ [step]

section

variable {v : Place → Option Shell} {purpose : Purpose} {k : Nat} {p r : Place} {step : String}
  {steps rest : List String}

theorem advance_void (void : step = "." ∨ step = "") : advance p step = p :=
  if_pos void

theorem advance_named (moves : ¬ (step = "." ∨ step = "")) (notUp : step ≠ "..") :
    advance p step = p ++ [step] := by
  rw [advance, if_neg moves, if_neg notUp]

theorem Named.advance (named : Named purpose step rest) : advance p step = p ++ [step] :=
  advance_named (not_or.mpr ⟨named.notHere, named.notEmpty⟩) named.notUp

/-- Without links, steps lead where their names say. -/
theorem Leads.eq_foldl (linkless : Linkless v) (leads : Leads v purpose k p steps r) :
    r = steps.foldl FileSystem.advance p := by
  induction leads with
  | arrived => rfl
  | stays _ void _ ih => rw [List.foldl_cons, advance_void void, ih]
  | climbs _ _ ih => rw [ih]; rfl
  | enters _ named _ _ _ ih => rw [List.foldl_cons, named.advance, ih]
  | follows _ _ link | stops _ _ _ link => exact absurd link (linkless _ _)
  | lacks _ named _ last =>
    rw [List.foldl_cons, named.advance]
    rcases last with rfl | rfl <;> rfl

/-- A way stays whatever is done at one place that is not its end, unless a directory is taken away
there. -/
theorem Leads.kept_but_at {v' : Place → Option Shell} {q : Place} {shell : Shell}
    (linkless : Linkless v) (elsewhere : ∀ place, place ≠ q → v' place = v place)
    (directoryStays : v q = some .directory → v' q = some .directory)
    (leads : Leads v purpose k p steps r) (present : v r = some shell) (apart : r ≠ q) :
    Leads v' .findItself k p steps r := by
  have stays {place : Place} (directory : v place = some .directory) :
      v' place = some .directory := by
    by_cases same : place = q
    · rw [same] at directory ⊢
      exact directoryStays directory
    · rw [elsewhere place same, directory]
  induction leads with
  | arrived met => exact .arrived (by rw [elsewhere _ apart, met])
  | stays directory void _ ih => exact .stays (stays directory) void (ih present apart)
  | climbs directory _ ih => exact .climbs (stays directory) (ih present apart)
  | @enters k p r step rest found directory named met noLink on ih =>
    have named : Named .findItself step rest := { named with noSlash := fun write => nomatch write }
    by_cases same : p ++ [step] = q
    · by_cases inner : found = .directory
      · rw [inner] at met
        exact .enters (stays directory) named (stays met) nofun (ih present apart)
      · -- what is no directory ends the way
        exact absurd ((on.eq_of_plain met inner).2.2.trans same) apart
    · exact .enters (stays directory) named (by rw [elsewhere _ same, met]) noLink (ih present apart)
  | follows _ _ link | stops _ _ _ link => exact absurd link (linkless _ _)
  | lacks _ _ absent => cases absent.symm.trans present

theorem void_iff : Path.isVoid step.toList = true ↔ step = "." ∨ step = "" := by
  have dot : ['.'] = ".".toList := rfl
  rw [Path.isVoid_eq_true_iff, String.toList_eq_nil_iff, dot, String.toList_inj, or_comm]

theorem advance_plain (plain : Path.Plain step) (p : Place) : advance p step = p ++ [step] := by
  refine advance_named (fun void => ?_) plain.notUp
  cases plain.named.symm.trans (void_iff.mpr void)

theorem foldl_advance_filter (steps : List String) (p : Place) :
    (steps.filter (!Path.isVoid ·.toList)).foldl advance p = steps.foldl advance p := by
  induction steps generalizing p with
  | nil => rfl
  | cons step rest ih =>
    cases void : Path.isVoid step.toList with
    | true =>
      rw [List.filter_cons_of_neg (by simp [void]), List.foldl_cons,
        advance_void (void_iff.mp void), ih]
    | false => rw [List.filter_cons_of_pos (by simp [void]), List.foldl_cons, List.foldl_cons, ih]

end

theorem filter_splitAll (path : String) :
    (Text.splitAll '/' path.toList).filter (!Path.isVoid ·) =
      (Path.parts (Path.headAndBody path).2).filter (!Path.isVoid ·) := by
  have whole (body : List Char) : (Path.parts body).filter (!Path.isVoid ·) =
      (Text.splitAll '/' body).filter (!Path.isVoid ·) := by
    unfold Path.parts
    split
    case isTrue empty => rw [List.isEmpty_iff.mp empty]; rfl
    case isFalse => rfl
  rw [whole]
  unfold Path.headAndBody
  split
  case h_1 rest slash => rw [slash, Text.splitAll_separator]; rfl
  case h_2 dot => rw [dot]; rfl
  case h_3 rest dotSlash =>
    rw [dotSlash, ← List.singleton_append, Text.splitAll_append (by decide), Text.splitAll_separator]
    rfl
  case h_4 => rfl

/-- The steps of a path that move are its named parts. -/
theorem filter_stepsOf (path : String) :
    (stepsOf path).filter (!Path.isVoid ·.toList) = Path.steps path := by
  have named : (((Text.splitAll '/' path.toList).filter (!·.isEmpty)).map String.ofList).filter
      (!Path.isVoid ·.toList) = Path.steps path := by
    rw [List.filter_map, List.filter_filter, Path.steps, ← filter_splitAll]
    congr 1
    refine List.filter_congr fun part _ => ?_
    cases part with
    | nil => rfl
    | cons => simp
  unfold stepsOf
  simp only
  split
  case isTrue =>
    rw [List.filter_append, named]
    exact List.append_nil _
  case isFalse => exact named

end FileSystem

open FileSystem

namespace World

/-- The place that a path names where no link is met. -/
def placeOf (w : World) (path : String) : Place :=
  (stepsOf path).foldl advance (startOf w.here path)

section

variable {w w' : World} {path old name : String} {purpose : Purpose} {r : Place}

theorem placeOf_eq (w : World) (path : String) :
    w.placeOf path = (Path.steps path).foldl advance (startOf w.here path) := by
  rw [placeOf, ← filter_stepsOf, foldl_advance_filter]

theorem placeOf_of_here (same : w'.here = w.here) (path : String) :
    w'.placeOf path = w.placeOf path := by
  rw [placeOf, placeOf, same]

theorem Reaches.eq_placeOf (reached : w.Reaches purpose path r)
    (linkless : Linkless (view w.root)) : r = w.placeOf path := by
  obtain ⟨_, _, _, leads⟩ := reached
  exact leads.eq_foldl linkless

/-- Two names in one directory are at two places. -/
theorem placeOf_beside (w : World) (last : Path.fileName? path = some old) (plain : Path.Plain name)
    (different : name ≠ old) : w.placeOf (Path.beside path name) ≠ w.placeOf path := by
  obtain ⟨above, stepsHere, stepsThere⟩ := Path.steps_beside last plain
  have start : startOf w.here (Path.beside path name) = startOf w.here path := by
    have absolute := Path.isAbsolute_beside last plain
    unfold Path.isAbsolute at absolute
    rw [startOf, startOf, absolute]
  rw [placeOf_eq, placeOf_eq, stepsHere, stepsThere, start, List.foldl_concat, List.foldl_concat,
    advance_plain plain, advance_plain (Path.plain_of_fileName? last)]
  intro same
  exact different (List.cons.inj (List.append_cancel_left same)).1

end

/-- A world in which nothing is changed but what stands at the places of some paths. -/
structure ChangedOnly (w w' : World) (paths : List String) : Prop where
  here : w'.here = w.here
  elsewhere : ∀ place, (∀ path ∈ paths, place ≠ w.placeOf path) →
    view w'.root place = view w.root place

section

variable {w w' w'' : World} {path : String} {paths others : List String} {content : List UInt8}

theorem ChangedOnly.refl (w : World) (paths : List String) : w.ChangedOnly w paths :=
  ⟨rfl, fun _ _ => rfl⟩

theorem ChangedOnly.trans (one : w.ChangedOnly w' paths) (two : w'.ChangedOnly w'' others) :
    w.ChangedOnly w'' (paths ++ others) := by
  refine ⟨two.here.trans one.here, fun place apart => ?_⟩
  rw [two.elsewhere place, one.elsewhere place]
  · intro path listed
    exact apart path (List.mem_append_left _ listed)
  · intro path listed
    rw [placeOf_of_here one.here]
    exact apart path (List.mem_append_right _ listed)

theorem ChangedOnly.mono (one : w.ChangedOnly w' paths) (within : paths ⊆ others) :
    w.ChangedOnly w' others :=
  ⟨one.here, fun place apart => one.elsewhere place fun path listed => apart path (within listed)⟩

theorem writeFile_changes (linkless : Linkless (view w.root))
    (written : w.writeFile path content = .ok w') :
    w.ChangedOnly w' [path] ∧ Linkless (view w'.root) := by
  rcases writeFile_cases written with ⟨r, lands, wrote⟩ | ⟨_, rfl⟩
  · obtain ⟨reached, _⟩ := landing?_eq_some_iff.mp lands
    refine ⟨⟨wrote.here, fun place apart => wrote.of_ne ?_⟩, fun place target => ?_⟩
    · rw [reached.eq_placeOf linkless]
      exact apart path List.mem_cons_self
    · obtain ⟨executable, changed⟩ := wrote.changed
      rw [changed, Ne, withFile_eq_link_iff wrote.free]
      exact linkless place target
  · exact ⟨.refl _ _, linkless⟩

theorem removeFile_changes (linkless : Linkless (view w.root))
    (removed : w.removeFile path = .ok w') :
    w.ChangedOnly w' [path] ∧ Linkless (view w'.root) ∧ view w'.root (w.placeOf path) = none := by
  obtain ⟨q, shell, reached, _, _, changed, here⟩ := removeFile_cases removed
  cases reached.eq_placeOf linkless
  refine ⟨⟨here, fun place apart => ?_⟩, fun place target link => ?_, ?_⟩
  · rw [changed, without_of_ne (apart path List.mem_cons_self)]
  · rw [changed] at link
    exact linkless place target (of_without link)
  · rw [changed, without_self]

/-- What a path holds can be removed also after a change at another place, unless a directory is taken
away there. -/
theorem ChangedOnly.removable {other : String} {r : Place} (changed : w.ChangedOnly w' [other])
    (linkless : Linkless (view w.root)) (holds : w.Holds path r content)
    (apart : w.placeOf path ≠ w.placeOf other)
    (directoryStays : view w.root (w.placeOf other) = some .directory →
      view w'.root (w.placeOf other) = some .directory) :
    ∃ rest, w'.removeFile path = .ok rest := by
  obtain ⟨⟨accepted, k, within, leads⟩, shell, present, readable⟩ := holds
  have away : r ≠ w.placeOf other := by
    rw [leads.eq_foldl linkless]
    exact apart
  have elsewhere (place : Place) (different : place ≠ w.placeOf other) :
      view w'.root place = view w.root place := by
    apply changed.elsewhere
    intro path listed
    rw [List.mem_singleton.mp listed]
    exact different
  have itself := leads.kept_but_at linkless elsewhere directoryStays present away
  rw [← changed.here] at itself
  rw [← elsewhere r away] at present
  obtain ⟨node, met, rfl⟩ := Option.map_eq_some_iff.mp present
  have found := resolve_eq_found_iff.mpr ⟨⟨accepted, k, within, itself⟩, met⟩
  unfold removeFile
  rw [found]
  cases node with
  | directory => cases readable
  | file | link | device => exact ⟨_, rfl⟩

/-- Where nothing stands at its place, a path does not exist. -/
theorem pathExists_of_absent (linkless : Linkless (view w.root))
    (absent : view w.root (w.placeOf path) = none) : w.pathExists path = false := by
  rw [pathExists]
  cases found : w.stat path with
  | error => rfl
  | ok there =>
    obtain ⟨r, node⟩ := there
    obtain ⟨reached, present⟩ := stat_eq_ok_iff.mp found
    cases reached.eq_placeOf linkless
    cases absent.symm.trans (view_of_at? present)

end

end World

end ClassAtlas
