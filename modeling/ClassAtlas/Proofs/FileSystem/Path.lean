import ClassAtlas.FileSystem.Path
import ClassAtlas.Proofs.Text.Cut
import Mathlib.Data.List.DropRight

/-!
Paths that lie in one directory. A path is a head and the parts after it, and the text of its parent
is read back with the same head. Main statement: a name that is put in the place of a path's last
name gives a path with the same parent, which takes the same steps up to that name.
-/

namespace ClassAtlas.Path

section

variable {part next name : List Char} {rest list : List (List Char)}

@[simp] theorem joinParts_nil : joinParts [] = [] :=
  rfl

@[simp] theorem joinParts_singleton (part : List Char) : joinParts [part] = part := by
  simp [joinParts, Text.joinWith]

theorem joinParts_cons (part next : List Char) (rest : List (List Char)) :
    joinParts (part :: next :: rest) = part ++ '/' :: joinParts (next :: rest) := by
  simp [joinParts, Text.joinWith]

theorem joinParts_concat (proper : list ≠ []) (name : List Char) :
    joinParts (list ++ [name]) = joinParts list ++ '/' :: name := by
  induction list with
  | nil => exact absurd rfl proper
  | cons part rest ih =>
    cases rest with
    | nil => rw [List.singleton_append, joinParts_cons, joinParts_singleton, joinParts_singleton]
    | cons next rest =>
      have below := ih (List.cons_ne_nil next rest)
      rw [List.cons_append] at below
      rw [List.cons_append, List.cons_append, joinParts_cons, below, joinParts_cons,
        List.append_assoc, List.cons_append]

theorem splitAll_joinParts (proper : list ≠ []) (free : ∀ part ∈ list, '/' ∉ part) :
    Text.splitAll '/' (joinParts list) = list := by
  induction list with
  | nil => exact absurd rfl proper
  | cons part rest ih =>
    have first := free part List.mem_cons_self
    cases rest with
    | nil =>
      rw [joinParts_singleton]
      exact Text.splitAll_of_not_mem first
    | cons next rest =>
      rw [joinParts_cons, Text.splitAll_append first,
        ih (List.cons_ne_nil next rest) fun later found => free later (List.mem_cons_of_mem _ found)]

theorem joinParts_splitAll (text : List Char) : joinParts (Text.splitAll '/' text) = text := by
  induction text with
  | nil => rfl
  | cons c text ih =>
    obtain ⟨part, rest, split⟩ := List.exists_cons_of_ne_nil (Text.splitAll_ne_nil '/' text)
    rw [split] at ih
    by_cases slash : c = '/'
    · rw [slash, Text.splitAll_separator, split, joinParts_cons, ih, List.nil_append]
    · rw [Text.splitAll_cons_of_ne slash split]
      cases rest with
      | nil =>
        rw [joinParts_singleton] at ih ⊢
        rw [ih]
      | cons next rest =>
        rw [joinParts_cons] at ih ⊢
        rw [List.cons_append, ih]

theorem joinParts_parts (body : List Char) : joinParts (parts body) = body := by
  unfold parts
  split
  case isTrue empty => exact (List.isEmpty_iff.mp empty).symm
  case isFalse => exact joinParts_splitAll body

theorem not_mem_of_mem_parts {body : List Char} (found : part ∈ parts body) : '/' ∉ part := by
  unfold parts at found
  split at found
  case isTrue => cases found
  case isFalse => exact Text.not_mem_of_mem_splitAll found

end

/-- A head, and parts that may follow it. -/
inductive Opens : List Char → List (List Char) → Prop
  | root (rest : List (List Char)) : Opens ['/'] rest
  | dot : Opens ['.'] []
  | dotSlash (rest : List (List Char)) : Opens ['.'] ([] :: rest)
  | nothing : Opens [] []
  | named {first : List Char} (name : isVoid first = false) (rest : List (List Char)) :
      Opens [] (first :: rest)

theorem isVoid_eq_true_iff {part : List Char} : isVoid part = true ↔ part = [] ∨ part = ['.'] := by
  simp [isVoid]

/-- Parts start with the first of them, and then ends the text or a slash stands. -/
theorem joinParts_first (first : List Char) (rest : List (List Char)) :
    ∃ after, joinParts (first :: rest) = first ++ after ∧
      (after = [] ∨ ∃ more, after = '/' :: more) := by
  cases rest with
  | nil => exact ⟨[], by rw [joinParts_singleton, List.append_nil], .inl rfl⟩
  | cons next rest => exact ⟨_, joinParts_cons first next rest, .inr ⟨_, rfl⟩⟩

theorem opens_headAndBody (path : String) :
    Opens (headAndBody path).1 (parts (headAndBody path).2) := by
  unfold headAndBody
  split
  case h_1 => exact .root _
  case h_2 => exact .dot
  case h_3 rest _ =>
    have split : parts ('/' :: rest) = [] :: Text.splitAll '/' rest :=
      Text.splitAll_separator '/' rest
    rw [split]
    exact .dotSlash _
  case h_4 notSlash notDot notDotSlash =>
    dsimp only
    have joined := joinParts_parts path.toList
    cases present : parts path.toList with
    | nil => exact .nothing
    | cons first rest =>
      refine .named (Bool.eq_false_iff.mpr fun void => ?_) rest
      rw [present] at joined
      obtain ⟨after, starts, last⟩ := joinParts_first first rest
      rw [joined] at starts
      -- a first part that names nothing would be a head, or the body would have no part
      rcases isVoid_eq_true_iff.mp void with rfl | rfl
      · rcases last with rfl | ⟨more, rfl⟩
        · rw [starts] at present
          cases present
        · exact notSlash more starts
      · rcases last with rfl | ⟨more, rfl⟩
        · exact notDot starts
        · exact notDotSlash more starts

/-- A path is read as it is put together from a head and parts. -/
theorem headAndBody_of_opens {path : String} {head : List Char} {list : List (List Char)}
    (opens : Opens head list) (free : ∀ part ∈ list, '/' ∉ part)
    (text : path.toList = head ++ joinParts list) : headAndBody path = (head, joinParts list) := by
  unfold headAndBody
  cases opens with
  | root | dot | nothing => rw [text]; rfl
  | dotSlash rest =>
    obtain ⟨after, starts, rfl | ⟨more, rfl⟩⟩ := joinParts_first [] rest
    · rw [text, starts]; rfl
    · rw [text, starts]; rfl
  | @named first name rest =>
    have noSlash := free first List.mem_cons_self
    obtain ⟨after, starts, last⟩ := joinParts_first first rest
    rw [List.nil_append] at text
    rw [← text] at starts ⊢
    -- no head is read off a part that names something and has no slash
    cases first with
    | nil => cases name
    | cons c first =>
      split
      case h_1 slash =>
        cases starts.symm.trans slash
        exact absurd List.mem_cons_self noSlash
      case h_2 dot =>
        obtain ⟨rfl, nothing⟩ := List.cons.inj (starts.symm.trans dot)
        obtain ⟨rfl, rfl⟩ := List.append_eq_nil_iff.mp nothing
        cases name
      case h_3 dotSlash =>
        obtain ⟨rfl, same⟩ := List.cons.inj (starts.symm.trans dotSlash)
        cases first with
        | nil => cases name
        | cons d first =>
          cases same
          exact absurd (List.mem_cons_of_mem _ List.mem_cons_self) noSlash
      case h_4 => rfl

/-! The last name. -/

theorem trimParts_eq (list : List (List Char)) : trimParts list = list.rdropWhile isVoid :=
  rfl

theorem filter_trimParts (list : List (List Char)) :
    (trimParts list).filter (!isVoid ·) = list.filter (!isVoid ·) := by
  induction list using List.reverseRecOn with
  | nil => rfl
  | append_singleton list part ih =>
    rw [trimParts_eq] at ih ⊢
    cases void : isVoid part with
    | true => rw [List.rdropWhile_concat_pos _ _ _ void, ih, List.filter_append]; simp [void]
    | false => rw [List.rdropWhile_concat_neg _ _ _ (by simp [void])]

theorem trimParts_concat {part : List Char} (named : isVoid part = false)
    (list : List (List Char)) : trimParts (list ++ [part]) = list ++ [part] := by
  rw [trimParts_eq, List.rdropWhile_concat_neg _ _ _ (by simp [named])]

theorem named_of_trimParts {list front : List (List Char)} {part : List Char}
    (same : trimParts list = front ++ [part]) : isVoid part = false := by
  cases void : isVoid part with
  | false => rfl
  | true =>
    -- trimming once more would drop the part
    have again : trimParts (trimParts list) = trimParts list := List.rdropWhile_idempotent isVoid list
    rw [same, trimParts_eq, List.rdropWhile_concat_pos _ _ _ void] at again
    have shorter := (List.rdropWhile_prefix isVoid front).length_le
    rw [again, List.length_append, List.length_singleton] at shorter
    omega

/-- The parts of a path: some before the last name, and the name. -/
structure EndsIn (path : String) (front : List (List Char)) (name : String) : Prop where
  present : trimParts (parts (headAndBody path).2) = front ++ [name.toList]
  named : isVoid name.toList = false

theorem exists_endsIn {path name : String} (last : fileName? path = some name) :
    ∃ front, EndsIn path front name := by
  have ends : (steps path).getLast? = some name := by
    unfold fileName? at last
    split at last
    case h_1 => cases last
    case h_2 => exact last
  unfold steps at ends
  rw [← filter_trimParts] at ends
  rcases List.eq_nil_or_concat (trimParts (parts (headAndBody path).2)) with
    empty | ⟨front, part, same⟩
  · rw [empty] at ends
    cases ends
  · rw [List.concat_eq_append] at same
    have named := named_of_trimParts same
    rw [same, List.filter_append, List.filter_cons_of_pos (by simp [named]), List.filter_nil,
      List.map_append, List.map_singleton, List.getLast?_concat] at ends
    cases ends
    refine ⟨front, ?_, ?_⟩
    · rw [same, String.toList_ofList]
    · rw [String.toList_ofList, named]

section

variable {path name : String} {front : List (List Char)}

theorem EndsIn.within (ends : EndsIn path front name) :
    front ++ [name.toList] <+: parts (headAndBody path).2 := by
  rw [← ends.present]
  exact List.rdropWhile_prefix isVoid _

theorem EndsIn.parent? (ends : EndsIn path front name) :
    parent? path = some (String.ofList ((headAndBody path).1 ++ joinParts (trimParts front))) := by
  unfold Path.parent?
  simp only [ends.present]
  split
  case h_1 nothing => cases (List.append_eq_nil_iff.mp nothing).2
  case h_2 => rw [List.dropLast_concat]

theorem EndsIn.steps (ends : EndsIn path front name) :
    steps path = (front.filter (!isVoid ·)).map String.ofList ++ [name] := by
  unfold Path.steps
  rw [← filter_trimParts, ends.present]
  simp [ends.named]

end

theorem Opens.other {head first : List Char} {rest other : List (List Char)}
    (opens : Opens head (first :: rest)) : Opens head (first :: other) := by
  cases opens with
  | root => exact .root _
  | dotSlash => exact .dotSlash other
  | named name => exact .named name other

/-- The path in the directory of another that has a name of its own. -/
def beside (path name : String) : String :=
  join ((parent? path).getD "") name

/-- A name for an entry of a directory. -/
structure Plain (name : String) : Prop where
  noSlash : '/' ∉ name.toList
  named : isVoid name.toList = false
  notUp : name ≠ ".."

theorem plain_of_fileName? {path name : String} (last : fileName? path = some name) : Plain name := by
  obtain ⟨front, ends⟩ := exists_endsIn last
  refine ⟨?_, ends.named, ?_⟩
  · exact not_mem_of_mem_parts (ends.within.subset (List.mem_append_right _ List.mem_cons_self))
  · rintro rfl
    unfold fileName? at last
    rw [ends.steps, List.getLast?_concat] at last
    cases last

theorem Plain.isAbsolute {name : String} (plain : Plain name) : isAbsolute name = false := by
  rw [Path.isAbsolute, beq_eq_false_iff_ne]
  intro slash
  exact plain.noSlash (List.mem_of_head? slash)

section

variable {path old name directory : String} {front list : List (List Char)} {head last : List Char}

theorem join_eq_append (plain : Plain name)
    (opened : directory.isEmpty || directory.toList.getLast? == some '/') :
    join directory name = directory ++ name := by
  rw [join, plain.isAbsolute, if_neg Bool.false_ne_true, if_pos opened]

theorem join_eq_slash (plain : Plain name) {c : Char}
    (ends : directory.toList.getLast? = some c) (noSlash : c ≠ '/') :
    (join directory name).toList = directory.toList ++ '/' :: name.toList := by
  have closed : (directory.isEmpty || directory.toList.getLast? == some '/') = false := by
    rw [ends, Bool.or_eq_false_iff]
    refine ⟨Bool.eq_false_iff.mpr fun empty => ?_, ?_⟩
    · rw [String.isEmpty_iff.mp empty] at ends
      cases ends
    · exact beq_eq_false_iff_ne.mpr fun same => noSlash (Option.some.inj same)
  rw [join, plain.isAbsolute, if_neg Bool.false_ne_true, closed, if_neg Bool.false_ne_true]
  simp

/-- A directory whose text ends in a name is closed by a slash. -/
theorem toList_join (plain : Plain name) (noSlash : '/' ∉ last) (named : isVoid last = false)
    (text : directory.toList = head ++ joinParts (list ++ [last])) :
    (join directory name).toList = head ++ joinParts (list ++ [last] ++ [name.toList]) := by
  obtain ⟨c, final⟩ : ∃ c, last.getLast? = some c := by
    cases last with
    | nil => cases named
    | cons c rest => exact ⟨_, List.getLast?_eq_some_getLast (List.cons_ne_nil c rest)⟩
  have ends : directory.toList.getLast? = some c := by
    rw [text]
    cases list with
    | nil => rw [List.nil_append, joinParts_singleton, List.getLast?_append, final]; rfl
    | cons first list =>
      rw [joinParts_concat (List.cons_ne_nil first list), List.getLast?_append, List.getLast?_append,
        List.getLast?_cons, final]
      rfl
  have noEnd : c ≠ '/' := by
    rintro rfl
    exact noSlash (List.mem_of_getLast? final)
  rw [join_eq_slash plain ends noEnd, text,
    joinParts_concat (List.append_ne_nil_of_right_ne_nil _ (List.cons_ne_nil _ _)), List.append_assoc]

/-- A name is put behind the text of a directory so that the directory is read as before. -/
theorem Opens.join {present trimmed : List (List Char)} (opens : Opens head present)
    (above : trimmed <+: present) (whole : trimParts trimmed = trimmed)
    (free : ∀ part ∈ present, '/' ∉ part) (plain : Plain name)
    (text : directory.toList = head ++ joinParts trimmed) :
    ∃ before, (join directory name).toList = head ++ joinParts (before ++ [name.toList]) ∧
      Opens head (before ++ [name.toList]) ∧ (∀ part ∈ before, '/' ∉ part) ∧
      trimParts before = trimmed := by
  rcases List.eq_nil_or_concat trimmed with rfl | ⟨list, last, same⟩
  · rw [joinParts_nil, List.append_nil] at text
    have alone (part : List Char) (found : part ∈ ([] : List (List Char))) : '/' ∉ part :=
      nomatch found
    cases opens with
    | root =>
      refine ⟨[], ?_, .root _, alone, rfl⟩
      rw [join_eq_append plain (by rw [text]; simp), String.toList_append, text]
      simp
    | dot | dotSlash =>
      refine ⟨[[]], ?_, .dotSlash _, by simp, rfl⟩
      have joined : joinParts ([[]] ++ [name.toList]) = '/' :: name.toList :=
        (joinParts_cons [] name.toList []).trans (by rw [joinParts_singleton, List.nil_append])
      rw [join_eq_slash plain (by rw [text]; rfl) (by decide), text, joined]
    | nothing | named =>
      refine ⟨[], ?_, .named plain.named [], alone, rfl⟩
      rw [join_eq_append plain (by rw [String.toList_eq_nil_iff.mp text]; rfl), String.toList_append,
        text]
      simp
  · rw [List.concat_eq_append] at same
    subst same
    have opensThere : Opens head (list ++ [last] ++ [name.toList]) := by
      obtain ⟨rest, rfl⟩ := above
      cases list <;> exact opens.other
    have freeThere (part : List Char) (found : part ∈ list ++ [last]) : '/' ∉ part :=
      free part (above.subset found)
    have noSlash := freeThere last (List.mem_append_right _ List.mem_cons_self)
    exact ⟨list ++ [last], toList_join plain noSlash (named_of_trimParts whole) text, opensThere,
      freeThere, whole⟩

theorem parts_joinParts (free : ∀ part ∈ list, '/' ∉ part) (plain : Plain name) :
    parts (joinParts (list ++ [name.toList])) = list ++ [name.toList] := by
  have proper : list ++ [name.toList] ≠ [] :=
    List.append_ne_nil_of_right_ne_nil _ (List.cons_ne_nil _ _)
  have freeAll : ∀ part ∈ list ++ [name.toList], '/' ∉ part := by
    intro part found
    rcases List.mem_append.mp found with before | last
    · exact free part before
    · rw [List.mem_singleton.mp last]
      exact plain.noSlash
  have split := splitAll_joinParts proper freeAll
  unfold parts
  rw [split, if_neg]
  -- an empty text would have one part, and that part no name
  intro empty
  rw [List.isEmpty_iff.mp empty] at split
  cases list with
  | nil => cases plain.named.symm.trans (congrArg isVoid (List.cons.inj split).1.symm)
  | cons first list =>
    have longer := congrArg List.length split
    simp [Text.splitAll] at longer

/-- The path beside another has the same head, and parts before the name that trim to the same. -/
theorem EndsIn.beside (ends : EndsIn path front old) (plain : Plain name) :
    ∃ before, EndsIn (beside path name) before name ∧
      (headAndBody (beside path name)).1 = (headAndBody path).1 ∧
      trimParts before = trimParts front := by
  have free : ∀ part ∈ parts (headAndBody path).2, '/' ∉ part := fun _ => not_mem_of_mem_parts
  have above : trimParts front <+: parts (headAndBody path).2 :=
    (List.rdropWhile_prefix isVoid front).trans ((List.prefix_append front _).trans ends.within)
  obtain ⟨before, text, opens, freeBefore, same⟩ :=
    (opens_headAndBody path).join above (List.rdropWhile_idempotent isVoid front) free plain
      String.toList_ofList
  have directory : Path.beside path name =
      Path.join (String.ofList ((headAndBody path).1 ++ joinParts (trimParts front))) name := by
    rw [Path.beside, ends.parent?, Option.getD_some]
  rw [← directory] at text
  have split := parts_joinParts freeBefore plain
  have freeAll : ∀ part ∈ before ++ [name.toList], '/' ∉ part := by
    rw [← split]
    exact fun _ => not_mem_of_mem_parts
  have read := headAndBody_of_opens opens freeAll text
  refine ⟨before, ⟨?_, plain.named⟩, by rw [read], same⟩
  rw [read, split, trimParts_concat plain.named]

/-- The path beside another lies in the same directory. -/
theorem parent?_beside (last : fileName? path = some old) (plain : Plain name) :
    parent? (beside path name) = parent? path := by
  obtain ⟨front, ends⟩ := exists_endsIn last
  obtain ⟨before, endsThere, head, same⟩ := ends.beside plain
  rw [ends.parent?, endsThere.parent?, head, same]

/-- It takes the same steps, but for the last. -/
theorem steps_beside (last : fileName? path = some old) (plain : Plain name) :
    ∃ above, steps path = above ++ [old] ∧ steps (beside path name) = above ++ [name] := by
  obtain ⟨front, ends⟩ := exists_endsIn last
  obtain ⟨before, endsThere, head, same⟩ := ends.beside plain
  refine ⟨_, ends.steps, ?_⟩
  rw [endsThere.steps, ← filter_trimParts before, same, filter_trimParts]

theorem isAbsolute_iff : isAbsolute path = true ↔ (headAndBody path).1 = ['/'] := by
  rw [isAbsolute, beq_iff_eq]
  unfold headAndBody
  split
  case h_1 rest slash => simp [slash]
  case h_2 dot => simp [dot]
  case h_3 rest dotSlash => simp [dotSlash]
  case h_4 notSlash _ _ =>
    refine iff_of_false (fun slash => ?_) (by simp)
    obtain ⟨rest, same⟩ := List.head?_eq_some_iff.mp slash
    exact notSlash rest same

theorem isAbsolute_beside (last : fileName? path = some old) (plain : Plain name) :
    isAbsolute (beside path name) = isAbsolute path := by
  obtain ⟨front, ends⟩ := exists_endsIn last
  obtain ⟨before, endsThere, head, same⟩ := ends.beside plain
  rw [Bool.eq_iff_iff, isAbsolute_iff, isAbsolute_iff, head]

end

end ClassAtlas.Path
