import ClassAtlas.Proofs.Package.Index

/-!
The positions of a package index in step with its groups. The groups and the positions are changed
apart from each other, and a list that is loaded may repeat names; whatever is done to an index, the
positions stay those of the last group of each name.
-/

namespace ClassAtlas.PackageIndex

/-- What can be done to an index. -/
inductive Change where
  | new
  | load (groups : List PackageGroup)
  | entry (name : String)
  | push (name member : String)

def Change.apply (index : PackageIndex) : Change → PackageIndex
  | .new => {}
  | .load groups => ofList groups
  | .entry name => index.entry name
  | .push name member => index.push name member

/-- The index that a sequence of changes leads to. -/
def run (changes : List Change) : PackageIndex :=
  changes.foldl Change.apply {}

/-- The name stands at the position and nowhere behind it. -/
def LastAt (names : List String) (name : String) (position : Nat) : Prop :=
  names[position]? = some name ∧ ∀ later, position < later → names[later]? ≠ some name

/-- The positions follow the groups, and with them go look-ups and entries. -/
structure InStep (index : PackageIndex) : Prop where
  /-- No name has two positions. -/
  distinct : (index.positions.map (·.1)).Nodup
  names (name : String) : name ∈ index.positions.map (·.1) ↔ name ∈ index.groups.map (·.name)
  last (name : String) (position : Nat) : (name, position) ∈ index.positions →
    position < index.groups.length ∧ LastAt (index.groups.map (·.name)) name position
  /-- A look-up of a name with a position finds a group there. -/
  found (name : String) (position : Nat) : index.position? name = some position →
    ∃ group, index.groups[position]? = some group ∧ index.get? name = some group
  /-- An entry has a position with a group, and what is pushed goes to that group. -/
  entered (name : String) : ∃ position group,
    (index.entry name).position? name = some position ∧
      (index.entry name).groups[position]? = some group ∧
      ∀ member, (index.push name member).groups =
        (index.entry name).groups.set position ⟨group.name, group.members ++ [member]⟩
  known (name : String) : name ∈ index.groups.map (·.name) → index.entry name = index
  fresh (name : String) : name ∉ index.groups.map (·.name) →
    (index.entry name).groups = index.groups ++ [⟨name, []⟩]
  reloaded : ofList index.toList = index

section Last

variable {names : List String} {name : String} {position : Nat}

theorem lastAt_concat (last : String) :
    LastAt (names ++ [last]) name position ↔
      if name = last then position = names.length else LastAt names name position := by
  have atEnd : (names ++ [last])[names.length]? = some last := List.getElem?_concat_length
  by_cases same : name = last
  · subst same
    rw [if_pos rfl]
    constructor
    · rintro ⟨here, final⟩
      have inside := (List.getElem?_eq_some_iff.mp here).1
      rw [List.length_append, List.length_singleton] at inside
      have reached : ¬ position < names.length := fun early => final _ early atEnd
      omega
    · rintro rfl
      refine ⟨atEnd, ?_⟩
      intro later behind there
      have inside := (List.getElem?_eq_some_iff.mp there).1
      rw [List.length_append, List.length_singleton] at inside
      omega
  · rw [if_neg same]
    have apart (place : Nat) : (names ++ [last])[place]? = some name ↔ names[place]? = some name := by
      rw [List.getElem?_append]
      split
      case isTrue inside => rfl
      case isFalse outside =>
        rw [List.getElem?_eq_none (Nat.le_of_not_lt outside)]
        simp [List.getElem?_singleton, Ne.symm same]
    simp only [LastAt, ne_eq, apart]

theorem LastAt.lt (last : LastAt names name position) : position < names.length :=
  (List.getElem?_eq_some_iff.mp last.1).1

theorem LastAt.mem (last : LastAt names name position) : name ∈ names :=
  List.mem_of_getElem? last.1

theorem exists_lastAt (listed : name ∈ names) : ∃ position, LastAt names name position := by
  induction names using List.reverseRecOn with
  | nil => cases listed
  | append_singleton names last ih =>
      simp only [lastAt_concat]
      by_cases same : name = last
      · exact ⟨names.length, by rw [if_pos same]⟩
      · simp only [if_neg same]
        rw [List.mem_append, List.mem_singleton] at listed
        exact ih (listed.resolve_right same)

end Last

theorem mem_setPosition (name other : String) (position place : Nat)
    (positions : List (String × Nat)) :
    (other, place) ∈ setPosition name position positions ↔
      if other = name then place = position else (other, place) ∈ positions := by
  unfold setPosition
  by_cases same : other = name
  · simp [same]
  · simp [same]

theorem mem_positions_ofList (groups : List PackageGroup) (name : String) (position : Nat) :
    (name, position) ∈ (ofList groups).positions ↔
      LastAt (groups.map (·.name)) name position := by
  induction groups using List.reverseRecOn with
  | nil => simp [ofList, positionsFrom, LastAt]
  | append_singleton groups last ih =>
      have added : (ofList (groups ++ [last])).positions =
          setPosition last.name groups.length (ofList groups).positions := by
        simp only [ofList, positionsFrom_concat, Nat.zero_add]
      rw [added, mem_setPosition, ih, List.map_append, List.map_singleton, lastAt_concat,
        List.length_map]

theorem distinct_positionsFrom (start : Nat) {positions : List (String × Nat)}
    (distinct : (positions.map (·.1)).Nodup) (groups : List PackageGroup) :
    ((positionsFrom start positions groups).map (·.1)).Nodup := by
  induction groups generalizing start positions with
  | nil => exact distinct
  | cons group groups ih =>
      apply ih
      unfold setPosition
      rw [List.map_cons, List.nodup_cons]
      constructor
      · simp
      · exact distinct.sublist (List.filter_sublist.map _)

/-- Positions are those of names; members play no part. -/
theorem positionsFrom_congr {groups others : List PackageGroup}
    (same : groups.map (·.name) = others.map (·.name)) (start : Nat)
    (positions : List (String × Nat)) :
    positionsFrom start positions groups = positionsFrom start positions others := by
  induction groups generalizing others start positions with
  | nil =>
      obtain rfl := List.map_eq_nil_iff.mp same.symm
      rfl
  | cons group groups ih =>
      obtain ⟨other, others, rfl, named, rest⟩ := List.map_eq_cons_iff.mp same.symm
      rw [positionsFrom, positionsFrom, named]
      exact ih rest.symm _ _

theorem exists_position?_of_mem {groups : List PackageGroup} {name : String}
    (listed : name ∈ groups.map (·.name)) :
    ∃ position group, (ofList groups).position? name = some position ∧
      groups[position]? = some group := by
  cases found : (ofList groups).position? name with
  | none => exact absurd listed (position?_ofList_eq_none_iff.mp found)
  | some position =>
      obtain ⟨group, there, -⟩ := getElem?_of_position? found
      exact ⟨position, group, rfl, there⟩

/-- An entry of a list that was loaded is loaded with it. -/
theorem exists_entry_ofList (groups : List PackageGroup) (name : String) :
    ∃ next, (ofList groups).entry name = ofList next ∧ name ∈ next.map (·.name) := by
  by_cases present : name ∈ groups.map (·.name)
  · exact ⟨groups, entry_ofList_known present, present⟩
  · exact ⟨groups ++ [⟨name, []⟩], entry_ofList_new present, by simp⟩

theorem exists_modify_ofList (groups : List PackageGroup) (name : String)
    {f : PackageGroup → PackageGroup} (named : ∀ group, (f group).name = group.name) :
    ∃ next, (ofList groups).modify name f = ofList next := by
  obtain ⟨next, entered, -⟩ := exists_entry_ofList groups name
  unfold modify
  simp only [entered]
  split
  case h_1 position found =>
    have same : next.map (·.name) = (next.modify position f).map (·.name) := by
      apply List.ext_getElem?
      intro place
      rw [List.getElem?_map, List.getElem?_map, List.getElem?_modify]
      cases next[place]? with
      | none => simp
      | some group => by_cases here : position = place <;> simp [here, named]
    refine ⟨next.modify position f, ?_⟩
    simp only [ofList, positionsFrom_congr same]
  case h_2 => exact ⟨next, rfl⟩

/-- Every change leads to an index that could have been loaded. -/
theorem Change.exists_apply_ofList (groups : List PackageGroup) (change : Change) :
    ∃ next, change.apply (ofList groups) = ofList next := by
  cases change with
  | new => exact ⟨[], rfl⟩
  | load next => exact ⟨next, rfl⟩
  | entry name =>
      obtain ⟨next, entered, -⟩ := exists_entry_ofList groups name
      exact ⟨next, entered⟩
  | push name member => exact exists_modify_ofList groups name fun _ => rfl

theorem exists_run_eq_ofList (changes : List Change) : ∃ groups, run changes = ofList groups := by
  induction changes using List.reverseRecOn with
  | nil => exact ⟨[], rfl⟩
  | append_singleton changes change ih =>
      obtain ⟨groups, before⟩ := ih
      have step : run (changes ++ [change]) = change.apply (run changes) := by
        unfold run
        rw [List.foldl_append]
        rfl
      rw [step, before]
      exact change.exists_apply_ofList groups

theorem inStep_ofList (groups : List PackageGroup) : InStep (ofList groups) where
  distinct := by
    apply distinct_positionsFrom
    exact List.nodup_nil
  names name := by
    constructor
    · intro held
      obtain ⟨⟨_, position⟩, placed, rfl⟩ := List.mem_map.mp held
      exact ((mem_positions_ofList groups _ position).mp placed).mem
    · intro listed
      obtain ⟨position, last⟩ := exists_lastAt listed
      exact List.mem_map_of_mem ((mem_positions_ofList groups name position).mpr last)
  last name position placed := by
    have last := (mem_positions_ofList groups name position).mp placed
    refine ⟨?_, last⟩
    have inside := last.lt
    rwa [List.length_map] at inside
  found name position placed := by
    obtain ⟨group, there, -⟩ := getElem?_of_position? placed
    have held : (ofList groups).groups[position]? = some group := there
    exact ⟨group, there, by simp [get?, placed, held]⟩
  entered name := by
    obtain ⟨next, entered, listed⟩ := exists_entry_ofList groups name
    obtain ⟨position, group, found, there⟩ := exists_position?_of_mem listed
    rw [entered]
    refine ⟨position, group, found, there, ?_⟩
    intro member
    have pushed : ((ofList groups).push name member).groups = next.modify position
        fun group => { group with members := group.members ++ [member] } := by
      simp only [push, modify, entered, found]
      rfl
    rw [pushed, List.modify_eq_set_getElem?, there]
    rfl
  known _ present := entry_ofList_known present
  fresh _ absent := congrArg PackageIndex.groups (entry_ofList_new absent)
  reloaded := rfl

/-- Along every sequence of changes the positions of an index are in step with its groups. -/
theorem run_in_step (changes : List Change) : InStep (run changes) := by
  obtain ⟨groups, loaded⟩ := exists_run_eq_ofList changes
  rw [loaded]
  exact inStep_ofList groups

/-- Of two groups of one name the later one has the position and takes the member. -/
example : run [.load [⟨"a", ["a/X"]⟩, ⟨"b", []⟩, ⟨"a", []⟩], .entry "c", .push "a" "a/Y"] =
    ⟨[⟨"a", ["a/X"]⟩, ⟨"b", []⟩, ⟨"a", ["a/Y"]⟩, ⟨"c", []⟩], [("c", 3), ("a", 2), ("b", 1)]⟩ := by
  decide

end ClassAtlas.PackageIndex
