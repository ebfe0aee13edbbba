import ClassAtlas.Package.Index
import ClassAtlas.Proofs.NameSet
import Mathlib.Data.List.Induction

/-!
Look-ups in a package index that was made of a list of groups. The positions are those of the last
group of each name, so a name is found exactly if some group has it.
-/

namespace ClassAtlas.PackageIndex

theorem lookup_setPosition (name other : String) (position : Nat) (positions : List (String × Nat)) :
    (setPosition name position positions).lookup other =
      if other = name then some position else positions.lookup other := by
  unfold setPosition
  by_cases same : other = name
  · rw [if_pos same, List.lookup_cons, beq_iff_eq.mpr same]
  · rw [if_neg same, List.lookup_cons, beq_eq_false_iff_ne.mpr same]
    exact NameMap.lookup_filter_of_ne same positions

theorem positionsFrom_concat (start : Nat) (positions : List (String × Nat))
    (groups : List PackageGroup) (last : PackageGroup) :
    positionsFrom start positions (groups ++ [last]) =
      setPosition last.name (start + groups.length) (positionsFrom start positions groups) := by
  induction groups generalizing start positions with
  | nil => rfl
  | cons group groups ih =>
      rw [List.cons_append, positionsFrom, ih, positionsFrom, List.length_cons, Nat.add_right_comm,
        Nat.add_assoc]

theorem position?_ofList_concat (groups : List PackageGroup) (last : PackageGroup) (name : String) :
    (ofList (groups ++ [last])).position? name =
      if name = last.name then some groups.length else (ofList groups).position? name := by
  unfold position? ofList
  rw [positionsFrom_concat, lookup_setPosition, Nat.zero_add]

theorem position?_ofList_eq_none_iff {groups : List PackageGroup} {name : String} :
    (ofList groups).position? name = none ↔ name ∉ groups.map (·.name) := by
  induction groups using List.reverseRecOn with
  | nil => simp [ofList, positionsFrom, position?]
  | append_singleton groups last ih =>
      rw [position?_ofList_concat, List.map_append, List.mem_append, not_or, ← ih]
      by_cases same : name = last.name
      · simp [same]
      · simp [same]

/-- A position is that of a group of the name. -/
theorem getElem?_of_position? {groups : List PackageGroup} {name : String} {position : Nat}
    (found : (ofList groups).position? name = some position) :
    ∃ group, groups[position]? = some group ∧ group.name = name := by
  induction groups using List.reverseRecOn with
  | nil => cases found
  | append_singleton groups last ih =>
      rw [position?_ofList_concat] at found
      by_cases same : name = last.name
      · rw [if_pos same] at found
        cases found
        exact ⟨last, List.getElem?_concat_length, same.symm⟩
      · rw [if_neg same] at found
        obtain ⟨group, there, named⟩ := ih found
        have inside : position < groups.length := (List.getElem?_eq_some_iff.mp there).1
        exact ⟨group, by rw [List.getElem?_append_left inside, there], named⟩

theorem get?_ofList_isSome_iff {groups : List PackageGroup} {name : String} :
    ((ofList groups).get? name).isSome ↔ name ∈ groups.map (·.name) := by
  cases found : (ofList groups).position? name with
  | none =>
      have absent := position?_ofList_eq_none_iff.mp found
      simp [get?, found, absent]
  | some position =>
      have present : name ∈ groups.map (·.name) := by
        by_contra absent
        rw [position?_ofList_eq_none_iff.mpr absent] at found
        cases found
      obtain ⟨group, there, -⟩ := getElem?_of_position? found
      have held : (ofList groups).groups[position]? = some group := there
      simp [get?, found, held, present]

/-- Where names are not repeated, every group is found under its name. -/
theorem get?_ofList_of_mem {groups : List PackageGroup} (distinct : (groups.map (·.name)).Nodup)
    {group : PackageGroup} (member : group ∈ groups) :
    (ofList groups).get? group.name = some group := by
  have present : group.name ∈ groups.map (·.name) := List.mem_map_of_mem member
  obtain ⟨found, held⟩ := Option.isSome_iff_exists.mp (get?_ofList_isSome_iff.mpr present)
  obtain ⟨position, placed, there⟩ := Option.bind_eq_some_iff.mp held
  obtain ⟨other, same, named⟩ := getElem?_of_position? placed
  have isOther : other = found := Option.some.inj (same.symm.trans there)
  rw [isOther] at same named
  have inside : found ∈ groups := List.mem_of_getElem? same
  rw [held, List.inj_on_of_nodup_map distinct inside member named]

theorem entry_ofList_known {groups : List PackageGroup} {name : String}
    (present : name ∈ groups.map (·.name)) : (ofList groups).entry name = ofList groups := by
  unfold entry
  cases found : (ofList groups).position? name with
  | none => exact absurd present (position?_ofList_eq_none_iff.mp found)
  | some position => rfl

theorem entry_ofList_new {groups : List PackageGroup} {name : String}
    (isNew : name ∉ groups.map (·.name)) :
    (ofList groups).entry name = ofList (groups ++ [⟨name, []⟩]) := by
  rw [entry, position?_ofList_eq_none_iff.mpr isNew]
  unfold ofList
  rw [positionsFrom_concat, Nat.zero_add]

/-- A name that is new comes last. -/
theorem modify_ofList_new {groups : List PackageGroup} {name : String}
    (isNew : name ∉ groups.map (·.name)) {f : PackageGroup → PackageGroup}
    (named : (f ⟨name, []⟩).name = name) :
    (ofList groups).modify name f = ofList (groups ++ [f ⟨name, []⟩]) := by
  have placed : (ofList (groups ++ [⟨name, []⟩])).position? name = some groups.length := by
    rw [position?_ofList_concat, if_pos rfl]
  have changed (made : PackageGroup) :
      (groups ++ [made]).modify groups.length f = groups ++ [f made] := by
    rw [List.modify_eq_take_cons_drop (by simp)]
    simp
  simp only [modify, entry_ofList_new isNew, placed]
  unfold ofList
  simp only [changed, positionsFrom_concat, named]

end ClassAtlas.PackageIndex
